import Sequencer.Proofs.Lists

namespace Sequencer

variable {ε α β γ δ : Type}

theorem exists_of_bind_ok {x : Except ε α} {f : α → Except ε β} {b : β}
    (h : x >>= f = .ok b) : ∃ a, x = .ok a ∧ f a = .ok b := by
  cases x with
  | error e => cases h
  | ok a => exact ⟨a, rfl, h⟩

theorem map_eq_error_iff {f : α → β} {x : Except ε α} {e : ε} :
    x.map f = .error e ↔ x = .error e := by
  cases x <;> simp [Except.map]

/-- A traversal that succeeds has one result for each entry. -/
theorem forall₂_of_mapM_ok {f : α → Except ε β} {xs : List α} {ys : List β}
    (h : xs.mapM f = .ok ys) : List.Forall₂ (fun x y => f x = .ok y) xs ys := by
  induction xs generalizing ys with
  | nil =>
    cases h
    exact .nil
  | cons x xs ih =>
    rw [List.mapM_cons] at h
    obtain ⟨z, hz, hrest⟩ := exists_of_bind_ok h
    obtain ⟨zs, hzs, heq⟩ := exists_of_bind_ok hrest
    cases heq
    exact .cons hz (ih hzs)

/-- Both are done, with results that belong together, or both fail. -/
inductive Agree (R : α → β → Prop) : Except ε α → Except ε β → Prop
  | ok {a : α} {b : β} (related : R a b) : Agree R (.ok a) (.ok b)
  | error (e e' : ε) : Agree R (.error e) (.error e')

namespace Agree

variable {R : α → β → Prop} {Q : γ → δ → Prop} {x : Except ε α} {y : Except ε β}

theorem imp {R' : α → β → Prop} (h : Agree R x y) (hR : ∀ a b, R a b → R' a b) : Agree R' x y := by
  cases h with
  | ok related => exact .ok (hR _ _ related)
  | error e e' => exact .error e e'

theorem and_ok {P : α → β → Prop} (h : Agree R x y) (hP : ∀ a b, x = .ok a → y = .ok b → P a b) :
    Agree (fun a b => R a b ∧ P a b) x y := by
  cases h with
  | ok related => exact .ok ⟨related, hP _ _ rfl rfl⟩
  | error e e' => exact .error e e'

theorem toOption_eq {x y : Except ε α} (h : Agree Eq x y) : y.toOption = x.toOption := by
  cases h with
  | ok related => rw [related]
  | error e e' => rfl

theorem of_eq {R : α → α → Prop} {x y : Except ε α} (hR : ∀ a, R a a) (h : y = x) :
    Agree R x y := by
  subst h
  cases y with
  | ok a => exact .ok (hR a)
  | error e => exact .error e e

theorem bind {f : α → Except ε γ} {g : β → Except ε δ} (h : Agree R x y)
    (hnext : ∀ a b, R a b → Agree Q (f a) (g b)) : Agree Q (x >>= f) (y >>= g) := by
  cases h with
  | ok related => exact hnext _ _ related
  | error e e' => exact .error e e'

theorem map {f : α → γ} {g : β → δ} (h : Agree R x y) (hnext : ∀ a b, R a b → Q (f a) (g b)) :
    Agree Q (x.map f) (y.map g) := by
  cases h with
  | ok related => exact .ok (hnext _ _ related)
  | error e e' => exact .error e e'

theorem mapM {f : α → Except ε γ} {g : β → Except ε δ} {xs : List α} {ys : List β}
    (h : List.Forall₂ (fun a b => Agree Q (f a) (g b)) xs ys) :
    Agree (List.Forall₂ Q) (xs.mapM f) (ys.mapM g) := by
  induction h with
  | nil => exact .ok .nil
  | cons hfirst _ ih =>
    rw [List.mapM_cons, List.mapM_cons]
    exact hfirst.bind fun c d hcd => ih.bind fun cs ds hrest => .ok (.cons hcd hrest)

end Agree

end Sequencer
