import Mathlib.Data.List.Forall2

namespace Sequencer

variable {α β γ : Type}

/-- A list around one of its entries, which can be replaced. -/
theorem exists_split {l : List α} {i : Nat} {a : α} (h : l[i]? = some a) :
    ∃ before after, l = before ++ a :: after ∧ ∀ b, l.set i b = before ++ b :: after := by
  obtain ⟨hi, rfl⟩ := List.getElem?_eq_some_iff.mp h
  refine ⟨l.take i, l.drop (i + 1), ?_, fun b => ?_⟩
  · rw [List.getElem_cons_drop, List.take_append_drop]
  · rw [List.set_eq_take_append_cons_drop, if_pos hi]

/-- In a list in which `p` is never true again once it was not, what is left has nothing in `p`. -/
theorem not_of_mem_dropWhile {R : α → α → Prop} {p : α → Bool}
    (hp : ∀ a b, R a b → p b = true → p a = true) {l : List α} (h : l.Pairwise R) :
    ∀ x ∈ l.dropWhile p, p x = false := by
  induction l with
  | nil => simp
  | cons a l ih =>
    obtain ⟨hfirst, hrest⟩ := List.pairwise_cons.mp h
    rw [List.dropWhile_cons]
    split
    · exact ih hrest
    case isFalse ha =>
      intro x hx
      rcases List.mem_cons.mp hx with rfl | hx
      · exact Bool.eq_false_iff.mpr ha
      · exact Bool.eq_false_iff.mpr fun htrue => ha (hp a x (hfirst x hx) htrue)

/-- Lists are the same up to order when their parts with the same key are. -/
theorem perm_of_filter [BEq β] [LawfulBEq β] (key : α → β) {xs ys : List α}
    (h : ∀ b, xs.filter (key · == b) = ys.filter (key · == b)) : xs.Perm ys := by
  classical
  apply List.perm_iff_count.mpr
  intro a
  have hcount : ∀ l : List α, (l.filter (key · == key a)).count a = l.count a := fun l =>
    List.count_filter (by simp)
  rw [← hcount xs, h, hcount ys]

theorem exists_of_forall₂ {p : α → β → Prop} {xs : List α} {ys : List β}
    (h : List.Forall₂ p xs ys) {y : β} (hy : y ∈ ys) : ∃ x ∈ xs, p x y := by
  induction h with
  | nil => cases hy
  | cons hz _ ih =>
    rcases List.mem_cons.mp hy with rfl | hold
    · exact ⟨_, List.mem_cons_self, hz⟩
    · obtain ⟨x, hx, hp⟩ := ih hold
      exact ⟨x, List.mem_cons_of_mem _ hx, hp⟩

theorem forall₂_of_map_eq {f : α → β} {xs ys : List α} (h : ys.map f = xs.map f) :
    List.Forall₂ (fun x y => f y = f x) xs ys := by
  have heq : List.Forall₂ (fun x y => y = x) (xs.map f) (ys.map f) := by
    rw [h]
    exact List.forall₂_same.mpr fun _ _ => rfl
  exact List.forall₂_map_left_iff.mp (List.forall₂_map_right_iff.mp heq)

theorem forall₂_comp {R : α → β → Prop} {S : β → γ → Prop} {xs : List α}
    {ys : List β} {zs : List γ} (h : List.Forall₂ R xs ys) (h' : List.Forall₂ S ys zs) :
    List.Forall₂ (fun x z => ∃ y, R x y ∧ S y z) xs zs := by
  induction h generalizing zs with
  | nil =>
    cases h'
    exact .nil
  | cons hr _ ih =>
    cases h' with
    | cons hs hrest => exact .cons ⟨_, hr, hs⟩ (ih hrest)

theorem forall₂_split {R : α → β → Prop} {xs ys : List α} {zs : List β}
    (h : List.Forall₂ R (xs ++ ys) zs) :
    ∃ us vs, List.Forall₂ R xs us ∧ List.Forall₂ R ys vs ∧ zs = us ++ vs := by
  refine ⟨zs.take xs.length, zs.drop xs.length, ?_, ?_, (List.take_append_drop ..).symm⟩
  · simpa using List.forall₂_take xs.length h
  · simpa using List.forall₂_drop xs.length h

end Sequencer
