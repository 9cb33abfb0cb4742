import Sequencer.Session

namespace Sequencer.Job

variable {α β : Type}

theorem run_bind (j : Job β) (k : β → Job α) (s : Session) :
    (j >>= k).run.run s =
      match j.run.run s with
      | (.ok b, s') => (k b).run.run s'
      | (.error e, s') => (.error e, s') := by
  change (match j.run.run s with | (r, s') => (ExceptT.bindCont k r) s') = _
  rcases j.run.run s with ⟨r, s'⟩
  cases r <;> rfl

theorem run_issue (c : Call) (s : Session) :
    (issue c).run.run s =
      (if (s.backend.issue c).1 then .ok () else .error (.backend c),
        { s with backend := (s.backend.issue c).2 }) := by
  have hget : (get : Job Session).run.run s = (.ok s, s) := rfl
  unfold issue
  rw [run_bind, hget]
  dsimp only
  rcases s.backend.issue c with ⟨accepted, backend⟩
  cases accepted <;> rfl

/-- Started where `pre` holds, the job ends where `post` holds of its answer, or it fails where
`fault` holds of its error. -/
def Triple (pre : Session → Prop) (j : Job α) (post : α → Session → Prop)
    (fault : Error → Session → Prop) : Prop :=
  ∀ s, pre s →
    match j.run.run s with
    | (.ok a, s') => post a s'
    | (.error e, s') => fault e s'

/-- What holds of the registry before the job holds afterwards, whether it is done or fails. -/
def Keeps (inv : Registry → Prop) (j : Job α) : Prop :=
  Triple (fun s => inv s.registry) j (fun _ s => inv s.registry) (fun _ s => inv s.registry)

namespace Triple

variable {pre : Session → Prop} {post : α → Session → Prop} {fault : Error → Session → Prop}

theorem pure {a : α} (h : ∀ s, pre s → post a s) : Triple pre (pure a : Job α) post fault :=
  h

/-- What holds anyway. -/
theorem always {j : Job α} (hpost : ∀ a s, post a s) (hfault : ∀ e s, fault e s) :
    Triple pre j post fault := by
  intro s _
  rcases j.run.run s with ⟨r, s'⟩
  cases r with
  | ok a => exact hpost a s'
  | error e => exact hfault e s'

theorem throw {e : Error} (h : ∀ s, pre s → fault e s) :
    Triple pre (throw e : Job α) post fault :=
  h

theorem bind {j : Job β} {k : β → Job α} {mid : β → Session → Prop}
    (hj : Triple pre j mid fault) (hk : ∀ b, Triple (mid b) (k b) post fault) :
    Triple pre (j >>= k) post fault := by
  intro s hs
  have hmid := hj s hs
  rw [run_bind]
  rcases hr : j.run.run s with ⟨r, s'⟩
  rw [hr] at hmid
  cases r with
  | ok b => exact hk b s' hmid
  | error e => exact hmid

theorem weaken {pre' : Session → Prop} {post' : α → Session → Prop}
    {fault' : Error → Session → Prop} {j : Job α} (h : Triple pre j post fault)
    (hpre : ∀ s, pre' s → pre s) (hpost : ∀ a s, post a s → post' a s)
    (hfault : ∀ e s, fault e s → fault' e s) : Triple pre' j post' fault' := by
  intro s hs
  have hend := h s (hpre s hs)
  rcases hr : j.run.run s with ⟨r, s'⟩
  rw [hr] at hend
  cases r with
  | ok a => exact hpost a s' hend
  | error e => exact hfault e s' hend

theorem readRegistry :
    Triple pre Job.readRegistry (fun r s => pre s ∧ r = s.registry) fault :=
  fun _ hs => ⟨hs, rfl⟩

/-- Reading changes nothing, whatever is made of what was read. -/
theorem readAny : Triple pre Job.readRegistry (fun _ => pre) fault := fun _ hs => hs

theorem adjust {f : Registry → Registry} {post : Unit → Session → Prop}
    (h : ∀ s, pre s → post () { s with registry := f s.registry }) :
    Triple pre (Job.adjust f) post fault :=
  h

theorem note {n : Notice} {post : Unit → Session → Prop}
    (h : ∀ s, pre s → post () { s with log := s.log ++ [n] }) :
    Triple pre (Job.note n) post fault :=
  h

theorem ofExcept {x : Except Error α} (hok : ∀ a s, x = .ok a → pre s → post a s)
    (herr : ∀ e s, x = .error e → pre s → fault e s) :
    Triple pre (ofExcept x : Job α) post fault := by
  intro s hs
  cases x with
  | ok a => exact hok a s rfl hs
  | error e => exact herr e s rfl hs

/-- The job goes on with a value that was computed, or fails. -/
theorem ofExcept_bind {x : Except Error β} {k : β → Job α}
    (herr : ∀ e s, x = .error e → pre s → fault e s)
    (hk : ∀ b, x = .ok b → Triple pre (k b) post fault) :
    Triple pre (MonadExcept.ofExcept x >>= k) post fault := by
  have hread : Triple pre (MonadExcept.ofExcept x) (fun b s => x = .ok b ∧ pre s) fault :=
    ofExcept (fun _ _ hb hs => ⟨hb, hs⟩) herr
  exact hread.bind fun b s hb => hk b hb.1 s hb.2

/-- A check that fails the job or lets it go on. -/
theorem guard {c : Prop} [Decidable c] {e : Error} {k : Unit → Job α}
    (herr : ∀ s, pre s → fault e s) (hk : ¬ c → Triple pre (k ()) post fault) :
    Triple pre (if c then (MonadExcept.throw e : Job Unit) >>= k else k ()) post fault := by
  split
  case isTrue => exact (throw herr).bind fun _ s hs => hs
  case isFalse hc => exact hk hc

/-- When it is known what a job reads, it goes on with that. -/
theorem readRegistry_bind {r : Registry} {k : Registry → Job α}
    (hr : ∀ s, pre s → s.registry = r) (hk : Triple pre (k r) post fault) :
    Triple pre (Job.readRegistry >>= k) post fault := by
  apply readRegistry.bind
  rintro r' s ⟨hs, rfl⟩
  rw [hr s hs]
  exact hk s hs

/-- What each step keeps, the whole round through a list keeps. -/
theorem forM {inv : Session → Prop} {l : List β} {f : β → Job Unit}
    (hf : ∀ b ∈ l, Triple inv (f b) (fun _ => inv) fault) :
    Triple inv (l.forM f) (fun _ => inv) fault := by
  induction l with
  | nil => exact pure fun _ hs => hs
  | cons b l ih =>
    exact (hf b List.mem_cons_self).bind fun _ => ih fun c hc => hf c (List.mem_cons_of_mem _ hc)

/-- How a job fails. -/
theorem fault_of_run {j : Job α} (h : Triple pre j post fault) {s s' : Session} {e : Error}
    (hs : pre s) (hrun : j.run.run s = (.error e, s')) : fault e s' := by
  have hend := h s hs
  rw [hrun] at hend
  exact hend

/-- A backend call is logged, and the job fails when the call was refused. -/
theorem issue {c : Call} {post : Unit → Session → Prop}
    (hok : ∀ s, pre s → (s.backend.issue c).1 = true →
      post () { s with backend := (s.backend.issue c).2 })
    (herr : ∀ s, pre s → (s.backend.issue c).1 = false →
      fault (.backend c) { s with backend := (s.backend.issue c).2 }) :
    Triple pre (Job.issue c) post fault := by
  intro s hs
  rw [run_issue]
  cases hi : (s.backend.issue c).1 with
  | true => exact hok s hs hi
  | false => exact herr s hs hi

end Triple

namespace Keeps

variable {inv : Registry → Prop}

theorem registry {j : Job α} (h : Keeps inv j) {s : Session} (hs : inv s.registry) :
    inv (j.run.run s).2.registry := by
  have hend := h s hs
  rcases hr : j.run.run s with ⟨r, s'⟩
  rw [hr] at hend
  cases r with
  | ok a => exact hend
  | error e => exact hend

theorem pure (a : α) : Keeps inv (Pure.pure a : Job α) := Triple.pure fun _ h => h

theorem throw (e : Error) : Keeps inv (MonadExcept.throw e : Job α) := Triple.throw fun _ h => h

theorem bind {j : Job β} {k : β → Job α} (hj : Keeps inv j) (hk : ∀ b, Keeps inv (k b)) :
    Keeps inv (j >>= k) :=
  Triple.bind hj hk

theorem readRegistry : Keeps inv Job.readRegistry := Triple.readAny

theorem note (n : Notice) : Keeps inv (Job.note n) := Triple.note fun _ h => h

theorem issue (c : Call) : Keeps inv (Job.issue c) :=
  Triple.issue (fun _ h _ => h) (fun _ h _ => h)

theorem ofExcept (x : Except Error α) : Keeps inv (MonadExcept.ofExcept x : Job α) :=
  Triple.ofExcept (fun _ _ _ h => h) (fun _ _ _ h => h)

/-- The job goes on with a value that was computed. -/
theorem ofExcept_bind {x : Except Error β} {k : β → Job α}
    (hk : ∀ b, x = .ok b → Keeps inv (k b)) : Keeps inv (MonadExcept.ofExcept x >>= k) := by
  cases x with
  | ok b => exact hk b rfl
  | error e => exact throw e

theorem requireCard (name : String) : Keeps inv (Job.requireCard name) :=
  readRegistry.bind fun _ => ofExcept _

theorem requireChannel (card channel : String) : Keeps inv (Job.requireChannel card channel) :=
  readRegistry.bind fun _ => ofExcept _

theorem adjust {f : Registry → Registry} (h : ∀ r, inv r → inv (f r)) :
    Keeps inv (Job.adjust f) :=
  Triple.adjust fun s => h s.registry

theorem adjustCard {name : String} {f : Card → Card}
    (h : ∀ r, inv r → inv (r.modifyCard name f)) : Keeps inv (Job.adjustCard name f) :=
  (requireCard name).bind fun _ => adjust h

theorem adjustChannel {card channel : String} {f : Timeline → Timeline}
    (h : ∀ r, inv r → inv (r.modifyChannel card channel f)) :
    Keeps inv (Job.adjustChannel card channel f) :=
  (requireChannel card channel).bind fun _ => adjust h

theorem edit {f : Registry → Registry} (h : ∀ r, inv r → inv (f r).withoutProgram) :
    Keeps inv (Job.edit f) :=
  adjust h

/-- A check that fails the job or lets it go on. -/
theorem guard {c : Prop} [Decidable c] {e : Error} {k : Unit → Job α} (hk : Keeps inv (k ())) :
    Keeps inv (if c then (MonadExcept.throw e : Job Unit) >>= k else k ()) := by
  split
  · exact (throw e).bind fun _ => hk
  · exact hk

theorem forM {l : List β} {f : β → Job Unit} (hf : ∀ b, Keeps inv (f b)) :
    Keeps inv (l.forM f) :=
  Triple.forM fun b _ => hf b

end Keeps

end Sequencer.Job
