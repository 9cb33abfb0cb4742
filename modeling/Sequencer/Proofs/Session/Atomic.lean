import Sequencer.Proofs.Run.Faults
import Sequencer.Proofs.Session.Names
import Sequencer.Proofs.Session.Triple

namespace Sequencer.Job

variable {α β : Type}

/-- The backend was told nothing before a failure that is not from outside. -/
def Untold (b : Backend) (e : Error) (s : Session) : Prop := e.fromOutside = true ∨ s.backend = b

/-- Checks are still going on: nothing was done so far. -/
def Idle (r : Registry) (b : Backend) (s : Session) : Prop := s.registry = r ∧ s.backend = b

/-- Whatever the backend was told, the registry is this one. -/
def At (r : Registry) (s : Session) : Prop := s.registry = r

/-- Whatever was changed, the names are those of this registry. -/
def Shaped (r : Registry) (s : Session) : Prop := s.registry.shape = r.shape

/-- A failure that leaves no trace in the registry. -/
def Refused (r : Registry) (b : Backend) (e : Error) (s : Session) : Prop := At r s ∧ Untold b e s

/-- What the job does to a registry in which names are in order is done in full or not at all. -/
def Atomic (j : Job α) : Prop :=
  ∀ r b, r.Named → Triple (Idle r b) j (fun _ s => s.registry.Named) (Refused r b)

theorem Idle.refused {r : Registry} {b : Backend} {s : Session} (h : Idle r b s) (e : Error) :
    Refused r b e s :=
  ⟨h.1, .inr h.2⟩

theorem Atomic.answer {j : Job β} (h : Atomic j) (f : β → α) : Atomic (j >>= fun x => pure (f x)) :=
  fun r b hr => (h r b hr).bind fun _ => Triple.pure fun _ hs => hs

namespace Triple

variable {r r' : Registry} {b : Backend} {post : α → Session → Prop}
  {fault : Error → Session → Prop} {j : Job α}

theorem of_idle (h : Triple (At r) j post fault) : Triple (Idle r b) j post fault :=
  h.weaken (fun _ hs => hs.1) (fun _ _ hs => hs) fun _ _ hs => hs

theorem of_at (h : Triple (Shaped r) j post fault) : Triple (At r) j post fault :=
  h.weaken (fun _ hs => congrArg Registry.shape hs) (fun _ _ hs => hs) fun _ _ hs => hs

theorem named {pre : Session → Prop} (h : Triple pre j (fun _ => Shaped r) fault) (hr : r.Named) :
    Triple pre j (fun _ s => s.registry.Named) fault :=
  h.weaken (fun _ hs => hs) (fun _ _ hs => hr.of_shape hs) fun _ _ hs => hs

theorem requireCard_idle {name : String} {k : Card → Job α}
    (hk : ∀ c, r.card? name = .ok c → Triple (Idle r b) (k c) post (Refused r b)) :
    Triple (Idle r b) (requireCard name >>= k) post (Refused r b) := by
  have hrequire : Triple (Idle r b) (requireCard name)
      (fun c s => r.card? name = .ok c ∧ Idle r b s) (Refused r b) :=
    readRegistry_bind (fun _ hs => hs.1) <|
      Triple.ofExcept (fun _ _ hc hs => ⟨hc, hs⟩) fun e _ _ hs => hs.refused e
  exact hrequire.bind fun c s hc => hk c hc.1 s hc.2

theorem requireChannel_idle {card channel : String} {k : Timeline → Job α}
    (hk : ∀ t, r.channel? card channel = .ok t → Triple (Idle r b) (k t) post (Refused r b)) :
    Triple (Idle r b) (requireChannel card channel >>= k) post (Refused r b) := by
  have hrequire : Triple (Idle r b) (requireChannel card channel)
      (fun t s => r.channel? card channel = .ok t ∧ Idle r b s) (Refused r b) :=
    readRegistry_bind (fun _ hs => hs.1) <|
      Triple.ofExcept (fun _ _ ht hs => ⟨ht, hs⟩) fun e _ _ hs => hs.refused e
  exact hrequire.bind fun t s ht => hk t ht.1 s ht.2

theorem issue_at {c : Call} : Triple (At r) (Job.issue c) (fun _ => At r) (Refused r b) :=
  Triple.issue (fun _ hs _ => hs) fun _ hs _ => ⟨hs, .inl rfl⟩

theorem adjust_at {f : Registry → Registry} :
    Triple (At r) (Job.adjust f) (fun _ => At (f r)) fault :=
  Triple.adjust fun _ hs => congrArg f hs

theorem note_at {n : Notice} : Triple (At r) (Job.note n) (fun _ => At r) fault :=
  Triple.note fun _ hs => hs

theorem adjust_shaped {f : Registry → Registry} (hf : ∀ r, (f r).shape = r.shape) :
    Triple (Shaped r) (Job.adjust f) (fun _ => Shaped r) fault :=
  Triple.adjust fun s hs => (hf s.registry).trans hs

theorem drop_shaped : Triple (Shaped r) dropProgram (fun _ => Shaped r) fault :=
  adjust_shaped fun _ => rfl

theorem note_shaped {n : Notice} : Triple (Shaped r) (Job.note n) (fun _ => Shaped r) fault :=
  Triple.note fun _ hs => hs

/-- A card that is there is found again. -/
theorem requireCard_at {name : String} {c : Card} {k : Card → Job α} (hc : r.card? name = .ok c)
    (hk : Triple (At r) (k c) post fault) : Triple (At r) (requireCard name >>= k) post fault := by
  have hrequire : Triple (At r) (requireCard name) (fun d s => d = c ∧ At r s) fault := by
    apply readRegistry_bind fun _ hs => hs
    rw [hc]
    exact Triple.pure fun _ hs => ⟨rfl, hs⟩
  exact hrequire.bind fun d s hd => hd.1 ▸ hk s hd.2

/-- It is found as long as the names stay as they were. -/
theorem adjustCard_shaped {name : String} {f : Card → Card} {c : Card}
    (hc : r.card? name = .ok c) (hf : ∀ c, (f c).shape = c.shape) :
    Triple (Shaped r) (adjustCard name f) (fun _ => Shaped r) fault := by
  have hrequire : Triple (Shaped r) (requireCard name) (fun _ => Shaped r) fault := by
    apply Triple.readRegistry.bind
    rintro r' s ⟨hs, rfl⟩
    obtain ⟨c', hc', -⟩ := Registry.card?_of_shape hs hc
    rw [hc']
    exact hs
  exact hrequire.bind fun _ => adjust_shaped fun r => r.shape_modifyCard name hf

theorem adjustChannel_shaped {card channel : String} {f : Timeline → Timeline} {t : Timeline}
    (ht : r.channel? card channel = .ok t) (hf : ∀ t, (f t).name = t.name) :
    Triple (Shaped r) (adjustChannel card channel f) (fun _ => Shaped r) fault := by
  have hrequire : Triple (Shaped r) (requireChannel card channel) (fun _ => Shaped r) fault := by
    apply Triple.readRegistry.bind
    rintro r' s ⟨hs, rfl⟩
    obtain ⟨t', ht'⟩ := Registry.channel?_of_shape hs ht
    rw [ht']
    exact hs
  exact hrequire.bind fun _ => adjust_shaped fun r => r.shape_modifyChannel card channel hf

theorem adjustSync_shaped {card : String} {f : SyncSettings → SyncSettings} {c : Card}
    (hc : r.card? card = .ok c) :
    Triple (Shaped r) (adjustSync card f) (fun _ => Shaped r) fault :=
  adjustCard_shaped hc fun _ => rfl

theorem editSync_shaped {card : String} {f : SyncSettings → SyncSettings} {c : Card}
    (hc : r.card? card = .ok c) :
    Triple (Shaped r) (do adjustSync card f; dropProgram) (fun _ => Shaped r) fault :=
  (adjustSync_shaped hc).bind fun _ => drop_shaped

end Triple

end Sequencer.Job
