import Sequencer.Proofs.Card.Outline
import Sequencer.Proofs.Session.Outcome

namespace Sequencer

namespace Table

variable {α β : Type}

/-- Changes that are alike are not told apart through a map. -/
theorem map_modify_congr {g : α → β} {f f' : α → α} {t u : Table α} (h : u.map g = t.map g)
    (hf : ∀ v w, g w = g v → g (f' w) = g (f v)) (name : String) :
    (u.modify name f').map g = (t.modify name f).map g := by
  have hentries := forall₂_of_map_eq (congrArg entries h)
  unfold modify map
  generalize t.entries = es, u.entries = ds at hentries
  congr 1
  induction hentries with
  | nil => rfl
  | @cons e d es ds heq _ ih =>
    obtain ⟨hname, hvalue⟩ := Prod.mk.inj heq
    simp only [List.map_cons, ih, List.cons.injEq, and_true, hname]
    split
    · exact Prod.ext rfl (hf _ _ hvalue)
    · exact heq

theorem map_map_congr {g : α → β} {f : α → α} {t u : Table α} (h : u.map g = t.map g)
    (hf : ∀ v w, g w = g v → g (f w) = g (f v)) : (u.map f).map g = (t.map f).map g := by
  have hentries := forall₂_of_map_eq (congrArg entries h)
  unfold map
  generalize t.entries = es, u.entries = ds at hentries
  congr 1
  induction hentries with
  | nil => rfl
  | cons heq _ ih =>
    obtain ⟨hname, hvalue⟩ := Prod.mk.inj heq
    simp only [List.map_cons, ih, hname, hf _ _ hvalue]

end Table

namespace Registry

/-- A registry of whose cards only the outlines are known. -/
def outline (r : Registry) : Registry :=
  { r with cards := r.cards.map (·.outline), program := none }

variable {r r' : Registry}

theorem outline_of_unmarked (h : r'.unmarked = r.unmarked) : r'.outline = r.outline := by
  have hmarks : ∀ r : Registry, r.unmarked.outline = r.outline := by
    intro r
    simp only [outline, unmarked, Table.map, List.map_map, Function.comp_def,
      Card.outline_unmarked]
  rw [← hmarks r', h, hmarks r]

theorem lastTime_outline (r : Registry) : r.outline.lastTime = r.lastTime := by
  have hcard : ∀ c : Card, c.outline.lastTime = c.lastTime := by
    intro c
    simp only [Card.lastTime, Card.lastTick_outline]
    rfl
  simp only [lastTime, outline, Table.values, Table.map, List.map_map, List.foldl_map,
    Function.comp_apply, hcard]

theorem edited_outline (r : Registry) : r.outline.edited = r.edited := by
  simp only [edited, outline, Table.any, Table.map, List.any_map, Function.comp_def,
    Card.edited_outline]

theorem roles_of_outline (h : r'.outline = r.outline) : r'.roles = r.roles :=
  show r'.outline.roles = r.outline.roles by rw [h]

theorem cards_of_outline (h : r'.outline = r.outline) :
    r'.cards.map (·.outline) = r.cards.map (·.outline) :=
  show r'.outline.cards = r.outline.cards by rw [h]

theorem names_of_outline (h : r'.outline = r.outline) : r'.cards.names = r.cards.names := by
  rw [← Table.names_map Card.outline r'.cards, cards_of_outline h, Table.names_map]

theorem contains_of_outline (h : r'.outline = r.outline) (name : String) :
    r'.cards.contains name = r.cards.contains name := by
  rw [Table.contains, names_of_outline h, Table.contains]

theorem card?_agree (h : r'.outline = r.outline) (name : String) :
    Agree (fun c c' => c'.outline = c.outline) (r.card? name) (r'.card? name) := by
  have hget : (r'.cards.get? name).map Card.outline = (r.cards.get? name).map Card.outline := by
    rw [← Table.get?_map, ← Table.get?_map, cards_of_outline h]
  unfold card?
  cases hc : r.cards.get? name <;> cases hc' : r'.cards.get? name <;> rw [hc, hc'] at hget
  · exact .error _ _
  · cases hget
  · cases hget
  · exact .ok (Option.some.inj hget)

theorem channel?_agree (h : r'.outline = r.outline) (card channel : String) :
    Agree (fun t t' => t'.outline = t.outline) (r.channel? card channel)
      (r'.channel? card channel) := by
  refine (card?_agree h card).bind fun c c' hc => ?_
  have hget : (c'.channels.get? channel).map Timeline.outline =
      (c.channels.get? channel).map Timeline.outline := by
    rw [← Table.get?_map, ← Table.get?_map]
    exact show c'.outline.channels.get? channel = c.outline.channels.get? channel by rw [hc]
  unfold Card.channel?
  cases ht : c.channels.get? channel <;> cases ht' : c'.channels.get? channel <;>
    rw [ht, ht'] at hget
  · exact .error _ _
  · cases hget
  · cases hget
  · exact .ok (Option.some.inj hget)

theorem modifyCard_outline (h : r'.outline = r.outline) (name : String) {f f' : Card → Card}
    (hf : ∀ c c', c'.outline = c.outline → (f' c').outline = (f c).outline) :
    (r'.modifyCard name f').outline = (r.modifyCard name f).outline := by
  simp only [outline, modifyCard, roles_of_outline h,
    Table.map_modify_congr (cards_of_outline h) hf name]

theorem modifyChannel_outline (h : r'.outline = r.outline) (card channel : String)
    {f f' : Timeline → Timeline}
    (hf : ∀ t t', t'.outline = t.outline → (f' t').outline = (f t).outline) :
    (r'.modifyChannel card channel f').outline = (r.modifyChannel card channel f).outline := by
  refine modifyCard_outline h card fun c c' hc => ?_
  have hchannels : c'.channels.map (·.outline) = c.channels.map (·.outline) :=
    show c'.outline.channels = c.outline.channels by rw [hc]
  have hmodified := Table.map_modify_congr hchannels hf channel
  have hcard : ∀ (c : Card) f, (c.modifyChannel channel f).outline =
      { c.outline with channels := (c.channels.modify channel f).map (·.outline) } := fun _ _ => rfl
  rw [hcard, hcard, hc, hmodified]

theorem placeResets_agree (h : r'.outline = r.outline) (t : Float) :
    Agree Eq (Session.placeResets r t) (Session.placeResets r' t) := by
  have hcards : List.Forall₂ (fun c c' : Card => c'.outline = c.outline)
      r.cards.values r'.cards.values :=
    List.forall₂_map_left_iff.mpr (List.forall₂_map_right_iff.mpr
      ((forall₂_of_map_eq (congrArg Table.entries (cards_of_outline h))).imp
        fun _ _ he => (Prod.mk.inj he).2))
  unfold Session.placeResets
  refine (Agree.mapM (Q := Eq) (hcards.imp fun c c' hc => ?_)).bind fun xs ys hxs => ?_
  · have hname : c'.name = c.name := show c'.outline.name = c.outline.name by rw [hc]
    refine (Card.placeReset_agree hc t).bind ?_
    rintro resets _ rfl
    exact .ok (by rw [hname])
  · obtain rfl := (congrFun₂ List.forall₂_eq_eq_eq xs ys).mp hxs
    exact .ok rfl

/-- Whether and until when a registry can be compiled is seen from its outline. -/
theorem outcome_agree (h : r'.outline = r.outline) {b b' : Backend}
    (accepts : ∀ c, b.accepts c = true) (accepts' : ∀ c, b'.accepts c = true)
    (asked : Option Float) :
    Agree (fun p p' => p'.stopTime = p.stopTime) (r.outcome b asked) (r'.outcome b' asked) := by
  have hstop : Session.stopTime r' asked = Session.stopTime r asked := by
    unfold Session.stopTime
    rw [← lastTime_outline r', ← edited_outline r', h, lastTime_outline, edited_outline]
  have hcards : ∀ stop, Agree (fun _ _ => True) (r.cards.traverse (Card.compile stop)).2
      (r'.cards.traverse (Card.compile stop)).2 := by
    intro stop
    apply Table.traverse_agree
    exact (forall₂_of_map_eq (congrArg Table.entries (cards_of_outline h))).imp
      fun _ _ he => Card.compile_agree (Prod.mk.inj he).2 stop
  unfold outcome
  rw [hstop]
  refine (Agree.of_eq (R := Eq) (fun _ => rfl) rfl).bind ?_
  rintro stop _ rfl
  refine (hcards stop).bind fun cards cards' _ => ?_
  rw [if_pos (accepts _), if_pos (accepts' _)]
  exact .ok rfl

end Registry

/-- Registries that are related this way have the same outline, and are still related without their
programs. -/
structure Registry.Likeness (rel : Registry → Registry → Prop) : Prop where
  outline {r r' : Registry} (h : rel r r') : r'.outline = r.outline
  drop {r r' : Registry} (h : rel r r') : rel r.withoutProgram r'.withoutProgram

/-- Sessions over backends that accept every call, with related registries. -/
structure Session.Together (rel : Registry → Registry → Prop) (s s' : Session) : Prop where
  accepts : ∀ c, s.backend.accepts c = true
  accepts' : ∀ c, s'.backend.accepts c = true
  related : rel s.registry s'.registry

namespace Job

open Session (Together)

variable {α β γ δ : Type} {rel : Registry → Registry → Prop}

/-- Both jobs are done, with answers that belong together, or both fail, and the sessions go on
together. -/
def Parallel (rel : Registry → Registry → Prop) (R : α → β → Prop) (j : Job α) (j' : Job β) :
    Prop :=
  ∀ s s', Together rel s s' → Agree R (j.run.run s).1 (j'.run.run s').1 ∧
    Together rel (j.run.run s).2 (j'.run.run s').2

namespace Parallel

variable {R : α → β → Prop} {Q : γ → δ → Prop} {j : Job α} {j' : Job β}

theorem pure {a : α} {b : β} (h : R a b) : Parallel rel R (Pure.pure a : Job α) (Pure.pure b) :=
  fun _ _ hs => ⟨.ok h, hs⟩

theorem throw (e e' : Error) :
    Parallel rel R (MonadExcept.throw e : Job α) (MonadExcept.throw e' : Job β) :=
  fun _ _ hs => ⟨.error e e', hs⟩

theorem bind {k : α → Job γ} {k' : β → Job δ} (hj : Parallel rel R j j')
    (hk : ∀ a b, R a b → Parallel rel Q (k a) (k' b)) : Parallel rel Q (j >>= k) (j' >>= k') := by
  intro s s' hs
  obtain ⟨hagree, hs⟩ := hj s s' hs
  rw [run_bind, run_bind]
  rcases hrun : j.run.run s with ⟨r, t⟩
  rcases hrun' : j'.run.run s' with ⟨r', t'⟩
  rw [hrun, hrun'] at hagree hs
  cases hagree with
  | ok related => exact hk _ _ related t t' hs
  | error e e' => exact ⟨.error e e', hs⟩

theorem ofExcept {x : Except Error α} {y : Except Error β} (h : Agree R x y) :
    Parallel rel R (MonadExcept.ofExcept x : Job α) (MonadExcept.ofExcept y : Job β) := by
  cases h with
  | ok related => exact pure related
  | error e e' => exact throw e e'

/-- The jobs go on with what was computed, if it was. -/
theorem ofExcept_bind {x : Except Error α} {y : Except Error β} {k : α → Job γ} {k' : β → Job δ}
    (h : Agree R x y) (hk : ∀ a b, R a b → Parallel rel Q (k a) (k' b)) :
    Parallel rel Q (MonadExcept.ofExcept x >>= k) (MonadExcept.ofExcept y >>= k') :=
  (ofExcept h).bind hk

theorem readRegistry_bind {k : Registry → Job γ} {k' : Registry → Job δ}
    (hk : ∀ r r', rel r r' → Parallel rel Q (k r) (k' r')) :
    Parallel rel Q (readRegistry >>= k) (readRegistry >>= k') :=
  fun s s' hs => hk _ _ hs.related s s' hs

theorem adjust {f f' : Registry → Registry} (h : ∀ r r', rel r r' → rel (f r) (f' r')) :
    Parallel rel Eq (Job.adjust f) (Job.adjust f') :=
  fun _ _ hs => ⟨.ok rfl, hs.accepts, hs.accepts', h _ _ hs.related⟩

theorem note (n n' : Notice) : Parallel rel Eq (Job.note n) (Job.note n') :=
  fun _ _ hs => ⟨.ok rfl, hs.accepts, hs.accepts', hs.related⟩

/-- Both calls are accepted. -/
theorem issue (c c' : Call) : Parallel rel Eq (Job.issue c) (Job.issue c') := by
  intro s s' hs
  have hissue : ∀ (s : Session) c, (∀ c, s.backend.accepts c = true) →
      (Job.issue c).run.run s = (.ok (), { s with backend := (s.backend.issue c).2 }) ∧
        ∀ d, (s.backend.issue c).2.accepts d = true := by
    intro s c haccepts
    rw [run_issue, Backend.issue_fst, if_pos (haccepts c)]
    exact ⟨rfl, fun d => Backend.accepts_congr (Backend.issue_failing s.backend c) ▸ haccepts d⟩
  obtain ⟨hrun, haccepts⟩ := hissue s c hs.accepts
  obtain ⟨hrun', haccepts'⟩ := hissue s' c' hs.accepts'
  rw [hrun, hrun']
  exact ⟨.ok rfl, haccepts, haccepts', hs.related⟩

/-- A check that comes out the same. -/
theorem guard {c c' : Prop} [Decidable c] [Decidable c'] {e e' : Error} {k : Unit → Job γ}
    {k' : Unit → Job δ} (hc : c ↔ c') (hk : ¬ c → Parallel rel Q (k ()) (k' ())) :
    Parallel rel Q (if c then (MonadExcept.throw e : Job Unit) >>= k else k ())
      (if c' then (MonadExcept.throw e' : Job Unit) >>= k' else k' ()) := by
  by_cases h : c
  · rw [if_pos h, if_pos (hc.mp h)]
    exact fun s s' hs => ⟨.error e e', hs⟩
  · rw [if_neg h, if_neg (mt hc.mpr h)]
    exact hk h

theorem forM {l : List α} {l' : List β} {f : α → Job Unit} {f' : β → Job Unit}
    (h : List.Forall₂ (fun a b => Parallel rel Eq (f a) (f' b)) l l') :
    Parallel rel Eq (l.forM f) (l'.forM f') := by
  induction h with
  | nil => exact pure rfl
  | cons hfirst _ ih => exact hfirst.bind fun _ _ _ => ih

section Likeness

variable (like : Registry.Likeness rel)

include like

theorem requireCard (name : String) : Parallel rel (fun c c' : Card => c'.outline = c.outline)
    (requireCard name) (requireCard name) :=
  readRegistry_bind fun _ _ hr => ofExcept (Registry.card?_agree (like.outline hr) name)

theorem requireChannel (card channel : String) :
    Parallel rel (fun t t' : Timeline => t'.outline = t.outline)
      (requireChannel card channel) (requireChannel card channel) :=
  readRegistry_bind fun _ _ hr => ofExcept (Registry.channel?_agree (like.outline hr) card channel)

theorem adjustCard {name : String} {f f' : Card → Card}
    (h : ∀ r r', rel r r' → rel (r.modifyCard name f) (r'.modifyCard name f')) :
    Parallel rel Eq (adjustCard name f) (adjustCard name f') :=
  (requireCard like name).bind fun _ _ _ => adjust h

theorem adjustChannel {card channel : String} {f f' : Timeline → Timeline}
    (h : ∀ r r', rel r r' →
      rel (r.modifyChannel card channel f) (r'.modifyChannel card channel f')) :
    Parallel rel Eq (adjustChannel card channel f) (adjustChannel card channel f') :=
  (requireChannel like card channel).bind fun _ _ _ => adjust h

theorem dropProgram : Parallel rel Eq dropProgram dropProgram := adjust fun _ _ => like.drop

end Likeness

end Parallel

end Job

end Sequencer
