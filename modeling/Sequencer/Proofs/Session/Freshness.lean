import Sequencer.Proofs.Card.Content
import Sequencer.Registry

namespace Sequencer

/-- A timeline after an edit that owns up to what it changes. -/
def Timeline.Follows (t t' : Timeline) : Prop :=
  t'.fresh = true → t.fresh = true ∧ t'.content = t.content

theorem Timeline.Follows.refl (t : Timeline) : t.Follows t := fun h => ⟨h, rfl⟩

theorem Timeline.follows_insert (t : Timeline) (b : Booking) : t.Follows (t.insert b) := by
  intro h
  cases h

/-- What an addition leaves is marked, so it follows any timeline. -/
theorem Timeline.follows_add (u : Timeline) {t t' : Timeline} {i : Instruction}
    (h : t.add i = .ok t') : u.Follows t' := by
  intro hfresh
  unfold add at h
  cases hp : t.place i with
  | error e => simp [hp, Except.map] at h
  | ok b =>
    simp only [hp, Except.map, Except.ok.injEq] at h
    subst t'
    cases hfresh

theorem Timeline.follows_clear (t : Timeline) : t.Follows t.clear := by
  unfold clear
  split
  · exact .refl t
  · intro h
    cases h

theorem Timeline.follows_nickname (t : Timeline) (nickname : Option String) :
    t.Follows { t with nickname } :=
  fun h => ⟨h, rfl⟩

namespace Card

/-- A card after an edit that owns up to what it changes. -/
def Follows (c c' : Card) : Prop := c'.fresh = true → c.fresh = true ∧ c'.content = c.content

theorem follows_sync (c : Card) (sync : SyncSettings) : c.Follows { c with sync } :=
  fun h => ⟨h, rfl⟩

theorem follows_nickname (c : Card) (nickname : Option String) : c.Follows { c with nickname } :=
  fun h => ⟨h, rfl⟩

/-- Edits of single channels make up an edit of the card. -/
theorem follows_channels (c : Card) (sync : SyncSettings) {es : List (String × Timeline)}
    (h : List.Forall₂ (fun e e' => e'.1 = e.1 ∧ e.2.Follows e'.2) c.channels.entries es) :
    c.Follows { c with channels := ⟨es⟩, sync } := by
  have hes : es.all (·.2.fresh) = true → c.channels.entries.all (·.2.fresh) = true ∧
      es.map (fun e => (e.1, e.2.content)) =
        c.channels.entries.map fun e => (e.1, e.2.content) := by
    generalize c.channels.entries = old at h
    induction h with
    | nil => exact fun _ => ⟨rfl, rfl⟩
    | cons he _ ih =>
      intro hfresh
      rw [List.all_cons, Bool.and_eq_true] at hfresh
      obtain ⟨ht, hcontent⟩ := he.2 hfresh.1
      obtain ⟨hall, hmap⟩ := ih hfresh.2
      refine ⟨by rw [List.all_cons, ht, hall, Bool.and_self], ?_⟩
      rw [List.map_cons, List.map_cons, he.1, hcontent, hmap]
  intro hfresh
  obtain ⟨hall, hmap⟩ := hes hfresh
  refine ⟨hall, ?_⟩
  unfold content Table.map
  rw [hmap]

theorem follows_modifyChannel (c : Card) (name : String) {f : Timeline → Timeline}
    (hf : ∀ t : Timeline, t.Follows (f t)) : c.Follows (c.modifyChannel name f) := by
  apply c.follows_channels c.sync
  apply List.forall₂_map_right_iff.mpr
  apply List.forall₂_same.mpr
  intro e _
  split
  · exact ⟨rfl, hf e.2⟩
  · exact ⟨rfl, .refl e.2⟩

theorem follows_reset (c : Card) : c.Follows c.reset := by
  apply c.follows_channels {}
  apply List.forall₂_map_right_iff.mpr
  apply List.forall₂_same.mpr
  intro e _
  exact ⟨rfl, e.2.follows_clear⟩

end Card

/-- A card and its part of the program: as long as there were no edits since it was compiled, the
card compiles to that part. -/
def Card.Backs (stop : Float) (e : String × Card) (q : String × CardProgram) : Prop :=
  q.1 = e.1 ∧ (e.2.fresh = true → (e.2.compile stop).2 = .ok q.2)

theorem Card.Backs.follow {stop : Float} {name : String} {c d : Card} {q : String × CardProgram}
    (h : Backs stop (name, c) q) (hd : c.Follows d) : Backs stop (name, d) q := by
  refine ⟨h.1, fun hfresh => ?_⟩
  obtain ⟨hc, hcontent⟩ := hd hfresh
  rw [compile_of_content hcontent]
  exact h.2 hc

namespace Registry

/-- There is a part for each card, in the same order, and the cards back them. -/
def BacksParts (r : Registry) (stop : Float) (parts : Table CardProgram) : Prop :=
  List.Forall₂ (Card.Backs stop) r.cards.entries parts.entries

/-- The cards back the program, if there is one. -/
def Backs (r : Registry) : Prop := ∀ p, r.program = some p → r.BacksParts p.stopTime p.cards

theorem backs_withoutProgram (r : Registry) : r.withoutProgram.Backs := by
  intro p h
  cases h

theorem backs_of_none (r : Registry) (h : r.program = none) : r.Backs := by
  intro p hp
  rw [h] at hp
  cases hp

theorem Backs.roles {r : Registry} (h : r.Backs) (roles : Roles) : { r with roles }.Backs := h

theorem Backs.modifyCard {r : Registry} (h : r.Backs) (name : String) {f : Card → Card}
    (hf : ∀ c : Card, c.Follows (f c)) : (r.modifyCard name f).Backs := by
  intro p hp
  apply List.forall₂_map_left_iff.mpr
  apply (h p hp).imp
  intro e q he
  split
  · exact he.follow (hf e.2)
  · exact he

theorem Backs.modifySync {r : Registry} (h : r.Backs) (name : String)
    (f : SyncSettings → SyncSettings) : (r.modifySync name f).Backs :=
  h.modifyCard name fun c => c.follows_sync (f c.sync)

theorem Backs.modifyChannel {r : Registry} (h : r.Backs) (card channel : String)
    {f : Timeline → Timeline} (hf : ∀ t : Timeline, t.Follows (f t)) :
    (r.modifyChannel card channel f).Backs :=
  h.modifyCard card fun c => c.follows_modifyChannel channel hf

/-- A fresh program is what the cards compile to now. -/
theorem Backs.current {r : Registry} {p : Program} (h : r.Backs) (hp : r.current? = .ok p) :
    List.Forall₂ (fun e q => q.1 = e.1 ∧ (e.2.compile p.stopTime).2 = .ok q.2)
      r.cards.entries p.cards.entries := by
  unfold current? at hp
  cases hr : r.program with
  | none => simp [hr] at hp
  | some p' =>
    rw [hr] at hp
    cases hfresh : r.fresh with
    | false => simp [hfresh] at hp
    | true =>
      simp only [hfresh, if_true, Except.ok.injEq] at hp
      subst p'
      have hall : r.cards.all (·.fresh) = true := by
        unfold fresh at hfresh
        exact (Bool.and_eq_true_iff.mp hfresh).2
      have hes := h p hr
      unfold BacksParts at hes
      unfold Table.all at hall
      generalize r.cards.entries = es, p.cards.entries = qs at hall hes ⊢
      induction hes with
      | nil => exact .nil
      | cons he _ ih =>
        rw [List.all_cons, Bool.and_eq_true] at hall
        exact .cons ⟨he.1, he.2 hall.1⟩ (ih hall.2)

end Registry

/-- The cards that came out of a traversal back what it gave. -/
theorem Card.backs_traverse (stop : Float) {es : List (String × Card)}
    {qs : List (String × CardProgram)}
    (h : (Table.traverseEntries (Card.compile stop) es).2 = .ok qs) :
    List.Forall₂ (Card.Backs stop) (Table.traverseEntries (Card.compile stop) es).1 qs := by
  obtain ⟨hentries, hresults⟩ := Table.traverseEntries_ok (Card.compile stop) h
  rw [hentries]
  apply List.forall₂_map_left_iff.mpr
  apply hresults.imp
  intro e q he
  refine ⟨he.1, fun _ => ?_⟩
  change ((e.2.compile stop).1.compile stop).2 = .ok q.2
  rw [compile_of_content (e.2.compile_fst_content stop), he.2]

end Sequencer
