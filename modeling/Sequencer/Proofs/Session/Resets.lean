import Mathlib.Data.List.Nodup
import Sequencer.Proofs.Session.Soundness

namespace Sequencer

namespace Registry

/-- All channels with the names they are kept under. -/
def listing (r : Registry) : List (String × String × Timeline) :=
  r.cards.entries.flatMap fun e => e.2.channels.entries.map fun f => (e.1, f.1, f.2)

/-- Commits bookings one after another. -/
def commit (placed : List (String × String × Booking)) (r : Registry) : Registry :=
  placed.foldl (fun r x => r.modifyChannel x.1 x.2.1 (·.insert x.2.2)) r

variable {r r' : Registry}

theorem mem_listing {x : String × String × Timeline} :
    x ∈ r.listing ↔ ∃ c, (x.1, c) ∈ r.cards.entries ∧ (x.2.1, x.2.2) ∈ c.channels.entries := by
  obtain ⟨card, channel, t⟩ := x
  simp [listing]

/-- A booking that its channel has room for. -/
structure Fits (r : Registry) (x : String × String × Booking) (t : Timeline) : Prop where
  known : r.channel? x.1 x.2.1 = .ok t
  playable : (t.line.wave? x.2.2.instr t.idle).isSome = true
  placed : t.place x.2.2.instr = .ok x.2.2

/-- Bookings on different channels are changes one after another, since none takes room from the
ones still to come. -/
theorem changes_commit {placed : List (String × String × Booking)}
    (hfits : ∀ x ∈ placed, ∃ t, r.Fits x t)
    (distinct : (placed.map fun x => (x.1, x.2.1)).Nodup) :
    r.withoutProgram.Changes (placed.map fun x => .emit x.1 x.2.1 x.2.2.instr)
      (r.commit placed).withoutProgram := by
  induction placed generalizing r with
  | nil => exact .none
  | cons x placed ih =>
    obtain ⟨hfresh, hrest⟩ := List.nodup_cons.mp distinct
    obtain ⟨t, ht⟩ := hfits x List.mem_cons_self
    have hfirst : r.withoutProgram.Change [.emit x.1 x.2.1 x.2.2.instr]
        (r.modifyChannel x.1 x.2.1 (·.insert x.2.2)).withoutProgram :=
      .addInstruction ht.known ht.playable ht.placed
    -- the bookings to come are on other channels, whose timelines are still the ones they fit
    refine hfirst.changes.trans (ih ?_ hrest)
    intro y hy
    obtain ⟨u, hu⟩ := hfits y (List.mem_cons_of_mem _ hy)
    have hne : (y.1, y.2.1) ≠ (x.1, x.2.1) := fun heq =>
      hfresh (List.mem_map.mpr ⟨y, hy, heq⟩)
    exact ⟨u, channel?_modifyChannel _ hne hu.known, hu.playable, hu.placed⟩

namespace Sound

theorem channel?_of_listed (h : r.Sound) {x : String × String × Timeline} (hx : x ∈ r.listing) :
    r.channel? x.1 x.2.1 = .ok x.2.2 := by
  obtain ⟨c, hc, ht⟩ := mem_listing.mp hx
  exact h.channel?_of_mem hc ht

/-- No channel is listed twice. -/
theorem nodup_listing (h : r.Sound) : (r.listing.map fun x => (x.1, x.2.1)).Nodup := by
  unfold listing
  rw [List.map_flatMap]
  refine List.nodup_flatMap.mpr ⟨fun e he => ?_, ?_⟩
  · have hnames := (h.whole e he).distinct
    have hpairs : (e.2.channels.names.map fun n => (e.1, n)).Nodup :=
      hnames.map fun a b hab => (Prod.mk.inj hab).2
    simpa [Table.names, Function.comp_def] using hpairs
  · have hnames : r.cards.entries.Pairwise fun d e => d.1 ≠ e.1 :=
      List.pairwise_map.mp h.distinct
    refine hnames.imp fun hne => ?_
    intro x hx hx'
    simp only [List.mem_map] at hx hx'
    obtain ⟨_, ⟨f, hf, rfl⟩, rfl⟩ := hx
    obtain ⟨_, ⟨g, hg, rfl⟩, heq⟩ := hx'
    exact hne (Prod.mk.inj heq).1.symm

/-- Placing resets gives one for each channel that is listed, in the same order. -/
theorem placeResets_listing (h : r.Sound) {t : Float} {placed : List (String × String × Booking)}
    (hplaced : Session.placeResets r t = .ok placed) :
    List.Forall₂ (fun x y => y.1 = x.1 ∧ y.2.1 = x.2.1 ∧
      x.2.2.place (.holding t .reset) = .ok y.2.2) r.listing placed := by
  obtain ⟨perCard, hcards, heq⟩ := exists_of_bind_ok hplaced
  cases heq
  -- resets are placed by the cards' and channels' own names, which they are also kept under
  have hnamed : ∀ e ∈ r.cards.entries, e.2.name = e.1 ∧
      ∀ f ∈ e.2.channels.entries, f.2.name = f.1 :=
    fun e he => ⟨h.cards e he, h.channels e he⟩
  have hperCard := (List.forall₂_and_left _ _).mpr
    ⟨hnamed, List.forall₂_map_left_iff.mp (forall₂_of_mapM_ok hcards)⟩
  clear hcards hnamed hplaced
  unfold listing
  generalize r.cards.entries = es at hperCard
  induction hperCard with
  | nil => exact .nil
  | cons hresets _ ih =>
    obtain ⟨⟨hname, hchannels⟩, hresets⟩ := hresets
    obtain ⟨ofCard, hofCard, heq⟩ := exists_of_bind_ok hresets
    cases heq
    have hofChannels := (List.forall₂_and_left _ _).mpr
      ⟨hchannels, List.forall₂_map_left_iff.mp (Session.placeReset_channels hofCard)⟩
    rw [List.flatMap_cons, List.flatten_cons]
    refine List.rel_append ?_ ih
    apply List.forall₂_map_left_iff.mpr
    apply List.forall₂_map_right_iff.mpr
    exact hofChannels.imp fun f x hx => ⟨hname, hx.2.1.trans hx.1, hx.2.2⟩

/-- Every reset fits its channel, and no channel gets a second one. -/
theorem placeResets_fits (h : r.Sound) {t : Float} {placed : List (String × String × Booking)}
    (hplaced : Session.placeResets r t = .ok placed) :
    (∀ x ∈ placed, ∃ u, r.Fits x u) ∧ (placed.map fun x => (x.1, x.2.1)).Nodup := by
  have hlisting := h.placeResets_listing hplaced
  constructor
  · intro x hx
    obtain ⟨y, hy, hcard, hchannel, hplace⟩ := exists_of_forall₂ hlisting hx
    obtain ⟨first, stop, -, hbooking, -⟩ := Timeline.place_eq_ok_iff.mp hplace
    have hinstr : x.2.2.instr = .holding t .reset := congrArg Booking.instr hbooking
    refine ⟨y.2.2, ?_, ?_, by rwa [hinstr]⟩
    · rw [hcard, hchannel]
      exact h.channel?_of_listed hy
    · rw [hinstr]
      cases hline : y.2.2.line <;> rfl
  · have hkeys : (r.listing.map fun x => (x.1, x.2.1)) = placed.map fun x => (x.1, x.2.1) := by
      refine (congrFun₂ List.forall₂_eq_eq_eq _ _).mp ?_
      apply List.forall₂_map_left_iff.mpr
      apply List.forall₂_map_right_iff.mpr
      exact hlisting.imp fun x y hxy => Prod.ext hxy.1.symm hxy.2.1.symm
    rw [← hkeys]
    exact h.nodup_listing

end Sound

end Registry

end Sequencer
