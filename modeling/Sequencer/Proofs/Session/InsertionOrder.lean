import Sequencer.Proofs.Session.Alike

namespace Sequencer

/-- A booking for a channel of a card. -/
abbrev Placement := String × String × Booking

/-- What is asked for with a placement. -/
def Placement.request (x : Placement) : String × String × Instruction := (x.1, x.2.1, x.2.2.instr)

/-- Placements on the same channel do not share a tick. -/
def Placement.Clear (x y : Placement) : Prop :=
  x.1 = y.1 → x.2.1 = y.2.1 → x.2.2.stop ≤ y.2.2.start ∨ y.2.2.stop ≤ x.2.2.start

instance : Std.Symm Placement.Clear where
  symm _ _ h hcard hchannel := (h hcard.symm hchannel.symm).symm

namespace Registry

/-- Names are not shared, and the bookings of every channel are in order and apart. -/
structure Orderly (r : Registry) : Prop where
  cards : r.cards.names.Nodup
  channels : ∀ e ∈ r.cards.entries, e.2.channels.names.Nodup
  tidy : ∀ e ∈ r.cards.entries, ∀ f ∈ e.2.channels.entries, f.2.Tidy

/-- Nothing but the booking comes in, without its number. -/
def enter (r : Registry) (x : Placement) : Registry :=
  r.modifyChannel x.1 x.2.1 (·.enter x.2.2.unnumbered)

/-- The channel can follow the instruction, and has these ticks free for it. -/
structure Awaits (r : Registry) (x : Placement) (t : Timeline) : Prop where
  known : r.channel? x.1 x.2.1 = .ok t
  playable : (t.line.wave? x.2.2.instr t.idle).isSome = true
  occupies : t.Occupies x.2.2.instr x.2.2.start x.2.2.stop
  free : ∀ b ∈ t.bookings, b.stop ≤ x.2.2.start ∨ x.2.2.stop ≤ b.start

variable {r : Registry} {t : Timeline} {n : Booking} {card channel : String}

namespace Orderly

theorem apart (h : r.Orderly) : r.Apart := fun e he f hf => (h.tidy e he f hf).apart

theorem channel_unique (h : r.Orderly) {c : Card} (hc : (card, c) ∈ r.cards.entries) {u : Timeline}
    (hu : (channel, u) ∈ c.channels.entries) (ht : r.channel? card channel = .ok t) : u = t :=
  Except.ok.inj ((channel?_of_mem h.cards (h.channels _ hc) hc hu).symm.trans ht)

theorem tidy_of_known (h : r.Orderly) (ht : r.channel? card channel = .ok t) : t.Tidy := by
  obtain ⟨c, hc, hchannel⟩ := channel?_eq_ok_iff.mp ht
  exact h.tidy _ (Table.get?_mem hc) _ (Table.get?_mem hchannel)

theorem insert (h : r.Orderly) (known : r.channel? card channel = .ok t)
    (tidy : (t.insert n).Tidy) :
    (r.modifyChannel card channel (·.insert n)).withoutProgram.Orderly := by
  have hnames : (r.modifyChannel card channel (·.insert n)).cards.names = r.cards.names :=
    r.cards.names_modify card _
  constructor
  case cards => exact hnames ▸ h.cards
  case channels =>
    intro e he
    rcases Table.mem_modify he with hold | ⟨c, hc, rfl⟩
    · exact h.channels e hold
    · exact (c.channels.names_modify channel _) ▸ h.channels _ hc
  case tidy =>
    intro e he f hf
    rcases Table.mem_modify he with hold | ⟨c, hc, rfl⟩
    · exact h.tidy e hold f hf
    · rcases Table.mem_modify hf with hold | ⟨u, hu, rfl⟩
      · exact h.tidy _ hc f hold
      · obtain rfl := h.channel_unique hc hu known
        exact tidy

/-- Seen without numbers, an insertion only lets the booking in. -/
theorem unnumbered_insert (h : r.Orderly) (known : r.channel? card channel = .ok t)
    (hstart : ∀ b ∈ t.bookings, b.start ≠ n.start) :
    (r.modifyChannel card channel (·.insert n)).withoutProgram.unnumbered =
      r.unnumbered.enter (card, channel, n) := by
  have hcards : (r.cards.modify card (·.modifyChannel channel (·.insert n))).map Card.unnumbered =
      (r.cards.map Card.unnumbered).modify card
        (·.modifyChannel channel (·.enter n.unnumbered)) := by
    refine Table.map_modify_of fun c hc => ?_
    have hchannels : (c.channels.modify channel (·.insert n)).map Timeline.unnumbered =
        (c.channels.map Timeline.unnumbered).modify channel (·.enter n.unnumbered) := by
      refine Table.map_modify_of fun u hu => ?_
      obtain rfl := h.channel_unique hc hu known
      exact Timeline.insert_unnumbered hstart
    simp only [Card.unnumbered, Card.modifyChannel, hchannels]
  simp only [unnumbered, enter, modifyChannel, modifyCard, withoutProgram, hcards]

end Orderly

namespace Awaits

variable {x y : Placement}

/-- The booking that is placed for the instruction. -/
def booking (x : Placement) (t : Timeline) : Booking := { x.2.2 with seq := t.nextSeq }

theorem placed (h : r.Awaits x t) (tidy : t.Tidy) : t.place x.2.2.instr = .ok (booking x t) := by
  refine Timeline.place_eq_ok_iff.mpr ⟨_, _, h.occupies, rfl, ?_⟩
  exact (tidy.neighbours_free_iff (n := booking x t) h.occupies.room rfl).mpr h.free

theorem tidy_insert (h : r.Awaits x t) (tidy : t.Tidy) : (t.insert (booking x t)).Tidy :=
  tidy.insert h.occupies.room rfl h.free

theorem start_ne (h : r.Awaits x t) (tidy : t.Tidy) :
    ∀ b ∈ t.bookings, b.start ≠ (booking x t).start :=
  tidy.start_ne (n := booking x t) h.occupies.room h.free

/-- A placement that is clear of another one has its ticks free also once that one came in. -/
theorem after (hy : r.Awaits y t) {u : Timeline} (hx : r.Awaits x u) (orderly : r.Orderly)
    (clear : x.Clear y) :
    ∃ t', (r.modifyChannel x.1 x.2.1 (·.insert (booking x u))).withoutProgram.Awaits y t' := by
  by_cases hsame : (y.1, y.2.1) = (x.1, x.2.1)
  · obtain ⟨hcard, hchannel⟩ := Prod.mk.inj hsame
    have hxy := hx.known
    rw [← hcard, ← hchannel] at hxy
    obtain rfl : u = t := Except.ok.inj (hxy.symm.trans hy.known)
    have hjoins := (orderly.tidy_of_known hy.known).insert_perm (n := booking x u) rfl
    refine ⟨u.insert (booking x u), ?_, hy.playable, ?_, fun b hb => ?_⟩
    · rw [hcard, hchannel]
      exact channel?_modifyChannel_self (·.insert (booking x u)) hx.known
    · exact ⟨hy.occupies.faultless, hy.occupies.begins, hy.occupies.ends, hy.occupies.room⟩
    · rcases List.mem_cons.mp (hjoins.mem_iff.mp hb) with rfl | hold
      · exact clear hcard.symm hchannel.symm
      · exact hy.free b hold
  · exact ⟨t, channel?_modifyChannel _ hsame hy.known, hy.playable, hy.occupies, hy.free⟩

end Awaits

/-- Placements that are clear of each other come in the same way in either order. -/
theorem enter_comm {x y : Placement} (hx : x.2.2.start < x.2.2.stop) (hy : y.2.2.start < y.2.2.stop)
    (clear : x.Clear y) (r : Registry) : (r.enter x).enter y = (r.enter y).enter x := by
  have htimeline : x.1 = y.1 → x.2.1 = y.2.1 → ∀ t : Timeline,
      (t.enter x.2.2.unnumbered).enter y.2.2.unnumbered =
        (t.enter y.2.2.unnumbered).enter x.2.2.unnumbered := by
    intro hcard hchannel t
    have hbookings : y.2.2.unnumbered.insert (x.2.2.unnumbered.insert t.bookings) =
        x.2.2.unnumbered.insert (y.2.2.unnumbered.insert t.bookings) := by
      rcases clear hcard hchannel with hle | hle
      · have hlt : x.2.2.unnumbered.start < y.2.2.unnumbered.start := Nat.lt_of_lt_of_le hx hle
        exact (Booking.insert_comm hlt _).symm
      · have hlt : y.2.2.unnumbered.start < x.2.2.unnumbered.start := Nat.lt_of_lt_of_le hy hle
        exact Booking.insert_comm hlt _
    simp only [Timeline.enter, hbookings]
  have hcard : x.1 = y.1 → ∀ c : Card,
      (c.modifyChannel x.2.1 (·.enter x.2.2.unnumbered)).modifyChannel y.2.1
          (·.enter y.2.2.unnumbered) =
        (c.modifyChannel y.2.1 (·.enter y.2.2.unnumbered)).modifyChannel x.2.1
          (·.enter x.2.2.unnumbered) := by
    intro hcard c
    have hchannels := Table.modify_comm (htimeline hcard) c.channels
    simp only [Card.modifyChannel, hchannels]
  have hcards := Table.modify_comm hcard r.cards
  simp only [enter, modifyChannel, modifyCard, hcards]

/-- The order in which bookings are let in does not show. -/
theorem foldl_enter_perm {xs ys : List Placement} (h : xs.Perm ys)
    (room : ∀ x ∈ xs, x.2.2.start < x.2.2.stop) (clear : xs.Pairwise Placement.Clear)
    (r : Registry) : xs.foldl enter r = ys.foldl enter r := by
  refine h.foldl_eq' (fun x hx y hy r => ?_) r
  by_cases hne : x = y
  · rw [hne]
  · exact enter_comm (room x hx) (room y hy) (clear.forall hx hy hne) r

end Registry

namespace Session

open Job Triple

/-- Adds instructions one after another, each to a channel of a card. -/
def addAll (js : List (String × String × Instruction)) : Job (List Float) :=
  js.mapM fun (card, channel, i) => addInstruction card channel i

variable {r : Registry} {b : Backend} {cs : List Call}

/-- An instruction that its channel awaits is added, if the backend takes it. -/
theorem addInstruction_enters {x : Placement} {t : Timeline} (orderly : r.Orderly)
    (awaited : r.Awaits x t) (accepted : b.accepts (.emit x.1 x.2.1 x.2.2.instr) = true) :
    Triple (Since r b cs) (addInstruction x.1 x.2.1 x.2.2.instr)
      (fun time s => time = x.2.2.instr.next ∧
        Since (r.modifyChannel x.1 x.2.1 (·.insert (Registry.Awaits.booking x t))).withoutProgram b
          (cs ++ [.emit x.1 x.2.1 x.2.2.instr]) s)
      (fun _ _ => False) := by
  have hplayable : ¬ (t.line.wave? x.2.2.instr t.idle).isNone = true := by
    simpa [Option.isSome_iff_ne_none] using awaited.playable
  have hplaced := awaited.placed (orderly.tidy_of_known awaited.known)
  unfold addInstruction
  apply requireChannel_known awaited.known
  rw [if_neg hplayable, hplaced]
  apply (issue_accepted accepted).bind
  intro _
  apply (adjustChannel_since awaited.known).bind
  intro _
  apply adjust_since.bind
  intro _
  exact Triple.pure fun _ hs => ⟨rfl, hs⟩

/-- Instructions that are awaited and clear of each other are all added. Each comes in at its own
ticks, and that is all that changes. -/
theorem addAll_enters {xs : List Placement} (orderly : r.Orderly)
    (awaited : ∀ x ∈ xs, ∃ t, r.Awaits x t) (clear : xs.Pairwise Placement.Clear)
    (accepted : ∀ x ∈ xs, b.accepts (.emit x.1 x.2.1 x.2.2.instr) = true) :
    Triple (Since r b cs) (addAll (xs.map Placement.request))
      (fun times s => times = xs.map (·.2.2.instr.next) ∧ s.registry.Orderly ∧
        s.registry.unnumbered = xs.foldl Registry.enter r.unnumbered ∧
        s.backend.failing = b.failing)
      (fun _ _ => False) := by
  -- over the placements to come: all of them are still awaited once the first one is in
  induction xs generalizing r cs with
  | nil => exact Triple.pure fun _ hs => ⟨rfl, hs.1 ▸ orderly, hs.1 ▸ rfl, hs.2.1⟩
  | cons x xs ih =>
    obtain ⟨hclear, hrest⟩ := List.pairwise_cons.mp clear
    obtain ⟨t, ht⟩ := awaited x List.mem_cons_self
    have htidy := orderly.tidy_of_known ht.known
    have hnext := @ih _ (cs ++ [.emit x.1 x.2.1 x.2.2.instr])
      (orderly.insert ht.known (ht.tidy_insert htidy))
      (fun y hy => (awaited y (List.mem_cons_of_mem _ hy)).elim fun u hu =>
        hu.after ht orderly (hclear y hy))
      hrest fun y hy => accepted y (List.mem_cons_of_mem _ hy)
    rw [orderly.unnumbered_insert ht.known (ht.start_ne htidy)] at hnext
    rw [addAll, List.map_cons, List.mapM_cons]
    apply (addInstruction_enters orderly ht (accepted x List.mem_cons_self)).bind
    rintro _ s ⟨rfl, hs⟩
    refine hnext.bind (fun times => Triple.pure ?_) s hs
    rintro s ⟨rfl, hend⟩
    exact ⟨rfl, hend⟩

end Session

/-- The channel is there, and takes the instruction on ticks of its own. -/
structure Registry.Takes (r : Registry) (j : String × String × Instruction) (t : Timeline)
    (first stop : Nat) : Prop where
  known : r.channel? j.1 j.2.1 = .ok t
  playable : (t.line.wave? j.2.2 t.idle).isSome = true
  occupies : t.Occupies j.2.2 first stop

/-- Instructions for the same channel do not share a tick. -/
def Registry.Disjoint (r : Registry) (i j : String × String × Instruction) : Prop :=
  i.1 = j.1 → i.2.1 = j.2.1 → ∀ t first stop first' stop', r.Takes i t first stop →
    r.Takes j t first' stop' → stop ≤ first' ∨ stop' ≤ first

/-- Names are not shared, and no channel carries an instruction. -/
structure Registry.Blank (r : Registry) : Prop where
  cards : r.cards.names.Nodup
  channels : ∀ e ∈ r.cards.entries, e.2.channels.names.Nodup
  blank : ∀ e ∈ r.cards.entries, ∀ f ∈ e.2.channels.entries, f.2.bookings = []

namespace Registry

variable {r : Registry} {j : String × String × Instruction}

theorem Blank.orderly (h : r.Blank) : r.Orderly where
  cards := h.cards
  channels := h.channels
  tidy e he f hf := by
    have hnone := h.blank e he f hf
    exact .of_separate (by simp [hnone]) (by simp [hnone]) (by simp [hnone])

/-- Where the instruction goes on its channel. -/
def placement (r : Registry) (j : String × String × Instruction) : Placement :=
  match (r.channel? j.1 j.2.1).bind fun t => (t.span j.2.2).mapError .range with
  | .ok (first, stop) => (j.1, j.2.1, ⟨first, stop, 0, j.2.2⟩)
  | .error _ => (j.1, j.2.1, ⟨0, 0, 0, j.2.2⟩)

theorem request_placement (r : Registry) (j : String × String × Instruction) :
    (r.placement j).request = j := by
  unfold placement
  split <;> rfl

theorem Takes.placement {t : Timeline} {first stop : Nat} (h : r.Takes j t first stop) :
    r.placement j = (j.1, j.2.1, ⟨first, stop, 0, j.2.2⟩) := by
  have hspan := Timeline.span_eq_ok_iff.mpr h.occupies
  simp [Registry.placement, h.known, hspan, Except.bind, Except.mapError]

theorem Blank.awaits (h : r.Blank) {t : Timeline} {first stop : Nat}
    (takes : r.Takes j t first stop) : r.Awaits (r.placement j) t := by
  rw [takes.placement]
  refine ⟨takes.known, takes.playable, takes.occupies, fun b hb => ?_⟩
  obtain ⟨c, hc, hchannel⟩ := channel?_eq_ok_iff.mp takes.known
  rw [h.blank _ (Table.get?_mem hc) _ (Table.get?_mem hchannel)] at hb
  cases hb

theorem Disjoint.placement {i j : String × String × Instruction} (h : r.Disjoint i j)
    {t u : Timeline} {first stop first' stop' : Nat} (hi : r.Takes i t first stop)
    (hj : r.Takes j u first' stop') : (r.placement i).Clear (r.placement j) := by
  rw [hi.placement, hj.placement]
  intro hcard hchannel
  have hu := hi.known
  rw [show i.1 = j.1 from hcard, show i.2.1 = j.2.1 from hchannel] at hu
  obtain rfl : t = u := Except.ok.inj (hu.symm.trans hj.known)
  exact h hcard hchannel t first stop first' stop' hi hj

instance : Std.Symm r.Disjoint where
  symm _ _ h hcard hchannel t first stop first' stop' hi hj :=
    (h hcard.symm hchannel.symm t first' stop' first stop hj hi).symm

end Registry

namespace Session

open Job Triple

/-- A collection is added to channels without instructions in whatever order it comes, and lets the
same bookings in. -/
theorem addAll_blank {s : Session} {js ks : List (String × String × Instruction)}
    (blank : s.registry.Blank)
    (taken : ∀ j ∈ js, ∃ t first stop, s.registry.Takes j t first stop)
    (disjoint : js.Pairwise s.registry.Disjoint)
    (accepted : ∀ j ∈ js, s.backend.accepts (.emit j.1 j.2.1 j.2.2) = true) (hks : ks.Perm js) :
    ((addAll ks).run.run s).1 = .ok (ks.map (·.2.2.next)) ∧
      ((addAll ks).run.run s).2.registry.Orderly ∧
      ((addAll ks).run.run s).2.registry.unnumbered =
        (js.map s.registry.placement).foldl Registry.enter s.registry.unnumbered ∧
      ((addAll ks).run.run s).2.backend.failing = s.backend.failing := by
  have hrequests : (ks.map s.registry.placement).map Placement.request = ks := by
    simp [Registry.request_placement, Function.comp_def]
  have htaken : ∀ j ∈ ks, ∃ t first stop, s.registry.Takes j t first stop :=
    fun j hj => taken j (hks.mem_iff.mp hj)
  have hawaited : ∀ x ∈ ks.map s.registry.placement, ∃ t, s.registry.Awaits x t := by
    refine List.forall_mem_map.mpr fun j hj => ?_
    obtain ⟨t, first, stop, htakes⟩ := htaken j hj
    exact ⟨t, blank.awaits htakes⟩
  have hclear : (ks.map s.registry.placement).Pairwise Placement.Clear := by
    have hdisjoint : ks.Pairwise s.registry.Disjoint :=
      hks.symm.pairwise disjoint fun hij => Std.Symm.symm _ _ hij
    refine List.pairwise_map.mpr (hdisjoint.imp_of_mem fun hi hj hij => ?_)
    obtain ⟨t, first, stop, hi⟩ := htaken _ hi
    obtain ⟨u, first', stop', hj⟩ := htaken _ hj
    exact hij.placement hi hj
  have haccepted : ∀ x ∈ ks.map s.registry.placement,
      s.backend.accepts (.emit x.1 x.2.1 x.2.2.instr) = true := by
    refine List.forall_mem_map.mpr fun j hj => ?_
    have hrequest := s.registry.request_placement j
    have hcall := accepted j (hks.mem_iff.mp hj)
    rwa [← hrequest] at hcall
  have hroom : ∀ x ∈ ks.map s.registry.placement, x.2.2.start < x.2.2.stop := fun x hx =>
    (hawaited x hx).elim fun _ ht => ht.occupies.room
  have hend := addAll_enters blank.orderly hawaited hclear haccepted s (.start s)
  rw [hrequests] at hend
  rcases hrun : (addAll ks).run.run s with ⟨result, s'⟩
  rw [hrun] at hend
  cases result with
  | error e => exact hend.elim
  | ok times =>
    obtain ⟨rfl, horderly, hunnumbered, hfailing⟩ := hend
    have hperm := Registry.foldl_enter_perm (hks.map s.registry.placement) hroom hclear
      s.registry.unnumbered
    have htimes := congrArg (List.map fun j => j.2.2.next) hrequests
    rw [List.map_map] at htimes
    exact ⟨congrArg Except.ok htimes, horderly, hunnumbered.trans hperm, hfailing⟩

/-- The order in which instructions are added does not matter. Take channels without instructions,
and a collection of instructions that these channels can follow, on ticks of the grid that are free
of each other, with a backend that takes them all. In every order all of them are added, and
whatever is compiled afterwards comes to the same: the same stop time or error, and the same
program. -/
theorem insertion_order_free {s : Session} {js : List (String × String × Instruction)}
    (blank : s.registry.Blank)
    (taken : ∀ j ∈ js, ∃ t first stop, s.registry.Takes j t first stop)
    (disjoint : js.Pairwise s.registry.Disjoint)
    (accepted : ∀ j ∈ js, s.backend.accepts (.emit j.1 j.2.1 j.2.2) = true) :
    (∀ ks, ks.Perm js → ((addAll ks).run.run s).1 = .ok (ks.map (·.2.2.next))) ∧
    ∀ ks ls, ks.Perm js → ls.Perm js → ∀ (asks : List (Option Float)) asked,
      let compiled := fun order =>
        (compile asked).run.run (((addAll order).run.run s).2.operate (asks.map .compile))
      (compiled ks).1 = (compiled ls).1 ∧
        (compiled ks).2.registry.program = (compiled ls).2.registry.program := by
  have hadded := fun ks (hks : List.Perm ks js) => addAll_blank blank taken disjoint accepted hks
  refine ⟨fun ks hks => (hadded ks hks).1, fun ks ls hks hls asks asked => ?_⟩
  obtain ⟨-, -, hsame, hfailing⟩ := hadded ks hks
  obtain ⟨-, horderly, hsame', hfailing'⟩ := hadded ls hls
  have halike : ((addAll ls).run.run s).2.Alike ((addAll ks).run.run s).2 :=
    ⟨horderly.apart, hsame.trans hsame'.symm, hfailing.trans hfailing'.symm⟩
  obtain ⟨hresult, hprogram, -⟩ := (halike.compiles asks).compiled asked
  exact ⟨hresult, hprogram⟩

/-- An analog channel and a digital one, both without instructions. -/
def blankSession : Session :=
  let level : Timeline := { name := "ao0", line := .analog, rate := 1000, registered := 0 }
  let switch : Timeline :=
    { name := "port0/line0", line := .digital, rate := 1000, registered := 0 }
  let levels : Card :=
    { name := "Dev1", kind := .analog, rate := 1000, channels := ⟨[("ao0", level)]⟩ }
  let switches : Card :=
    { name := "Dev2", kind := .digital, rate := 1000, channels := ⟨[("port0/line0", switch)]⟩ }
  { registry := { cards := ⟨[("Dev1", levels), ("Dev2", switches)]⟩ } }

/-- Two levels on one channel, the later one first, and a switch on the other. -/
def sampleInstructions : List (String × String × Instruction) :=
  [("Dev1", "ao0", .lasting 1 0.5 false (.constant 2)),
    ("Dev1", "ao0", .lasting 0 0.5 false (.constant 1)),
    ("Dev2", "port0/line0", .holding 0 .high)]

theorem sampleInstructions_order_free :
    (∀ ks, ks.Perm sampleInstructions →
      ((addAll ks).run.run blankSession).1 = .ok (ks.map (·.2.2.next))) ∧
    ∀ ks ls, ks.Perm sampleInstructions → ls.Perm sampleInstructions →
      ∀ (asks : List (Option Float)) asked,
      let compiled := fun order =>
        (compile asked).run.run (((addAll order).run.run blankSession).2.operate
          (asks.map .compile))
      (compiled ks).1 = (compiled ls).1 ∧
        (compiled ks).2.registry.program = (compiled ls).2.registry.program := by
  have hblank : blankSession.registry.Blank :=
    ⟨by decide +kernel, by decide +kernel, by decide +kernel⟩
  have htaken : ∀ j ∈ sampleInstructions,
      ∃ t first stop, blankSession.registry.Takes j t first stop := by
    simp only [sampleInstructions, List.forall_mem_cons]
    refine ⟨⟨_, 1000, 1500, rfl, rfl, ?_⟩, ⟨_, 0, 500, rfl, rfl, ?_⟩,
      ⟨_, 0, 1, rfl, rfl, ?_⟩, nofun⟩
    all_goals exact ⟨by decide +kernel, by decide +kernel, by decide +kernel, by decide⟩
  -- only the two levels are for the same channel, and the second one is over at tick 500
  have hlevels : blankSession.registry.Disjoint
      ("Dev1", "ao0", .lasting 1 0.5 false (.constant 2))
      ("Dev1", "ao0", .lasting 0 0.5 false (.constant 1)) := by
    intro _ _ t first stop first' stop' hi hj
    obtain rfl := Except.ok.inj (hi.known.symm.trans rfl)
    have hfirst : 1000 = first :=
      Option.some.inj ((show _ = some 1000 by decide +kernel).symm.trans hi.occupies.begins)
    have hfirst' : 0 = first' :=
      Option.some.inj ((show _ = some 0 by decide +kernel).symm.trans hj.occupies.begins)
    subst hfirst'
    have hstop' : 500 = stop' :=
      Option.some.inj ((show _ = some 500 by decide +kernel).symm.trans hj.occupies.ends)
    omega
  have hdisjoint : sampleInstructions.Pairwise blankSession.registry.Disjoint := by
    have hcards : "Dev1" ≠ "Dev2" := by decide
    refine .cons (List.forall_mem_cons.mpr ⟨hlevels, ?_⟩) (.cons ?_ (List.pairwise_singleton _ _))
    all_goals exact List.forall_mem_singleton.mpr fun h => absurd h hcards
  have haccepted : ∀ j ∈ sampleInstructions,
      blankSession.backend.accepts (.emit j.1 j.2.1 j.2.2) = true := fun _ _ => rfl
  exact insertion_order_free hblank htaken hdisjoint haccepted

end Session

end Sequencer
