import Sequencer.Proofs.Card.Addresses
import Sequencer.Proofs.Card.Numbering

namespace Sequencer

namespace Booking

/-- The last booking that begins by tick `k`, and the first one that begins later. -/
def around (k : Nat) (bs : List Booking) : List Booking :=
  (bs.filter (·.start ≤ k)).getLast?.toList ++ (bs.find? (k < ·.start)).toList

theorem around_unnumbered (k : Nat) (bs : List Booking) :
    around k (bs.map unnumbered) = (around k bs).map unnumbered := by
  have hstart : ∀ b : Booking, b.unnumbered.start = b.start := fun _ => rfl
  simp only [around, List.filter_map, List.find?_map, Function.comp_def, hstart,
    List.getLast?_map, List.map_append, Option.toList_map]

end Booking

namespace Error

/-- An error without the insertion numbers of its bookings. -/
def unnumbered : Error → Error
  | overlap channel new existing => .overlap channel new.unnumbered existing.unnumbered
  | e => e

/-- The texts of errors do not show them. -/
theorem message_unnumbered (e : Error) : e.unnumbered.message = e.message := by
  cases e <;> rfl

/-- Two results that look the same are both good or both bad. -/
theorem cases_of_unnumbered {α β : Type} {f : α → β} {x y : Except Error α}
    (h : (y.map f).mapError unnumbered = (x.map f).mapError unnumbered) :
    (∃ a b, x = .ok a ∧ y = .ok b ∧ f b = f a) ∨
      ∃ e e', x = .error e ∧ y = .error e' ∧ e'.unnumbered = e.unnumbered := by
  cases x <;> cases y <;> simp_all [Except.map, Except.mapError]

end Error

namespace Timeline

/-- A timeline as far as its later signals and refusals show it: without nickname, insertion numbers
and mark of freshness. -/
def outward (t : Timeline) : Timeline := t.content.unnumbered

/-- The timeline as it was registered. -/
def anew (t : Timeline) : Timeline where
  name := t.name
  line := t.line
  rate := t.rate
  registered := t.registered

theorem clear_eq (t : Timeline) :
    t.clear = { t with bookings := [], fresh := t.clear.fresh } := by
  unfold clear
  split
  case isTrue h => rw [← List.isEmpty_iff.mp h]
  case isFalse => rfl

theorem clear_clear (t : Timeline) : t.clear.clear = t.clear := by
  have hempty : t.clear.bookings.isEmpty = true := by rw [clear_eq, List.isEmpty_nil]
  rw [clear, if_pos hempty]

/-- A cleared timeline looks like a new one. -/
theorem outward_clear (t : Timeline) : t.clear.outward = t.anew.outward := by
  rw [clear_eq]
  rfl

/-- Where an instruction goes, decided by starts alone. -/
def spot (t : Timeline) (i : Instruction) : Except Error Booking :=
  match t.span i with
  | .error fault => .error (.range fault)
  | .ok (first, stop) =>
    match (Booking.around first t.bookings).find? (·.overlaps ⟨first, stop, 0, i⟩) with
    | some other => .error (.overlap t.name ⟨first, stop, 0, i⟩ other)
    | none => .ok ⟨first, stop, 0, i⟩

theorem neighbours_eq_around {t : Timeline} {n : Booking} (h : ∀ b ∈ t.bookings, b.seq < n.seq) :
    t.neighbours n = Booking.around n.start t.bookings := by
  have hfront : t.bookings.filter (·.before n) = t.bookings.filter (·.start ≤ n.start) :=
    List.filter_congr fun b hb => by simp [← Booking.before_iff (h b hb)]
  have hback : t.bookings.find? (!·.before n) = t.bookings.find? (n.start < ·.start) := by
    rw [← List.head?_filter, ← List.head?_filter]
    refine congrArg List.head? (List.filter_congr fun b hb => ?_)
    simp [← Nat.not_le, ← Booking.before_iff (h b hb)]
  rw [neighbours, Booking.around, hfront, hback]

/-- A newcomer has the highest insertion number, so that the numbers are nothing to its place. -/
theorem Tidy.place_outward {t : Timeline} (h : t.Tidy) (i : Instruction) :
    ((t.place i).map Booking.unnumbered).mapError Error.unnumbered = t.outward.spot i := by
  have hspan : t.outward.span i = t.span i := rfl
  rw [place_eq, spot, hspan]
  cases t.span i with
  | error fault => rfl
  | ok ticks =>
    obtain ⟨first, stop⟩ := ticks
    have hbookings : t.outward.bookings = t.bookings.map Booking.unnumbered := rfl
    have hoverlaps : ∀ b : Booking, b.unnumbered.overlaps ⟨first, stop, 0, i⟩ =
        b.overlaps ⟨first, stop, t.nextSeq, i⟩ := fun _ => rfl
    dsimp only
    rw [neighbours_eq_around h.numbered, hbookings, Booking.around_unnumbered, List.find?_map]
    simp only [Function.comp_def, hoverlaps]
    cases (Booking.around first t.bookings).find? _ <;> rfl

/-- Adding an instruction shows no more than where it goes. -/
theorem Tidy.add_outward {t : Timeline} (h : t.Tidy) (i : Instruction) :
    ((t.add i).map outward).mapError Error.unnumbered =
      (t.outward.spot i).map fun b => t.outward.enter b := by
  rw [← h.place_outward, Timeline.add]
  cases hplace : t.place i with
  | error e => rfl
  | ok b =>
    have hclear : ∀ c ∈ t.bookings, c.start ≠ b.start := by
      obtain ⟨first, stop, hocc, rfl, hfree⟩ := place_eq_ok_iff.mp hplace
      exact h.start_ne hocc.room ((h.neighbours_free_iff hocc.room rfl).mp hfree)
    have hinsert : (t.insert b).outward = t.outward.enter b.unnumbered := by
      have hplain := t.insert_unnumbered hclear
      exact congrArg (fun u : Timeline => { u with nickname := none }) hplain
    simp only [Except.map, Except.mapError, hinsert]

/-- Timelines that look the same take the same instructions, and refuse the others alike. -/
theorem Tidy.add_alike {t u : Timeline} (ht : t.Tidy) (hu : u.Tidy) (same : u.outward = t.outward)
    (i : Instruction) : ((u.add i).map outward).mapError Error.unnumbered =
      ((t.add i).map outward).mapError Error.unnumbered := by
  rw [ht.add_outward, hu.add_outward, same]

end Timeline

namespace Card

/-- A card as far as later additions and compilations show it. -/
def outward (c : Card) : Card := c.content.unnumbered

def Tidy (c : Card) : Prop := ∀ e ∈ c.channels.entries, e.2.Tidy

/-- The card with one more instruction on a channel, checked for whether the channel can follow it
or not. -/
def accept (checked : Bool) (channel : String) (i : Instruction) (c : Card) :
    Except Error Card := do
  let t ← c.channel? channel
  if checked && (t.line.wave? i t.idle).isNone then throw (.wrongKind c.name channel i.action)
  let t' ← t.add i
  return c.modifyChannel channel fun _ => t'

/-- What can be done to a card. -/
inductive Step where
  | add (checked : Bool) (channel : String) (i : Instruction)
  | compile (stop : Float)

/-- The card after a step, and what the step gives: nothing, a compiled card or an error. A refused
addition changes nothing. -/
def Step.run (c : Card) : Step → Card × Except Error (Option CardProgram)
  | add checked channel i =>
    match c.accept checked channel i with
    | .ok c' => (c', .ok none)
    | .error e => (c, .error e)
  | compile stop => ((c.compile stop).1, (c.compile stop).2.map some)

/-- What steps one after another give. -/
def outcomes (c : Card) : List Step → List (Except Error (Option CardProgram))
  | [] => []
  | s :: steps => (s.run c).2 :: (s.run c).1.outcomes steps

/-- A result as its caller sees it: an error without the insertion numbers of its bookings, and its
text. -/
def shown (x : Except Error (Option CardProgram)) :
    Except (Error × String) (Option CardProgram) :=
  x.mapError fun e => (e.unnumbered, e.message)

theorem Step.run_add (c : Card) (checked : Bool) (channel : String) (i : Instruction) :
    (add checked channel i).run c =
      match c.accept checked channel i with
      | .ok c' => (c', .ok none)
      | .error e => (c, .error e) := by
  unfold run
  rfl

theorem accept_eq (checked : Bool) (channel : String) (i : Instruction) (c : Card) :
    c.accept checked channel i =
      match c.channels.get? channel with
      | none => .error (.unknownChannel c.name channel c.channels.names)
      | some t =>
        if checked && (t.line.wave? i t.idle).isNone then
          .error (.wrongKind c.name channel i.action)
        else (t.add i).map fun t' => c.modifyChannel channel fun _ => t' := by
  unfold accept channel?
  cases c.channels.get? channel with
  | none => rfl
  | some t =>
    change (if (checked && (t.line.wave? i t.idle).isNone) = true then _ else _) = ite _ _ _
    split
    · rfl
    · cases t.add i <;> rfl

theorem channels_outward (c : Card) : c.outward.channels = c.channels.map Timeline.outward := by
  simp only [outward, unnumbered, content, Table.map, List.map_map]
  rfl

theorem outward_eq (c : Card) : c.outward = { c with
    nickname := none, sync := {}, channels := c.channels.map Timeline.outward } := by
  rw [← c.channels_outward]
  rfl

theorem outward_modifyChannel (c : Card) (channel : String) (t : Timeline) :
    (c.modifyChannel channel fun _ => t).outward =
      c.outward.modifyChannel channel fun _ => t.outward := by
  have hchannels : (c.channels.modify channel fun _ => t).map Timeline.outward =
      (c.channels.map Timeline.outward).modify channel fun _ => t.outward :=
    Table.map_modify_of fun _ _ => rfl
  rw [outward_eq, modifyChannel, hchannels, outward_eq]
  rfl

namespace Tidy

variable {c : Card}

theorem compile_outward (h : c.Tidy) (stop : Float) :
    (c.outward.compile stop).2 = (c.compile stop).2 := by
  have hapart : ∀ e ∈ c.content.channels.entries, e.2.Apart := by
    intro e he
    obtain ⟨d, hd, rfl⟩ := List.mem_map.mp he
    exact (h d hd).apart
  rw [outward, compile_unnumbered hapart, compile_content]

theorem compile (h : c.Tidy) (stop : Float) : (c.compile stop).1.Tidy := by
  intro e he
  have hchannels : (c.compile stop).1.channels.map Timeline.unmarked =
      c.channels.map Timeline.unmarked := congrArg Card.channels (c.compile_fst_unmarked stop)
  obtain ⟨d, hd, -, hsame⟩ := Table.exists_of_map_eq hchannels he
  exact (h d hd).of_bookings (congrArg Timeline.bookings hsame).symm
    (congrArg Timeline.nextSeq hsame).symm

theorem modifyChannel (h : c.Tidy) (channel : String) {t : Timeline} (ht : t.Tidy) :
    (c.modifyChannel channel fun _ => t).Tidy := by
  intro e he
  rcases Table.mem_modify he with hold | ⟨-, -, rfl⟩
  · exact h e hold
  · exact ht

theorem accept (h : c.Tidy) {checked : Bool} {channel : String} {i : Instruction} {c' : Card}
    (accepted : c.accept checked channel i = .ok c') : c'.Tidy := by
  rw [accept_eq] at accepted
  split at accepted
  · cases accepted
  case h_2 t ht =>
    split at accepted
    · cases accepted
    · cases hadd : t.add i with
      | error e => simp [hadd, Except.map] at accepted
      | ok t' =>
        obtain rfl : c.modifyChannel channel (fun _ => t') = c' := by
          simpa [hadd, Except.map] using accepted
        exact h.modifyChannel channel ((h _ (Table.get?_mem ht)).add hadd)

end Tidy

/-- Two cards that look the same. -/
structure Alike (c d : Card) : Prop where
  tidy : c.Tidy
  tidy' : d.Tidy
  same : d.outward = c.outward

namespace Alike

variable {c d : Card}

theorem name_eq (h : c.Alike d) : d.name = c.name := by
  change d.outward.name = c.outward.name
  rw [h.same]

theorem channels (h : c.Alike d) :
    d.channels.map Timeline.outward = c.channels.map Timeline.outward := by
  rw [← channels_outward, ← channels_outward, h.same]

theorem names (h : c.Alike d) : d.channels.names = c.channels.names := by
  rw [← d.channels.names_map Timeline.outward, h.channels, Table.names_map]

theorem compile (h : c.Alike d) (stop : Float) :
    (c.compile stop).1.Alike (d.compile stop).1 ∧ (d.compile stop).2 = (c.compile stop).2 := by
  have hkept : ∀ c : Card, (c.compile stop).1.outward = c.outward := fun c =>
    congrArg Card.unnumbered (c.compile_fst_content stop)
  refine ⟨⟨h.tidy.compile stop, h.tidy'.compile stop, ?_⟩, ?_⟩
  · rw [hkept, hkept, h.same]
  · rw [← h.tidy.compile_outward, ← h.tidy'.compile_outward, h.same]

/-- Additions are refused for the same reasons, or done and make the cards look the same again. -/
theorem accept (h : c.Alike d) (checked : Bool) (channel : String) (i : Instruction) :
    ((d.accept checked channel i).map outward).mapError Error.unnumbered =
      ((c.accept checked channel i).map outward).mapError Error.unnumbered := by
  have hget := congrArg (·.get? channel) h.channels
  simp only [Table.get?_map] at hget
  rw [accept_eq, accept_eq, h.names, h.name_eq]
  cases ht : c.channels.get? channel with
  | none =>
    rw [ht] at hget
    rw [Option.map_eq_none_iff.mp hget]
  | some t =>
    rw [ht, Option.map_some, Option.map_eq_some_iff] at hget
    obtain ⟨u, hu, hsame⟩ := hget
    rw [hu]
    have hline : u.line = t.line := by
      change u.outward.line = t.outward.line
      rw [hsame]
    have hidle : u.idle = t.idle := by
      change u.outward.idle = t.outward.idle
      rw [hsame]
    have hadd := (h.tidy _ (Table.get?_mem ht)).add_alike (h.tidy' _ (Table.get?_mem hu)) hsame i
    dsimp only
    rw [hline, hidle]
    split
    · rfl
    · obtain ⟨t', u', ht', hu', hsame'⟩ | ⟨e, e', ht', hu', hsame'⟩ :=
        Error.cases_of_unnumbered hadd
      · simp only [ht', hu', Except.map, Except.mapError, outward_modifyChannel, hsame', h.same]
      · simp only [ht', hu', Except.map, Except.mapError, hsame']

theorem step (h : c.Alike d) (s : Step) : (s.run c).1.Alike (s.run d).1 ∧
    (s.run d).2.mapError Error.unnumbered = (s.run c).2.mapError Error.unnumbered := by
  cases s with
  | compile stop =>
    obtain ⟨halike, hresult⟩ := h.compile stop
    exact ⟨halike, by rw [Step.run, Step.run, hresult]⟩
  | add checked channel i =>
    obtain ⟨c', d', hc, hd, hsame⟩ | ⟨e, e', hc, hd, hsame⟩ :=
      Error.cases_of_unnumbered (h.accept checked channel i)
    · rw [Step.run_add, Step.run_add, hc, hd]
      exact ⟨⟨h.tidy.accept hc, h.tidy'.accept hd, hsame⟩, rfl⟩
    · rw [Step.run_add, Step.run_add, hc, hd]
      exact ⟨h, congrArg Except.error hsame⟩

/-- Whatever is done to two cards that look the same gives the same. -/
theorem outcomes_eq (h : c.Alike d) (steps : List Step) :
    (d.outcomes steps).map (·.mapError Error.unnumbered) =
      (c.outcomes steps).map (·.mapError Error.unnumbered) := by
  induction steps generalizing c d with
  | nil => rfl
  | cons s steps ih =>
    obtain ⟨halike, hresult⟩ := h.step s
    simp only [outcomes, List.map_cons, hresult, ih halike]

end Alike

/-- The card without instructions and without ties to other cards. All else is as it was, insertion
numbers included. -/
structure Renewed (c c' : Card) : Prop where
  name : c'.name = c.name
  kind : c'.kind = c.kind
  rate : c'.rate = c.rate
  nickname : c'.nickname = c.nickname
  sync : c'.sync = {}
  channels : List.Forall₂
    (fun e e' => e'.1 = e.1 ∧ e'.2 = { e.2 with bookings := [], fresh := e'.2.fresh })
    c.channels.entries c'.channels.entries

/-- A new card of the same name, kind and rate, to which the same channels are added. -/
def rebuilt (c : Card) : Except Error Card :=
  c.channels.entries.foldlM (fun d e => d.addChannel e.1 e.2.line e.2.registered)
    { name := c.name, kind := c.kind, rate := c.rate }

/-- A channel that could be registered on a card of this kind and rate under its name. -/
structure Takes (kind : CardKind) (rate : Float) (e : String × Timeline) : Prop where
  named : e.2.name = e.1
  clocked : e.2.rate = rate
  hosted : e.2.line.isDigital = (kind == .digital)
  fits : kind.names e.1 = true

/-- Channels with different names come in one after another, each as a new one. -/
theorem foldlM_addChannel {c : Card} {es : List (String × Timeline)}
    (takes : ∀ e ∈ es, Takes c.kind c.rate e)
    (distinct : (c.channels.names ++ es.map (·.1)).Nodup) :
    es.foldlM (fun d e => d.addChannel e.1 e.2.line e.2.registered) c =
      .ok { c with channels := ⟨c.channels.entries ++ es.map fun e => (e.1, e.2.anew)⟩ } := by
  induction es generalizing c with
  | nil =>
    rw [List.map_nil, List.append_nil]
    rfl
  | cons e es ih =>
    obtain ⟨he, hes⟩ := List.forall_mem_cons.mp takes
    have hfree : c.channels.contains e.1 = false := Table.contains_eq_false_iff.mpr fun hmem =>
      (List.nodup_append.mp distinct).2.2 e.1 hmem e.1 (by simp) rfl
    have hadd : c.addChannel e.1 e.2.line e.2.registered =
        .ok (c.host e.1 e.2.line e.2.registered) :=
      addChannel_eq_ok_iff.mpr ⟨⟨he.hosted, he.fits, hfree⟩, rfl⟩
    have hhost : c.host e.1 e.2.line e.2.registered =
        { c with channels := ⟨c.channels.entries ++ [(e.1, e.2.anew)]⟩ } := by
      simp [host, Table.put, hfree, Timeline.anew, he.named, he.clocked]
    rw [List.foldlM_cons, hadd, hhost]
    have hrest := @ih { c with channels := ⟨c.channels.entries ++ [(e.1, e.2.anew)]⟩ } hes
      (by simpa [Table.names] using distinct)
    exact hrest.trans (by simp)

theorem rebuilt_eq {c : Card} (distinct : c.channels.names.Nodup)
    (takes : ∀ e ∈ c.channels.entries, Takes c.kind c.rate e) : c.rebuilt = .ok { c with
      nickname := none, sync := {}, channels := c.channels.map Timeline.anew } := by
  have hblank := @foldlM_addChannel { name := c.name, kind := c.kind, rate := c.rate }
    c.channels.entries takes (by simpa [Table.names] using distinct)
  rw [rebuilt, hblank]
  rfl

theorem channels_reset (c : Card) : c.reset.channels = c.channels.map Timeline.clear := rfl

theorem reset_reset (c : Card) : c.reset.reset = c.reset := by
  have hchannels : (c.channels.map Timeline.clear).map Timeline.clear =
      c.channels.map Timeline.clear := Table.map_map_of Timeline.clear_clear c.channels
  rw [reset, clearEdits, channels_reset, hchannels]
  rfl

theorem reset_renewed (c : Card) : c.Renewed c.reset := by
  refine ⟨rfl, rfl, rfl, rfl, rfl, ?_⟩
  rw [channels_reset]
  exact List.forall₂_map_right_iff.mpr (List.forall₂_same.mpr fun e _ => ⟨rfl, e.2.clear_eq⟩)

/-- A card that was reset looks like the new one. -/
theorem Tidy.alike_reset {c : Card} (h : c.Tidy) : c.reset.Alike { c with
    nickname := none, sync := {}, channels := c.channels.map Timeline.anew } := by
  refine ⟨?_, ?_, ?_⟩
  · intro e he
    obtain ⟨d, hd, rfl⟩ := List.mem_map.mp he
    exact (h d hd).clear
  · intro e he
    obtain ⟨d, hd, rfl⟩ := List.mem_map.mp he
    exact .of_empty rfl
  · have hchannels : (c.channels.map Timeline.anew).map Timeline.outward =
        (c.channels.map Timeline.clear).map Timeline.outward := by
      simp only [Table.map, List.map_map, Function.comp_def, Timeline.outward_clear]
    rw [outward_eq, outward_eq, channels_reset, hchannels]
    rfl

/-- From a reset on, a card gives what a new one with the same channels would give. -/
theorem outcomes_reset {c : Card} (tidy : c.Tidy) (distinct : c.channels.names.Nodup)
    (takes : ∀ e ∈ c.channels.entries, Takes c.kind c.rate e) : ∃ d, c.rebuilt = .ok d ∧
      ∀ steps, (c.reset.outcomes steps).map shown = (d.outcomes steps).map shown := by
  refine ⟨_, rebuilt_eq distinct takes, fun steps => ?_⟩
  have hshown : ∀ x : Except Error (Option CardProgram),
      shown x = (x.mapError Error.unnumbered).mapError fun e => (e, e.message) := by
    rintro (e | p)
    · simp only [shown, Except.mapError, e.message_unnumbered]
    · rfl
  have hsame := congrArg (List.map (·.mapError fun e => (e, e.message)))
    (tidy.alike_reset.outcomes_eq steps)
  simpa only [List.map_map, Function.comp_def, ← hshown] using hsame.symm

end Card

end Sequencer
