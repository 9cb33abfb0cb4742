import Sequencer.Operation
import Sequencer.Proofs.Session.Parallel

namespace Sequencer

/-- The channel is there and is of this kind. -/
def Card.Hosts (l : Line) (channel : String) (c : Card) : Prop :=
  ∃ t, c.channels.get? channel = some t ∧ t.line = l

namespace Card

variable {l : Line} {channel : String} {c c' : Card}

theorem Hosts.modifyChannel (h : c.Hosts l channel) {name : String} {f : Timeline → Timeline}
    (hf : ∀ t, (f t).line = t.line) : (c.modifyChannel name f).Hosts l channel := by
  obtain ⟨t, ht, hline⟩ := h
  have hget := c.channels.get?_modify name f channel
  by_cases hname : channel = name
  · rw [if_pos hname, ht] at hget
    exact ⟨f t, hget, (hf t).trans hline⟩
  · rw [if_neg hname, ht] at hget
    exact ⟨t, hget, hline⟩

theorem Hosts.addChannel (h : c.Hosts l channel) {name : String} {line : Line} {registered : Float}
    (hadd : c.addChannel name line registered = .ok c') : c'.Hosts l channel := by
  obtain ⟨t, ht, hline⟩ := h
  obtain ⟨-, hfree, rfl⟩ := addChannel_eq_ok hadd
  have hne : channel ≠ name := Table.ne_of_mem (Table.get?_mem ht) hfree
  exact ⟨t, by rw [Table.get?_put, if_neg hne, ht], hline⟩

theorem Hosts.clearEdits (h : c.Hosts l channel) : c.clearEdits.Hosts l channel := by
  obtain ⟨t, ht, hline⟩ := h
  refine ⟨t.clear, ?_, ?_⟩
  · simp only [Card.clearEdits, Table.get?_map, ht, Option.map_some]
  · unfold Timeline.clear
    split
    · exact hline
    · exact hline

theorem checkName_agree (h : c'.outline = c.outline) (name : String) :
    Agree Eq (c.checkName name) (c'.checkName name) := by
  have hkind : c'.kind = c.kind := show c'.outline.kind = c.outline.kind by rw [h]
  have hchannels : c'.channels.map (·.outline) = c.channels.map (·.outline) :=
    show c'.outline.channels = c.outline.channels by rw [h]
  have hcontains : c'.channels.contains name = c.channels.contains name := by
    rw [Table.contains, Table.contains, ← Table.names_map Timeline.outline c'.channels, hchannels,
      Table.names_map]
  unfold checkName
  rw [hkind, hcontains]
  split
  · exact .error _ _
  · split
    · exact .error _ _
    · exact .ok rfl

/-- A channel is added on both sides, with the kind that it has on each. -/
theorem addChannel_agree (h : c'.outline = c.outline) (name : String) {line line' : Line}
    (hline : line'.outline = line.outline) (registered : Float) :
    Agree (fun d d' => d'.outline = d.outline) (c.addChannel name line registered)
      (c'.addChannel name line' registered) := by
  have hkind : c'.kind = c.kind := show c'.outline.kind = c.outline.kind by rw [h]
  have hrate : c'.rate = c.rate := show c'.outline.rate = c.outline.rate by rw [h]
  have hchannels : c'.channels.map (·.outline) = c.channels.map (·.outline) :=
    show c'.outline.channels = c.outline.channels by rw [h]
  have hfits : (line'.isDigital != (c'.kind == .digital)) =
      (line.isDigital != (c.kind == .digital)) := by
    rw [← line'.isDigital_outline, ← line.isDigital_outline, hline, hkind]
  unfold addChannel
  rw [hfits]
  split
  · exact .error _ _
  · refine (checkName_agree h name).map fun _ _ _ => ?_
    have hout : ∀ (c : Card) t, ({ c with channels := c.channels.put name t } : Card).outline =
        { c.outline with channels := (c.channels.map (·.outline)).put name t.outline } := by
      intro c t
      rw [← Table.map_put]
      rfl
    rw [hout, hout, h, hchannels]
    simp only [Timeline.outline, hline, hrate, List.map_nil]

end Card

theorem Booking.insert_outline (b : Booking) (bs : List Booking) :
    (b.insert bs).map (·.outline) = b.outline.insert (bs.map (·.outline)) := by
  induction bs with
  | nil => rfl
  | cons c bs ih =>
    have horder : b.outline.order c.outline = b.order c := rfl
    simp only [insert, List.map_cons, horder]
    cases b.order c with
    | lt => rfl
    | eq => rfl
    | gt => rw [List.map_cons, ih]

theorem Timeline.insert_outline {t t' : Timeline} {b b' : Booking} (h : t'.outline = t.outline)
    (hb : b'.outline = b.outline) : (t'.insert b').outline = (t.insert b).outline := by
  have hout : ∀ (t : Timeline) b, (t.insert b).outline =
      { t.outline with
        bookings := b.outline.insert t.outline.bookings
        nextSeq := max t.outline.nextSeq b.outline.seq + 1 } := by
    intro t b
    simp only [outline, insert, Booking.insert_outline]
    rfl
  rw [hout, hout, h, hb]

namespace Registry

/-- The channel is there and is of this kind. -/
def Hosts (l : Line) (card channel : String) (r : Registry) : Prop :=
  ∃ c, r.cards.get? card = some c ∧ c.Hosts l channel

/-- Registries with the same outline that differ in the kind of a line. -/
structure Twins (l l' : Line) (card channel : String) (r r' : Registry) : Prop where
  outline : r'.outline = r.outline
  first : r.Hosts l card channel
  second : r'.Hosts l' card channel

variable {l l' : Line} {card channel : String} {r r' : Registry}

theorem Hosts.of_cards (h : r.Hosts l card channel) (hcards : r'.cards = r.cards) :
    r'.Hosts l card channel := by
  unfold Hosts
  rwa [hcards]

theorem Hosts.modifyCard (h : r.Hosts l card channel) {name : String} {f : Card → Card}
    (hf : name = card → ∀ c, c.Hosts l channel → (f c).Hosts l channel) :
    (r.modifyCard name f).Hosts l card channel := by
  obtain ⟨c, hc, hhosts⟩ := h
  have hget := r.cards.get?_modify name f card
  by_cases hname : card = name
  · rw [if_pos hname, hc] at hget
    exact ⟨f c, hget, hf hname.symm c hhosts⟩
  · rw [if_neg hname, hc] at hget
    exact ⟨c, hget, hhosts⟩

theorem Hosts.of_card? (h : r.Hosts l card channel) {c : Card} (hc : r.card? card = .ok c) :
    c.Hosts l channel := by
  obtain ⟨d, hd, hhosts⟩ := h
  unfold card? at hc
  rw [hd] at hc
  cases hc
  exact hhosts

theorem Hosts.clearEdits (h : r.Hosts l card channel) :
    ({ r with cards := r.cards.map Card.clearEdits } : Registry).Hosts l card channel := by
  obtain ⟨c, hc, hhosts⟩ := h
  exact ⟨c.clearEdits, by rw [Table.get?_map, hc, Option.map_some], hhosts.clearEdits⟩

theorem Hosts.contains (h : r.Hosts l card channel) : r.cards.contains card = true := by
  obtain ⟨c, hc, -⟩ := h
  exact Table.contains_iff.mpr (List.mem_map_of_mem (Table.get?_mem hc))

/-- A channel that was added to a card is there, and is of its kind. -/
theorem Hosts.of_added {c c' : Card} (hc : r.card? card = .ok c) {registered : Float}
    (hadd : c.addChannel channel l registered = .ok c') :
    (r.modifyCard card fun _ => c').withoutProgram.Hosts l card channel := by
  have hget : r.cards.get? card = some c := by
    unfold card? at hc
    split at hc
    · cases hc
      assumption
    · cases hc
  have hcard := r.cards.get?_modify card (fun _ => c') card
  rw [if_pos rfl, hget] at hcard
  obtain ⟨-, -, heq⟩ := Card.addChannel_eq_ok hadd
  have hchannel : c'.channels.get? channel =
      some { name := channel, line := l, rate := c.rate, registered } := by
    rw [heq]
    exact (Table.get?_put ..).trans (if_pos rfl)
  exact ⟨c', hcard, _, hchannel, rfl⟩

theorem Hosts.addCard (h : r.Hosts l card channel) {name : String} (hne : name ≠ card) (c : Card) :
    ({ r with cards := r.cards.put name c } : Registry).Hosts l card channel := by
  obtain ⟨d, hd, hhosts⟩ := h
  exact ⟨d, by rw [Table.get?_put, if_neg hne.symm, hd], hhosts⟩

theorem Hosts.removeCard (h : r.Hosts l card channel) {name : String} (hne : name ≠ card) :
    ({ r with cards := r.cards.erase name } : Registry).Hosts l card channel := by
  obtain ⟨c, hc, hhosts⟩ := h
  exact ⟨c, by rw [Table.get?_erase, if_neg hne.symm, hc], hhosts⟩

theorem Hosts.of_unmarked (h : r.Hosts l card channel) (hr : r'.unmarked = r.unmarked) :
    r'.Hosts l card channel := by
  obtain ⟨c, hc, t, ht, hline⟩ := h
  have hcards : (r'.cards.get? card).map Card.unmarked = (r.cards.get? card).map Card.unmarked := by
    rw [← Table.get?_map, ← Table.get?_map]
    exact show r'.unmarked.cards.get? card = r.unmarked.cards.get? card by rw [hr]
  rw [hc] at hcards
  obtain ⟨c', hc', hcard⟩ := Option.map_eq_some_iff.mp hcards
  have hchannels : (c'.channels.get? channel).map Timeline.unmarked =
      (c.channels.get? channel).map Timeline.unmarked := by
    rw [← Table.get?_map, ← Table.get?_map]
    exact show c'.unmarked.channels.get? channel = c.unmarked.channels.get? channel by rw [hcard]
  rw [ht] at hchannels
  obtain ⟨t', ht', htimeline⟩ := Option.map_eq_some_iff.mp hchannels
  refine ⟨c', hc', t', ht', ?_⟩
  exact (show t'.unmarked.line = t.unmarked.line by rw [htimeline]).trans hline

theorem Twins.likeness (l l' : Line) (card channel : String) : Likeness (Twins l l' card channel) :=
  ⟨fun h => h.outline, fun h => ⟨h.outline, h.first, h.second⟩⟩

theorem Twins.modifyCard (h : r.Twins l l' card channel r') {name : String} {f f' : Card → Card}
    (hf : ∀ c c', c'.outline = c.outline → (f' c').outline = (f c).outline)
    (hfirst : name = card → ∀ c, c.Hosts l channel → (f c).Hosts l channel)
    (hsecond : name = card → ∀ c, c.Hosts l' channel → (f' c).Hosts l' channel) :
    (r.modifyCard name f).Twins l l' card channel (r'.modifyCard name f') :=
  ⟨modifyCard_outline h.outline name hf, h.first.modifyCard hfirst, h.second.modifyCard hsecond⟩

/-- The kinds of lines are nothing to the ties between cards. -/
theorem Twins.modifySync (h : r.Twins l l' card channel r') (name : String)
    (f : SyncSettings → SyncSettings) :
    (r.modifySync name f).Twins l l' card channel (r'.modifySync name f) := by
  refine h.modifyCard (fun c c' hc => ?_) (fun _ _ hhosts => hhosts) fun _ _ hhosts => hhosts
  exact show ({ c'.outline with sync := f c'.outline.sync } : Card) = { c.outline with
    sync := f c.outline.sync } by rw [hc]

theorem Twins.modifyChannel (h : r.Twins l l' card channel r') {name number : String}
    {f f' : Timeline → Timeline}
    (hf : ∀ t t', t'.outline = t.outline → (f' t').outline = (f t).outline)
    (hfirst : ∀ t, (f t).line = t.line) (hsecond : ∀ t, (f' t).line = t.line) :
    (r.modifyChannel name number f).Twins l l' card channel (r'.modifyChannel name number f') :=
  ⟨modifyChannel_outline h.outline name number hf,
    h.first.modifyCard fun _ _ hhosts => hhosts.modifyChannel hfirst,
    h.second.modifyCard fun _ _ hhosts => hhosts.modifyChannel hsecond⟩

theorem Twins.roles (h : r.Twins l l' card channel r') (roles : Roles) :
    ({ r with roles } : Registry).Twins l l' card channel { r' with roles } := by
  refine ⟨?_, h.first.of_cards rfl, h.second.of_cards rfl⟩
  exact show ({ r'.outline with roles } : Registry) = { r.outline with roles } by rw [h.outline]

end Registry

namespace Session

open Job Registry

variable {rel : Registry → Registry → Prop} {l l' : Line} {card channel : String}

theorem placeResets_instr {r : Registry} {t : Float} {placed : List (String × String × Booking)}
    (h : placeResets r t = .ok placed) : ∀ x ∈ placed, x.2.2.instr = .holding t .reset := by
  obtain ⟨perCard, hcards, heq⟩ := exists_of_bind_ok h
  cases heq
  intro x hx
  obtain ⟨resets, hresets, hmem⟩ := List.mem_flatten.mp hx
  obtain ⟨c, -, hc⟩ := exists_of_forall₂ (forall₂_of_mapM_ok hcards) hresets
  obtain ⟨ofCard, hofCard, heq⟩ := exists_of_bind_ok hc
  cases heq
  obtain ⟨y, hy, rfl⟩ := List.mem_map.mp hmem
  obtain ⟨ch, -, -, hplaced⟩ := exists_of_forall₂ (placeReset_channels hofCard) hy
  exact Timeline.place_instr hplaced

/-- An instruction for a channel, which may bring out another level on either side. -/
theorem addInstruction_parallel (like : Likeness rel) {name number : String} {i i' : Instruction}
    (hi : i'.outline = i.outline)
    (insert : ∀ r r' b, rel r r' → b.instr = i → rel (r.modifyChannel name number (·.insert b))
      (r'.modifyChannel name number (·.insert { b with instr := i' }))) :
    Parallel rel Eq (addInstruction name number i) (addInstruction name number i') := by
  unfold addInstruction
  apply (Parallel.requireChannel like name number).bind
  intro t t' ht
  have hline : t'.line.outline = t.line.outline :=
    show t'.outline.line = t.outline.line by rw [ht]
  have hwave : (t'.line.wave? i' t'.idle).isSome = (t.line.wave? i t.idle).isSome := by
    rw [← Line.wave?_outline i t.idle 0, ← Line.wave?_outline i' t'.idle 0, hline, hi]
  apply Parallel.guard
  · rw [← Option.not_isSome, ← Option.not_isSome, hwave]
  intro _
  apply Parallel.ofExcept_bind (Timeline.place_agree ht hi)
  rintro b _ ⟨hinstr, rfl⟩
  apply (Parallel.issue _ _).bind
  intro _ _ _
  apply (Parallel.adjustChannel like fun r r' hr => insert r r' b hr hinstr).bind
  intro _ _ _
  apply (Parallel.dropProgram like).bind
  intro _ _ _
  exact Parallel.pure (show i.outline.next = i'.outline.next by rw [hi])

/-- Resets are the same on both sides. -/
theorem addReset_parallel (like : Likeness rel)
    (insert : ∀ r r' name number b, rel r r' → b.instr.action = .reset →
      rel (r.modifyChannel name number (·.insert b)) (r'.modifyChannel name number (·.insert b)))
    (time : Option Float) : Parallel rel Eq (addReset time) (addReset time) := by
  unfold addReset
  apply Parallel.readRegistry_bind
  intro r r' hr
  have hlast : r'.lastTime = r.lastTime := by
    rw [← lastTime_outline r', like.outline hr, lastTime_outline]
  extract_lets last t rest last' t' rest'
  have ht : t' = t := congrArg time.getD hlast
  have hrest : Parallel rel Eq (rest ()) (rest' ()) := by
    have hresets : Agree (fun xs ys => xs = ys ∧ ∀ x ∈ xs, x.2.2.instr.action = .reset)
        (placeResets r t) (placeResets r' t') := by
      rw [ht]
      exact (placeResets_agree (like.outline hr) t).and_ok fun xs _ hxs _ x hx =>
        congrArg Instruction.action (placeResets_instr hxs x hx)
    apply Parallel.ofExcept_bind hresets
    rintro resets _ ⟨rfl, hreset⟩
    apply (Parallel.forM (List.forall₂_same.mpr fun _ _ => Parallel.issue _ _)).bind
    intro _ _ _
    have hadjust : ∀ x ∈ resets, Parallel rel Eq (adjustChannel x.1 x.2.1 (·.insert x.2.2))
        (adjustChannel x.1 x.2.1 (·.insert x.2.2)) := fun x hx =>
      Parallel.adjustChannel like fun r r' hr => insert r r' x.1 x.2.1 x.2.2 hr (hreset x hx)
    apply (Parallel.forM (List.forall₂_same.mpr hadjust)).bind
    intro _ _ _
    apply (Parallel.dropProgram like).bind
    intro _ _ _
    exact Parallel.pure ht.symm
  cases time with
  | none => exact hrest
  | some time =>
    refine Parallel.guard ?_ fun _ => hrest
    rw [show last' = last from hlast]

theorem switch_parallel (like : Likeness rel) {name number : String} (on : Bool) (t : Float)
    (duration : Option Float)
    (insert : ∀ r r' u u', rel r r' → r.channel? name number = .ok u →
      r'.channel? name number = .ok u' → ∀ s s' b, rel s s' →
      b.instr = ⟨t, duration, false, u.line.switch on duration.isSome⟩ →
      rel (s.modifyChannel name number (·.insert b)) (s'.modifyChannel name number
        (·.insert { b with
          instr := ⟨t, duration, false, u'.line.switch on duration.isSome⟩ }))) :
    Parallel rel Eq (switch name number on t duration) (switch name number on t duration) := by
  unfold switch
  have hrequire : Parallel rel (fun u u' => ∃ r r', rel r r' ∧ r.channel? name number = .ok u ∧
      r'.channel? name number = .ok u')
      (requireChannel name number) (requireChannel name number) := by
    refine Parallel.readRegistry_bind fun r r' hr => Parallel.ofExcept ?_
    exact ((channel?_agree (like.outline hr) name number).and_ok
      fun u u' hu hu' => ⟨r, r', hr, hu, hu'⟩).imp fun _ _ h => h.2
  apply hrequire.bind
  rintro u u' ⟨r, r', hr, hu, hu'⟩
  refine addInstruction_parallel like ?_ fun s s' b hs hb => insert r r' u u' hr hu hu' s s' b hs hb
  simp only [Instruction.outline, Line.switch_outline]

/-- What is done to the first of the twins, and what is done to the second. -/
abbrev ForTwins (l l' : Line) (card channel : String) {α : Type} (j j' : Job α) : Prop :=
  Parallel (Twins l l' card channel) Eq j j'

theorem dropProgram_twins : ForTwins l l' card channel dropProgram dropProgram :=
  Parallel.dropProgram (Twins.likeness ..)

theorem adjustSync_twins (name : String) (f : SyncSettings → SyncSettings) :
    ForTwins l l' card channel (adjustSync name f) (adjustSync name f) :=
  Parallel.adjustCard (Twins.likeness ..) fun _ _ hr => hr.modifySync name f

theorem editSync_twins (name : String) (f : SyncSettings → SyncSettings) :
    ForTwins l l' card channel (do adjustSync name f; dropProgram)
      (do adjustSync name f; dropProgram) :=
  (adjustSync_twins name f).bind fun _ _ _ => dropProgram_twins

theorem adjustRoles_twins (f : Roles → Roles) :
    ForTwins l l' card channel (adjust fun r => { r with roles := f r.roles })
      (adjust fun r => { r with roles := f r.roles }) :=
  Parallel.adjust fun r r' hr => by
    rw [roles_of_outline hr.outline]
    exact hr.roles _

theorem addCard_twins (name : String) (kind : CardKind) (rate : Float) :
    ForTwins l l' card channel (addCard name kind rate) (addCard name kind rate) := by
  unfold addCard
  apply Parallel.readRegistry_bind
  intro r r' hr
  refine Parallel.guard (by rw [contains_of_outline hr.outline]) fun hfree => ?_
  have hne : name ≠ card := by
    rintro rfl
    exact hfree hr.first.contains
  refine Parallel.guard Iff.rfl fun _ => ?_
  apply (Parallel.issue _ _).bind
  intro _ _ _
  apply (Parallel.note _ _).bind
  intro _ _ _
  refine Parallel.adjust fun r r' hr => ⟨?_, hr.first.addCard hne _, hr.second.addCard hne _⟩
  simp only [outline, withoutProgram, Table.map_put, cards_of_outline hr.outline,
    roles_of_outline hr.outline]

theorem removeCard_twins {name : String} (hne : name ≠ card) :
    ForTwins l l' card channel (removeCard name) (removeCard name) := by
  unfold removeCard
  apply (Parallel.requireCard (Twins.likeness ..) name).bind
  intro _ _ _
  have herase : ForTwins l l' card channel (adjust fun r => { r with cards := r.cards.erase name })
      (adjust fun r => { r with cards := r.cards.erase name }) := by
    refine Parallel.adjust fun r r' hr => ⟨?_, hr.first.removeCard hne, hr.second.removeCard hne⟩
    simp only [outline, Table.map_erase, cards_of_outline hr.outline, roles_of_outline hr.outline]
  apply herase.bind
  intro _ _ _
  apply Parallel.readRegistry_bind
  intro r r' hr
  rw [roles_of_outline hr.outline]
  extract_lets dropped rest
  have hrest : ForTwins l l' card channel (rest ()) (rest ()) := by
    apply Parallel.readRegistry_bind
    intro r r' hr
    rw [roles_of_outline hr.outline]
    split
    · apply (Parallel.note _ _).bind
      intro _ _ _
      exact (adjustRoles_twins fun roles => { roles with provider := none }).bind
        fun _ _ _ => dropProgram_twins
    · exact dropProgram_twins
  split
  · apply (Parallel.note _ _).bind
    intro _ _ _
    exact (adjustRoles_twins fun roles => { roles with startsLast := none }).bind
      fun _ _ _ => hrest
  · exact hrest

theorem nameCard_twins (name : String) (nickname : Option String) :
    ForTwins l l' card channel (nameCard name nickname) (nameCard name nickname) := by
  refine Parallel.adjustCard (Twins.likeness ..) fun r r' hr =>
    hr.modifyCard (fun c c' hc => ?_) (fun _ _ h => h) fun _ _ h => h
  exact show ({ c'.outline with nickname } : Card) = { c.outline with nickname } by rw [hc]

theorem nameChannel_twins (name number : String) (nickname : Option String) :
    ForTwins l l' card channel (nameChannel name number nickname)
      (nameChannel name number nickname) := by
  refine Parallel.adjustChannel (Twins.likeness ..) fun r r' hr =>
    hr.modifyChannel (fun t t' ht => ?_) (fun _ => rfl) fun _ => rfl
  exact show ({ t'.outline with nickname } : Timeline) = { t.outline with nickname } by rw [ht]

/-- The new channel may be of another kind on either side. -/
theorem commitChannel_twins (name number : String) {line line' : Line}
    (hline : line'.outline = line.outline) (registered : Float) :
    ForTwins l l' card channel (commitChannel name number line registered)
      (commitChannel name number line' registered) := by
  have hrequire : Parallel (Twins l l' card channel)
      (fun c c' : Card => c'.outline = c.outline ∧
        (name = card → c.Hosts l channel ∧ c'.Hosts l' channel))
      (requireCard name) (requireCard name) := by
    refine Parallel.readRegistry_bind fun r r' hr => Parallel.ofExcept ?_
    refine (card?_agree hr.outline name).and_ok ?_
    rintro c c' hc hc' rfl
    exact ⟨hr.first.of_card? hc, hr.second.of_card? hc'⟩
  unfold commitChannel
  apply hrequire.bind
  rintro c c' ⟨hc, hhosts⟩
  have hadd := (Card.addChannel_agree hc number hline registered).and_ok fun d d' hd hd' hname =>
    And.intro ((hhosts hname).1.addChannel hd) ((hhosts hname).2.addChannel hd')
  apply Parallel.ofExcept_bind hadd
  rintro d d' ⟨hd, hhosts⟩
  refine Parallel.adjust fun r r' hr => (Twins.likeness ..).drop ?_
  exact hr.modifyCard (fun _ _ _ => hd) (fun hname _ _ => (hhosts hname).1)
    fun hname _ _ => (hhosts hname).2

theorem addAnalogChannel_twins (name : String) (id : Nat) (level : Float) :
    ForTwins l l' card channel (addAnalogChannel name id level)
      (addAnalogChannel name id level) := by
  unfold addAnalogChannel
  apply (Parallel.requireCard (Twins.likeness ..) name).bind
  intro c c' hc
  have hkind : c'.kind = c.kind := show c'.outline.kind = c.outline.kind by rw [hc]
  refine Parallel.guard (by rw [hkind]) fun _ => ?_
  refine Parallel.guard Iff.rfl fun _ => ?_
  apply Parallel.ofExcept_bind (Card.checkName_agree hc _)
  intro _ _ _
  apply (Parallel.issue _ _).bind
  intro _ _ _
  exact (commitChannel_twins name _ rfl level).bind fun _ _ _ => Parallel.pure rfl

theorem addDigitalChannel_twins (name : String) (port number : Nat) (on : Bool)
    (inverted inverted' : Bool) : ForTwins l l' card channel
      (addDigitalChannel name port number on inverted)
      (addDigitalChannel name port number on inverted') := by
  unfold addDigitalChannel
  apply (Parallel.requireCard (Twins.likeness ..) name).bind
  intro c c' hc
  have hkind : c'.kind = c.kind := show c'.outline.kind = c.outline.kind by rw [hc]
  refine Parallel.guard (by rw [hkind]) fun _ => ?_
  apply Parallel.ofExcept_bind (Card.checkName_agree hc _)
  intro _ _ _
  apply (Parallel.issue _ _).bind
  intro _ _ _
  refine (commitChannel_twins name _ ?_ _).bind fun _ _ _ => Parallel.pure rfl
  cases inverted <;> cases inverted' <;> rfl

theorem addFlatChannel_twins (name : String) (index linesPerPort : Nat) (on inverted : Bool) :
    ForTwins l l' card channel (addFlatChannel name index linesPerPort on inverted)
      (addFlatChannel name index linesPerPort on inverted) := by
  unfold addFlatChannel
  split
  · exact addDigitalChannel_twins name _ _ on inverted inverted
  · exact Parallel.throw _ _

theorem insert_twins {r r' : Registry} (h : r.Twins l l' card channel r') (name number : String)
    {b b' : Booking} (hb : b'.outline = b.outline) :
    (r.modifyChannel name number (·.insert b)).Twins l l' card channel
      (r'.modifyChannel name number (·.insert b')) :=
  h.modifyChannel (fun _ _ ht => Timeline.insert_outline ht hb) (fun _ => rfl) fun _ => rfl

theorem addInstruction_twins (name number : String) (i : Instruction) :
    ForTwins l l' card channel (addInstruction name number i) (addInstruction name number i) := by
  refine addInstruction_parallel (Twins.likeness ..) rfl fun r r' b hr hb => ?_
  exact insert_twins hr name number (by rw [← hb])

theorem switch_twins (name number : String) (on : Bool) (t : Float) (duration : Option Float) :
    ForTwins l l' card channel (switch name number on t duration)
      (switch name number on t duration) := by
  refine switch_parallel (Twins.likeness ..) on t duration fun r r' u u' _ _ _ s s' b hs hb => ?_
  refine insert_twins hs name number ?_
  simp only [Booking.outline, hb, Instruction.outline, Line.switch_outline]

theorem addReset_twins (time : Option Float) :
    ForTwins l l' card channel (addReset time) (addReset time) :=
  addReset_parallel (Twins.likeness ..)
    (fun _ _ name number _ hr _ => insert_twins hr name number rfl) time

theorem configureStartTrig_twins (name terminal : String) (exported : Bool) :
    ForTwins l l' card channel (configureStartTrig name terminal exported)
      (configureStartTrig name terminal exported) := by
  unfold configureStartTrig
  apply (Parallel.requireCard (Twins.likeness ..) name).bind
  intro _ _ _
  apply (Parallel.issue _ _).bind
  intro _ _ _
  exact (Parallel.issue _ _).bind fun _ _ _ => editSync_twins name _

theorem configureSampleClockIn_twins (name : String) (terminal : Option String) :
    ForTwins l l' card channel (configureSampleClockIn name terminal)
      (configureSampleClockIn name terminal) := by
  unfold configureSampleClockIn
  apply (Parallel.requireCard (Twins.likeness ..) name).bind
  intro _ _ _
  exact (Parallel.issue _ _).bind fun _ _ _ => editSync_twins name _

theorem configureSampleClockOut_twins (name : String) (terminal : Option String) :
    ForTwins l l' card channel (configureSampleClockOut name terminal)
      (configureSampleClockOut name terminal) := by
  unfold configureSampleClockOut
  apply (Parallel.requireCard (Twins.likeness ..) name).bind
  intro _ _ _
  exact (Parallel.issue _ _).bind fun _ _ _ => editSync_twins name _

theorem handOver_twins {r r' : Registry} (h : r.Twins l l' card channel r')
    (provider : Option (String × String)) :
    (handOver provider r).Twins l l' card channel (handOver provider r') := by
  have hrelease : ∀ next, (release next r).Twins l l' card channel (release next r') := by
    intro next
    unfold release
    rw [roles_of_outline h.outline]
    split
    · split
      · exact h
      · exact h.modifySync _ _
    · exact h
  have hroles := roles_of_outline (hrelease (provider.map (·.1))).outline
  unfold handOver
  dsimp only
  rw [hroles]
  exact (hrelease _).roles _

theorem checkNewProvider_agree {r r' : Registry} (h : r'.outline = r.outline) (name : String) :
    Agree Eq (checkNewProvider r name) (checkNewProvider r' name) := by
  have hcard := card?_agree h name
  unfold card? at hcard
  unfold checkNewProvider
  cases hc : r.cards.get? name <;> cases hc' : r'.cards.get? name <;> rw [hc, hc'] at hcard
  · exact .error _ _
  · cases hcard
  · cases hcard
  · rename_i c c'
    cases hcard with
    | ok hout =>
      have hsync : c'.sync = c.sync := show c'.outline.sync = c.outline.sync by rw [hout]
      dsimp only
      rw [hsync]
      cases c.sync.refClockIn with
      | none => exact .ok rfl
      | some source => exact .error _ _

theorem setProvider_twins (provider : Option (String × String)) :
    ForTwins l l' card channel (setProvider provider) (setProvider provider) := by
  have hset : ForTwins l l' card channel (adjust (handOver provider))
      (adjust (handOver provider)) :=
    Parallel.adjust fun _ _ hr => handOver_twins hr provider
  unfold setProvider
  cases provider with
  | none => exact hset
  | some p =>
    apply Parallel.readRegistry_bind
    intro r r' hr
    exact Parallel.ofExcept_bind (checkNewProvider_agree hr.outline p.1) fun _ _ _ => hset

theorem configureRefClock_twins (name terminal : String) (rate : Float) (exported : Bool) :
    ForTwins l l' card channel (configureRefClock name terminal rate exported)
      (configureRefClock name terminal rate exported) := by
  unfold configureRefClock
  apply (Parallel.requireCard (Twins.likeness ..) name).bind
  intro _ _ _
  split
  · unfold exportRefClock
    refine Parallel.guard Iff.rfl fun _ => ?_
    exact (setProvider_twins _).bind fun _ _ _ => editSync_twins name _
  · unfold importRefClock
    refine Parallel.guard Iff.rfl fun _ => ?_
    apply Parallel.readRegistry_bind
    intro r r' hr
    refine Parallel.guard (by rw [roles_of_outline hr.outline]) fun _ => ?_
    exact (Parallel.issue _ _).bind fun _ _ _ => editSync_twins name _

theorem clearRefClockIn_twins (name : String) :
    ForTwins l l' card channel (clearRefClockIn name) (clearRefClockIn name) := by
  unfold clearRefClockIn
  apply (Parallel.requireCard (Twins.likeness ..) name).bind
  intro _ _ _
  exact (Parallel.issue _ _).bind fun _ _ _ => adjustSync_twins name _

theorem setWriteTimeout_twins (name : String) (timeout : Option Float) :
    ForTwins l l' card channel (setWriteTimeout name timeout) (setWriteTimeout name timeout) := by
  unfold setWriteTimeout
  apply (Parallel.requireCard (Twins.likeness ..) name).bind
  intro _ _ _
  extract_lets rest
  have hrest : ForTwins l l' card channel (rest ()) (rest ()) :=
    (Parallel.issue _ _).bind fun _ _ _ => adjustSync_twins name _
  split
  · exact Parallel.guard Iff.rfl fun _ => hrest
  · exact hrest

theorem setStartsLast_twins (last : Option String) :
    ForTwins l l' card channel (setStartsLast last) (setStartsLast last) := by
  unfold setStartsLast
  apply Parallel.readRegistry_bind
  intro r r' hr
  extract_lets rest
  have hrest : ForTwins l l' card channel (rest ()) (rest ()) :=
    adjustRoles_twins fun roles => { roles with startsLast := last }
  cases last with
  | none => exact hrest
  | some name => exact Parallel.guard (by rw [contains_of_outline hr.outline]) fun _ => hrest

theorem resetCard_twins (name : String) :
    ForTwins l l' card channel (resetCard name) (resetCard name) := by
  unfold resetCard
  apply (Parallel.requireCard (Twins.likeness ..) name).bind
  intro _ _ _
  apply (Parallel.issue _ _).bind
  intro _ _ _
  have hreset : ForTwins l l' card channel (adjustCard name (·.reset))
      (adjustCard name (·.reset)) :=
    Parallel.adjustCard (Twins.likeness ..) fun r r' hr =>
      hr.modifyCard (fun _ _ hc => Card.reset_outline hc) (fun _ _ h => h.clearEdits)
        fun _ _ h => h.clearEdits
  apply hreset.bind
  intro _ _ _
  apply Parallel.readRegistry_bind
  intro r r' hr
  rw [roles_of_outline hr.outline]
  split
  · exact (adjustRoles_twins fun roles => { roles with provider := none }).bind
      fun _ _ _ => dropProgram_twins
  · exact dropProgram_twins

theorem resetAll_twins : ForTwins l l' card channel resetAll resetAll := by
  unfold resetAll
  apply Parallel.readRegistry_bind
  intro r r' hr
  rw [names_of_outline hr.outline]
  exact Parallel.forM (List.forall₂_same.mpr fun name _ => resetCard_twins name)

theorem compile_twins (asked : Option Float) :
    ForTwins l l' card channel (compile asked) (compile asked) := by
  intro s s' hs
  have hagree := outcome_agree hs.related.outline hs.accepts hs.accepts' asked
  have together : ∀ t t' : Session, t.registry.unmarked = s.registry.unmarked →
      t'.registry.unmarked = s'.registry.unmarked → t.backend.failing = s.backend.failing →
      t'.backend.failing = s'.backend.failing →
      Together (Twins l l' card channel) t t' := by
    intro t t' ht ht' hfailing hfailing'
    refine ⟨Backend.accepts_congr hfailing ▸ hs.accepts,
      Backend.accepts_congr hfailing' ▸ hs.accepts', ?_, hs.related.first.of_unmarked ht,
      hs.related.second.of_unmarked ht'⟩
    rw [outline_of_unmarked ht, outline_of_unmarked ht', hs.related.outline]
  have hend := compile_spec asked s (.start s)
  have hend' := compile_spec asked s' (.start s')
  rcases hrun : (compile asked).run.run s with ⟨result, t⟩
  rcases hrun' : (compile asked).run.run s' with ⟨result', t'⟩
  rw [hrun] at hend
  rw [hrun'] at hend'
  cases result with
  | ok stop =>
    obtain ⟨p, hp, rfl, -, hsame, htold⟩ := hend
    rw [hp] at hagree
    cases result' with
    | ok stop' =>
      obtain ⟨p', hp', rfl, -, hsame', htold'⟩ := hend'
      rw [hp'] at hagree
      cases hagree with
      | ok hstop => exact ⟨.ok hstop.symm, together t t' hsame hsame' htold.1 htold'.1⟩
    | error e' =>
      rw [hend'.1] at hagree
      cases hagree
  | error e =>
    obtain ⟨he, ⟨-, hsame⟩, htold⟩ := hend
    rw [he] at hagree
    cases result' with
    | ok stop' =>
      obtain ⟨p', hp', -⟩ := hend'
      rw [hp'] at hagree
      cases hagree
    | error e' =>
      obtain ⟨-, ⟨-, hsame'⟩, htold'⟩ := hend'
      exact ⟨.error e e', together t t' hsame hsame' htold.1 htold'.1⟩

theorem clearEdits_twins : ForTwins l l' card channel clearEdits clearEdits := by
  unfold clearEdits
  apply (Parallel.issue _ _).bind
  intro _ _ _
  refine Parallel.adjust fun r r' hr => ⟨?_, hr.first.clearEdits, hr.second.clearEdits⟩
  simp only [outline, withoutProgram, roles_of_outline hr.outline,
    Table.map_map_congr (cards_of_outline hr.outline) fun _ _ hc => Card.clearEdits_outline hc]

end Session

open Session Job in
/-- Operations are done on both of the twins or fail on both, with the same answer. -/
theorem Operation.run_twins {l l' : Line} {card channel : String} (op : Operation)
    (kept : op ≠ .removeCard card) : ForTwins l l' card channel op.run op.run := by
  have answer : ∀ {α : Type} {j : Job α} {f : α → Answer}, ForTwins l l' card channel j j →
      ForTwins l l' card channel (do return f (← j)) (do return f (← j)) :=
    fun h => h.bind fun _ _ hab => Parallel.pure (congrArg _ hab)
  cases op with
  | addCard n k r => exact answer (addCard_twins n k r)
  | removeCard n => exact answer (removeCard_twins fun heq => kept (congrArg _ heq))
  | nameCard n k => exact answer (nameCard_twins n k)
  | nameChannel c ch k => exact answer (nameChannel_twins c ch k)
  | addAnalogChannel c i v => exact answer (addAnalogChannel_twins c i v)
  | addDigitalChannel c p l on inv => exact answer (addDigitalChannel_twins c p l on inv inv)
  | addFlatChannel c i n on inv => exact answer (addFlatChannel_twins c i n on inv)
  | addInstruction c ch i => exact answer (addInstruction_twins c ch i)
  | switch c ch on t d => exact answer (switch_twins c ch on t d)
  | addReset t => exact answer (addReset_twins t)
  | configureStartTrig c t e => exact answer (configureStartTrig_twins c t e)
  | configureSampleClockIn c t => exact answer (configureSampleClockIn_twins c t)
  | configureSampleClockOut c t => exact answer (configureSampleClockOut_twins c t)
  | configureRefClock c t r e => exact answer (configureRefClock_twins c t r e)
  | clearRefClockIn c => exact answer (clearRefClockIn_twins c)
  | setWriteTimeout c t => exact answer (setWriteTimeout_twins c t)
  | setStartsLast c => exact answer (setStartsLast_twins c)
  | setProvider p => exact answer (setProvider_twins p)
  | resetCard n => exact answer (resetCard_twins n)
  | resetAll => exact answer resetAll_twins
  | compile t => exact answer (compile_twins t)
  | clearEdits => exact answer clearEdits_twins
  | clearProgram => exact answer dropProgram_twins

end Sequencer
