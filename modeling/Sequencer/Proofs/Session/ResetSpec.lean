import Sequencer.Proofs.Session.Effects
import Sequencer.Proofs.Timeline.Reset

namespace Sequencer

/-- Every channel of the card has gained a reset on the tick of its clock for this time, behind all
of its bookings. Nothing else on the card has changed. -/
def Card.ResetAt (time : Float) (c c' : Card) : Prop :=
  ∃ tick es, tickAt? time c.rate = some tick ∧ c' = { c with channels := ⟨es⟩ } ∧
    List.Forall₂ (fun f f' => f'.1 = f.1 ∧ f.2.ResetAt time tick f'.2) c.channels.entries es

/-- Every channel of every card has gained a reset. Apart from that only the program is gone. -/
def Registry.ResetAt (time : Float) (r r' : Registry) : Prop :=
  ∃ es, r' = { r with cards := ⟨es⟩, program := none } ∧
    List.Forall₂ (fun e e' => e'.1 = e.1 ∧ e.2.ResetAt time e'.2) r.cards.entries es

/-- A card on which resets were placed is over by the tick that they begin on. -/
theorem Card.placeReset_tick {c : Card} {time : Float} {placed : List (String × Booking)}
    (h : c.placeReset time = .ok placed) :
    ∃ tick, tickAt? time c.rate = some tick ∧ c.lastTick ≤ tick := by
  unfold placeReset at h
  split at h
  case h_1 tick htick =>
    dsimp only at h
    split at h
    · cases h
    case isFalse hover => exact ⟨tick, htick, Nat.not_lt.mp hover⟩
  case h_2 => cases h

namespace Registry

/-- The calls that tell the backend of a reset on every channel. -/
def resetCalls (r : Registry) (time : Float) : List Call :=
  r.listing.map fun x => .emit x.1 x.2.1 (.holding time .reset)

/-- The time asked for is not before the end of the last instruction, and there is room for a reset
on every channel. -/
def allowsReset (r : Registry) (asked : Option Float) : Bool :=
  asked.all (fun t => !decide (t < r.lastTime)) &&
    (Session.placeResets r (asked.getD r.lastTime)).isOk

variable {r : Registry} {placed : List (String × String × Booking)}

/-- What committing leaves of the channel of this name. -/
def committed (placed : List (String × String × Booking)) (card channel : String) (t : Timeline) :
    Timeline :=
  placed.foldl (fun t x => if (x.1, x.2.1) = (card, channel) then t.insert x.2.2 else t) t

theorem committed_cons (x : String × String × Booking) (card channel : String) (t : Timeline) :
    committed (x :: placed) card channel t = committed placed card channel
      (if (x.1, x.2.1) = (card, channel) then t.insert x.2.2 else t) :=
  rfl

theorem commit_eq (r : Registry) (placed : List (String × String × Booking)) :
    r.commit placed = { r with
      cards := ⟨r.cards.entries.map fun e => (e.1, { e.2 with
        channels := ⟨e.2.channels.entries.map fun f =>
          (f.1, committed placed e.1 f.1 f.2)⟩ })⟩ } := by
  induction placed generalizing r with
  | nil => simp [commit, committed]
  | cons x placed ih =>
    refine (ih (r.modifyChannel x.1 x.2.1 (·.insert x.2.2))).trans ?_
    simp only [modifyChannel, modifyCard, Card.modifyChannel, Table.modify, List.map_map]
    congr 2
    refine List.map_congr_left fun e _ => ?_
    -- A booking changes one channel of one card.
    by_cases hcard : e.1 = x.1
    · simp only [Function.comp_apply, hcard, beq_self_eq_true, ↓reduceIte, List.map_map,
        committed_cons, Prod.mk.injEq, true_and]
      congr 2
      refine List.map_congr_left fun f _ => ?_
      by_cases hchannel : f.1 = x.2.1
      · simp [hchannel]
      · simp [hchannel, Ne.symm hchannel]
    · simp [hcard, Ne.symm hcard, committed_cons]

theorem committed_of_unlisted {card channel : String} {t : Timeline}
    (h : (card, channel) ∉ placed.map fun x => (x.1, x.2.1)) :
    committed placed card channel t = t := by
  induction placed with
  | nil => rfl
  | cons x placed ih =>
    rw [List.map_cons, List.mem_cons, not_or] at h
    rw [committed_cons, if_neg (Ne.symm h.1)]
    exact ih h.2

/-- A channel that is listed once gets the booking listed for it. -/
theorem committed_of_listed {card channel : String} {b : Booking} {t : Timeline}
    (distinct : (placed.map fun x => (x.1, x.2.1)).Nodup) (hb : (card, channel, b) ∈ placed) :
    committed placed card channel t = t.insert b := by
  induction placed generalizing t with
  | nil => cases hb
  | cons x placed ih =>
    obtain ⟨hfresh, hrest⟩ := List.nodup_cons.mp distinct
    rcases List.mem_cons.mp hb with rfl | hb
    · rw [committed_cons, if_pos rfl]
      exact committed_of_unlisted hfresh
    · have hne : (x.1, x.2.1) ≠ (card, channel) := fun heq =>
        hfresh (List.mem_map.mpr ⟨_, hb, heq.symm⟩)
      rw [committed_cons, if_neg hne]
      exact ih hrest hb

/-- Committing the resets that were placed gives every channel its own. -/
theorem Sound.resetAt_commit (h : r.Sound) {time : Float}
    (hplaced : Session.placeResets r time = .ok placed) :
    r.ResetAt time (r.commit placed).withoutProgram := by
  have hlisting := h.placeResets_listing hplaced
  have hdistinct := (h.placeResets_fits hplaced).2
  obtain ⟨perCard, hcards, -⟩ := exists_of_bind_ok hplaced
  rw [commit_eq]
  refine ⟨_, rfl, ?_⟩
  apply List.forall₂_map_right_iff.mpr
  apply List.forall₂_same.mpr
  intro e he
  obtain ⟨ofCard, hofCard⟩ : ∃ ofCard, e.2.placeReset time = .ok ofCard := by
    have hmem : e.2 ∈ r.cards.values := List.mem_map_of_mem he
    obtain ⟨_, -, hstep⟩ := exists_of_forall₂ (forall₂_of_mapM_ok hcards).flip hmem
    obtain ⟨ofCard, hofCard, -⟩ := exists_of_bind_ok hstep
    exact ⟨ofCard, hofCard⟩
  obtain ⟨tick, htick, hover⟩ := Card.placeReset_tick hofCard
  refine ⟨rfl, tick, _, htick, rfl, ?_⟩
  apply List.forall₂_map_right_iff.mpr
  apply List.forall₂_same.mpr
  intro f hf
  have hlisted : (e.1, f.1, f.2) ∈ r.listing := mem_listing.mpr ⟨e.2, he, hf⟩
  obtain ⟨⟨card, channel, b⟩, hb, rfl, rfl, hplace⟩ := exists_of_forall₂ hlisting.flip hlisted
  have hsound := (h.whole e he).channels f hf
  refine ⟨rfl, ?_⟩
  rw [committed_of_listed hdistinct hb]
  exact hsound.tidy.resetAt_insert (hsound.clocked ▸ htick)
    (Nat.le_trans (Card.lastTick_le hf) hover) hplace

theorem Sound.resetCalls_eq (h : r.Sound) {time : Float}
    (hplaced : Session.placeResets r time = .ok placed) :
    (placed.map fun x => .emit x.1 x.2.1 x.2.2.instr) = r.resetCalls time := by
  refine ((congrFun₂ List.forall₂_eq_eq_eq _ _).mp ?_).symm
  apply List.forall₂_map_left_iff.mpr
  apply List.forall₂_map_right_iff.mpr
  refine (h.placeResets_listing hplaced).imp fun x y ⟨hcard, hchannel, hplace⟩ => ?_
  obtain ⟨first, stop, -, hbooking, -⟩ := Timeline.place_eq_ok_iff.mp hplace
  rw [hcard, hchannel, hbooking]

end Registry

namespace Session

open Job Triple

variable {r : Registry} {b : Backend} {asked : Option Float}

/-- Every channel has gained a reset, and the backend accepted all of them. -/
def ResetDone (r : Registry) (b : Backend) (asked : Option Float) (t : Float) (s : Session) :
    Prop :=
  t = asked.getD r.lastTime ∧ r.allowsReset asked = true ∧
    (∀ c ∈ r.resetCalls t, b.accepts c = true) ∧
    ∃ r', r.ResetAt t r' ∧ Since r' b (r.resetCalls t) s

/-- The registry is as it was. Either nothing was told to the backend, or it refused one of the
resets and has those before it. -/
def ResetFailed (r : Registry) (b : Backend) (asked : Option Float) (e : Error) (s : Session) :
    Prop :=
  r.allowsReset asked = false ∧ Since r b [] s ∨
    r.allowsReset asked = true ∧ ∃ sent c rest,
      r.resetCalls (asked.getD r.lastTime) = sent ++ c :: rest ∧
      (∀ d ∈ sent, b.accepts d = true) ∧ b.accepts c = false ∧ e = .backend c ∧ Since r b sent s

theorem addReset_spec (sound : r.Sound) (asked : Option Float) :
    Triple (Since r b []) (addReset asked) (ResetDone r b asked) (ResetFailed r b asked) := by
  unfold addReset
  apply readRegistry_bind fun _ hs => hs.1
  extract_lets last t rest
  have hrest : asked.all (fun t => !decide (t < r.lastTime)) = true →
      Triple (Since r b []) (rest ()) (ResetDone r b asked) (ResetFailed r b asked) := by
    intro hlate
    have hallowed : r.allowsReset asked = (placeResets r t).isOk := by
      rw [Registry.allowsReset, hlate, Bool.true_and]
    refine Triple.ofExcept_bind (fun e s he hs => .inl ⟨?_, hs⟩) fun placed hplaced => ?_
    · rw [hallowed, he]
      rfl
    have hallows : r.allowsReset asked = true := by
      rw [hallowed, hplaced]
      rfl
    have hcalls := sound.resetCalls_eq hplaced
    have hfits := (sound.placeResets_fits hplaced).1
    have hissue : Triple (Since r b []) (placed.forM fun x => issue (.emit x.1 x.2.1 x.2.2.instr))
        (fun _ s => (∀ c ∈ r.resetCalls t, b.accepts c = true) ∧ Since r b (r.resetCalls t) s)
        (ResetFailed r b asked) := by
      rw [← hcalls]
      refine forM_issue_spec.weaken (fun _ hs => hs) (fun _ _ hs => hs) fun e s hs => ?_
      rw [hcalls] at hs
      exact .inr ⟨hallows, hs⟩
    apply hissue.bind
    rintro _ s ⟨haccepted, hs⟩
    refine Triple.bind (commit_since fun x hx => (hfits x hx).imp fun t ht => ht.known) ?_ s hs
    intro _
    apply adjust_since.bind
    intro _
    exact Triple.pure fun _ hs =>
      ⟨rfl, hallows, haccepted, _, sound.resetAt_commit hplaced, hs⟩
  -- Only a time that was asked for can be too early.
  split
  case h_1 time =>
    split
    case isTrue hearly =>
      refine (Triple.throw fun s hs => .inl ⟨?_, hs⟩).bind fun _ _ hs => hs
      have hbefore : time < r.lastTime := hearly
      simp [Registry.allowsReset, hbefore]
    case isFalse hlate =>
      have hafter : ¬ time < r.lastTime := hlate
      exact hrest (by simp [hafter])
  case h_2 hnone =>
    cases asked with
    | none => exact hrest rfl
    | some time => exact (hnone time rfl).elim

theorem addReset_cases {s : Session} (reached : s.registry.Reached) (asked : Option Float) :
    (∃ t s', (addReset asked).run.run s = (.ok t, s') ∧
      ResetDone s.registry s.backend asked t s') ∨
    ∃ e s', (addReset asked).run.run s = (.error e, s') ∧
      ResetFailed s.registry s.backend asked e s' := by
  have hend := addReset_spec (b := s.backend) reached.sound asked s (.start s)
  rcases hrun : (addReset asked).run.run s with ⟨e | t, s'⟩ <;> rw [hrun] at hend
  · exact .inr ⟨e, s', rfl, hend⟩
  · exact .inl ⟨t, s', rfl, hend⟩

end Session

end Sequencer
