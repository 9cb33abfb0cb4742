import Sequencer.Proofs.Run.Plan

namespace Sequencer

theorem Backend.verdict_congr {a b : Backend} (h : a.failing = b.failing) (c : Call) :
    a.verdict c = b.verdict c := by
  simp [Backend.verdict, Backend.accepts, h]

theorem Backend.verdict_accepted {b : Backend} {c : Call} (h : b.accepts c = true) :
    b.verdict c = .ok () := by
  simp [Backend.verdict, h]

theorem Backend.verdict_refused {b : Backend} {c : Call} (h : b.accepts c = false) :
    b.verdict c = .error (.backend c) := by
  simp [Backend.verdict, h]

theorem Backend.issue_calls (b : Backend) (c : Call) : (b.issue c).2.calls = b.calls ++ [c] := by
  unfold Backend.issue
  split <;> rfl

theorem Backend.issue_failing (b : Backend) (c : Call) : (b.issue c).2.failing = b.failing := by
  unfold Backend.issue
  split <;> rfl

theorem Stage.issue_eq (s : Stage) (c : Call) :
    s.issue c = (s.backend.verdict c, { s with backend := (s.backend.issue c).2 }) := by
  cases h : s.backend.accepts c <;> simp [Stage.issue, Backend.issue, Backend.verdict, h]

theorem Stage.dies_of_calm {s : Stage} (h : s.incidents = []) (device : String) :
    s.dies device = false := by
  simp [Stage.dies, h]

theorem Stage.enterStream_of_calm {s : Stage} (h : s.incidents = []) (device : String) :
    s.enterStream device = s := by
  cases s
  simp_all [Stage.enterStream]

namespace Plan

/-- Calls and the report that follows them, as they are seen. -/
def events (card : String) (part : List Call × Report) : List Event :=
  part.1.map .call ++ [.report card part.2]

/-- What is to be seen of one card during a task. -/
def acts (p : Plan) (card : String) (t : Task) : List Event := events card (p.turn card t)

/-- What a worker shows from a phase on, before it listens again or is over. -/
def following (p : Plan) (card : String) : Phase → List Event
  | .configure => p.acts card .configure
  | .gate calcNext _ => p.acts card (.stream calcNext)
  | .start calcNext _ => events card (p.perform card calcNext)
  | .countDown calcNext _ (.ok ()) | .stream calcNext =>
    events card ([.streamRun card calcNext], p.backend.verdict (.streamRun card calcNext))
  | .countDown _ _ (.error e) => [.report card (.error e)]
  | .close => p.acts card .close
  | .report r _ => [.report card r]
  | .listen | .ended | .died => []

/-- What a worker has yet to show if nothing more is posted. -/
def ahead (p : Plan) (b : Bulletin) (w : Worker) : List Event :=
  match w.phase with
  | .listen => if w.viewed < b.posted then p.acts w.card (.ofCommand b.latest) else []
  | phase => p.following w.card phase

/-- Every card but the one held back made its start call. -/
def OthersCalled (p : Plan) (es : List Event) : Prop :=
  ∀ c ∈ p.cards, p.isHeld c = false → .call (.start c) ∈ es

/-- How the phase of a worker agrees with the task, with what was shown of it, and with the start
latch, the last of `latches`. -/
def PhaseFits (p : Plan) (t : Task) (now : List Event) (latches posted : Nat) (w : Worker) : Prop :=
  match w.phase with
  | .configure => t = .configure
  | .listen => w.viewed = posted → t ≠ .close
  | .gate calcNext l => t = .stream calcNext ∧ p.isHeld w.card = true ∧ l + 1 = latches
  | .start calcNext none =>
    t = .stream calcNext ∧ p.isHeld w.card = true ∧ p.OthersCalled now
  | .start calcNext (some l) => t = .stream calcNext ∧ p.isHeld w.card = false ∧ l + 1 = latches
  | .countDown calcNext l started =>
    t = .stream calcNext ∧ p.isHeld w.card = false ∧ l + 1 = latches ∧
      started = p.backend.verdict (.start w.card)
  | .stream calcNext => t = .stream calcNext
  | .close => t = .close
  | .report _ last => last = decide (t = .close)
  | .ended => t = .close
  | .died => False

/-- A worker that does its part of task `t`, of which `now` was shown so far. Its report is in the
outbox until it is collected. -/
structure Employs (p : Plan) (t : Task) (now : List Event) (s : Stage) (collected : Bool)
    (w : Worker) : Prop where
  buffer : w.bufferMs = p.bufferMs
  held : w.heldBack = p.isHeld w.card
  heard : w.heard = true
  view : w.viewed = s.bulletin.posted ∨ w.phase = .listen ∧ w.viewed + 1 = s.bulletin.posted
  phase : p.PhaseFits t now s.latches.length s.bulletin.posted w
  history : Event.own w.card now ++ p.ahead s.bulletin w = p.acts w.card t
  outbox : w.outbox = if collected then [] else Event.reports (Event.own w.card now)
  finished : collected = true → p.ahead s.bulletin w = []

/-- Still to count down the start latch. -/
def pending (posted : Nat) (w : Worker) : Bool :=
  !w.heldBack &&
    match w.phase with
    | .start .. | .countDown .. => true
    | .listen => decide (w.viewed < posted)
    | _ => false

/-- Has counted the start latch down with a failure. -/
def balked (p : Plan) (posted : Nat) (w : Worker) : Bool :=
  !w.heldBack && !pending posted w && !p.backend.accepts (.start w.card)

/-- What the next event may be, by what was shown before it in the same task. -/
def Allows (p : Plan) (t : Task) (before : List Event) (e : Event) : Prop :=
  (∀ c, e.card? = some c → c ∈ p.cards) ∧
    match e with
    | .begun _ => False
    | .call (.start c) => p.isHeld c = true → p.OthersCalled before
    | .told _ => ∀ c ∈ p.cards, Event.own c before = p.acts c t
    | _ => True

/-- What a step of a worker does to it and to what it shares, by the calls it made and the reports
it sent. -/
structure Advances (p : Plan) (t : Task) (now : List Event) (s : Stage) (w : Worker) (s' : Stage)
    (w' : Worker) (made : List Call) (sent : List Report) : Prop where
  card : w'.card = w.card
  buffer : w'.bufferMs = w.bufferMs
  held : w'.heldBack = w.heldBack
  heard : w'.heard = w.heard
  outbox : w'.outbox = w.outbox ++ sent
  calls : s'.backend.calls = s.backend.calls ++ made
  failing : s'.backend.failing = s.backend.failing
  incidents : s'.incidents = s.incidents
  bulletin : s'.bulletin = s.bulletin
  view : w'.viewed = s.bulletin.posted
  phase : p.PhaseFits t now s.latches.length s.bulletin.posted w'
  ahead : p.ahead s.bulletin w =
    made.map .call ++ sent.map (.report w.card) ++ p.ahead s.bulletin w'
  allowed : made = [] ∧ sent = [] ∨
    ∃ e, made.map .call ++ sent.map (.report w.card) = [e] ∧ p.Allows t now e
  latch : s'.latches = s.latches ∧
      (t ≠ .close → pending s.bulletin.posted w' = pending s.bulletin.posted w) ∨
    pending s.bulletin.posted w = true ∧ pending s.bulletin.posted w' = false ∧
      s'.latches = s.latches.modify (s.latches.length - 1)
        (·.countDown (p.backend.accepts (.start w.card)))

section Steps

variable {p : Plan} {t : Task} {now : List Event} {s s' : Stage} {w w' : Worker}
  {collected : Bool}

/-- A step that only takes a worker into another phase, perhaps with a command seen. -/
theorem Advances.moved {viewed : Nat} {next : Phase} (view : viewed = s.bulletin.posted)
    (phase : p.PhaseFits t now s.latches.length s.bulletin.posted
      { w with viewed, phase := next })
    (ahead : p.ahead s.bulletin w = p.ahead s.bulletin { w with viewed, phase := next })
    (same : t ≠ .close →
      pending s.bulletin.posted { w with viewed, phase := next } = pending s.bulletin.posted w) :
    p.Advances t now s w s { w with viewed, phase := next } [] [] where
  card := rfl
  buffer := rfl
  held := rfl
  heard := rfl
  outbox := (List.append_nil _).symm
  calls := (List.append_nil _).symm
  failing := rfl
  incidents := rfl
  bulletin := rfl
  view := view
  phase := phase
  ahead := ahead
  allowed := .inl ⟨rfl, rfl⟩
  latch := .inl ⟨rfl, same⟩

/-- A step in which a worker makes a call and goes on to another phase. -/
theorem Advances.called {c : Call} {next : Phase} (view : w.viewed = s.bulletin.posted)
    (phase : p.PhaseFits t now s.latches.length s.bulletin.posted { w with phase := next })
    (ahead : p.ahead s.bulletin w = .call c :: p.ahead s.bulletin { w with phase := next })
    (allowed : p.Allows t now (.call c))
    (same : pending s.bulletin.posted { w with phase := next } = pending s.bulletin.posted w) :
    p.Advances t now s w { s with backend := (s.backend.issue c).2 } { w with phase := next }
      [c] [] where
  card := rfl
  buffer := rfl
  held := rfl
  heard := rfl
  outbox := (List.append_nil _).symm
  calls := Backend.issue_calls s.backend c
  failing := Backend.issue_failing s.backend c
  incidents := rfl
  bulletin := rfl
  view := view
  phase := phase
  ahead := ahead
  allowed := .inr ⟨.call c, rfl, allowed⟩
  latch := .inl ⟨rfl, fun _ => same⟩

/-- The calls of a worker are allowed at any time, but for the start of the card held back. -/
theorem allows_call {c : Call} (listed : w.card ∈ p.cards) (maker : c.maker? = some w.card)
    (start : ∀ card, c = .start card → p.isHeld card = true → p.OthersCalled now) :
    p.Allows t now (.call c) := by
  constructor
  · intro card hcard
    rw [Event.card?, maker] at hcard
    cases hcard
    exact listed
  · cases c with
    | start card => exact start card rfl
    | _ => trivial

/-- A worker that sees a command begins the task. -/
theorem Employs.advances_listen (h : p.Employs t now s collected w) (hp : w.phase = .listen)
    (news : w.viewed < s.bulletin.posted → Task.ofCommand s.bulletin.latest = t ∧
      ∀ q l, s.bulletin.latest = .stream q l → l + 1 = s.latches.length)
    (hstep : w.step s = some (w', s')) : p.Advances t now s w s' w' [] [] := by
  have hheld := h.held
  simp only [Worker.step, hp, Worker.listen, Bulletin.read] at hstep
  have hnews : w.viewed + 1 = s.bulletin.posted := by
    rcases h.view with hview | ⟨_, hview⟩
    · simp [hview] at hstep
    · exact hview
  have hlt : w.viewed < s.bulletin.posted := by omega
  obtain ⟨rfl, hlatch⟩ := news hlt
  have hne : s.bulletin.posted ≠ w.viewed := by omega
  simp only [hne, hnews, ↓reduceIte, Option.some.injEq, Prod.mk.injEq] at hstep
  obtain ⟨rfl, rfl⟩ := hstep
  have hahead : p.ahead s.bulletin w = p.acts w.card (.ofCommand s.bulletin.latest) := by
    simp only [ahead, hp, hlt, ↓reduceIte]
  cases hc : s.bulletin.latest with
  | stream q l =>
    rw [hc] at hahead
    cases hb : w.heldBack with
    | true =>
      simp only [Worker.take, if_pos hb]
      refine .moved hnews ?_ ?_ fun _ => ?_
      · exact ⟨rfl, hheld.symm.trans hb, hlatch q l hc⟩
      · exact hahead
      · simp only [pending, hp, hb, Bool.not_true, Bool.false_and]
    | false =>
      simp only [Worker.take, if_neg (Bool.eq_false_iff.mp hb)]
      refine .moved hnews ?_ ?_ fun _ => ?_
      · exact ⟨rfl, hheld.symm.trans hb, hlatch q l hc⟩
      · rw [hahead, acts, Task.ofCommand, turn, ← hheld, hb]
        rfl
      · simp [pending, hp, hb, hlt]
  | close =>
    rw [hc] at hahead
    exact .moved hnews rfl hahead fun ht => absurd rfl ht

/-- The worker of the card held back goes on once every other card was told to start. -/
theorem Employs.advances_gate (h : p.Employs t now s collected w) {q : Bool} {l : Nat}
    (hp : w.phase = .gate q l)
    (gate : (s.latch l).isOpen = true →
      p.OthersCalled now ∧ (s.latch l).allStarted = p.othersStart)
    (hstep : w.step s = some (w', s')) : p.Advances t now s w s' w' [] [] := by
  have hview := h.view
  have hfits := h.phase
  simp only [hp, PhaseFits, reduceCtorEq, false_and, or_false] at hfits hview
  obtain ⟨rfl, hback, -⟩ := hfits
  have hahead : p.ahead s.bulletin w = p.acts w.card (.stream q) := by
    simp only [ahead, hp, following]
  simp only [Worker.step, hp, Worker.passGate] at hstep
  split at hstep
  · rename_i hopen
    obtain ⟨hcalled, hall⟩ := gate hopen
    simp only [Option.some.injEq, Prod.mk.injEq] at hstep
    obtain ⟨rfl, rfl⟩ := hstep
    rw [hall]
    cases ho : p.othersStart with
    | true =>
      refine .moved hview ⟨rfl, hback, hcalled⟩ ?_ fun _ => ?_
      · rw [hahead, acts, turn, ho, Bool.not_true, Bool.and_false]
        rfl
      · simp only [pending, h.held, hback, Bool.not_true, Bool.false_and]
    | false =>
      refine .moved hview (by simp [PhaseFits]) ?_ fun _ => ?_
      · rw [hahead, acts, turn, ho, hback]
        rfl
      · simp only [pending, h.held, hback, Bool.not_true, Bool.false_and]
  · cases hstep

/-- A worker tells its card to start, and goes on as the card answers. -/
theorem Employs.advances_start (h : p.Employs t now s collected w) (listed : w.card ∈ p.cards)
    (failing : s.backend.failing = p.backend.failing) {q : Bool} {latch : Option Nat}
    (hp : w.phase = .start q latch) (hstep : w.step s = some (w', s')) :
    p.Advances t now s w s' w' [.start w.card] [] := by
  have hview := h.view
  have hfits := h.phase
  have hheld := h.held
  simp only [hp, PhaseFits, reduceCtorEq, false_and, or_false] at hfits hview
  simp only [Worker.step, hp, Worker.callStart, Stage.issue_eq, Backend.verdict_congr failing,
    Option.some.injEq, Prod.mk.injEq] at hstep
  obtain ⟨rfl, rfl⟩ := hstep
  have hahead : p.ahead s.bulletin w = events w.card (p.perform w.card q) := by
    simp only [ahead, hp, following]
  cases latch with
  | none =>
    obtain ⟨rfl, hback, hcalled⟩ := hfits
    have hallowed : p.Allows (.stream q) now (.call (.start w.card)) :=
      allows_call listed rfl fun _ _ _ => hcalled
    cases ha : p.backend.accepts (.start w.card) with
    | true =>
      rw [Backend.verdict_accepted ha]
      refine .called hview rfl ?_ hallowed ?_
      · rw [hahead, perform, if_pos ha]
        rfl
      · simp only [pending, hheld, hback, Bool.not_true, Bool.false_and]
    | false =>
      rw [Backend.verdict_refused ha]
      refine .called hview (by simp [PhaseFits, Worker.afterStart]) ?_ hallowed ?_
      · rw [hahead, perform, ha]
        rfl
      · simp only [pending, hheld, hback, Bool.not_true, Bool.false_and]
  | some l =>
    obtain ⟨rfl, hback, hl⟩ := hfits
    have hallowed : p.Allows (.stream q) now (.call (.start w.card)) := by
      apply allows_call listed rfl
      intro card hcard hc
      cases hcard
      rw [hback] at hc
      cases hc
    refine .called hview ⟨rfl, hback, hl, rfl⟩ ?_ hallowed (by simp only [pending, hp])
    rw [hahead]
    cases ha : p.backend.accepts (.start w.card) with
    | true =>
      rw [Backend.verdict_accepted ha, perform, if_pos ha]
      rfl
    | false =>
      rw [Backend.verdict_refused ha, perform, ha]
      rfl

/-- A worker counts the start latch down, whether its card started or not. -/
theorem Employs.advances_countDown (h : p.Employs t now s collected w) {q : Bool} {l : Nat}
    {started : Report} (hp : w.phase = .countDown q l started)
    (hstep : w.step s = some (w', s')) : p.Advances t now s w s' w' [] [] := by
  have hview := h.view
  have hfits := h.phase
  have hheld := h.held
  simp only [hp, PhaseFits, reduceCtorEq, false_and, or_false] at hfits hview
  obtain ⟨rfl, hback, hl, rfl⟩ := hfits
  simp only [Worker.step, hp, Option.some.injEq, Prod.mk.injEq] at hstep
  obtain ⟨rfl, rfl⟩ := hstep
  cases ha : p.backend.accepts (.start w.card) <;>
  constructor <;> simp [PhaseFits, Plan.ahead, following, hp, hview, hback, ← hl, pending, hheld,
    Worker.afterStart, Stage.countDown, events, ha, Backend.verdict, Except.isOk, Except.toBool]

/-- A worker reports, and listens again or is over. -/
theorem Employs.advances_report (h : p.Employs t now s collected w) (listed : w.card ∈ p.cards)
    {r : Report} {last : Bool} (hp : w.phase = .report r last)
    (hstep : w.step s = some (w', s')) : p.Advances t now s w s' w' [] [r] := by
  have hview := h.view
  have hfits := h.phase
  simp only [hp, PhaseFits, reduceCtorEq, false_and, or_false] at hfits hview
  have hreport : ∀ t, p.Allows t now (.report w.card r) := by
    simp [Allows, Event.card?, listed]
  have hsame : (w.noteFailure r s).backend = s.backend ∧
      (w.noteFailure r s).bulletin = s.bulletin ∧
      (w.noteFailure r s).incidents = s.incidents ∧
      (w.noteFailure r s).latches = s.latches := by
    cases r <;> simp [Worker.noteFailure, Stage.note]
  obtain ⟨hb, hbul, hinc, hlat⟩ := hsame
  simp only [Worker.step, hp, Worker.send, h.heard, ↓reduceIte, Option.some.injEq,
    Prod.mk.injEq] at hstep
  obtain ⟨rfl, rfl⟩ := hstep
  by_cases ht : t = .close <;>
  constructor <;> simp [PhaseFits, Plan.ahead, following, hp, hview, hfits, ht, hb, hbul, hinc,
    hlat, pending, hreport, h.heard]

theorem Employs.advances (h : p.Employs t now s collected w) (listed : w.card ∈ p.cards)
    (calm : s.incidents = [])
    (failing : s.backend.failing = p.backend.failing)
    (news : w.viewed < s.bulletin.posted → Task.ofCommand s.bulletin.latest = t ∧
      ∀ q l, s.bulletin.latest = .stream q l → l + 1 = s.latches.length)
    (gate : ∀ q l, w.phase = .gate q l → (s.latch l).isOpen = true →
      p.OthersCalled now ∧ (s.latch l).allStarted = p.othersStart)
    (hstep : w.step s = some (w', s')) :
    ∃ made sent, p.Advances t now s w s' w' made sent := by
  have hview := h.view
  have hfits := h.phase
  have hverdict := Backend.verdict_congr failing
  cases hp : w.phase with
  | configure =>
    simp only [hp, PhaseFits, reduceCtorEq, false_and, or_false] at hfits hview
    simp only [Worker.step, hp, Stage.issue_eq, hverdict, Option.some.injEq,
      Prod.mk.injEq] at hstep
    obtain ⟨rfl, rfl⟩ := hstep
    refine ⟨_, _, .called hview ?_ ?_ ?_ ?_⟩
    · simp [PhaseFits, hfits]
    · simp [Plan.ahead, hp, following, acts, events, turn, h.buffer]
    · exact allows_call listed rfl fun _ hc => by cases hc
    · simp only [pending, hp]
  | listen => exact ⟨_, _, h.advances_listen hp news hstep⟩
  | gate q l => exact ⟨_, _, h.advances_gate hp (gate q l hp) hstep⟩
  | start q latch => exact ⟨_, _, h.advances_start listed failing hp hstep⟩
  | countDown q l started => exact ⟨_, _, h.advances_countDown hp hstep⟩
  | stream q =>
    simp only [hp, PhaseFits, reduceCtorEq, false_and, or_false] at hfits hview
    simp only [Worker.step, hp, Worker.callStream, Stage.dies_of_calm calm,
      Stage.enterStream_of_calm calm, Stage.issue_eq, hverdict, Bool.false_eq_true, ↓reduceIte,
      Option.some.injEq, Prod.mk.injEq] at hstep
    obtain ⟨rfl, rfl⟩ := hstep
    refine ⟨_, _, .called hview ?_ ?_ ?_ ?_⟩
    · simp [PhaseFits, hfits]
    · simp [Plan.ahead, hp, following, events]
    · exact allows_call listed rfl fun _ hc => by cases hc
    · simp only [pending, hp]
  | close =>
    simp only [hp, PhaseFits, reduceCtorEq, false_and, or_false] at hfits hview
    simp only [Worker.step, hp, Stage.issue_eq, hverdict, Option.some.injEq,
      Prod.mk.injEq] at hstep
    obtain ⟨rfl, rfl⟩ := hstep
    refine ⟨_, _, .called hview ?_ ?_ ?_ ?_⟩
    · simp [PhaseFits, hfits]
    · simp [Plan.ahead, hp, following, acts, events, turn]
    · exact allows_call listed rfl fun _ hc => by cases hc
    · simp only [pending, hp]
  | report r last => exact ⟨_, _, h.advances_report listed hp hstep⟩
  | ended => simp [Worker.step, hp] at hstep
  | died => simp [Worker.step, hp] at hstep

end Steps

end Plan

end Sequencer
