import Sequencer.Proofs.Run.Repetitions
import Sequencer.Proofs.Session.AllOrNothing
import Sequencer.Proofs.Session.Effects

namespace Sequencer

namespace Plan

/-- Of `planned` repetitions, the first `count` by whether each prepares the next. -/
def repetitions (planned count : Nat) : List Bool :=
  (List.range count).map fun k => decide (k + 1 < planned)

/-- What the owner is told of repetition `k`, counted from zero. -/
def repetition (p : Plan) (planned k : Nat) : Report :=
  p.result (.stream (decide (k + 1 < planned)))

/-- A run of the program that a session holds, on its backend. -/
structure Lent (p : Plan) (s : Session) (bufferMs : Float) : Prop where
  cards : Session.checkRun s.registry bufferMs = .ok p.cards
  bufferMs : p.bufferMs = bufferMs
  heldBack : p.heldBack = Session.heldBack s.registry p.cards
  refClock : p.refClock = Session.refClock s.registry
  backend : p.backend = s.backend

variable {p : Plan} {t : Token} {planned count k : Nat}

theorem repetitions_succ (planned count : Nat) :
    repetitions planned (count + 1) =
      repetitions planned count ++ [decide (count + 1 < planned)] := by
  simp [repetitions, List.range_succ]

theorem Rested.waits_for_owner {events : List Event} {run : Run} {repetitions : List Bool}
    (h : p.Rested t (repetitions.map .stream) events run) (connects : p.Connects)
    (configures : p.Configures) : run.script = [] := by
  rcases h.waits with ⟨-, -, hscript, -⟩ | ⟨hfailed, -⟩
  · exact hscript
  · exact absurd ⟨connects, configures⟩ hfailed

theorem Rested.configured {events : List Event} {run : Run} (h : p.Rested t [] events run) :
    (p.Connects ∧ p.Configures) ∧ run.results = [.ok ()] ∨ ∃ e, run.results = [.error e] := by
  have hasked : p.Rested t (([] : List Bool).map .stream) events run := h
  rcases hasked.waits with ⟨hconfigured, -, -, hresults, -⟩ | ⟨-, hresults⟩
  · exact .inl ⟨hconfigured, hresults⟩
  · exact .inr hresults

/-- A run that played some repetitions without a failure shows how the token stands. -/
theorem Rested.cancelled {events : List Event} {run : Run}
    (h : p.Rested t ((repetitions planned count).map .stream) events run) (connects : p.Connects)
    (configures : p.Configures) (flawless : ∀ k < count, p.repetition planned k = .ok ()) :
    run.stage.cancelled = p.tokenSet t count := by
  have hall : ∀ q ∈ repetitions planned count, p.result (.stream q) = .ok () := by
    intro q hq
    obtain ⟨k, hk, rfl⟩ := List.mem_map.mp hq
    exact flawless k (List.mem_range.mp hk)
  have hlength : (repetitions planned count).length = count := by simp [repetitions]
  rcases h.waits with ⟨-, -, -, -, htoken⟩ | ⟨hfailed, -⟩
  · exact hlength ▸ htoken hall
  · exact absurd ⟨connects, configures⟩ hfailed

/-- The first `count` repetitions were begun: not one too many, not one after the token was seen to
be set, and not one after a failed one. -/
structure Begun (p : Plan) (t : Token) (planned count : Nat) : Prop where
  within : count ≤ planned
  unset : ∀ k < count, p.tokenSet t k = false
  flawless : ∀ k, k + 1 < count → p.repetition planned k = .ok ()

/-- Why no more than `count` repetitions were begun, with the summary and what is told of them. -/
inductive Ended (p : Plan) (t : Token) (planned : Nat) : Nat → RunSummary → Report → Prop
  | finished (flawless : ∀ k < planned, p.repetition planned k = .ok ()) :
    Ended p t planned planned ⟨planned, false⟩ (.ok ())
  | cancelled {count : Nat} (early : count < planned) (set : p.tokenSet t count = true)
      (flawless : ∀ k < count, p.repetition planned k = .ok ()) :
    Ended p t planned count ⟨count, true⟩ (.ok ())
  | failed {k : Nat} {summary : RunSummary} {e : Error}
      (fails : p.repetition planned k = .error e) :
    Ended p t planned (k + 1) summary (.error e)

namespace Ended

variable {summary : RunSummary} {streamed : Report}

theorem left_out (h : p.Ended t planned count summary streamed) (early : count < planned) :
    p.tokenSet t count = true ∨ ∃ k e, count = k + 1 ∧ p.repetition planned k = .error e := by
  cases h with
  | finished => exact absurd early (Nat.lt_irrefl _)
  | cancelled _ set => exact .inl set
  | failed fails => exact .inr ⟨_, _, rfl, fails⟩

theorem accounts (h : p.Ended t planned count summary (.ok ())) :
    (∀ k < count, p.repetition planned k = .ok ()) ∧ summary.repetitions = count ∧
      (summary.cancelled = true ↔ count < planned) := by
  cases h with
  | finished flawless => exact ⟨flawless, rfl, by simp⟩
  | cancelled early _ flawless => exact ⟨flawless, rfl, by simp [early]⟩

theorem failure {e : Error} (h : p.Ended t planned count summary (.error e)) :
    ∃ k, count = k + 1 ∧ p.repetition planned k = .error e := by
  cases h with
  | failed fails => exact ⟨_, rfl, fails⟩

end Ended

end Plan

namespace Session

open Job

variable {p : Plan} {t : Token} {asked : List Request} {events : List Event} {run : Run}

theorem note_backend {n : Notice} {b : Backend} {fault : Error → Session → Prop} :
    Triple (fun s => s.backend = b) (note n) (fun _ s => s.backend = b) fault :=
  Triple.note fun _ hs => hs

/-- A run that waits for its owner serves the next request and comes to rest again. -/
theorem request_spec (h : p.Rested t asked events run)
    (harmless : ∀ i ∈ t.incidents, i.effect = .cancel) (hscript : run.script = []) (q : Request) :
    Triple (fun s => s.backend = run.stage.backend) (request q run)
      (fun x s => (∃ more, p.Rested t (asked ++ [q]) (events ++ more) x.1) ∧
        x.2 = x.1.results.getLast?.getD (.ok ()) ∧ s.backend = x.1.stage.backend)
      (fun _ _ => False) := by
  intro s hs
  have hstage : { run.stage with backend := s.backend, log := s.log } =
      { run.stage with log := s.log } := by rw [hs]
  have hrested := h.request harmless hscript q s.log
  rw [← hstage] at hrested
  exact ⟨hrested, rfl, rfl⟩

/-- From a run that has played `done` repetitions on, the repetitions still to come are played up to
the first failure, or until the token is seen to be set. -/
theorem repeatStream_spec (harmless : ∀ i ∈ t.incidents, i.effect = .cancel)
    (connects : p.Connects) (configures : p.Configures) {planned done left : Nat}
    (hsum : done + left = planned)
    (h : p.Rested t ((Plan.repetitions planned done).map .stream) events run)
    (begun : p.Begun t planned done) (flawless : ∀ k < done, p.repetition planned k = .ok ()) :
    Triple (fun s => s.backend = run.stage.backend) (repeatStream planned done left run)
      (fun x s => ∃ count events,
        p.Rested t ((Plan.repetitions planned count).map .stream) events x.1 ∧
        p.Begun t planned count ∧ p.Ended t planned count x.2.1 x.2.2 ∧
        s.backend = x.1.stage.backend)
      (fun _ _ => False) := by
  induction left generalizing done run events with
  | zero =>
    obtain rfl : done = planned := by omega
    exact Triple.pure fun s hs => ⟨done, events, h, begun, .finished flawless, hs⟩
  | succ left ih =>
    have hscript := h.waits_for_owner connects configures
    have htoken := h.cancelled connects configures flawless
    unfold repeatStream
    split
    case isTrue hcancelled =>
      have hset : p.tokenSet t done = true := htoken ▸ hcancelled
      exact note_backend.bind fun _ => Triple.pure fun s hs =>
        ⟨done, events, h, begun, .cancelled (by omega) hset flawless, hs⟩
    case isFalse hcancelled =>
      have hunset : p.tokenSet t done = false := by
        rw [← htoken]
        exact Bool.eq_false_iff.mpr hcancelled
      have hbegun : p.Begun t planned (done + 1) := by
        refine ⟨by omega, fun k hk => ?_, fun k hk => flawless k (by omega)⟩
        rcases Nat.lt_succ_iff_lt_or_eq.mp hk with hlt | rfl
        · exact begun.unset k hlt
        · exact hunset
      apply (request_spec h harmless hscript (.stream (decide (done + 1 < planned)))).bind
      rintro ⟨run', told⟩ s ⟨⟨more, hrested⟩, htold, hs⟩
      rw [← List.map_singleton, ← List.map_append, ← Plan.repetitions_succ] at hrested
      have hlast : told = p.repetition planned done := by
        rw [show told = run'.results.getLast?.getD (.ok ()) from htold]
        rw [Plan.repetitions_succ] at hrested
        rw [hrested.told connects configures]
        rfl
      cases told with
      | ok u =>
        refine ih (by omega) hrested hbegun (fun k hk => ?_) s hs
        rcases Nat.lt_succ_iff_lt_or_eq.mp hk with hlt | rfl
        · exact flawless k hlt
        · exact hlast.symm
      | error e => exact ⟨done + 1, events ++ more, hrested, hbegun, .failed hlast.symm, hs⟩

/-- A run that may begin has cards, which are those of the program that have something to play. -/
theorem checkRun_ok {r : Registry} {bufferMs : Float} {cards : List String}
    (h : checkRun r bufferMs = .ok cards) :
    cards ≠ [] ∧ ∃ q, r.program = some q ∧ cards = q.activeCards := by
  unfold checkRun at h
  split at h
  · cases h
  · obtain ⟨q, hq, h⟩ := exists_of_bind_ok h
    dsimp only at h
    split at h
    · cases h
    · rename_i hactive
      obtain ⟨_, -, h⟩ := exists_of_bind_ok h
      cases h
      refine ⟨fun hnil => hactive (by rw [hnil]; rfl), q, ?_, rfl⟩
      unfold Registry.current? at hq
      split at hq
      · split at hq <;> cases hq
        assumption
      · cases hq

theorem activeCards_nodup {q : Program} (h : q.cards.names.Nodup) : q.activeCards.Nodup :=
  h.sublist (List.filter_sublist.map _)

/-- A run that is lent the backend at its beginning settles at rest. -/
theorem lend_spec {s : Session} {bufferMs : Float} (hp : p.Lent s bufferMs)
    (harmless : ∀ i ∈ t.incidents, i.effect = .cancel) (hrun : run = { p.start [] with
      stage := { incidents := t.incidents, cancelled := t.cancelled } }) :
    Triple (fun s' => s'.backend = s.backend) (lend run)
      (fun x s' => (∃ events, p.Rested t [] events x.1) ∧
        x.2 = x.1.results.getLast?.getD (.ok ()) ∧ s'.backend = x.1.stage.backend)
      (fun _ _ => False) := by
  intro s' hs
  refine ⟨?_, rfl, rfl⟩
  have hbackend : s'.backend = p.backend := hs.trans hp.backend.symm
  apply Plan.rested_settle harmless (.start : (p.start []).Leads [] _)
  · simp [hrun, hbackend, Plan.start, Run.quiet, Stage.quiet]
  · rw [hrun, Token.after_of_none fun _ => rfl]
    rfl

/-- The backend has heard of no start and of no streaming call since. -/
def Unstarted (s s' : Session) : Prop :=
  ∃ calls, s'.backend.calls = s.backend.calls ++ calls ∧
    ∀ c ∈ calls, (∀ d, c ≠ .start d) ∧ ∀ d q, c ≠ .streamRun d q

/-- A run is configured, or nothing is started. -/
theorem configureRun_spec (s : Session) (bufferMs : Float) {incidents : List Incident}
    (cancelled : Bool) (harmless : ∀ i ∈ incidents, i.effect = .cancel)
    (distinct : ∀ q, s.registry.program = some q → q.cards.names.Nodup) :
    Triple (fun s' => s' = s) (configureRun bufferMs incidents cancelled)
      (fun run s' => ∃ p : Plan, p.Lent s bufferMs ∧ (p.Connects ∧ p.Configures) ∧
        ∃ events, p.Rested ⟨incidents, cancelled⟩ [] events run ∧ s'.backend = run.stage.backend)
      (fun _ => s.Unstarted) := by
  unfold configureRun
  apply Triple.readRegistry_bind (r := s.registry) fun _ hs => congrArg _ hs
  refine Triple.ofExcept_bind (fun e s' _ hs => ⟨[], by simp [hs], by simp⟩) fun cards hcards => ?_
  extract_lets stage rest
  obtain ⟨some_card, q, hq, rfl⟩ := checkRun_ok hcards
  let p : Plan :=
    { cards := q.activeCards, bufferMs, heldBack := heldBack s.registry q.activeCards,
      refClock := refClock s.registry, backend := s.backend, some_card,
      distinct := activeCards_nodup (distinct q hq) }
  have hp : p.Lent s bufferMs := ⟨hcards, rfl, rfl, rfl, rfl⟩
  have hrest : Triple (fun s' => s'.backend = s.backend) (rest ())
      (fun run s' => ∃ p : Plan, p.Lent s bufferMs ∧ (p.Connects ∧ p.Configures) ∧
        ∃ events, p.Rested ⟨incidents, cancelled⟩ [] events run ∧ s'.backend = run.stage.backend)
      (fun _ => s.Unstarted) := by
    have hlent := lend_spec (t := ⟨incidents, cancelled⟩) hp harmless rfl
    refine (hlent.weaken (fun _ hs => hs) (fun _ _ hs => hs) (fun _ _ hs => hs.elim)).bind ?_
    rintro ⟨run, told⟩ s' ⟨⟨events, hrested⟩, htold, hs'⟩
    have htold : told = run.results.getLast?.getD (.ok ()) := htold
    rcases hrested.configured with ⟨hconfigured, hresults⟩ | ⟨e, hresults⟩
    · obtain rfl : told = .ok () := by rw [htold, hresults]; rfl
      exact ⟨p, hp, hconfigured, events, hrested, hs'⟩
    · obtain rfl : told = .error e := by rw [htold, hresults]; rfl
      exact ⟨Event.calls events, by rw [hs', hrested.calls, hp.backend],
        fun c hc => hrested.idle hc⟩
  split
  · refine (note_backend.bind fun _ => hrest).weaken ?_ (fun _ _ h => h) fun _ _ h => h
    exact fun s' hs => congrArg Session.backend hs
  · exact hrest.weaken (fun s' hs => congrArg Session.backend hs) (fun _ _ h => h) fun _ _ h => h

/-- What is known of a configured run once it was played and closed, up to what its owner is told:
its calls, how many repetitions were begun, and why no more. -/
def Closed (p : Plan) (t : Token) (planned count : Nat) (summary : RunSummary) (streamed : Report)
    (s : Session) : Prop :=
  p.Begun t planned count ∧ p.Ended t planned count summary streamed ∧
    ∃ calls, s.backend.calls = p.backend.calls ++ calls ∧
      p.Phased (Plan.repetitions planned count) calls

/-- A configured run is played and closed, and the first failure is told. -/
theorem played_spec (harmless : ∀ i ∈ t.incidents, i.effect = .cancel) (connects : p.Connects)
    (configures : p.Configures) (h : p.Rested t [] events run) (planned : Nat) :
    Triple (fun s => s.backend = run.stage.backend)
      (do
        let (run, summary, streamed) ← repeatStream planned 0 planned run
        let (_, closed) ← request .close run
        ofExcept streamed
        ofExcept closed
        note (.finished summary)
        return summary)
      (fun summary s => ∃ count, Closed p t planned count summary (.ok ()) s ∧ p.closeError = none)
      (fun e s => ∃ count summary, Closed p t planned count summary (.error e) s ∨
        Closed p t planned count summary (.ok ()) s ∧ p.closeError = some e) := by
  have begun : p.Begun t planned 0 := ⟨Nat.zero_le _, nofun, nofun⟩
  have hplayed :=
    repeatStream_spec harmless connects configures (Nat.zero_add planned) h begun nofun
  refine (hplayed.weaken (fun _ hs => hs) (fun _ _ hs => hs) (fun _ _ hs => hs.elim)).bind ?_
  rintro ⟨run', summary, streamed⟩ s ⟨count, events', hrested, hbegun, hended, hs⟩
  have hscript : run'.script = [] := hrested.waits_for_owner connects configures
  have hclose := request_spec hrested harmless hscript .close
  refine (hclose.weaken (fun _ hs => hs) (fun _ _ hs => hs) (fun _ _ hs => hs.elim)).bind ?_ s hs
  rintro ⟨run'', closed⟩ s' ⟨⟨more, hclosed⟩, htold, hs'⟩
  obtain ⟨hlast, hphased⟩ := hclosed.closed connects configures
  have hreport : closed = Run.asReport p.closeError := by
    rw [show closed = run''.results.getLast?.getD (.ok ()) from htold, hlast]
    rfl
  have hcalls : s'.backend.calls = p.backend.calls ++ Event.calls (events' ++ more) := by
    rw [hs', hclosed.calls]
  have hfinal : ∀ s : Session, s.backend = s'.backend →
      Closed p t planned count summary streamed s := fun s hsame =>
    ⟨hbegun, hended, _, by rw [hsame, hcalls], hphased⟩
  have htail : Triple (fun s => s.backend = s'.backend)
      (do
        ofExcept streamed
        ofExcept closed
        note (.finished summary)
        return summary)
      (fun summary s => ∃ count, Closed p t planned count summary (.ok ()) s ∧ p.closeError = none)
      (fun e s => ∃ count summary, Closed p t planned count summary (.error e) s ∨
        Closed p t planned count summary (.ok ()) s ∧ p.closeError = some e) := by
    refine Triple.ofExcept_bind (fun e s hfails hs => ?_) fun _ hplayed => ?_
    · exact ⟨count, summary, .inl (hfails ▸ hfinal s hs)⟩
    refine Triple.ofExcept_bind (fun e s hfails hs => ?_) fun _ hnone => ?_
    · have hclose : p.closeError = some e := by
        rw [hreport] at hfails
        exact Run.asReport_eq_error_iff.mp hfails
      exact ⟨count, summary, .inr ⟨hplayed ▸ hfinal s hs, hclose⟩⟩
    · have hclose : p.closeError = none := by
        rw [hreport] at hnone
        exact Run.asReport_eq_ok_iff.mp hnone
      exact note_backend.bind fun _ =>
        Triple.pure fun s hs => ⟨count, hplayed ▸ hfinal s hs, hclose⟩
  exact htail s' rfl

/-- The accounts of a whole run. If it can not be configured, that is what is told, and nothing was
started. Otherwise some of the planned repetitions are played, each of them told whether another one
is to follow, none of them after a failed one or after the token was seen to be set, and then all
cards are closed. A summary is only given when nothing failed; it counts the repetitions that were
played, and tells whether some were left out, which is due to the token. The error told is that of
the failed repetition, which is the last one, and that of closing only if there is none. -/
theorem stream_accounts (s : Session) (settings : RunSettings) (incidents : List Incident)
    (cancelled : Bool) (harmless : ∀ i ∈ incidents, i.effect = .cancel)
    (distinct : ∀ q, s.registry.program = some q → q.cards.names.Nodup) :
    (∀ e s', (configureRun settings.bufferMs incidents cancelled).run.run s = (.error e, s') →
      (stream settings incidents cancelled).run.run s = (.error e, s') ∧ s.Unstarted s') ∧
    ∀ run s₁, (configureRun settings.bufferMs incidents cancelled).run.run s = (.ok run, s₁) →
      ∃ p : Plan, p.Lent s settings.bufferMs ∧ p.Connects ∧ p.Configures ∧
      ∃ count calls answer s', (stream settings incidents cancelled).run.run s = (answer, s') ∧
        s'.backend.calls = s.backend.calls ++ calls ∧
        p.Phased (Plan.repetitions settings.repetitions count) calls ∧
        p.Begun ⟨incidents, cancelled⟩ settings.repetitions count ∧
        (count < settings.repetitions → p.tokenSet ⟨incidents, cancelled⟩ count = true ∨
          ∃ k e, count = k + 1 ∧ p.repetition settings.repetitions k = .error e) ∧
        (∀ summary, answer = .ok summary →
          (∀ k < count, p.repetition settings.repetitions k = .ok ()) ∧ p.closeError = none ∧
          summary.repetitions = count ∧ (summary.cancelled = true ↔ count < settings.repetitions)) ∧
        (∀ e, answer = .error e →
          (∃ k, count = k + 1 ∧ p.repetition settings.repetitions k = .error e) ∨
          (∀ k < count, p.repetition settings.repetitions k = .ok ()) ∧ p.closeError = some e) := by
  have hconfigure := configureRun_spec s settings.bufferMs cancelled harmless distinct s rfl
  refine ⟨fun e s' hrun => ?_, fun run s₁ hrun => ?_⟩
  · rw [hrun] at hconfigure
    refine ⟨?_, hconfigure⟩
    unfold stream
    rw [run_bind, hrun]
  · rw [hrun] at hconfigure
    obtain ⟨p, hp, ⟨connects, configures⟩, events, hrested, hs₁⟩ := hconfigure
    have hplayed := played_spec harmless connects configures hrested settings.repetitions s₁ hs₁
    refine ⟨p, hp, connects, configures, ?_⟩
    unfold stream
    rw [run_bind, hrun]
    dsimp only
    split at hplayed
    · rename_i summary s' hend
      obtain ⟨count, ⟨hbegun, hended, calls, hcalls, hphased⟩, hclose⟩ := hplayed
      obtain ⟨hflawless, hcount, hcancelled⟩ := hended.accounts
      refine ⟨count, calls, .ok summary, s', hend, hp.backend ▸ hcalls, hphased, hbegun,
        hended.left_out, ?_, ?_⟩ <;> rintro _ ⟨⟩
      exact ⟨hflawless, hclose, hcount, hcancelled⟩
    · rename_i e s' hend
      obtain ⟨count, summary, hplayed⟩ := hplayed
      rcases hplayed with ⟨hbegun, hended, calls, hcalls, hphased⟩ |
        ⟨⟨hbegun, hended, calls, hcalls, hphased⟩, hclose⟩
      · refine ⟨count, calls, .error e, s', hend, hp.backend ▸ hcalls, hphased, hbegun,
          hended.left_out, ?_, ?_⟩ <;> rintro _ ⟨⟩
        exact .inl hended.failure
      · refine ⟨count, calls, .error e, s', hend, hp.backend ▸ hcalls, hphased, hbegun,
          hended.left_out, ?_, ?_⟩ <;> rintro _ ⟨⟩
        exact .inr ⟨hended.accounts.1, hclose⟩

/-- A compiled program with one level on one card. -/
def compiledSession : Session :=
  Session.operate {}
    [.addCard "Dev1" .analog 1000, .addAnalogChannel "Dev1" 0 0,
      .addInstruction "Dev1" "ao0" (.lasting 0 0.5 false (.constant 1)), .compile (some 1)]

/-- Of three repetitions, the second one sets the token. -/
theorem cancelledRun_accounts : ∃ (p : Plan) (calls : List Call) (s' : Session),
    (stream ⟨50, 3⟩ [⟨"Dev1", 2, .cancel⟩] false).run.run compiledSession = (.ok ⟨2, true⟩, s') ∧
      s'.backend.calls = compiledSession.backend.calls ++ calls ∧
      p.Phased [true, true] calls := by
  have hconfigured : ((configureRun 50 [⟨"Dev1", 2, .cancel⟩] false).run.run
      compiledSession).1.isOk = true := by decide +kernel
  have hplayed : ((stream ⟨50, 3⟩ [⟨"Dev1", 2, .cancel⟩] false).run.run
      compiledSession).1.toOption.map (·.repetitions) = some 2 := by decide +kernel
  obtain ⟨-, hplays⟩ := stream_accounts compiledSession ⟨50, 3⟩ [⟨"Dev1", 2, .cancel⟩] false
    (by decide) (by decide +kernel)
  rcases hrun : (configureRun 50 [⟨"Dev1", 2, .cancel⟩] false).run.run compiledSession with ⟨r, s₁⟩
  cases r with
  | error e =>
    rw [hrun] at hconfigured
    cases hconfigured
  | ok run =>
    obtain ⟨p, -, -, -, count, calls, answer, s', hanswer, hcalls, hphased, -, -, hok, -⟩ :=
      hplays run s₁ hrun
    rw [hanswer] at hplayed
    cases answer with
    | error e => cases hplayed
    | ok summary =>
      obtain ⟨-, -, hcount, hcancelled⟩ := hok summary rfl
      obtain rfl : count = 2 := by
        rw [← hcount]
        exact Option.some.inj hplayed
      have hsummary : summary = ⟨2, true⟩ :=
        congr (congrArg RunSummary.mk hcount) (hcancelled.mpr (by decide))
      exact ⟨p, calls, s', hsummary ▸ hanswer, hcalls, hphased⟩

end Session

end Sequencer
