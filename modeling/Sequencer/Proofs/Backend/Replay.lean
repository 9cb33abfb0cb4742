import Mathlib.Data.List.DropRight
import Sequencer.Backend
import Sequencer.Proofs.Backend.Numbers
import Sequencer.Proofs.Sorted

namespace Sequencer

namespace Connection

theorem order_eq_lt_iff {p q : Connection} :
    p.order q = .lt ↔ p.1 < q.1 ∨ p.1 = q.1 ∧ p.2 < q.2 := by
  simp only [order, Ordering.then_eq_lt, compare_lt_iff_lt, Std.compare_eq_iff_eq]

theorem eq_of_order {p q : Connection} (h : p.order q = .eq) : p = q := by
  simp only [order, Ordering.then_eq_eq, Std.compare_eq_iff_eq] at h
  exact Prod.ext h.1 h.2

instance : Std.TransCmp order :=
  inferInstanceAs (Std.TransCmp (compareLex (compareOn Prod.fst) (compareOn Prod.snd)))

theorem insert_sorted (p : Connection) (ps : List Connection) :
    insert p ps = Sorted.insert order p ps := by
  induction ps with
  | nil => rfl
  | cons q ps ih =>
    cases horder : p.order q <;> simp only [insert, Sorted.insert, horder, ih]

theorem mem_insert {p q : Connection} {ps : List Connection} (h : Sorted.Strictly order ps) :
    q ∈ insert p ps ↔ q = p ∨ q ∈ ps := by
  rw [insert_sorted, Sorted.mem_insert h]
  constructor
  · rintro (hq | ⟨rfl, -⟩)
    · exact .inr hq
    · exact .inl rfl
  · rintro (rfl | hq)
    · by_cases hmem : q ∈ ps
      · exact .inl hmem
      · exact .inr ⟨rfl, fun r hr heq => hmem (eq_of_order heq ▸ hr)⟩
    · exact .inl hq

end Connection

namespace Backend

/-- What is done to a backend. -/
inductive Use where
  | issue (c : Call)
  | failOn (c : Call)
  | clearCalls

def Use.run (u : Use) (b : Backend) : Backend :=
  match u with
  | issue c => (b.issue c).2
  | failOn c => b.failOn c
  | clearCalls => b.clearCalls

def Use.call? : Use → Option Call
  | issue c => some c
  | _ => none

def Use.clears : Use → Bool
  | clearCalls => true
  | _ => false

/-- A new backend after all this was done to it. -/
def after (us : List Use) : Backend := us.foldl (fun b u => u.run b) {}

/-- What was asked, failing or not, since the log was last cleared. -/
def asked (us : List Use) : List Call := (us.rtakeWhile (!·.clears)).filterMap Use.call?

/-- An equal call was chosen to fail. -/
def Refuses (us : List Use) (c : Call) : Prop := ∃ d, .failOn d ∈ us ∧ (d == c) = true

/-- After the uses `before` came this call, and it was accepted. -/
def Accepted (us before : List Use) (c : Call) : Prop :=
  before ++ [.issue c] <+: us ∧ ¬Refuses before c

/-- Some accepted call made the connection, and no later one took it back. -/
def Connected (us : List Use) (p : Connection) : Prop :=
  ∃ before, Accepted us before (.connect p.1 p.2) ∧
    ∀ later, before <+: later → ¬Accepted us later (.disconnect p.1 p.2)

variable {us before : List Use} {u : Use} {c : Call} {p : Connection} {b : Backend}

theorem after_concat (us : List Use) (u : Use) : after (us ++ [u]) = u.run (after us) := by
  simp [after]

/-- Logged in any case, and carried out if accepted. -/
theorem issue_eq (b : Backend) (c : Call) : b.issue c = (b.accepts c, { b with
    calls := b.calls ++ [c]
    connections := if b.accepts c then connectionsAfter c b.connections else b.connections }) := by
  unfold issue
  cases b.accepts c <;> rfl

theorem calls_after (us : List Use) : (after us).calls = asked us := by
  induction us using List.reverseRecOn with
  | nil => rfl
  | append_singleton us u ih =>
    rw [after_concat, asked, List.rtakeWhile_concat]
    cases u with
    | issue c => simp [Use.run, issue_eq, ih, asked, Use.clears, Use.call?]
    | failOn c => simp [Use.run, failOn, ih, asked, Use.clears, Use.call?]
    | clearCalls => simp [Use.run, clearCalls, Use.clears]

theorem mem_failing_after (us : List Use) (c : Call) : c ∈ (after us).failing ↔ .failOn c ∈ us := by
  induction us using List.reverseRecOn with
  | nil => simp [after]
  | append_singleton us u ih =>
    rw [after_concat, List.mem_append, ← ih]
    cases u <;> simp [Use.run, issue_eq, failOn, clearCalls]

theorem accepts_after (us : List Use) (c : Call) : (after us).accepts c = true ↔ ¬Refuses us c := by
  simp [accepts, Refuses, mem_failing_after]

/-- Nothing refuses a call with something that is not a number. -/
theorem not_refuses_of_isNaN {x : Float} (hx : x ∈ c.numbers) (hnan : x.isNaN = true) :
    ¬Refuses us c := by
  rintro ⟨d, -, hdc⟩
  have hnumber := Call.numeric_of_beq hdc x hx
  rw [hnan] at hnumber
  cases hnumber

theorem mem_connectionsAfter {ps : List Connection} (h : Sorted.Strictly Connection.order ps)
    (c : Call) : p ∈ connectionsAfter c ps ↔
      c = .connect p.1 p.2 ∨ p ∈ ps ∧ c ≠ .disconnect p.1 p.2 := by
  obtain ⟨source, target⟩ := p
  cases c with
  | connect s t => simp [connectionsAfter, Connection.mem_insert h, eq_comm]
  | disconnect s t =>
    simp only [connectionsAfter, List.mem_filter, bne_iff_ne, ne_eq, Prod.mk.injEq,
      Call.disconnect.injEq, reduceCtorEq, false_or]
    rw [eq_comm (a := source), eq_comm (a := target)]
  | _ => simp [connectionsAfter]

theorem connections_run (b : Backend) (u : Use) : (u.run b).connections =
    match u with
    | .issue c => if b.accepts c then connectionsAfter c b.connections else b.connections
    | _ => b.connections := by
  cases u with
  | issue c => rw [Use.run, issue_eq]
  | failOn c => rfl
  | clearCalls => rfl

theorem sorted_connectionsAfter {ps : List Connection} (h : Sorted.Strictly Connection.order ps)
    (c : Call) : Sorted.Strictly Connection.order (connectionsAfter c ps) := by
  cases c with
  | connect source target =>
    rw [connectionsAfter, Connection.insert_sorted]
    exact h.insert _
  | disconnect source target => exact h.filter _
  | _ => exact h

theorem sorted_after (us : List Use) : Sorted.Strictly Connection.order (after us).connections := by
  induction us using List.reverseRecOn with
  | nil => exact .nil
  | append_singleton us u ih =>
    rw [after_concat, connections_run]
    cases u with
    | issue c =>
      dsimp only
      split
      · exact sorted_connectionsAfter ih c
      · exact ih
    | failOn c => exact ih
    | clearCalls => exact ih

theorem accepted_concat : Accepted (us ++ [u]) before c ↔
    Accepted us before c ∨ before = us ∧ u = .issue c ∧ ¬Refuses us c := by
  have hlast : before ++ [.issue c] = us ++ [u] ↔ before = us ∧ u = .issue c := by
    rw [← List.concat_eq_append, ← List.concat_eq_append, List.concat_inj, eq_comm (a := u)]
  rw [Accepted, Accepted, List.prefix_concat_iff, hlast]
  constructor
  · rintro ⟨⟨rfl, rfl⟩ | hbefore, haccepts⟩
    · exact .inr ⟨rfl, rfl, haccepts⟩
    · exact .inl ⟨hbefore, haccepts⟩
  · rintro (⟨hbefore, haccepts⟩ | ⟨rfl, rfl, haccepts⟩)
    · exact ⟨.inr hbefore, haccepts⟩
    · exact ⟨.inl ⟨rfl, rfl⟩, haccepts⟩

/-- What was accepted was accepted before the end. -/
theorem Accepted.lt (h : Accepted us before c) : before.length < us.length := by
  simpa using h.1.length_le

/-- The last use decides, if it is an accepted call about the pair, and else changes nothing. -/
theorem connected_concat : Connected (us ++ [u]) p ↔
    (u = .issue (.connect p.1 p.2) ∧ ¬Refuses us (.connect p.1 p.2)) ∨
      Connected us p ∧ ¬(u = .issue (.disconnect p.1 p.2) ∧ ¬Refuses us (.disconnect p.1 p.2)) := by
  simp only [Connected, accepted_concat]
  constructor
  · rintro ⟨before, hmade | ⟨rfl, hlast⟩, hkept⟩
    · refine .inr ⟨⟨before, hmade, fun later hle hlater => hkept later hle (.inl hlater)⟩, ?_⟩
      intro hlast
      exact hkept us ((List.prefix_append ..).trans hmade.1) (.inr ⟨rfl, hlast⟩)
    · exact .inl hlast
  · rintro (hlast | ⟨⟨before, hmade, hkept⟩, hspared⟩)
    · refine ⟨us, .inr ⟨rfl, hlast⟩, fun later hle hlater => ?_⟩
      rcases hlater with hlater | ⟨-, hdisconnect, -⟩
      · exact Nat.not_le.mpr hlater.lt hle.length_le
      · simp [hlast.1] at hdisconnect
    · refine ⟨before, .inl hmade, fun later hle hlater => ?_⟩
      rcases hlater with hlater | ⟨-, hlast⟩
      · exact hkept later hle hlater
      · exact hspared hlast

theorem mem_connections_after (us : List Use) : p ∈ (after us).connections ↔ Connected us p := by
  induction us using List.reverseRecOn with
  | nil => simp [after, Connected, Accepted]
  | append_singleton us u ih =>
    rw [after_concat, connections_run, connected_concat, ← ih]
    cases u with
    | issue c =>
      have hthis : ∀ d, Use.issue c = .issue d ∧ ¬Refuses us d ↔
          c = d ∧ (after us).accepts c = true := by
        intro d
        rw [accepts_after, Use.issue.injEq]
        exact and_congr_right fun h => by rw [h]
      simp only [hthis]
      cases haccepts : (after us).accepts c with
      | true => simp [mem_connectionsAfter (sorted_after us)]
      | false => simp
    | failOn c => simp
    | clearCalls => simp

/-- Whatever a backend was asked, in any order with calls chosen to fail and its log cleared: the
log is what came since then, in order. A call fails exactly if one equal to it was chosen to, and
never if it holds something that is not a number. There is a connection exactly where some accepted
call made it and no later one took it back, and all of them are in strict order. -/
theorem connections_replay (us : List Use) :
    (after us).calls = asked us ∧
    (∀ c, ((after us).issue c).1 = false ↔ ∃ d, .failOn d ∈ us ∧ (d == c) = true) ∧
    (∀ c x, x ∈ c.numbers → x.isNaN = true → ((after us).issue c).1 = true) ∧
    (∀ p, p ∈ (after us).connections ↔ Connected us p) ∧
    (after us).connections.Pairwise fun p q => p.1 < q.1 ∨ p.1 = q.1 ∧ p.2 < q.2 := by
  have hverdict : ∀ c, ((after us).issue c).1 = true ↔ ¬Refuses us c := fun c => by
    rw [issue_eq, accepts_after]
  refine ⟨calls_after us, fun c => ?_, fun c x hx hnan => ?_, fun p => mem_connections_after us,
    (sorted_after us).imp Connection.order_eq_lt_iff.mp⟩
  · rw [← Bool.not_eq_true, hverdict, not_not, Refuses]
  · exact (hverdict c).mpr (not_refuses_of_isNaN hx hnan)

/-- A pair that was connected twice is disconnected at once, and a refused call leaves the other. -/
example :
    (after [.issue (.connect "b" "c"), .issue (.connect "a" "c"), .issue (.connect "b" "c"),
      .failOn (.disconnect "a" "c"), .issue (.disconnect "b" "c"), .clearCalls,
      .issue (.disconnect "a" "c")]).connections = [("a", "c")] := by
  decide

end Backend

end Sequencer
