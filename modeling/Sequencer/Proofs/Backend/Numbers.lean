import Sequencer.Backend.Call
import Sequencer.Proofs.Float.Laws

namespace Sequencer

theorem Binary64.isNaN_of_beq {x y : Float} (h : (x == y) = true) :
    x.isNaN = false ∧ y.isNaN = false := by
  apply isNaN_of_compare
  intro hnone
  change (x.toModel.unpack.compare y.toModel.unpack == some .eq) = true at h
  rw [hnone] at h
  cases h

/-- Everything in the list is a number. -/
def Numeric (xs : List Float) : Prop := ∀ x ∈ xs, x.isNaN = false

namespace Numeric

variable {x y : Float}

theorem nil : Numeric [] := fun _ h => nomatch h

/-- What equals something is a number. -/
theorem cons {ys : List Float} (h : (x == y) = true) (hs : Numeric ys) : Numeric (y :: ys) :=
  List.forall_mem_cons.mpr ⟨(Binary64.isNaN_of_beq h).2, hs⟩

theorem toList {x? y? : Option Float} (h : (x? == y?) = true) : Numeric y?.toList := by
  cases y? with
  | none => exact nil
  | some y =>
    cases x? with
    | none => cases h
    | some x => exact cons h nil

theorem append {xs ys : List Float} (hx : Numeric xs) (hy : Numeric ys) : Numeric (xs ++ ys) :=
  fun z hz => (List.mem_append.mp hz).elim (hx z) (hy z)

end Numeric

theorem Action.numeric_of_beq {a b : Action} (h : (a == b) = true) : Numeric b.parameters := by
  change instBEqAction.beq a b = true at h
  revert h
  fun_cases instBEqAction.beq a b <;> intro h
  case case1 x y => exact .cons h .nil
  case case2 s s' =>
    change (s.amplitude == s'.amplitude && (s.frequency == s'.frequency &&
      (s.phase == s'.phase && s.offset == s'.offset))) = true at h
    simp only [Bool.and_eq_true] at h
    obtain ⟨ha, hf, hp, ho⟩ := h
    exact .cons ha (.cons hf (.cons hp (.cons ho .nil)))
  case case3 r r' =>
    change (r.first == r'.first && r.last == r'.last) = true at h
    simp only [Bool.and_eq_true] at h
    exact .cons h.1 (.cons h.2 .nil)
  case case9 => cases h
  all_goals exact .nil

def Instruction.numbers (i : Instruction) : List Float :=
  i.start :: (i.duration.toList ++ i.action.parameters)

theorem Instruction.numeric_of_beq {i j : Instruction} (h : (i == j) = true) :
    Numeric j.numbers := by
  change (i.start == j.start && (i.duration == j.duration &&
    (i.keep == j.keep && i.action == j.action))) = true at h
  simp only [Bool.and_eq_true] at h
  obtain ⟨hstart, hduration, -, haction⟩ := h
  exact .cons hstart ((Numeric.toList hduration).append (Action.numeric_of_beq haction))

namespace Call

/-- All numbers that a call hands over. -/
def numbers : Call → List Float
  | addAnalogDevice _ x | addDigitalDevice _ x | addAnalogChannel _ _ x | configureRun _ x => [x]
  | emit _ _ i => i.numbers
  | compile x? | setWriteTimeout _ x? => x?.toList
  | _ => []

theorem numeric_of_beq {c d : Call} (h : (c == d) = true) : Numeric d.numbers := by
  change instBEqCall.beq c d = true at h
  revert h
  fun_cases instBEqCall.beq c d <;> intro h
  -- Of the calls of one kind, those that hold numbers come first.
  case case1 | case2 | case17 => exact .cons (Bool.and_elim_right h) .nil
  case case3 => exact .cons (Bool.and_elim_right (Bool.and_elim_right h)) .nil
  case case5 => exact Instruction.numeric_of_beq (Bool.and_elim_right (Bool.and_elim_right h))
  case case7 => exact .toList h
  case case13 => exact .toList (Bool.and_elim_right h)
  case case21 => cases h
  all_goals exact .nil

end Call

end Sequencer
