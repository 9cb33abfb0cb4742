import Sequencer.Decimal.Binary

namespace Sequencer

open Decimal (Reading Ratio)

/-- Ticks are counted in 64 bits. -/
def tickLimit : Nat := UInt64.size

/-- The tick nearest to `t`, a half going away from zero. There is none for times that round below
zero, leave the counter or are not finite. -/
def tickAt? (t rate : Float) : Option Nat :=
  match Reading.ofFloat (t * rate) with
  | .finite negative mantissa exponent =>
    let n := (Ratio.scaled mantissa exponent).roundHalfUp
    if n < tickLimit ∧ (negative = true → n = 0) then some n else none
  | _ => none

/-- A tick count as a number. -/
def ticks (n : Nat) : Float := n.toUInt64.toFloat

/-- Splits a flat line index into port and line. -/
def portLine? (index linesPerPort : Nat) : Option (Nat × Nat) :=
  if linesPerPort = 0 then none else some (index / linesPerPort, index % linesPerPort)

/-- The larger of two times; a value that is not a number never wins. -/
def later (a b : Float) : Float :=
  if a.isNaN then b else if a < b then b else a

end Sequencer
