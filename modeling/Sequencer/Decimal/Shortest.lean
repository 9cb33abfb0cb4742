import Sequencer.Decimal.Binary

namespace Sequencer.Decimal

/-- `digits * 10 ^ exponent`. -/
structure Scientific where
  digits : Nat
  exponent : Int

/-- The reals that round to a float, in units of `den`; the ends belong to it when `closed`. -/
structure Interval where
  low : Nat
  mid : Nat
  high : Nat
  den : Nat
  closed : Bool

/-- The gap below a power of two is half the gap above it, except at the lowest exponent. -/
def Interval.around (mantissa : Nat) (exponent : Int) : Interval :=
  let below := if mantissa = Nat.pow 2 52 ∧ exponent ≠ -1074 then 1 else 2
  let unit := Ratio.scaled 1 (exponent - 2)
  ⟨(4 * mantissa - below) * unit.num, 4 * mantissa * unit.num, (4 * mantissa + 2) * unit.num,
    unit.den, mantissa % 2 = 0⟩

/-- Whether `d * 10 ^ k` reads back. -/
def Interval.holds (i : Interval) (k : Int) (d : Nat) : Bool :=
  let power := Ratio.shifted ⟨1, 1⟩ (-k)
  let point := d * power.num * i.den
  let low := i.low * power.den
  let high := i.high * power.den
  if i.closed then low ≤ point && point ≤ high else low < point && point < high

/-- The neighbours of the value on the grid of step `10 ^ k` that read back: the nearer one wins,
a tie goes up. -/
def Interval.onGrid? (i : Interval) (k : Int) : Option Nat :=
  let scaled := Ratio.shifted ⟨i.mid, i.den⟩ k
  let down := scaled.num / scaled.den
  let rest := 2 * (scaled.num % scaled.den)
  match i.holds k down, i.holds k (down + 1) with
  | true, true => some (if rest < scaled.den then down else down + 1)
  | true, false => some down
  | false, true => some (down + 1)
  | false, false => none

/-- Seventeen digits always suffice, so the last grid is the answer when no coarser one holds. -/
def Interval.search (i : Interval) (top : Int) : Nat → Nat → Scientific
  | digits, 0 => ⟨(Ratio.shifted ⟨i.mid, i.den⟩ (top - digits)).roundHalfUp, top - digits⟩
  | digits, more + 1 =>
    match i.onGrid? (top - digits) with
    | some d => ⟨d, top - digits⟩
    | none => i.search top (digits + 1) more

/-- The fewest digits that read back as the same positive `mantissa * 2 ^ exponent`, and of those the
nearest ones. -/
def shortest (mantissa : Nat) (exponent : Int) : Scientific :=
  let i := Interval.around mantissa exponent
  i.search (Ratio.leading ⟨i.mid, i.den⟩) 0 16

end Sequencer.Decimal
