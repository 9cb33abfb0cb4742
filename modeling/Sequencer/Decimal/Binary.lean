namespace Sequencer.Decimal

/-- What a float stands for. A finite one is `mantissa * 2 ^ exponent`, with its sign kept on zero. -/
inductive Reading where
  | nan
  | infinite (negative : Bool)
  | finite (negative : Bool) (mantissa : Nat) (exponent : Int)

/-- The lowest exponent is shared by the numbers without a leading one bit. -/
def Reading.ofFloat (x : Float) : Reading :=
  let bits := x.toBits.toNat
  let negative := decide (Nat.pow 2 63 ≤ bits)
  let field : Nat := bits / Nat.pow 2 52 % 2048
  let fraction := bits % Nat.pow 2 52
  if field = 2047 then
    if fraction = 0 then .infinite negative else .nan
  else if field = 0 then .finite negative fraction (-1074)
  else .finite negative (Nat.pow 2 52 + fraction) ((field : Int) - 1075)

/-- A non-negative rational. -/
structure Ratio where
  num : Nat
  den : Nat

def Ratio.scaled (mantissa : Nat) : Int → Ratio
  | .ofNat e => ⟨mantissa * Nat.pow 2 e, 1⟩
  | .negSucc e => ⟨mantissa, Nat.pow 2 (e + 1)⟩

/-- Nearest whole number; a half goes up. -/
def Ratio.roundHalfUp (r : Ratio) : Nat := (2 * r.num + r.den) / (2 * r.den)

/-- Nearest whole number; a half goes to the even neighbour. -/
def Ratio.roundHalfEven (r : Ratio) : Nat :=
  let whole := r.num / r.den
  let rest := 2 * (r.num % r.den)
  if rest < r.den then whole
  else if r.den < rest then whole + 1
  else whole + whole % 2

/-- `r / 10 ^ k`. -/
def Ratio.shifted (r : Ratio) : Int → Ratio
  | .ofNat k => ⟨r.num, r.den * Nat.pow 10 k⟩
  | .negSucc k => ⟨r.num * Nat.pow 10 (k + 1), r.den⟩

def digitCount (n : Nat) : Nat := if n = 0 then 0 else (Nat.toDigits 10 n).length

/-- The power of ten of the leading digit of a positive ratio. -/
def Ratio.leading (r : Ratio) : Int :=
  if r.den ≤ r.num then (digitCount (r.num / r.den) : Int) - 1
  else -(digitCount ((r.den - 1) / r.num) : Int)

end Sequencer.Decimal
