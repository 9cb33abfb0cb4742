namespace Sequencer.Json

/-- `± digits * 10 ^ exponent`; `whole` when written without a fraction and without an exponent. -/
structure Numeral where
  negative : Bool := false
  digits : Nat
  exponent : Int := 0
  whole : Bool := true

/-- A value as written: numbers keep their digits, and a text whose escapes name half of a surrogate
pair is kept apart from the readable ones. -/
inductive Value where
  | null
  | bool (b : Bool)
  | number (n : Numeral)
  | text (s : Option String)
  | list (items : List Value)
  | record (fields : List (Option String × Value))

/-- Beyond these powers of ten every number is infinite or zero. -/
def Numeral.magnitude (n : Numeral) : Float :=
  if n.digits = 0 then 0
  else
    let top := n.exponent + (Nat.toDigits 10 n.digits).length
    if 310 < top then 1.0 / 0.0
    else if top < -330 then 0
    else Float.ofScientific n.digits (n.exponent < 0) n.exponent.natAbs

/-- The nearest float. -/
def Numeral.toFloat (n : Numeral) : Float := if n.negative then -n.magnitude else n.magnitude

/-- A count that fits in 64 bits; a negative zero is not a count. -/
def Numeral.toCount? (n : Numeral) : Option Nat :=
  if n.whole && !n.negative && n.digits < UInt64.size then some n.digits else none

def Value.ofNat (n : Nat) : Value := .number ⟨false, n, 0, true⟩

def Value.ofString (s : String) : Value := .text (some s)

def Value.ofFields (fields : List (String × Value)) : Value :=
  .record (fields.map fun (k, v) => (some k, v))

/-- The last field of that name. -/
def Value.field? (name : String) : Value → Option Value
  | .record fields => (fields.reverse.find? fun f => f.1 == some name).map (·.2)
  | _ => none

end Sequencer.Json
