import Sequencer.Json.Value

namespace Sequencer.Json

def isBlank (c : Char) : Bool := c == ' ' || c == '\n' || c == '\t' || c == '\r'

def skipBlank (cs : List Char) : List Char := cs.dropWhile isBlank

def digitsValue (ds : List Char) : Nat := ds.foldl (fun n d => 10 * n + (d.toNat - '0'.toNat)) 0

/-- A run of at least one digit. As every reader, it gives back what it read with the rest, or
nothing. -/
def readDigits? (cs : List Char) : Option (List Char × List Char) :=
  match cs.takeWhile Char.isDigit with
  | [] => none
  | ds => some (ds, cs.dropWhile Char.isDigit)

/-- The digits before the point: a leading zero stands alone. -/
def readWhole? : List Char → Option (List Char × List Char)
  | '0' :: rest => if (rest.takeWhile Char.isDigit).isEmpty then some (['0'], rest) else none
  | cs => readDigits? cs

def readFraction? : List Char → Option (List Char × List Char)
  | '.' :: rest => readDigits? rest
  | cs => some ([], cs)

/-- The power of ten and whether one was written. -/
def readPower? : List Char → Option (Option Int × List Char)
  | c :: rest =>
    if c = 'e' ∨ c = 'E' then
      match rest with
      | '+' :: more => (readDigits? more).map fun (ds, r) => (some (digitsValue ds : Int), r)
      | '-' :: more => (readDigits? more).map fun (ds, r) => (some (-(digitsValue ds : Int)), r)
      | more => (readDigits? more).map fun (ds, r) => (some (digitsValue ds : Int), r)
    else some (none, c :: rest)
  | [] => some (none, [])

def readMagnitude? (negative : Bool) (cs : List Char) : Option (Numeral × List Char) := do
  let (whole, cs) ← readWhole? cs
  let (fraction, cs) ← readFraction? cs
  let (power, cs) ← readPower? cs
  some (⟨negative, digitsValue (whole ++ fraction), power.getD 0 - fraction.length,
    fraction.isEmpty && power.isNone⟩, cs)

def readNumeral? : List Char → Option (Numeral × List Char)
  | '-' :: rest => readMagnitude? true rest
  | cs => readMagnitude? false cs

def hexValue? (c : Char) : Option Nat :=
  if c.isDigit then some (c.toNat - '0'.toNat)
  else if 'a' ≤ c ∧ c ≤ 'f' then some (c.toNat - 'a'.toNat + 10)
  else if 'A' ≤ c ∧ c ≤ 'F' then some (c.toNat - 'A'.toNat + 10)
  else none

/-- A unit of a string: a character, or a 16-bit code from a numeric escape. -/
inductive Unit16 where
  | plain (c : Char)
  | code (n : Nat)

def hexCode? (a b c d : Char) : Option Nat := do
  some (4096 * (← hexValue? a) + 256 * (← hexValue? b) + 16 * (← hexValue? c) + (← hexValue? d))

/-- The character that a letter after a backslash stands for. -/
def shortEscape? : Char → Option Char
  | '"' => some '"'
  | '\\' => some '\\'
  | '/' => some '/'
  | 'b' => some '\x08'
  | 'f' => some '\x0c'
  | 'n' => some '\n'
  | 'r' => some '\r'
  | 't' => some '\t'
  | _ => none

/-- The units up to the closing quote; control characters must be escaped. -/
def readUnits? : List Char → Option (List Unit16 × List Char)
  | [] => none
  | '"' :: rest => some ([], rest)
  | '\\' :: 'u' :: a :: b :: c :: d :: rest => do
    let code ← hexCode? a b c d
    let (units, rest) ← readUnits? rest
    some (.code code :: units, rest)
  | '\\' :: e :: rest => do
    let c ← shortEscape? e
    let (units, rest) ← readUnits? rest
    some (.plain c :: units, rest)
  | c :: rest => do
    if c = '\\' ∨ c.toNat < 32 then none
    let (units, rest) ← readUnits? rest
    some (.plain c :: units, rest)

/-- Joins surrogate pairs; half a pair names no character. -/
def joinUnits : List Unit16 → Option (List Char)
  | [] => some []
  | .plain c :: rest => (joinUnits rest).map (c :: ·)
  | .code n :: rest =>
    if 0xd800 ≤ n ∧ n < 0xdc00 then
      match rest with
      | .code m :: more =>
        if 0xdc00 ≤ m ∧ m < 0xe000 then
          (joinUnits more).map (Char.ofNat (0x10000 + 0x400 * (n - 0xd800) + (m - 0xdc00)) :: ·)
        else none
      | _ => none
    else if 0xdc00 ≤ n ∧ n < 0xe000 then none
    else (joinUnits rest).map (Char.ofNat n :: ·)

/-- A string after its opening quote. -/
def readString? (cs : List Char) : Option (Option String × List Char) := do
  let (units, rest) ← readUnits? cs
  some ((joinUnits units).map String.ofList, rest)

def readWord? (word : List Char) (cs : List Char) : Option (List Char) :=
  if word.isPrefixOf cs then some (cs.drop word.length) else none

mutual

/-- A value after blanks. -/
def readValue? : Nat → List Char → Option (Value × List Char)
  | 0, _ => none
  | fuel + 1, cs =>
    match skipBlank cs with
    | '"' :: rest => (readString? rest).map fun (s, r) => (.text s, r)
    | '[' :: rest =>
      match skipBlank rest with
      | ']' :: r => some (.list [], r)
      | r => (readItems? fuel r).map fun (vs, r) => (.list vs, r)
    | '\x7b' :: rest =>
      match skipBlank rest with
      | '\x7d' :: r => some (.record [], r)
      | r => (readFields? fuel r).map fun (fs, r) => (.record fs, r)
    | 'n' :: rest => (readWord? ['u', 'l', 'l'] rest).map fun r => (.null, r)
    | 't' :: rest => (readWord? ['r', 'u', 'e'] rest).map fun r => (.bool true, r)
    | 'f' :: rest => (readWord? ['a', 'l', 's', 'e'] rest).map fun r => (.bool false, r)
    | cs => (readNumeral? cs).map fun (n, r) => (.number n, r)

/-- One item and those after it, up to the closing bracket. -/
def readItems? : Nat → List Char → Option (List Value × List Char)
  | 0, _ => none
  | fuel + 1, cs => do
    let (v, rest) ← readValue? fuel cs
    match skipBlank rest with
    | ']' :: r => some ([v], r)
    | ',' :: r =>
      let (vs, r) ← readItems? fuel r
      some (v :: vs, r)
    | _ => none

/-- One field and those after it, up to the closing brace. -/
def readFields? : Nat → List Char → Option (List (Option String × Value) × List Char)
  | 0, _ => none
  | fuel + 1, cs => do
    let '"' :: rest := skipBlank cs | none
    let (name, rest) ← readString? rest
    let ':' :: rest := skipBlank rest | none
    let (v, rest) ← readValue? fuel rest
    match skipBlank rest with
    | '\x7d' :: r => some ([(name, v)], r)
    | ',' :: r =>
      let (fs, r) ← readFields? fuel r
      some ((name, v) :: fs, r)
    | _ => none

end

/-- A whole text holding one value. Every level of nesting uses up a character, and a value at most
two steps of the reader. -/
def Value.read? (s : String) : Option Value := do
  let cs := s.toList
  let (v, rest) ← readValue? (2 * cs.length + 2) cs
  if (skipBlank rest).isEmpty then some v else none

end Sequencer.Json
