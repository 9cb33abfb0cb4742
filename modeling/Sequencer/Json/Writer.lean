import Sequencer.Json.Value

namespace Sequencer.Json

def hexDigits (n : Nat) : List Char :=
  let ds := Nat.toDigits 16 n
  List.replicate (4 - ds.length) '0' ++ ds

def writtenChar (c : Char) : List Char :=
  if c = '"' then ['\\', '"']
  else if c = '\\' then ['\\', '\\']
  else if c.toNat < 32 then '\\' :: 'u' :: hexDigits c.toNat
  else [c]

def writeString (s : String) : String :=
  String.ofList ('"' :: s.toList.flatMap writtenChar ++ ['"'])

def Numeral.write (n : Numeral) : String :=
  let sign := if n.negative then "-" else ""
  let power := if n.exponent = 0 then "" else "e" ++ toString n.exponent
  sign ++ toString n.digits ++ power

mutual

def Value.write : Value → String
  | .null => "null"
  | .bool b => if b then "true" else "false"
  | .number n => n.write
  | .text s => (s.map writeString).getD "null"
  | .list items => "[" ++ String.intercalate "," (writeItems items) ++ "]"
  | .record fields => "\x7b" ++ String.intercalate "," (writeFields fields) ++ "\x7d"

def writeItems : List Value → List String
  | [] => []
  | v :: rest => v.write :: writeItems rest

def writeFields : List (Option String × Value) → List String
  | [] => []
  | (name, v) :: rest => (writeString (name.getD "") ++ ":" ++ v.write) :: writeFields rest

end

end Sequencer.Json
