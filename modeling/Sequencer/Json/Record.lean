import Sequencer.Json.Value

namespace Sequencer.Json

/-- The value of a field, if it occurs; a second occurrence is an error. -/
def onlyField? (fields : List (Option String × Value)) (name : String) : Option (Option Value) :=
  match fields.filter (·.1 == some name) with
  | [] => some none
  | [f] => some (some f.2)
  | _ => none

/-- The values of the named fields, where given. Other fields of a record are passed over, but a
list may not be longer than the names. -/
def Value.fields? (names : List String) : Value → Option (List (Option Value))
  | .list items =>
    if items.length ≤ names.length then
      some (items.map some ++ List.replicate (names.length - items.length) none)
    else none
  | .record fields =>
    if fields.all (·.1.isSome) then names.mapM (onlyField? fields) else none
  | _ => none

/-- A number within the range of floats. -/
def Value.float? : Value → Option Float
  | .number n => if n.toFloat.isFinite then some n.toFloat else none
  | _ => none

def Value.count? : Value → Option Nat
  | .number n => n.toCount?
  | _ => none

/-- A field that may be left out. -/
def orElse (default : α) (read : Value → Option α) : Option Value → Option α
  | none => some default
  | some v => read v

def required (read : Value → Option α) (v : Option Value) : Option α := v.bind read

end Sequencer.Json
