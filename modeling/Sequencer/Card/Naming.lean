import Sequencer.Error
import Sequencer.Text.Digit

namespace Sequencer.Naming

def skipLabel? (label cs : List Char) : Option (List Char) :=
  if label.isPrefixOf cs then some (cs.drop label.length) else none

/-- What follows a number of at least one digit. -/
def skipNumber? (cs : List Char) : Option (List Char) :=
  match cs with
  | [] => none
  | c :: _ => if Text.isDecimalDigit c then some (cs.dropWhile Text.isDecimalDigit) else none

def skipNumbered? (label cs : List Char) : Option (List Char) :=
  (skipLabel? label cs).bind skipNumber?

def isAnalog (name : String) : Bool :=
  skipNumbered? ['a', 'o'] name.toList == some []

def isDigital (name : String) : Bool :=
  (skipNumbered? ['p', 'o', 'r', 't'] name.toList).bind (skipNumbered? ['/', 'l', 'i', 'n', 'e']) ==
    some []

def analogName (id : Nat) : String := "ao" ++ toString id

def digitalName (port line : Nat) : String := "port" ++ toString port ++ "/line" ++ toString line

end Sequencer.Naming

namespace Sequencer.CardKind

/-- Names of channels: `ao(number)` on analog cards, `port(number)/line(number)` on digital ones. Numbers
may be written in the digits of any script. -/
def names (name : String) : CardKind → Bool
  | analog => Naming.isAnalog name
  | digital => Naming.isDigital name

def nameForm : CardKind → NameForm
  | analog => .analog
  | digital => .digital

end Sequencer.CardKind
