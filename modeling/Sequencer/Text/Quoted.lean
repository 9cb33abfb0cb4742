import Sequencer.Text.Escaped

namespace Sequencer.Text

def escapedChar (c : Char) : List Char :=
  if c = '"' then ['\\', '"']
  else if c = '\\' then ['\\', '\\']
  else if c = '\n' then ['\\', 'n']
  else if c = '\t' then ['\\', 't']
  else if c = '\r' then ['\\', 'r']
  else if c = '\x00' then ['\\', '0']
  else if isHidden c then
    '\\' :: 'u' :: '\x7b' :: (Nat.toDigits 16 c.toNat ++ ['\x7d'])
  else [c]

/-- The text in double quotes; inside, only what could be misread is escaped. -/
def quoted (s : String) : String :=
  String.ofList ('"' :: s.toList.flatMap escapedChar ++ ['"'])

def bracketed (items : List String) : String := "[" ++ String.intercalate ", " items ++ "]"

def quotedList (names : List String) : String := bracketed (names.map quoted)

end Sequencer.Text
