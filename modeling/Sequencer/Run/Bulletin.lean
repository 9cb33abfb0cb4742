namespace Sequencer

inductive Command where
  /-- Play one repetition. The cards of a run share its start latch, given by number. -/
  | stream (calcNext : Bool) (latch : Nat)
  | close

/-- Commands to all workers at once: a slot with the latest command and the number of commands posted.
A reader has seen a number of them, and may be at most one behind. The command in a new slot counts
as seen by everyone. -/
structure Bulletin where
  posted : Nat := 0
  latest : Command := .close

inductive News where
  | nothing
  | command (c : Command)
  /-- The reader fell behind and a command is lost to it. -/
  | missed

namespace Bulletin

def post (c : Command) (b : Bulletin) : Bulletin := ⟨b.posted + 1, c⟩

/-- What is new to a reader who has seen `viewed` commands. -/
def read (viewed : Nat) (b : Bulletin) : News :=
  if b.posted = viewed then .nothing
  else if b.posted = viewed + 1 then .command b.latest
  else .missed

end Bulletin

end Sequencer
