import Sequencer.Instruction

namespace Sequencer

/-- An instruction placed on the clock grid of a channel. It occupies the ticks from `start` up to and
without `stop`; `seq` is the insertion number. -/
structure Booking where
  start : Nat
  stop : Nat
  seq : Nat
  instr : Instruction

namespace Booking

def overlaps (a b : Booking) : Bool := a.start < b.stop && b.start < a.stop

/-- Bookings are sorted, and told apart, by start and then by insertion number. -/
def order (a b : Booking) : Ordering := (compare a.start b.start).then (compare a.seq b.seq)

def before (a b : Booking) : Bool := a.order b == .lt

def sameKey (a b : Booking) : Bool := a.order b == .eq

def text (b : Booking) : String :=
  "InstrBook(" ++ b.instr.text ++ ", " ++ toString b.start ++ "-" ++ toString b.stop ++ ")"

/-- Adds a booking to a sorted list; one with the same key stays as it is. -/
def insert (b : Booking) : List Booking → List Booking
  | [] => [b]
  | c :: rest =>
    match b.order c with
    | .lt => b :: c :: rest
    | .eq => c :: rest
    | .gt => c :: insert b rest

/-- Sorts by key, keeping the order of equal keys. -/
def sort (bs : List Booking) : List Booking := bs.mergeSort fun a b => !b.before a

end Booking

end Sequencer
