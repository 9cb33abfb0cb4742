import Sequencer.Error
import Sequencer.Line
import Sequencer.Tick

namespace Sequencer

/-- The bookings of a channel, sorted and without overlaps as long as every one of them was placed first. -/
structure Timeline where
  name : String
  line : Line
  rate : Float
  /-- As registered; `idle` is the physical level. -/
  registered : Float
  nickname : Option String := none
  bookings : List Booking := []
  nextSeq : Nat := 0
  /-- Not edited since it was last compiled. -/
  fresh : Bool := true

namespace Timeline

def idle (t : Timeline) : Float := t.line.idle t.registered

def label (t : Timeline) : String := t.nickname.getD t.name

def edited (t : Timeline) : Bool := !t.bookings.isEmpty

def lastTick (t : Timeline) : Nat :=
  match t.bookings.getLast? with
  | some b => b.stop
  | none => 0

def lastTime (t : Timeline) : Float := ticks t.lastTick / t.rate

/-- The ticks an instruction would occupy; one without duration takes a single tick. -/
def span (t : Timeline) (i : Instruction) : Except RangeFault (Nat × Nat) := do
  if let some fault := i.fault? then throw (.instruction t.name i fault)
  let some start := tickAt? i.start t.rate | throw (.offGrid t.name i t.rate)
  let stop? :=
    match i.stop? with
    | some stop => tickAt? stop t.rate
    | none => if start + 1 < tickLimit then some (start + 1) else none
  let some stop := stop? | throw (.offGrid t.name i t.rate)
  if stop ≤ start then throw (.noTicks t.name i t.rate)
  return (start, stop)

/-- The last booking before `b` and the first at or after it. -/
def neighbours (t : Timeline) (b : Booking) : List Booking :=
  (t.bookings.filter (·.before b)).getLast?.toList ++ (t.bookings.find? (!·.before b)).toList

/-- The booking for an instruction, if it fits between its neighbours. -/
def place (t : Timeline) (i : Instruction) : Except Error Booking := do
  let (start, stop) ← (t.span i).mapError .range
  let b : Booking := ⟨start, stop, t.nextSeq, i⟩
  match (t.neighbours b).find? (·.overlaps b) with
  | some other => throw (.overlap t.name b other)
  | none => return b

/-- Commits a booking as it is. -/
def insert (b : Booking) (t : Timeline) : Timeline :=
  { t with bookings := b.insert t.bookings, nextSeq := max t.nextSeq b.seq + 1, fresh := false }

def add (i : Instruction) (t : Timeline) : Except Error Timeline :=
  (t.place i).map fun b => t.insert b

def clear (t : Timeline) : Timeline :=
  if t.bookings.isEmpty then t else { t with bookings := [], fresh := false }

/-- The first neighbouring pair that overlaps. -/
def clash? : List Booking → Option (Booking × Booking)
  | a :: b :: rest => if a.overlaps b then some (a, b) else clash? (b :: rest)
  | _ => none

def validate (t : Timeline) : Except Error Unit :=
  match clash? t.bookings with
  | some (a, b) => .error (.overlap t.name b a)
  | none => .ok ()

/-- Whether the last instruction lasts exactly until `tick`. -/
def endsAt (t : Timeline) (tick : Nat) : Bool :=
  match t.bookings.getLast? with
  | some b => !b.instr.holds && b.stop == tick
  | none => false

end Timeline

end Sequencer
