import Sequencer.Backend.Call

namespace Sequencer

abbrev Connection := String × String

namespace Connection

/-- By source and then by target, character by character. -/
def order (a b : Connection) : Ordering := (compare a.1 b.1).then (compare a.2 b.2)

/-- Adds to a sorted list without repeats. -/
def insert (c : Connection) : List Connection → List Connection
  | [] => [c]
  | d :: rest =>
    match order c d with
    | .lt => c :: d :: rest
    | .eq => d :: rest
    | .gt => d :: insert c rest

end Connection

/-- A backend that keeps a log of every call it is given. Chosen calls fail: they are logged like the
others and then refused. Terminal connections follow the accepted calls. -/
structure Backend where
  calls : List Call := []
  failing : List Call := []
  connections : List Connection := []

namespace Backend

def failOn (c : Call) (b : Backend) : Backend := { b with failing := b.failing ++ [c] }

/-- A call fails exactly when an equal one was chosen to. -/
def accepts (b : Backend) (c : Call) : Bool := !b.failing.any (· == c)

def log (c : Call) (b : Backend) : Backend := { b with calls := b.calls ++ [c] }

/-- What an accepted call does to the connections. -/
def connectionsAfter (c : Call) (cs : List Connection) : List Connection :=
  match c with
  | .connect source target => Connection.insert (source, target) cs
  | .disconnect source target => cs.filter (· != (source, target))
  | _ => cs

/-- Logs the call, and tells whether it was accepted. -/
def issue (c : Call) (b : Backend) : Bool × Backend :=
  let logged := b.log c
  if b.accepts c then (true, { logged with connections := connectionsAfter c b.connections })
  else (false, logged)

def clearCalls (b : Backend) : Backend := { b with calls := [] }

/-- Place of the first logged call equal to `c`. -/
def position? (c : Call) (b : Backend) : Option Nat := b.calls.findIdx? (· == c)

def count (name : String) (b : Backend) : Nat := b.calls.countP (·.name == name)

def isConnected (c : Connection) (b : Backend) : Bool := b.connections.contains c

end Backend

end Sequencer
