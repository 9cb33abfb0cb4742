namespace Sequencer

/-- Named entries in the order in which they came. -/
structure Table (α : Type) where
  entries : List (String × α) := []

namespace Table

variable {α β ε : Type}

def names (t : Table α) : List String := t.entries.map (·.1)

def values (t : Table α) : List α := t.entries.map (·.2)

def size (t : Table α) : Nat := t.entries.length

def get? (t : Table α) (name : String) : Option α := t.entries.lookup name

def contains (t : Table α) (name : String) : Bool := t.names.contains name

/-- Replaces the entry of that name in its place, or adds one at the end. -/
def put (name : String) (v : α) (t : Table α) : Table α :=
  if t.contains name then ⟨t.entries.map fun e => if e.1 == name then (name, v) else e⟩
  else ⟨t.entries ++ [(name, v)]⟩

def erase (name : String) (t : Table α) : Table α := ⟨t.entries.filter (·.1 != name)⟩

def modify (name : String) (f : α → α) (t : Table α) : Table α :=
  ⟨t.entries.map fun e => if e.1 == name then (e.1, f e.2) else e⟩

def map (f : α → β) (t : Table α) : Table β := ⟨t.entries.map fun e => (e.1, f e.2)⟩

def any (p : α → Bool) (t : Table α) : Bool := t.entries.any (p ·.2)

def all (p : α → Bool) (t : Table α) : Bool := t.entries.all (p ·.2)

/-- Entries up to the first failure are kept as the step left them, the later ones are untouched. -/
def traverseEntries (step : α → α × Except ε β) :
    List (String × α) → List (String × α) × Except ε (List (String × β))
  | [] => ([], .ok [])
  | (name, v) :: rest =>
    match step v with
    | (v', .error e) => ((name, v') :: rest, .error e)
    | (v', .ok r) =>
      let (rest', rs) := traverseEntries step rest
      ((name, v') :: rest', rs.map ((name, r) :: ·))

/-- Steps through the entries in order, and collects the results under the same names. -/
def traverse (step : α → α × Except ε β) (t : Table α) : Table α × Except ε (Table β) :=
  let (entries, results) := traverseEntries step t.entries
  (⟨entries⟩, results.map Table.mk)

end Table

end Sequencer
