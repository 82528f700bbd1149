import Orchestra.Toml.Value

namespace Orchestra.Toml

/-- How a table came to be: on the way to another, by a dotted key, or by a header of its own. -/
inductive Origin
  | passing
  | dotted
  | header
deriving DecidableEq

inductive Node
  | value (v : Value)
  | table (origin : Origin) (entries : List (String × Node))
  | tables (items : List (List (String × Node)))

abbrev Entries := List (String × Node)

namespace Entries

def replace (name : String) (n : Node) : Entries → Entries
  | [] => []
  | e :: rest => if e.1 = name then (name, n) :: rest else e :: replace name n rest

def add? (name : String) (n : Node) (es : Entries) : Option Entries :=
  if (es.lookup name).isSome then none else some (es ++ [(name, n)])

/-- Changes the table at the end of a path of headers. Of an array of tables the last is meant. -/
def atHeader? (change : Entries → Option Entries) : List String → Entries → Option Entries
  | [], es => change es
  | name :: path, es =>
      match es.lookup name with
      | none => do add? name (.table .passing (← atHeader? change path [])) es
      | some (.value _) => none
      | some (.table origin inner) => do
          return replace name (.table origin (← atHeader? change path inner)) es
      | some (.tables items) => do
          let inner ← atHeader? change path (← items.getLast?)
          return replace name (.tables (items.dropLast ++ [inner])) es

/-- Adds a value under a dotted key. Such a key does not reach into a table with a header, and it
ends in a table that only dotted keys have made. -/
def addDotted? (name : String) (v : Value) : List String → Entries → Option Entries
  | [], es => add? name (.value v) es
  | step :: path, es =>
      match es.lookup step with
      | none => do add? step (.table .dotted (← addDotted? name v path [])) es
      | some (.table origin inner) =>
          if origin = .header ∨ (path = [] ∧ origin ≠ .dotted) then none
          else do return replace step (.table origin (← addDotted? name v path inner)) es
      | some (.tables items) =>
          if path = [] then none
          else do
            let inner ← addDotted? name v path (← items.getLast?)
            return replace step (.tables (items.dropLast ++ [inner])) es
      | some (.value _) => none

def openTable? (name : String) (es : Entries) : Option Entries :=
  match es.lookup name with
  | none => add? name (.table .header []) es
  | some (.table .passing inner) => some (replace name (.table .header inner) es)
  | _ => none

def openItem? (name : String) (es : Entries) : Option Entries :=
  match es.lookup name with
  | none => add? name (.tables [[]]) es
  | some (.tables items) => some (replace name (.tables (items ++ [[]])) es)
  | _ => none

end Entries

mutual

def Node.toValue : Node → Value
  | .value v => v
  | .table _ entries => .table (entriesToValues entries)
  | .tables items => .array (itemsToValues items)

def entriesToValues : List (String × Node) → List (String × Value)
  | [] => []
  | (name, n) :: rest => (name, n.toValue) :: entriesToValues rest

def itemsToValues : List (List (String × Node)) → List Value
  | [] => []
  | entries :: rest => .table (entriesToValues entries) :: itemsToValues rest

end

end Orchestra.Toml
