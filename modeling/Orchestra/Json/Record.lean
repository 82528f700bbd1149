import Orchestra.Json.Basic

namespace Orchestra.Json

def text? : Json → Option String
  | .string s => some s
  | _ => none

def list? (read : Json → Option α) : Json → Option (List α)
  | .array items => items.mapM read
  | _ => none

def natBelow? (bound : Nat) : Json → Option Nat
  | .number (.whole (.ofNat n)) => if n < bound then some n else none
  | _ => none

def float? : Json → Option Float
  | .number (.whole (.ofNat n)) => some (Float.ofNat n)
  | .number (.whole (.negSucc n)) => some (-Float.ofNat (n + 1))
  | .number (.float x) => some x
  | _ => none

def nullable? (read : Json → Option α) : Json → Option (Option α)
  | .null => some none
  | j => (read j).map some

abbrev Record := List (String × Json)

/-- An object gives fields by name, and names the record does not know are passed over. An array
gives them by place and may stop early, but not go on beyond the last. -/
def record? (names : List String) : Json → Option Record
  | .object members =>
      let known := members.filter fun m => m.1 ∈ names
      if (known.map Prod.fst).Nodup then some known else none
  | .array items => if items.length ≤ names.length then some (names.zip items) else none
  | _ => none

def Record.required? (r : Record) (name : String) (read : Json → Option α) : Option α :=
  (r.lookup name).bind read

def Record.optional? (r : Record) (name : String) (default : α) (read : Json → Option α) :
    Option α :=
  match r.lookup name with
  | none => some default
  | some j => read j

/-- Members by name, in ascending order. Of a name that is given twice the later value counts. -/
def putSorted (name : String) (value : α) : List (String × α) → List (String × α)
  | [] => [(name, value)]
  | m :: rest =>
      if name < m.1 then (name, value) :: m :: rest
      else if name = m.1 then (name, value) :: rest
      else m :: putSorted name value rest

def sortMembers (members : List (String × α)) : List (String × α) :=
  members.foldl (fun sorted m => putSorted m.1 m.2 sorted) []

mutual

def sorted? : Json → Option Json
  | .unreadable => none
  | .array items => (sortedItems? items).map .array
  | .object members => (sortedMembers? members).map fun ms => .object (sortMembers ms)
  | j => some j

def sortedItems? : List Json → Option (List Json)
  | [] => some []
  | item :: rest => do return (← sorted? item) :: (← sortedItems? rest)

def sortedMembers? : List (String × Json) → Option (List (String × Json))
  | [] => some []
  | (name, item) :: rest => do return (name, ← sorted? item) :: (← sortedMembers? rest)

end

end Orchestra.Json
