namespace Orchestra

/-- Whole numbers that fit into 64 bits, with or without a sign, are kept apart from all others. -/
inductive Json.Number
  | whole (n : Int)
  | float (x : Float)

/-- A JSON document. `unreadable` stands where the text is JSON but names no value that can be
taken from it; a reader that has no use for the place may still pass over it. -/
inductive Json
  | null
  | bool (b : Bool)
  | number (n : Json.Number)
  | string (s : String)
  | array (items : List Json)
  | object (members : List (String × Json))
  | unreadable

namespace Json

def depthLimit : Nat := 127

instance : Inhabited Json := ⟨.null⟩

def ofNat (n : Nat) : Json :=
  .number (.whole n)

def strings (xs : List String) : Json :=
  .array (xs.map .string)

end Json

end Orchestra
