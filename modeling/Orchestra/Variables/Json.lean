import Orchestra.Json.Printer
import Orchestra.Json.Reader
import Orchestra.Json.Record
import Orchestra.Variables

namespace Orchestra.Variables

def toJson (v : Variables) : Json :=
  .object (v.entries.map fun e => (e.1, .string e.2))

/-- A name given twice in the very same spelling keeps its first place and its last value. -/
def putExact (name value : String) : List (String × String) → List (String × String)
  | [] => [(name, value)]
  | e :: rest => if e.1 = name then (name, value) :: rest else e :: putExact name value rest

def pairs? : List (String × Json) → Option (List (String × String))
  | [] => some []
  | (name, .string value) :: rest => (pairs? rest).map ((name, value) :: ·)
  | _ :: _ => none

def ofJson? : Json → Option Variables
  | .object members =>
      (pairs? members).map fun es =>
        ofList (es.foldl (fun kept e => putExact e.1 e.2 kept) [])
  | _ => none

def text (v : Variables) : String :=
  v.toJson.compact

def parse? (text : String) : Option Variables := do
  ofJson? (← Json.parse? text)

end Orchestra.Variables
