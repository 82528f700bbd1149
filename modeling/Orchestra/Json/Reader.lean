import Orchestra.Json.Token

namespace Orchestra.Json

/-- An array or object whose end has not come yet, its entries last first. -/
inductive Frame
  | items (done : List Json)
  | members (done : List (Option String × Json))
  | member (done : List (Option String × Json)) (name : Option String)

inductive Turn
  | value
  | valueOrClose
  | name
  | nameOrClose
  | colon
  | commaOrClose
  | finished (result : Json)

structure State where
  frames : List Frame
  turn : Turn

def State.put (frames : List Frame) (j : Json) : Option State :=
  match frames with
  | [] => some ⟨[], .finished j⟩
  | .items done :: outer => some ⟨.items (j :: done) :: outer, .commaOrClose⟩
  | .member done name :: outer => some ⟨.members ((name, j) :: done) :: outer, .commaOrClose⟩
  | .members _ :: _ => none

def memberNames? : List (Option String × Json) → Option (List (String × Json))
  | [] => some []
  | (none, _) :: _ => none
  | (some name, j) :: rest => (memberNames? rest).map ((name, j) :: ·)

/-- A value that lies too deep, or an object with a name that is no text, can only be skipped. -/
def closeArray (outer : List Frame) (done : List Json) : Json :=
  if depthLimit ≤ outer.length then .unreadable else .array done.reverse

def closeObject (outer : List Frame) (done : List (Option String × Json)) : Json :=
  if depthLimit ≤ outer.length then .unreadable
  else match memberNames? done.reverse with
    | some members => .object members
    | none => .unreadable

def State.value? (frames : List Frame) : Token → Option State
  | .openArray => some ⟨.items [] :: frames, .valueOrClose⟩
  | .openObject => some ⟨.members [] :: frames, .nameOrClose⟩
  | .null => State.put frames .null
  | .bool b => State.put frames (.bool b)
  | .number (some n) => State.put frames (.number n)
  | .string (some s) => State.put frames (.string s)
  | .number none | .string none => State.put frames .unreadable
  | _ => none

def State.name? (done : List (Option String × Json)) (outer : List Frame) : Token → Option State
  | .string s => some ⟨.member done s :: outer, .colon⟩
  | _ => none

def State.step (s : State) (t : Token) : Option State :=
  match s.turn, s.frames with
  | .value, frames => State.value? frames t
  | .valueOrClose, .items done :: outer =>
      match t with
      | .closeArray => State.put outer (closeArray outer done)
      | t => State.value? s.frames t
  | .name, .members done :: outer => State.name? done outer t
  | .nameOrClose, .members done :: outer =>
      match t with
      | .closeObject => State.put outer (closeObject outer done)
      | t => State.name? done outer t
  | .colon, frames =>
      match t with
      | .colon => some ⟨frames, .value⟩
      | _ => none
  | .commaOrClose, .items done :: outer =>
      match t with
      | .comma => some ⟨s.frames, .value⟩
      | .closeArray => State.put outer (closeArray outer done)
      | _ => none
  | .commaOrClose, .members done :: outer =>
      match t with
      | .comma => some ⟨s.frames, .name⟩
      | .closeObject => State.put outer (closeObject outer done)
      | _ => none
  | _, _ => none

def ofTokens? (ts : List Token) : Option Json :=
  match ts.foldlM State.step ⟨[], .value⟩ with
  | some ⟨_, .finished j⟩ => some j
  | _ => none

def parse? (text : String) : Option Json := do
  ofTokens? (← tokens? text.toList)

end Orchestra.Json
