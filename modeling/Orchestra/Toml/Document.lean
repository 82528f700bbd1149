import Orchestra.Toml.Quoted
import Orchestra.Toml.Table

namespace Orchestra.Toml

def isBareKey (c : Char) : Bool :=
  c.isAlphanum || c == '_' || c == '-'

def simpleKey? (cs : List Char) : Option (String × List Char) :=
  match cs with
  | '\x22' :: rest => (basic? 0 rest).map fun r => (String.ofList r.1, r.2)
  | '\x27' :: rest => (literal? rest).map fun r => (String.ofList r.1, r.2)
  | cs =>
      let word := cs.takeWhile isBareKey
      if word = [] then none else some (String.ofList word, cs.dropWhile isBareKey)

def key? : Nat → List Char → Option (List String × List Char)
  | 0, _ => none
  | budget + 1, cs => do
      let (part, rest) ← simpleKey? (cs.dropWhile isBlank)
      match rest.dropWhile isBlank with
      | '.' :: rest => do
          let (parts, rest) ← key? budget rest
          return (part :: parts, rest)
      | rest => return ([part], rest)

def splitKey? (parts : List String) : Option (List String × String) :=
  parts.getLast?.map fun name => (parts.dropLast, name)

def keyValue? (cs : List Char) : Option (List String × List Char) := do
  let (parts, rest) ← key? (depthLimit - 1) cs
  let '=' :: rest := rest | none
  return (parts, rest.dropWhile isBlank)

def skipLines : Nat → List Char → List Char
  | 0, cs => cs
  | budget + 1, cs =>
      match newline? (lineRest cs) with
      | some rest => skipLines budget rest
      | none => cs.dropWhile isBlank

mutual

/-- A value. The first budget bounds the work, the second the nesting. -/
def value? : Nat → Nat → List Char → Option (Value × List Char)
  | 0, _, _ => none
  | budget + 1, depth, cs =>
      match cs with
      | '[' :: rest =>
          if depthLimit ≤ depth + 1 then none
          else (items? budget (depth + 1) [] rest).map fun r => (.array r.1, r.2)
      | '{' :: rest =>
          if depthLimit ≤ depth + 1 then none
          else
            match rest.dropWhile isBlank with
            | '}' :: rest => some (.table [], rest)
            | rest =>
                (pairs? budget (depth + 1) [] rest).map fun r =>
                  (.table (entriesToValues r.1), r.2)
      | cs =>
          if cs.head? = some '\x22' ∨ cs.head? = some '\x27' then
            (quoted? cs).map fun r => (.string (String.ofList r.1), r.2)
          else scalar? cs

def items? : Nat → Nat → List Value → List Char → Option (List Value × List Char)
  | 0, _, _, _ => none
  | budget + 1, depth, done, cs =>
      match skipLines (budget + 1) cs with
      | ']' :: rest => some (done, rest)
      | cs => do
          let (v, rest) ← value? budget depth cs
          match skipLines (budget + 1) rest with
          | ',' :: rest => items? budget depth (done ++ [v]) rest
          | ']' :: rest => return (done ++ [v], rest)
          | _ => none

def pairs? : Nat → Nat → Entries → List Char → Option (Entries × List Char)
  | 0, _, _, _ => none
  | budget + 1, depth, done, cs => do
      let (parts, rest) ← keyValue? cs
      let (path, name) ← splitKey? parts
      let (v, rest) ← value? budget depth rest
      let done ← Entries.addDotted? name v path done
      match rest.dropWhile isBlank with
      | ',' :: rest => pairs? budget depth done rest
      | '}' :: rest => return (done, rest)
      | _ => none

end

def endLine? (cs : List Char) : Option (List Char) :=
  match lineRest cs with
  | [] => some []
  | rest => newline? rest

structure Reader where
  root : Entries
  header : List String

def Reader.header? (r : Reader) (cs : List Char) : Option (Reader × List Char) := do
  let item := cs.head? = some '['
  let (parts, rest) ← key? (depthLimit - 1) (if item then cs.drop 1 else cs)
  let (path, name) ← splitKey? parts
  let ']' :: rest := rest | none
  let rest ← if item then (match rest with | ']' :: rest => some rest | _ => none) else some rest
  let change := if item then Entries.openItem? name else Entries.openTable? name
  return (⟨← Entries.atHeader? change path r.root, parts⟩, ← endLine? rest)

def Reader.pair? (r : Reader) (cs : List Char) : Option (Reader × List Char) := do
  let (parts, rest) ← keyValue? cs
  let (path, name) ← splitKey? parts
  let (v, rest) ← value? (2 * cs.length + 2) 0 rest
  let root ← Entries.atHeader? (Entries.addDotted? name v path) r.header r.root
  return ({ r with root }, ← endLine? rest)

def Reader.lines? : Nat → Reader → List Char → Option Reader
  | 0, _, _ => none
  | budget + 1, r, cs =>
      match cs.dropWhile isBlank with
      | [] => some r
      | '[' :: rest => do
          let (r, rest) ← r.header? rest
          lines? budget r rest
      | c :: rest =>
          if c = '#' ∨ c = '\n' ∨ c = '\r' then do lines? budget r (← endLine? (c :: rest))
          else do
            let (r, rest) ← r.pair? (c :: rest)
            lines? budget r rest

def parse? (text : String) : Option (List (String × Value)) :=
  let cs := text.toList
  let cs := if cs.head? = some '\uFEFF' then cs.drop 1 else cs
  (Reader.lines? (cs.length + 1) ⟨[], []⟩ cs).map fun r => entriesToValues r.root

end Orchestra.Toml
