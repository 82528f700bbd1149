import Orchestra.Xml.Token

namespace Orchestra.Xml

structure Element where
  name : String
  attributes : List (String × String)
  children : List Element

mutual

def Element.preorder : Element → List Element
  | ⟨name, attributes, children⟩ => ⟨name, attributes, children⟩ :: preorderAll children
termination_by structural e => e

def preorderAll : List Element → List Element
  | [] => []
  | e :: rest => e.preorder ++ preorderAll rest
termination_by structural es => es

end

def xmlUri : String := "http://www.w3.org/XML/1998/namespace"

def xmlnsUri : String := "http://www.w3.org/2000/xmlns/"

def Name.declares (n : Name) : Bool :=
  n.space == "xmlns" || n.base == "xmlns"

/-- The prefixes a start tag declares. Two names are reserved for fixed meanings, and no prefix is
declared twice in one tag. -/
def declared? : List (Name × String) → List (String × String) → Option (List (String × String))
  | [], found => some found
  | (n, uri) :: rest, found =>
      if n.space = "xmlns" then
        if uri = xmlnsUri ∨ (uri = xmlUri ↔ n.base ≠ "xml") ∨ n.base ∈ found.map Prod.fst then none
        else declared? rest (if uri = xmlUri then found else (n.base, uri) :: found)
      else if n.base = "xmlns" then
        if uri = xmlnsUri ∨ uri = xmlUri then none else declared? rest found
      else declared? rest found

def space? (bindings : List (String × String)) (n : Name) : Option (Option String) :=
  if n.space = "" then some none
  else if n.space = "xml" then some (some xmlUri)
  else (bindings.lookup n.space).map some

/-- The attributes that are no declarations, each of a different expanded name. -/
def expanded? (bindings : List (String × String)) (attributes : List (Name × String)) :
    Option (List (String × String)) := do
  let plain := attributes.filter fun a => !a.1.declares
  let spaces ← plain.mapM fun a => space? bindings a.1
  if (spaces.zip (plain.map fun a => a.1.base)).Nodup then
    return plain.map fun a => (a.1.base, a.2)
  else none

/-- An element whose end tag has not come yet, its children last first. -/
structure Frame where
  tag : Name
  attributes : List (String × String)
  bindings : List (String × String)
  children : List Element

def Frame.element (f : Frame) : Element :=
  ⟨f.tag.base, f.attributes, f.children.reverse⟩

def Frame.ofTag? (outer : List (String × String)) (tag : Name) (attributes : List (Name × String)) :
    Option Frame := do
  let bindings := (← declared? attributes []) ++ outer
  if tag.space = "xmlns" ∨ (tag.space ≠ "" ∧ bindings.lookup tag.space = none) then none
  return ⟨tag, ← expanded? bindings attributes, bindings, []⟩

structure Builder where
  frames : List Frame
  root : Option Element

namespace Builder

def add (e : Element) : List Frame → Builder
  | [] => ⟨[], some e⟩
  | f :: outer => ⟨{ f with children := e :: f.children } :: outer, none⟩

/-- There is one root, and nothing but comments, instructions and space beside it. -/
def step (b : Builder) : Token → Option Builder
  | .aside => some b
  | .text blank => if b.frames.isEmpty && !blank then none else some b
  | .start tag attributes empty =>
      if b.root.isSome then none
      else
        (Frame.ofTag? (b.frames.head?.elim [] Frame.bindings) tag attributes).map fun f =>
          if empty then add f.element b.frames else ⟨f :: b.frames, none⟩
  | .stop tag =>
      match b.frames with
      | [] => none
      | f :: outer => if f.tag = tag then some (add f.element outer) else none

end Builder

def parse? (text : String) : Option Element := do
  let b ← (← tokens? text.toList).foldlM Builder.step ⟨[], none⟩
  b.root

end Orchestra.Xml
