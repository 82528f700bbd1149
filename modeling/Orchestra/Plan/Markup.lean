import Orchestra.Plan.Basic
import Orchestra.Text.Word
import Orchestra.Xml.Element

namespace Orchestra.Plan

variable {F : Type} [Described F]

inductive MissingFunctions
  | skip
  | fail
deriving DecidableEq

def planTag : String := "plan"

def fragment? : List Char → Option (List Char)
  | [] => none
  | c :: rest =>
      match fragmentAt? (c :: rest) with
      | some part => some part
      | none => fragment? rest
where
  fragmentAt? (cs : List Char) : Option (List Char) :=
    if ['<', 'p', 'l', 'a', 'n'].isPrefixOf cs ∧ !(cs.drop 5).head?.any Text.isWord then do
      let (attributes, rest) ← Xml.upTo? ['>'] (cs.drop 5)
      let (body, _) ← Xml.upTo? closing rest
      return cs.take 5 ++ attributes ++ '>' :: body ++ closing
    else none
  closing : List Char := ['<', '/', 'p', 'l', 'a', 'n', '>']

/-- A plan element cut out of a text that is not well-formed. The closing tag may be missing. -/
def recover? (text : String) : Option String :=
  let cs := text.toList
  ((fragment? cs).or (fragment? (cs ++ fragment?.closing))).map String.ofList

def document? (text : String) : Except PlanError Xml.Element :=
  match Xml.parse? ("<xml>" ++ text ++ "</xml>") with
  | some root => .ok root
  | none =>
      match recover? text with
      | none => .error (.parse text)
      | some fragment =>
          match Xml.parse? fragment with
          | some root => .ok root
          | none => .error (.parse (text ++ "\n\nrecovered fragment:\n" ++ fragment))

def elementFunction? (e : Xml.Element) : Option (String × String) :=
  let cs := e.name.toList
  let lead := "function.".toList
  if lead.isPrefixOf cs then
    let qualified := cs.drop lead.length
    match qualified.dropWhile (· ≠ '.') with
    | [] => some ("", String.ofList qualified)
    | _ :: name => some (String.ofList (qualified.takeWhile (· ≠ '.')), String.ofList name)
  else none

structure Draft (F : Type) where
  step : Plan F
  outputs : List String

def Draft.addAttribute (d : Draft F) (a : String × String) : Draft F :=
  if a.1 = "setContextVariable" then
    { d with step := { d.step with outputs := d.step.outputs ++ [a.2] } }
  else if a.1 = "appendToResult" then
    { step := { d.step with outputs := d.step.outputs ++ [a.2] }, outputs := d.outputs ++ [a.2] }
  else { d with step := { d.step with parameters := d.step.parameters.set a.1 a.2 } }

def Draft.ofElement (f : F) (e : Xml.Element) : Draft F :=
  e.attributes.foldl addAttribute ⟨ofFunction f, []⟩

def drafts? (r : Registry F) (missing : MissingFunctions) :
    List Xml.Element → Except PlanError (List (Draft F))
  | [] => .ok []
  | e :: rest =>
      match elementFunction? e with
      | none => drafts? r missing rest
      | some (plugin, name) =>
          match r.resolve? (some plugin) name, missing with
          | some f, _ => (drafts? r missing rest).map (.ofElement f e :: ·)
          | none, .skip => drafts? r missing rest
          | none, .fail => .error (.functionNotFound plugin name)

def planChildren (root : Xml.Element) : List Xml.Element :=
  (root.preorder.filter fun e => e.name = planTag).flatMap Xml.Element.children

/-- The plan with the steps of the text appended, all of them or none. -/
def addMarkup? (p : Plan F) (r : Registry F) (missing : MissingFunctions) (text : String) :
    Except PlanError (Plan F) := do
  let root ← document? text
  let drafts ← drafts? r missing (planChildren root)
  return { p with
    steps := p.steps ++ drafts.map Draft.step
    outputs := p.outputs ++ drafts.flatMap Draft.outputs }

end Orchestra.Plan
