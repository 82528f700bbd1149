import Orchestra.Template.Malformed
import Orchestra.Template.Symbols
import Orchestra.Text.Blank
import Orchestra.Variables

namespace Orchestra.Template

open Text

/-- Quoted text as it was written, its escapes already resolved. -/
structure Literal where
  source : String
deriving DecidableEq

/-- What stands between the quotes. Text without a quote at both ends has no value. -/
def Literal.value (l : Literal) : String :=
  match l.source.toList with
  | first :: second :: rest =>
      if isQuote first && ((second :: rest).getLast?.any isQuote) then
        String.ofList (second :: rest).dropLast
      else ""
  | _ => ""

def startsLiteral (text : String) : Bool :=
  text.toList.head?.any isQuote

structure Variable where
  name : String
deriving DecidableEq

def Variable.ofText? (text : String) : Except Malformed Variable :=
  match trimList text.toList with
  | '$' :: name => .ok ⟨String.ofList name⟩
  | cs => .error ⟨.noDollar, String.ofList cs⟩

def Variable.raw (v : Variable) : String :=
  "$" ++ v.name

def Variable.render (v : Variable) (vars : Variables) : String :=
  (vars.get? v.name).getD ""

structure FunctionId where
  plugin : Option String
  name : String
deriving DecidableEq

def FunctionId.ofText? (text : String) : Except Malformed FunctionId :=
  let cs := trimList text.toList
  let front := cs.takeWhile (· ≠ '.')
  match cs.dropWhile (· ≠ '.') with
  | [] => .ok ⟨none, String.ofList front⟩
  | _ :: back =>
      if '.' ∈ back then .error ⟨.manyDots, String.ofList cs⟩
      else .ok ⟨some (String.ofList front), String.ofList back⟩

def FunctionId.raw (f : FunctionId) : String :=
  match f.plugin with
  | some plugin => plugin ++ "." ++ f.name
  | none => f.name

inductive ArgumentValue
  | literal (l : Literal)
  | variable (v : Variable)
deriving DecidableEq

def ArgumentValue.raw : ArgumentValue → String
  | .literal l => l.source
  | .variable v => v.raw

def ArgumentValue.render (vars : Variables) : ArgumentValue → String
  | .literal l => l.value
  | .variable v => v.render vars

structure Argument where
  label : String
  value : ArgumentValue
deriving DecidableEq

def Argument.ofText? (text : String) : Except Malformed Argument :=
  let cs := trimList text.toList
  let label := String.ofList (cs.takeWhile (· ≠ '='))
  match cs.dropWhile (· ≠ '=') with
  | [] => .error ⟨.noSeparator, String.ofList cs⟩
  | _ :: [] => .error ⟨.argumentStart, String.ofList cs⟩
  | _ :: c :: rest =>
      if c = '$' then .ok ⟨label, .variable ⟨String.ofList rest⟩⟩
      else if isQuote c then .ok ⟨label, .literal ⟨String.ofList (c :: rest)⟩⟩
      else .error ⟨.argumentStart, String.ofList cs⟩

def Argument.name (a : Argument) : String :=
  trim a.label

def Argument.raw (a : Argument) : String :=
  a.label ++ "=" ++ a.value.raw

/-- One node of a template. Text and code stand at the top, the other kinds inside code. Code that
was cut off before its closing braces is not `closed`. -/
inductive Block
  | text (s : String)
  | literal (l : Literal)
  | variable (v : Variable)
  | function (f : FunctionId)
  | argument (a : Argument)
  | code (source : String) (tokens : List Block) (closed : Bool)

def Block.raw : Block → String
  | .text s => s
  | .literal l => l.source
  | .variable v => v.raw
  | .function f => f.raw
  | .argument a => a.raw
  | .code source _ _ => source

end Orchestra.Template
