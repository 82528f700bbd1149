import Orchestra.Template.Block

namespace Orchestra.Template

inductive Fault
  | literalShort
  | literalUnquoted
  | literalMixed
  | variableEmpty
  | variableName (name : String)
  | functionName (raw : String)
  | argumentName (name : String)
  | inArgument (name : String) (fault : Fault)
  | unclosed
  | emptyCode
  | leadingArgument
  | secondToken (raw : String)
  | positional (raw : String)
  | unnamed (raw : String)
  | firstToken (raw : String)
  | argumentKind (raw : String)
  | argumentUnnamed (raw : String)
deriving DecidableEq

def Fault.message : Fault → String
  | .literalShort => "a value must have single quotes or double quotes on both sides"
  | .literalUnquoted => "a value must be delimited by single quotes or double quotes"
  | .literalMixed =>
      "a value must be defined using either single quotes or double quotes, not both"
  | .variableEmpty => "the variable name is empty after `$`"
  | .variableName name =>
      "the variable name `" ++ name ++
        "` contains invalid characters; only alphanumeric chars and underscore are allowed"
  | .functionName raw =>
      "the function identifier `" ++ raw ++
        "` contains invalid characters; only alphanumeric chars, underscore and a single dot are allowed"
  | .argumentName name =>
      "the argument name `" ++ name ++
        "` contains invalid characters; only alphanumeric chars and underscore are allowed"
  | .inArgument name fault => "argument `" ++ name ++ "`: " ++ fault.message
  | .unclosed => "the code block is missing its closing `\x7d\x7d`"
  | .emptyCode => "the code block is empty"
  | .leadingArgument => "unexpected named argument found; expected a function name first"
  | .secondToken raw => "unexpected second token found: `" ++ raw ++ "`"
  | .positional raw =>
      "functions support only one parameter: `" ++ raw ++
        "` is not a value, variable or named argument"
  | .unnamed raw =>
      "functions only support named arguments after the first argument; `" ++ raw ++
        "` is not named"
  | .firstToken raw => "unexpected first token `" ++ raw ++ "`"
  | .argumentKind raw => "unexpected argument `" ++ raw ++ "`"
  | .argumentUnnamed raw => "argument `" ++ raw ++ "` must be named"

def Literal.fault? (l : Literal) : Option Fault :=
  match l.source.toList with
  | first :: second :: rest =>
      if !isQuote first then some .literalUnquoted
      else if (second :: rest).getLast? ≠ some first then some .literalMixed
      else none
  | _ => some .literalShort

def Variable.fault? (v : Variable) : Option Fault :=
  if v.name = "" then some .variableEmpty
  else if isName v.name then none
  else some (.variableName v.name)

def FunctionId.fault? (f : FunctionId) : Option Fault :=
  if f.plugin.all isName && isName f.name then none else some (.functionName f.raw)

def ArgumentValue.fault? : ArgumentValue → Option Fault
  | .literal l => l.fault?
  | .variable v => v.fault?

def Argument.fault? (a : Argument) : Option Fault :=
  if isName a.name then a.value.fault?.map (.inArgument a.name)
  else some (.argumentName a.name)

def Block.isArgument : Block → Bool
  | .argument _ => true
  | _ => false

def Block.isPositional : Block → Bool
  | .literal _ | .variable _ | .argument _ => true
  | _ => false

def shapeFault? : List Block → Option Fault
  | [] => some .emptyCode
  | .argument _ :: _ => some .leadingArgument
  | [_] => none
  | .function _ :: second :: rest =>
      if second.isPositional then (rest.find? fun t => !t.isArgument).map fun t => .unnamed t.raw
      else some (.positional second.raw)
  | _ :: second :: _ => some (.secondToken second.raw)

mutual

/-- The first thing wrong with a block. Inside code a faulty token comes before a faulty order. -/
def Block.fault? : Block → Option Fault
  | .text _ => none
  | .literal l => l.fault?
  | .variable v => v.fault?
  | .function f => f.fault?
  | .argument a => a.fault?
  | .code _ tokens closed =>
      if closed then
        if tokens.isEmpty then some .emptyCode
        else (tokenFault? tokens).or (shapeFault? tokens)
      else some .unclosed

def tokenFault? : List Block → Option Fault
  | [] => none
  | t :: rest => t.fault?.or (tokenFault? rest)

end

end Orchestra.Template
