import Orchestra.Context
import Orchestra.Template.Fault
import Orchestra.Template.Piece

namespace Orchestra

inductive TemplateError
  | malformed (m : Template.Malformed)
  | invalid (fault : Template.Fault) (content : String)
  | functionNotFound (function : String)
  | functionFailed (function : String) (source : CallError)
  | json (reason : String)
  | internal (reason : String)
deriving DecidableEq

def TemplateError.message : TemplateError → String
  | .malformed m => "syntax error in `" ++ m.content ++ "`: " ++ m.cause.message
  | .invalid fault content => "invalid block `" ++ content ++ "`: " ++ fault.message
  | .functionNotFound function => "function not found: " ++ function
  | .functionFailed function source => "function `" ++ function ++ "` failed: " ++ source.message
  | .json reason => "json error: " ++ reason
  | .internal reason => "internal template error: " ++ reason

namespace Template

variable {σ F : Type} [Described F]

def bindNamed (source : String) (caller : Variables) :
    List Block → Variables → Except TemplateError Variables
  | [], v => .ok v
  | .argument a :: rest, v =>
      bindNamed source caller rest (v.set a.name (a.value.render caller))
  | other :: _, _ => .error (.invalid (.argumentUnnamed other.raw) source)

/-- The variables a called function sees: the caller's, with the arguments of the call on top. An
argument without a name becomes the main value. -/
def bindArguments (source : String) (caller : Variables) :
    List Block → Except TemplateError Variables
  | [] => .ok caller
  | .literal l :: rest => bindNamed source caller rest (caller.setInput l.value)
  | .variable v :: rest => bindNamed source caller rest (caller.setInput (v.render caller))
  | .argument a :: rest => bindNamed source caller (.argument a :: rest) caller
  | other :: _ => .error (.invalid (.argumentKind other.raw) source)

/-- What a block comes to before any function runs: a text or an error, or the call of a function. -/
inductive Start (F : Type) [Described F]
  | settled (result : Except TemplateError String)
  | call (id : FunctionId) (f : F) (c : Context F)

def startCall (c : Context F) (source : String) (id : FunctionId) (args : List Block) : Start F :=
  match c.registry.resolve? id.plugin id.name with
  | none => .settled (.error (.functionNotFound id.raw))
  | some f =>
      match bindArguments source c.vars args with
      | .error e => .settled (.error e)
      | .ok vars => .call id f (c.withVariables vars)

def startCode (c : Context F) (source : String) : List Block → Start F
  | [] => .settled (.error (.invalid .emptyCode source))
  | .literal l :: _ => .settled (.ok l.value)
  | .variable v :: _ => .settled (.ok (v.render c.vars))
  | .function id :: args => startCall c source id args
  | other :: _ => .settled (.error (.invalid (.firstToken other.raw) source))

def start (c : Context F) : Block → Start F
  | .text s => .settled (.ok s)
  | .literal l => .settled (.ok l.value)
  | .variable v => .settled (.ok (v.render c.vars))
  | .argument a => .settled (.ok (a.value.render c.vars))
  | .function id => .settled (.ok id.raw)
  | .code source tokens _ => startCode c source tokens

def Start.run (invoke : Invoke σ F) : Start F → Run σ TemplateError String
  | .settled result => .ofExcept result
  | .call id f c => Context.result <$> (invoke f c {}).mapError (.functionFailed id.raw)

def renderBlock (invoke : Invoke σ F) (c : Context F) (b : Block) : Run σ TemplateError String :=
  (start c b).run invoke

/-- What the engine comes to, whatever its limit, when every function finishes before anything else
goes on: one block after the other, and no call after a failure. -/
def renderBlocks (invoke : Invoke σ F) (c : Context F) : List Block → Run σ TemplateError String
  | [] => pure ""
  | b :: rest => do
      let s ← renderBlock invoke c b
      return s ++ (← renderBlocks invoke c rest)

def check : List Block → Except TemplateError Unit
  | [] => .ok ()
  | b :: rest =>
      match b.fault? with
      | some fault => .error (.invalid fault b.raw)
      | none => check rest

def extract (template : String) (validate : Bool) : Except TemplateError (List Block) := do
  let blocks ← (blocks? template).mapError .malformed
  if validate then check blocks
  return blocks

/-- Rendering with functions that are never suspended, which comes to the same under every limit. -/
def render (invoke : Invoke σ F) (c : Context F) (template : String) :
    Run σ TemplateError String := do
  renderBlocks invoke c (← .ofExcept (extract template true))

end Template

end Orchestra
