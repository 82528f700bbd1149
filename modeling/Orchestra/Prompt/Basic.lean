import Orchestra.Prompt.Config
import Orchestra.Template.Engine

namespace Orchestra

open Template

abbrev Completion (σ : Type) := String → Settings → Run σ CallError String

/-- A function made of a template: it renders the template against the caller's variables and
hands the prompt to a completion service. -/
structure Prompt (σ : Type) where
  signature : Signature
  blocks : List Block
  settings : Settings
  complete : Completion σ
  limits : Limits := {}

namespace Prompt

variable {σ F : Type} [Described F]

def tokenVariables : Block → List String
  | .variable v => [v.name]
  | .argument ⟨_, .variable v⟩ => [v.name]
  | _ => []

mutual

def blockVariables : Block → List String
  | .code _ tokens _ => blocksVariables tokens
  | b => tokenVariables b

def blocksVariables : List Block → List String
  | [] => []
  | b :: rest => blockVariables b ++ blocksVariables rest

end

def firstOfEach (seen : List String) : List Parameter → List Parameter
  | [] => []
  | p :: rest =>
      let key := Text.lowercase p.name
      if key ∈ seen then firstOfEach seen rest else p :: firstOfEach (key :: seen) rest

def declared (configured : List Parameter) (blocks : List Block) : List Parameter :=
  firstOfEach [] (configured ++
    ((blocksVariables blocks).filter (· ≠ "")).map fun name => { name := name })

def make? (plugin name template : String) (config : PromptConfig) (complete : Completion σ)
    (limits : Limits) : Except TemplateError (Prompt σ) := do
  let blocks ← extract template true
  return {
    signature := {
      name, plugin := Signature.pluginOf plugin, description := config.description
      parameters := declared config.parameters blocks }
    blocks, settings := config.completion, complete, limits }

/-- A default stands in for a variable that is not set, and for a main value that is empty. -/
def fillDefault (v : Variables) (p : Parameter) : Variables :=
  if p.default = "" then v
  else
    let missing := if Text.sameAscii p.name inputName then v.input == "" else !v.contains p.name
    if missing then v.set p.name p.default else v

def fillDefaults (parameters : List Parameter) (v : Variables) : Variables :=
  parameters.foldl fillDefault v

/-- The settings of the call count, unless they say nothing. -/
def invoke (p : Prompt σ) (call : Invoke σ F) (c : Context F) (settings : Settings) :
    Run σ CallError (Context F) := do
  let c := c.withVariables (fillDefaults p.signature.parameters c.vars)
  let prompt ← (renderBlocksWithin p.limits call c p.blocks).mapError fun e =>
    .invocationFailed p.signature.qualifiedName e.message
  let answer ← p.complete prompt (if settings.isDefault then p.settings else settings)
  return c.withVariables (c.vars.setInput answer)

end Prompt

end Orchestra
