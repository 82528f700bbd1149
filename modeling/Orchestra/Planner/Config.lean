import Orchestra.Plan.Markup
import Orchestra.Toml.Document

namespace Orchestra

open Plan Text

def plannerPlugin : String := "SequentialPlanner"

/-- What a planner may use and how it asks. Functions are excluded by plugin or name; where some
are included, by name or qualified name, no others are offered. -/
structure PlannerConfig where
  maxTokens : UInt32 := 1024
  excludedPlugins : List String := []
  excludedFunctions : List String := []
  includedFunctions : List String := []
  missingFunctions : MissingFunctions := .skip
  promptTemplate : Option String := none

namespace PlannerConfig

def excludes (c : PlannerConfig) (s : Signature) : Bool :=
  sameAscii s.plugin plannerPlugin || c.excludedPlugins.any (sameAscii · s.plugin) ||
    c.excludedFunctions.any (sameAscii · s.name)

def includes (c : PlannerConfig) (s : Signature) : Bool :=
  c.includedFunctions.isEmpty ||
    c.includedFunctions.any fun f => sameAscii f s.name || sameAscii f s.qualifiedName

def offers (c : PlannerConfig) (s : Signature) : Bool :=
  !c.excludes s && c.includes s

def text? : Toml.Value → Option String
  | .string s => some s
  | _ => none

def texts? : Toml.Value → Option (List String)
  | .array items => items.mapM text?
  | _ => none

def word32? : Toml.Value → Option UInt32
  | .integer (.ofNat n) => if n < UInt32.size then some (UInt32.ofNat n) else none
  | _ => none

def missingOfName? (name : String) : Option MissingFunctions :=
  if name = "skip" then some .skip
  else if name = "fail" then some .fail
  else none

def missing? : Toml.Value → Option MissingFunctions
  | .string s => missingOfName? s
  | .table [(name, .table [])] | .table [(name, .array [])] => missingOfName? name
  | _ => none

def field? (entries : List (String × Toml.Value)) (name : String) (default : α)
    (read : Toml.Value → Option α) : Option α :=
  match entries.lookup name with
  | none => some default
  | some v => read v

def parse? (text : String) : Except PlanError PlannerConfig :=
  let config? : Option PlannerConfig := do
    let entries ← Toml.parse? text
    return {
      maxTokens := ← field? entries "max_tokens" 1024 word32?
      excludedPlugins := ← field? entries "excluded_plugins" [] texts?
      excludedFunctions := ← field? entries "excluded_functions" [] texts?
      includedFunctions := ← field? entries "included_functions" [] texts?
      missingFunctions := ← field? entries "missing_functions" .skip missing?
      promptTemplate := ← field? entries "prompt_template" none fun v => (text? v).map some }
  match config? with
  | some c => .ok c
  | none => .error .config

end PlannerConfig

end Orchestra
