import Orchestra.Settings
import Orchestra.Signature

namespace Orchestra

structure PromptConfig where
  description : String := ""
  completion : Settings := {}
  parameters : List Parameter := []

namespace PromptConfig

def toJson (c : PromptConfig) : Json :=
  .object [("description", .string c.description), ("completion", c.completion.toJson),
    ("input", .object [("parameters", .array (c.parameters.map Parameter.toJson))])]

def inputOfJson? (j : Json) : Option (List Parameter) := do
  let r ← j.record? ["parameters"]
  r.optional? "parameters" [] (Json.list? Parameter.ofJson?)

def ofJson? (j : Json) : Option PromptConfig := do
  let r ← j.record? ["description", "completion", "input"]
  return {
    description := ← r.optional? "description" "" Json.text?
    completion := ← r.optional? "completion" {} Settings.ofJson?
    parameters := ← r.optional? "input" [] inputOfJson? }

def parse? (text : String) : Option PromptConfig := do
  ofJson? (← Json.parse? text)

end PromptConfig

end Orchestra
