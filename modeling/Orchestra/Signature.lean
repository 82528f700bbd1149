import Orchestra.Json.Record

namespace Orchestra

def globalPlugin : String := "_GLOBAL_FUNCTIONS_"

/-- An empty default means that the parameter has none. -/
structure Parameter where
  name : String
  description : String := ""
  default : String := ""
deriving DecidableEq, Inhabited

structure Signature where
  name : String
  plugin : String
  description : String := ""
  parameters : List Parameter := []
deriving DecidableEq, Inhabited

namespace Parameter

def toJson (p : Parameter) : Json :=
  .object [("name", .string p.name), ("description", .string p.description),
    ("defaultValue", .string p.default)]

def ofJson? (j : Json) : Option Parameter := do
  let r ← j.record? ["name", "description", "defaultValue"]
  return {
    name := ← r.required? "name" Json.text?
    description := ← r.optional? "description" "" Json.text?
    default := ← r.optional? "defaultValue" "" Json.text? }

end Parameter

namespace Signature

def qualifiedName (s : Signature) : String :=
  if s.plugin = "" ∨ s.plugin = globalPlugin then s.name else s.plugin ++ "." ++ s.name

def toJson (s : Signature) : Json :=
  .object [("name", .string s.name), ("pluginName", .string s.plugin),
    ("description", .string s.description), ("parameters", .array (s.parameters.map Parameter.toJson))]

def ofJson? (j : Json) : Option Signature := do
  let r ← j.record? ["name", "pluginName", "description", "parameters"]
  return {
    name := ← r.required? "name" Json.text?
    plugin := ← r.required? "pluginName" Json.text?
    description := ← r.optional? "description" "" Json.text?
    parameters := ← r.optional? "parameters" [] (Json.list? Parameter.ofJson?) }

def pluginOf (plugin : String) : String :=
  if plugin = "" then globalPlugin else plugin

end Signature

end Orchestra
