import Orchestra.Plan.Basic
import Orchestra.Variables.Json

namespace Orchestra.Plan

variable {F : Type} [Described F]

mutual

def toJson : Plan F → Json
  | ⟨name, plugin, description, parameters, content, answer, state, steps, outputs, nextStep, _⟩ =>
      .object [("name", .string name), ("pluginName", .string plugin),
        ("description", .string description), ("parameters", parameters.toJson),
        ("content", .string content), ("answer", .string answer), ("state", state.toJson),
        ("steps", .array (stepsToJson steps)), ("outputs", .strings outputs),
        ("nextStepIndex", .ofNat nextStep)]

def stepsToJson : List (Plan F) → List Json
  | [] => []
  | step :: rest => toJson step :: stepsToJson rest

end

def fieldNames : List String :=
  ["name", "pluginName", "description", "parameters", "content", "answer", "state", "steps",
    "outputs", "nextStepIndex"]

def ofJson? : Nat → Json → Option (Plan F)
  | 0, _ => none
  | levels + 1, j => do
      let r ← j.record? fieldNames
      return {
        name := ← r.required? "name" Json.text?
        plugin := ← r.required? "pluginName" Json.text?
        description := ← r.optional? "description" "" Json.text?
        parameters := ← r.optional? "parameters" .empty Variables.ofJson?
        content := ← r.optional? "content" "" Json.text?
        answer := ← r.optional? "answer" "" Json.text?
        state := ← r.optional? "state" .empty Variables.ofJson?
        steps := ← r.optional? "steps" [] (Json.list? (ofJson? levels))
        outputs := ← r.optional? "outputs" [] (Json.list? Json.text?)
        nextStep := ← r.optional? "nextStepIndex" 0 (Json.natBelow? UInt64.size) }

mutual

/-- Leaves get their functions back from the registry. A node is a leaf if it has no steps and
does not carry the plugin of plans. -/
def attach? (r : Registry F) : Plan F → Except PlanError (Plan F)
  | ⟨name, plugin, description, parameters, content, answer, state, [], outputs, nextStep, f⟩ =>
      if plugin = planPlugin then
        .ok ⟨name, plugin, description, parameters, content, answer, state, [], outputs, nextStep, f⟩
      else match r.resolve? (some plugin) name with
        | some g =>
            .ok ⟨name, plugin, description, parameters, content, answer, state, [], outputs, nextStep,
              some g⟩
        | none => .error (.functionNotFound plugin name)
  | ⟨name, plugin, description, parameters, content, answer, state, step :: rest, outputs, nextStep,
      f⟩ => do
      let step ← attach? r step
      let rest ← attachAll? r rest
      return ⟨name, plugin, description, parameters, content, answer, state, step :: rest, outputs,
        nextStep, f⟩

def attachAll? (r : Registry F) : List (Plan F) → Except PlanError (List (Plan F))
  | [] => .ok []
  | step :: rest => do
      let step ← attach? r step
      let rest ← attachAll? r rest
      return step :: rest

end

def toText (p : Plan F) : String :=
  p.toJson.pretty

def ofText? (r : Registry F) (text : String) : Except PlanError (Plan F) :=
  match (Json.parse? text).bind (ofJson? Json.depthLimit) with
  | some p => p.attach? r
  | none => .error .json

end Orchestra.Plan
