import Orchestra.Planner.Config
import Orchestra.Prompt.Basic

namespace Orchestra

open Plan Text

def promptLines : List String := [
  "Create an XML plan step by step to satisfy the goal given, using only the functions listed below.",
  "",
  "To create a plan, follow these rules:",
  "1. A plan is a list of <function.\x7bPluginName\x7d.\x7bFunctionName\x7d/> elements inside a single <plan> element.",
  "2. Only use functions from the list below. Never invent a function.",
  "3. Pass inputs to a function as XML attributes named after the function\x27s inputs.",
  "4. To keep the output of a step for a later step, add setContextVariable=\"NAME\" and refer to it later as $NAME.",
  "5. To add the output of a step to the final answer, add appendToResult=\"RESULT__NAME\".",
  "6. Write only the plan. Do not explain it.",
  "",
  "[AVAILABLE FUNCTIONS]",
  "",
  "\x7b\x7b$available_functions\x7d\x7d",
  "",
  "[END AVAILABLE FUNCTIONS]",
  "",
  "[EXAMPLE]",
  "Goal: summarize the notes and email the summary to Ana",
  "<plan>",
  "  <function.writer.summarize input=\"$notes\" setContextVariable=\"SUMMARY\"/>",
  "  <function.email.send input=\"$SUMMARY\" to=\"Ana\" appendToResult=\"RESULT__EMAIL\"/>",
  "</plan>",
  "[END EXAMPLE]",
  "",
  "Goal: \x7b\x7b$input\x7d\x7d",
  ""]

def defaultPrompt : String :=
  "\n".intercalate promptLines

def manualName : String := "available_functions"

/-- Asks a completion service for a plan that reaches a goal. -/
structure Planner (σ : Type) where
  config : PlannerConfig
  prompt : Prompt σ

namespace Planner

variable {σ F : Type} [Described F]

def make? (config : PlannerConfig) (complete : Completion σ) : Except PlanError (Planner σ) := do
  let prompt ← (Prompt.make? plannerPlugin "create_plan" (config.promptTemplate.getD defaultPrompt)
    { description := "Turn a goal into a step by step plan of available functions"
      completion := { maxTokens := some config.maxTokens } } complete {}).mapError .template
  return { config, prompt }

def parameterEntry (p : Parameter) : String :=
  "\n  - " ++ p.name ++ ": " ++ p.description ++
    (if p.default = "" then "" else " (default value: " ++ p.default ++ ")")

def manualEntry (s : Signature) : String :=
  s.qualifiedName ++ ":\n  description: " ++ s.description ++ "\n  inputs:" ++
    String.join (s.parameters.map parameterEntry)

def manual (config : PlannerConfig) (r : Registry F) : String :=
  "\n\n".intercalate ((r.views.filter config.offers).map manualEntry)

/-- The plan for a goal, under a name that is given. What the service answers is kept as the
content of the plan. -/
def createPlan (planner : Planner σ) (call : Invoke σ F) (r : Registry F) (name goal : String)
    (settings : Settings) : Run σ PlanError (Plan F) := do
  let goal := trim goal
  if goal = "" then throw (.planningFailed "the goal is empty")
  let vars := (Variables.withInput goal).set manualName (manual planner.config r)
  let out ← (planner.prompt.invoke call ⟨vars, r, defaultLocale⟩ settings).mapError fun e =>
    .planningFailed e.message
  let plan ← .ofExcept ((Plan.forGoal name goal).addMarkup? r planner.config.missingFunctions out.result)
  if plan.steps.isEmpty then throw (.emptyPlan goal)
  return { plan with content := out.result }

end Planner

end Orchestra
