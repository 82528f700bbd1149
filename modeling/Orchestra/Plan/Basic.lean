import Orchestra.Context
import Orchestra.Template.Render

namespace Orchestra

/-- A tree of steps. A leaf holds the function it calls; any other plan is carried out by its
steps, of which `nextStep` is the first still to be run. -/
structure Plan (F : Type) where
  name : String
  plugin : String
  description : String
  parameters : Variables := .empty
  content : String := ""
  answer : String := ""
  state : Variables := .empty
  steps : List (Plan F) := []
  outputs : List String := []
  nextStep : Nat := 0
  function : Option F := none

inductive PlanError
  | parse (text : String)
  | functionNotFound (plugin function : String)
  | planningFailed (reason : String)
  | emptyPlan (goal : String)
  | stepFailed (index : Nat) (step : String) (source : CallError)
  | config
  | json
  | template (source : TemplateError)
  | kernel (source : CallError)
deriving DecidableEq

def PlanError.message : PlanError → String
  | .parse text => "failed to parse plan: the text is not well-formed\nplan text:\n" ++ text
  | .functionNotFound plugin function =>
      "plan references unknown function `" ++ plugin ++ "." ++ function ++ "`"
  | .planningFailed reason => "planning failed: " ++ reason
  | .emptyPlan goal => "the plan for goal `" ++ goal ++ "` has no steps"
  | .stepFailed index step source =>
      "step " ++ toString index ++ " (`" ++ step ++ "`) failed: " ++ source.message
  | .config => "config error: the configuration cannot be read"
  | .json => "json error: the text form cannot be read"
  | .template source => "template error: " ++ source.message
  | .kernel source => "kernel error: " ++ source.message

namespace Plan

def planPlugin : String := "_PLAN_"

def resultName : String := "PLAN.RESULT"

variable {F : Type} [Described F]

def forGoal (name goal : String) (steps : List (Plan F) := []) : Plan F :=
  { name, plugin := planPlugin, description := goal, steps }

def defaultsOf (parameters : List Parameter) : Variables :=
  .ofList (parameters.map fun p => (p.name, p.default))

def ofFunction (f : F) : Plan F :=
  let s := Described.signature f
  { name := s.name, plugin := s.plugin, description := s.description
    parameters := defaultsOf s.parameters, function := some f }

def signature (p : Plan F) : Signature :=
  match p.function with
  | some f => Described.signature f
  | none =>
      { name := p.name, plugin := p.plugin, description := p.description
        parameters := p.parameters.entries.map fun e => { name := e.1, default := e.2 } }

instance : Described (Plan F) := ⟨signature⟩

def hasNextStep (p : Plan F) : Bool :=
  p.nextStep < p.steps.length

end Plan

end Orchestra
