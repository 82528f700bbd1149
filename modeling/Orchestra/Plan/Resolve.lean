import Orchestra.Plan.Basic
import Orchestra.Plan.Expansion

namespace Orchestra.Plan

open Text

variable {F : Type} [Described F]

/-- The main value of a step: its own default, else the caller's, else that of the state, and for
a leaf at last its description. -/
def stepInput (caller state : Variables) (step : Plan F) : String :=
  if step.parameters.input ≠ "" then expand step.parameters.input caller state
  else if caller.input ≠ "" then caller.input
  else if state.input ≠ "" then state.input
  else if step.steps.isEmpty then step.description
  else ""

/-- Declared parameters take the caller's value or a value of the state that is not empty, unless
the step has a default with references that resolve. -/
def addDeclared (caller state defaults : Variables) (v : Variables) (p : Parameter) : Variables :=
  if sameAscii p.name inputName then v
  else if (defaults.get? p.name).any fun d => expand d caller state ≠ d then v
  else
    match (caller.get? p.name).or ((state.get? p.name).filter (· ≠ "")) with
    | some value => v.set p.name value
    | none => v

def addDefault (caller state : Variables) (v : Variables) (e : String × String) : Variables :=
  let expanded := expand e.2 caller state
  v.setMissing e.1 <|
    if expanded ≠ e.2 then expanded
    else ((caller.get? e.1).or (state.get? e.1)).getD e.2

def stepVariables (caller state : Variables) (step : Plan F) : Variables :=
  let declared := step.signature.parameters.foldl (addDeclared caller state step.parameters)
    (.withInput (stepInput caller state step))
  let defaults := step.parameters.entries.foldl (addDefault caller state) declared
  defaults.setAllMissing caller.entries

end Orchestra.Plan
