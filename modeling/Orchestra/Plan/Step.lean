import Orchestra.Plan.Resolve

namespace Orchestra.Plan

open Text

variable {σ F : Type} [Described F]

def stepContext (p : Plan F) (c : Context F) (step : Plan F) : Context F :=
  c.withVariables (stepVariables c.vars p.state step)

def sharesOutput (p step : Plan F) : Bool :=
  step.outputs.any fun name => p.outputs.any (sameAscii · name)

/-- What the plan has shown so far with one more result, on a line of its own. -/
def extendResult (p : Plan F) (result : String) : String :=
  match p.state.get? resultName with
  | some previous => previous ++ "\n" ++ result
  | none => result

/-- An output is the variable of that name the step gave back, or else its result. -/
def putOutputs (result : String) (out state : Variables) (outputs : List String) : Variables :=
  outputs.foldl (fun state name => state.set name ((out.get? name).getD result)) state

def advance (p step : Plan F) (out : Variables) : Plan F :=
  let result := trim out.input
  let state := p.state.setInput result
  let answer := p.extendResult result
  if p.sharesOutput step then
    { p with
      state := putOutputs result out (state.set resultName answer) step.outputs
      answer := answer
      nextStep := p.nextStep + 1 }
  else
    { p with
      state := putOutputs result out state step.outputs
      nextStep := p.nextStep + 1 }

def surface (p step : Plan F) (v : Variables) : Variables :=
  step.outputs.foldl
    (fun v name => match p.state.get? name with
      | some value => v.set name value
      | none => v)
    (v.setInput ((p.state.get? resultName).getD p.state.input))

def stepError (p step : Plan F) (e : CallError) : PlanError :=
  .stepFailed p.nextStep step.signature.qualifiedName e

mutual

/-- A plan as a function. A leaf calls its function with the state below the caller's variables.
Any other plan runs the steps it has left; the plan itself stays as it is. -/
def invoke (call : Invoke σ F) : Plan F → Context F → Settings → Run σ CallError (Context F)
  | ⟨_, _, _, _, _, _, state, _, _, _, some f⟩, c, s =>
      call f (c.withVariables (c.vars.setAllMissing state.entries)) s
  | ⟨name, plugin, description, parameters, content, answer, state, steps, outputs, nextStep, none⟩,
    c, s =>
      invokeSteps call
        ⟨name, plugin, description, parameters, content, answer, state, steps, outputs, nextStep, none⟩
        nextStep steps c s
termination_by structural p => p

def invokeSteps (call : Invoke σ F) (p : Plan F) (skip : Nat) :
    List (Plan F) → Context F → Settings → Run σ CallError (Context F)
  | [], c, _ => pure c
  | step :: rest, c, s =>
      match skip with
      | skip + 1 => invokeSteps call p skip rest c s
      | 0 => do
          let out ← (invoke call step (p.stepContext c step) s).mapError fun e =>
            .invocationFailed p.name (p.stepError step e).message
          let after := p.advance step out.vars
          invokeSteps call after 0 rest (c.withVariables (after.surface step c.vars)) s
termination_by structural steps => steps

end

/-- Runs the next step, if there is one. On failure there is no new plan, so the same step is the
next one again. -/
def run (call : Invoke σ F) (p : Plan F) (c : Context F) (s : Settings) :
    Run σ PlanError (Plan F) :=
  match p.steps[p.nextStep]? with
  | none => pure p
  | some step => do
      let out ← (step.invoke call (p.stepContext c step) s).mapError (p.stepError step)
      return p.advance step out.vars

end Orchestra.Plan
