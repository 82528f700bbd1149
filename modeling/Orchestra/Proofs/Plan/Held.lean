import Orchestra.Plan.Step
import Orchestra.Proofs.Run

namespace Orchestra.Plan

open Text

variable {σ F : Type}

def write (f : Plan F → Plan F) : Run (Plan F × σ) PlanError Unit :=
  modify fun h => (f h.1, h.2)

theorem exec_write (f : Plan F → Plan F) (h : Plan F × σ) :
    Run.exec (write f) h = (.ok (), (f h.1, h.2)) := rfl

def writeOutputs (result : String) (out : Variables) :
    List String → Run (Plan F × σ) PlanError Unit
  | [] => pure ()
  | name :: rest => do
      write fun p => { p with state := p.state.set name ((out.get? name).getD result) }
      writeOutputs result out rest

theorem exec_writeOutputs (result : String) (out : Variables) (names : List String)
    (p : Plan F) (w : σ) :
    Run.exec (writeOutputs result out names) (p, w) =
      (.ok (), ({ p with state := putOutputs result out p.state names }, w)) := by
  induction names generalizing p with
  | nil =>
      cases p
      rfl
  | cons name names ih =>
      rw [writeOutputs, Run.exec_bind, exec_write]
      exact ih _

theorem extendResult_setInput (p : Plan F) (result : String) :
    { p with state := p.state.setInput result }.extendResult result = p.extendResult result := by
  have hne : ¬ SameName inputName resultName := by decide
  simp [extendResult, Variables.setInput, Variables.get?_set, hne]

def writeStep (p step : Plan F) (out : Variables) : Run (Plan F × σ) PlanError Unit := do
  let result := trim out.input
  write fun p => { p with state := p.state.setInput result }
  if p.sharesOutput step then
    write fun p =>
      let answer := p.extendResult result
      { p with state := p.state.set resultName answer, answer }
  writeOutputs result out step.outputs
  write fun p => { p with nextStep := p.nextStep + 1 }

theorem exec_writeStep (p step : Plan F) (out : Variables) (w : σ) :
    Run.exec (writeStep p step out) (p, w) = (.ok (), (p.advance step out, w)) := by
  by_cases h : p.sharesOutput step = true
  · simp only [writeStep, advance, h, if_true, Run.exec_bind, exec_write, exec_writeOutputs,
      extendResult_setInput]
  · simp only [writeStep, advance, h, Bool.false_eq_true, if_false, Run.exec_bind, exec_write,
      exec_writeOutputs]

variable [Described F]

/-- Runs the next step of a plan that is changed in its place, one write after another. What was
written before a failure would remain. -/
def runHeld (call : Invoke σ F) (c : Context F) (s : Settings) :
    Run (Plan F × σ) PlanError Unit := do
  let h ← get
  match h.1.steps[h.1.nextStep]? with
  | none => return
  | some step => do
      let x := step.invoke call (h.1.stepContext c step) s
      let out ← Run.beside (x.mapError (h.1.stepError step))
      writeStep h.1 step out.vars

theorem exec_run (call : Invoke σ F) (p : Plan F) (c : Context F) (s : Settings) (w : σ) :
    Run.exec (p.run call c s) w =
      match p.steps[p.nextStep]? with
      | none => (.ok p, w)
      | some step =>
          match Run.exec (step.invoke call (p.stepContext c step) s) w with
          | (.ok out, w') => (.ok (p.advance step out.vars), w')
          | (.error e, w') => (.error (p.stepError step e), w') := by
  unfold run
  cases p.steps[p.nextStep]? with
  | none => rfl
  | some step =>
      simp only [Run.exec_bind, Run.exec_mapError]
      cases Run.exec (step.invoke call (p.stepContext c step) s) w with
      | mk r w' =>
          cases r <;> rfl

/-- Writing in place comes to the plan that `run` gives, and a failing step leaves no write. -/
theorem exec_runHeld (call : Invoke σ F) (c : Context F) (s : Settings) (p : Plan F) (w : σ) :
    Run.exec (runHeld call c s) (p, w) =
      match Run.exec (p.run call c s) w with
      | (.ok p', w') => (.ok (), (p', w'))
      | (.error e, w') => (.error e, (p, w')) := by
  have hget : Run.exec (get : Run (Plan F × σ) PlanError _) (p, w) = (.ok (p, w), (p, w)) := rfl
  rw [exec_run, runHeld, Run.exec_bind, hget]
  dsimp only
  cases p.steps[p.nextStep]? with
  | none => rfl
  | some step =>
      simp only [Run.exec_bind, Run.exec_mapError, Run.exec_beside]
      cases Run.exec (step.invoke call (p.stepContext c step) s) w with
      | mk r w' =>
          cases r with
          | error e => rfl
          | ok out => exact exec_writeStep p step out.vars w'

end Orchestra.Plan
