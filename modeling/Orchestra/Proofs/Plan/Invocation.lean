import Orchestra.Proofs.Plan.Accumulation

namespace Orchestra.Plan

variable {σ F : Type} [Described F]

/-- How far an invocation has come: the plan as it is by then, and the context to hand back. -/
structure Stage (σ F : Type) [Described F] where
  plan : Plan F
  context : Context F
  world : σ

/-- An invocation runs one step after another. What the step has shown and its outputs go into the
context for the next. -/
inductive Reaches (call : Invoke σ F) (s : Settings) : Stage σ F → Stage σ F → Prop
  | refl (g : Stage σ F) : Reaches call s g g
  | step {p p' step : Plan F} {c : Context F} {w w' : σ} {last : Stage σ F}
      (hstep : p.steps[p.nextStep]? = some step)
      (hrun : Run.exec (p.run call c s) w = (.ok p', w'))
      (h : Reaches call s ⟨p', c.withVariables (p'.surface step c.vars), w'⟩ last) :
      Reaches call s ⟨p, c, w⟩ last

/-- An invocation ends when no step is left or one fails. -/
inductive Ends (call : Invoke σ F) (s : Settings) :
    Stage σ F → Except CallError (Context F) × σ → Prop
  | finished {p : Plan F} {c : Context F} {w : σ} (h : p.hasNextStep = false) :
      Ends call s ⟨p, c, w⟩ (.ok c, w)
  | failed {p : Plan F} {c : Context F} {w w' : σ} {e : PlanError}
      (h : Run.exec (p.run call c s) w = (.error e, w')) :
      Ends call s ⟨p, c, w⟩ (.error (.invocationFailed p.name e.message), w')

def Stage.outcome (call : Invoke σ F) (s : Settings) (g : Stage σ F) :
    Except CallError (Context F) × σ :=
  Run.exec (invokeSteps call g.plan 0 (g.plan.steps.drop g.plan.nextStep) g.context s) g.world

theorem invokeSteps_skip (call : Invoke σ F) (p : Plan F) (skip : Nat) (steps : List (Plan F))
    (c : Context F) (s : Settings) :
    invokeSteps call p skip steps c s = invokeSteps call p 0 (steps.drop skip) c s := by
  induction steps generalizing skip with
  | nil => cases skip <;> rfl
  | cons step rest ih =>
      cases skip with
      | zero => rfl
      | succ skip => exact ih skip

theorem exec_invoke (call : Invoke σ F) {p : Plan F} (hf : p.function = none) (c : Context F)
    (s : Settings) (w : σ) :
    Run.exec (p.invoke call c s) w = Stage.outcome call s ⟨p, c, w⟩ := by
  cases p with
  | mk name plugin description parameters content answer state steps outputs nextStep function =>
      obtain rfl : function = none := hf
      rw [invoke, invokeSteps_skip]
      rfl

theorem outcome_of_run {call : Invoke σ F} {s : Settings} {p step : Plan F}
    (hstep : p.steps[p.nextStep]? = some step) (c : Context F) (w : σ) :
    Stage.outcome call s ⟨p, c, w⟩ =
      match Run.exec (p.run call c s) w with
      | (.ok p', w') => Stage.outcome call s ⟨p', c.withVariables (p'.surface step c.vars), w'⟩
      | (.error e, w') => (.error (.invocationFailed p.name e.message), w') := by
  obtain ⟨hlt, rfl⟩ := List.getElem?_eq_some_iff.1 hstep
  rw [exec_run, hstep, Stage.outcome, List.drop_eq_getElem_cons hlt, invokeSteps, Run.exec_bind,
    Run.exec_mapError]
  dsimp only
  cases Run.exec (p.steps[p.nextStep].invoke call (p.stepContext c p.steps[p.nextStep]) s) w with
  | mk r w' =>
      cases r with
      | error e => rfl
      | ok out =>
          dsimp only [Except.mapError]
          rw [Stage.outcome, steps_advance, nextStep_advance]

theorem outcome_of_reaches {call : Invoke σ F} {s : Settings} {g last : Stage σ F}
    (h : Reaches call s g last) : g.outcome call s = last.outcome call s := by
  induction h with
  | refl => rfl
  | step hstep hrun _ ih => rw [outcome_of_run hstep, hrun, ← ih]

omit [Described F] in
theorem hasNextStep_eq_false_iff {p : Plan F} :
    p.hasNextStep = false ↔ p.steps[p.nextStep]? = none := by
  simp [hasNextStep]

theorem outcome_of_ends {call : Invoke σ F} {s : Settings} {g : Stage σ F}
    {x : Except CallError (Context F) × σ} (h : Ends call s g x) : g.outcome call s = x := by
  cases h with
  | @finished p c w h =>
      have hdrop : p.steps.drop p.nextStep = [] :=
        List.drop_eq_nil_iff.2 (List.getElem?_eq_none_iff.1 (hasNextStep_eq_false_iff.1 h))
      rw [Stage.outcome, hdrop]
      rfl
  | @failed p c w w' e h =>
      cases hstep : p.steps[p.nextStep]? with
      | none =>
          rw [exec_run, hstep] at h
          cases h
      | some step => rw [outcome_of_run hstep, h]

theorem advance_of_run {call : Invoke σ F} {s : Settings} {p p' step : Plan F} {c : Context F}
    {w w' : σ} (hstep : p.steps[p.nextStep]? = some step)
    (h : Run.exec (p.run call c s) w = (.ok p', w')) :
    ∃ out, Run.exec (step.invoke call (p.stepContext c step) s) w = (.ok out, w') ∧
      p' = p.advance step out.vars := by
  rw [exec_run, hstep] at h
  dsimp only at h
  cases hout : Run.exec (step.invoke call (p.stepContext c step) s) w with
  | mk r w₁ =>
      rw [hout] at h
      cases r with
      | error e => cases h
      | ok out =>
          cases h
          exact ⟨out, rfl, rfl⟩

theorem exists_ends (call : Invoke σ F) (s : Settings) (left : Nat) (p : Plan F)
    (hleft : p.steps.length - p.nextStep = left) (c : Context F) (w : σ) :
    ∃ last x, Reaches call s ⟨p, c, w⟩ last ∧ Ends call s last x := by
  induction left generalizing p c w with
  | zero =>
      have hnone : p.hasNextStep = false := by
        simp only [hasNextStep, decide_eq_false_iff_not]
        omega
      exact ⟨_, _, .refl _, .finished hnone⟩
  | succ left ih =>
      have hlt : p.nextStep < p.steps.length := by omega
      have hstep := List.getElem?_eq_getElem hlt
      cases hrun : Run.exec (p.run call c s) w with
      | mk r w' =>
          cases r with
          | error e => exact ⟨_, _, .refl _, .failed hrun⟩
          | ok p' =>
              obtain ⟨out, -, rfl⟩ := advance_of_run hstep hrun
              have hrest : (p.advance p.steps[p.nextStep] out.vars).steps.length -
                  (p.advance p.steps[p.nextStep] out.vars).nextStep = left := by
                rw [steps_advance, nextStep_advance]
                omega
              obtain ⟨last, x, hreach, hends⟩ := ih _ hrest _ w'
              exact ⟨last, x, .step hstep hrun hreach, hends⟩

/-- A plan that holds no function is invoked by running its steps. -/
theorem exec_invoke_iff (call : Invoke σ F) {p : Plan F} (hf : p.function = none) (c : Context F)
    (s : Settings) (w : σ) (x : Except CallError (Context F) × σ) :
    Run.exec (p.invoke call c s) w = x ↔
      ∃ last, Reaches call s ⟨p, c, w⟩ last ∧ Ends call s last x := by
  rw [exec_invoke call hf]
  constructor
  · rintro rfl
    obtain ⟨last, x, hreach, hends⟩ := exists_ends call s _ p rfl c w
    rw [outcome_of_reaches hreach, outcome_of_ends hends]
    exact ⟨last, hreach, hends⟩
  · rintro ⟨last, hreach, hends⟩
    rw [outcome_of_reaches hreach, outcome_of_ends hends]

end Orchestra.Plan
