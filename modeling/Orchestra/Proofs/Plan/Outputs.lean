import Orchestra.Proofs.Plan.Invocation
import Orchestra.Proofs.Plan.Resolution

namespace Orchestra.Plan

open Text

variable {σ F : Type}

theorem getD_eq_some_iff {given : Option String} {result : String} :
    some (given.getD result) = some result ↔ given = none ∨ given = some result := by
  cases given <;> simp

variable [Described F]

/-- An output that the function of the step left as it was holds the result of the step exactly when
the step was given no other value under that name. Such a value comes from the caller, from a
default of the step, or from the state of the plan for a parameter that the function declares. An
invocation consists of such runs. -/
theorem outputs_hold_results (call : Invoke σ F) (s : Settings) :
    (∀ (p : Plan F) (c : Context F) (w : σ) (x : Except CallError (Context F) × σ),
      p.function = none →
      (Run.exec (p.invoke call c s) w = x ↔
        ∃ last, Reaches call s ⟨p, c, w⟩ last ∧ Ends call s last x)) ∧
    ∀ (p p' step : Plan F) (c : Context F) (w w' : σ) (name : String),
      p.steps[p.nextStep]? = some step → Run.exec (p.run call c s) w = (.ok p', w') →
      name ∈ step.outputs → ¬ SameName inputName name →
      let given := (p.stepContext c step).vars.get? name
      (given = none ↔ c.vars.get? name = none ∧ step.parameters.get? name = none ∧
        ((∃ q ∈ step.signature.parameters, SameName q.name name) →
          (p.state.get? name).filter (· ≠ "") = none)) ∧
      ∃ out, Run.exec (step.invoke call (p.stepContext c step) s) w = (.ok out, w') ∧
        (out.vars.get? name = given →
          (p'.state.get? name = some (trim out.result) ↔
            given = none ∨ given = some (trim out.result))) := by
  refine ⟨fun p c w x hf => exec_invoke_iff call hf c s w x, ?_⟩
  intro p p' step c w w' name hstep hrun hmem hname
  obtain ⟨out, hout, rfl⟩ := advance_of_run hstep hrun
  refine ⟨get?_stepVariables_eq_none_iff hname c.vars p.state step, out, hout, ?_⟩
  intro hleft
  rw [get?_advance_of_lists ⟨name, hmem, SameName.refl name⟩, hleft]
  exact getD_eq_some_iff

def twice : Plan (Function Unit) :=
  forGoal "plan" "goal" [echoing "a" ["X"], echoing "b" ["X"]]

def afterEcho : Plan (Function Unit) :=
  twice.advance (echoing "a" ["X"]) (.withInput "a")

theorem run_twice : Run.exec (twice.run callEcho blankContext {}) () = (.ok afterEcho, ()) :=
  rfl

theorem outputs_hold_results_echo :
    Run.exec (twice.run callEcho blankContext {}) () = (.ok afterEcho, ()) ∧
      afterEcho.state.get? "X" = some "a" := by
  have hname : ¬ SameName inputName "X" := by decide
  obtain ⟨hgiven, out, hout, hiff⟩ := (outputs_hold_results callEcho {}).2 twice afterEcho
    (echoing "a" ["X"]) blankContext () () "X" rfl run_twice (by decide) hname
  cases hout
  refine ⟨run_twice, (hiff rfl).2 (.inl ?_)⟩
  exact hgiven.2 ⟨by decide, by decide, by decide⟩

def betweenContext : Context (Function Unit) :=
  blankContext.withVariables (afterEcho.surface (echoing "a" ["X"]) blankContext.vars)

/-- In an invocation the second result is lost, since the first has gone into the context by then.
The same steps run one by one keep the second. -/
theorem repeated_output_lost :
    Reaches callEcho {} ⟨twice, blankContext, ()⟩ ⟨afterEcho, betweenContext, ()⟩ ∧
      (∃ p' out, Run.exec (afterEcho.run callEcho betweenContext {}) () = (.ok p', ()) ∧
        Run.exec ((echoing "b" ["X"]).invoke callEcho
          (afterEcho.stepContext betweenContext (echoing "b" ["X"])) {}) () = (.ok out, ()) ∧
        out.vars.get? "X" =
          (afterEcho.stepContext betweenContext (echoing "b" ["X"])).vars.get? "X" ∧
        trim out.result = "b" ∧ p'.state.get? "X" = some "a") ∧
      (∃ out, Run.exec (twice.invoke callEcho blankContext {}) () = (.ok out, ()) ∧
        out.vars.get? "X" = some "a") ∧
      (callAll callEcho (twice, ()) (blankCalls 2)).1.state.get? "X" = some "b" :=
  ⟨.step rfl run_twice (.refl _), ⟨_, _, rfl, rfl, rfl, rfl, rfl⟩, ⟨_, rfl, rfl⟩, rfl⟩

end Orchestra.Plan
