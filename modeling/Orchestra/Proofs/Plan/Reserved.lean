import Orchestra.Proofs.Plan.Invocation
import Orchestra.Proofs.Plan.Precedence

namespace Orchestra.Plan

open Text

variable {σ F : Type}

theorem input_advance (p step : Plan F) (out : Variables) :
    (p.advance step out).state.input =
      if step.Lists inputName then out.input else trim out.input := by
  have hresult : ¬ SameName resultName inputName := by decide
  rw [Variables.input]
  by_cases hlists : step.Lists inputName
  · rw [get?_advance_of_lists hlists, out.get?_input, if_pos hlists]
    rfl
  · have hget := (get?_advance p step out inputName).trans (if_neg hlists)
    rw [hget, if_neg (fun h => hresult h.2), if_pos (SameName.refl _), if_neg hlists]
    rfl

theorem get?_result_of_sharesOutput {p step : Plan F} (h : p.sharesOutput step = true)
    (out : Variables) :
    (p.advance step out).state.get? resultName =
      some (if step.Lists resultName then (out.get? resultName).getD (trim out.input)
        else (p.advance step out).answer) := by
  rw [answer_advance, if_pos h]
  by_cases hlists : step.Lists resultName
  · rw [get?_advance_of_lists hlists, if_pos hlists]
  · have hget := (get?_advance p step out resultName).trans (if_neg hlists)
    rw [hget, if_pos ⟨h, SameName.refl _⟩, if_neg hlists]

theorem input_advance_eq_iff (p step : Plan F) (out : Variables) :
    (p.advance step out).state.input = trim out.input ↔
      (step.Lists inputName → out.input = trim out.input) := by
  rw [input_advance, ite_eq_right_iff]

theorem get?_result_eq_answer_iff {p step : Plan F} (h : p.sharesOutput step = true)
    (out : Variables) :
    (p.advance step out).state.get? resultName = some (p.advance step out).answer ↔
      (step.Lists resultName →
        (out.get? resultName).getD (trim out.input) = (p.advance step out).answer) := by
  rw [get?_result_of_sharesOutput h, Option.some_inj, ite_eq_right_iff]

theorem Progress.input_eq {p last : Plan F} {done : List (Plan F × String)}
    (h : Progress p done last) (hfree : ∀ step ∈ p.steps, ¬ step.Lists inputName) :
    last.state.input = (done.getLast?.map Prod.snd).getD p.state.input := by
  induction h with
  | refl p => rfl
  | @step p step last out done hstep _ ih =>
      have hinput := input_advance p step out
      rw [if_neg (hfree step (List.mem_of_getElem? hstep))] at hinput
      have hlast := ih (by rwa [steps_advance])
      rw [hinput] at hlast
      rw [hlast, List.getLast?_cons, Option.map_some, Option.getD_some]
      cases done.getLast? <;> rfl

theorem Progress.result_eq_answer {p last : Plan F} {done : List (Plan F × String)}
    (h : Progress p done last) (hfree : ∀ step ∈ p.steps, ¬ step.Lists resultName)
    (hshown : p.surfaced done ≠ []) : last.state.get? resultName = some last.answer := by
  have hreserved : p.ResultReserved := fun step hstep output houtput hname =>
    hfree step hstep ⟨output, houtput, hname⟩
  have haccumulates := h.accumulates hreserved
  rw [Accumulates, if_neg hshown] at haccumulates
  rw [haccumulates.1, haccumulates.2]

variable [Described F]

theorem input_stepVariables {caller : Variables} {next : Plan F}
    (hdefault : next.parameters.input = "") (hcaller : caller.input = "") (state : Variables) :
    (stepVariables caller state next).input =
      firstFilled [state.input, if next.steps.isEmpty then next.description else ""] := by
  have hinput := get?_stepVariables_input (SameName.refl inputName) caller state next
  rw [Variables.input, hinput, Option.getD_some, stepInput_eq, hdefault, hcaller]
  rfl

/-- A step writes its outputs behind the main value and the result of the plan. So the main value
that the next step goes on with is the trimmed result unless an output has its name and the result
is not trimmed as it stands, and a result that is shown is the answer unless an output has its name
and another value. Without such outputs the main value is the last result after any number of
calls, and once something is shown the result of the plan is the answer. -/
theorem reserved_names_hold_iff (call : Invoke σ F) :
    (∀ (p p' step : Plan F) (c : Context F) (s : Settings) (w w' : σ),
      p.steps[p.nextStep]? = some step → Run.exec (p.run call c s) w = (.ok p', w') →
      ∃ out, Run.exec (step.invoke call (p.stepContext c step) s) w = (.ok out, w') ∧
        (p'.state.input = trim out.result ↔
          (step.Lists inputName → out.result = trim out.result)) ∧
        (p.sharesOutput step = true →
          (p'.state.get? resultName = some p'.answer ↔
            (step.Lists resultName →
              (out.vars.get? resultName).getD (trim out.result) = p'.answer))) ∧
        ∀ (next : Plan F) (caller : Variables), next.parameters.input = "" → caller.input = "" →
          (stepVariables caller p'.state next).input =
            firstFilled [p'.state.input, if next.steps.isEmpty then next.description else ""]) ∧
    ∀ (p : Plan F) (w : σ) (calls : List (Context F × Settings)),
      let done := results call (p, w) calls
      let last := (callAll call (p, w) calls).1
      ((∀ step ∈ p.steps, ¬ step.Lists inputName) →
        last.state.input = (done.getLast?.map Prod.snd).getD p.state.input) ∧
      ((∀ step ∈ p.steps, ¬ step.Lists resultName) → p.surfaced done ≠ [] →
        last.state.get? resultName = some last.answer) := by
  constructor
  · intro p p' step c s w w' hstep hrun
    obtain ⟨out, hout, rfl⟩ := advance_of_run hstep hrun
    exact ⟨out, hout, input_advance_eq_iff p step out.vars,
      fun hshares => get?_result_eq_answer_iff hshares out.vars,
      fun next caller hdefault hcaller => input_stepVariables hdefault hcaller _⟩
  · intro p w calls
    have hprogress := progress_callAll call calls (p, w)
    exact ⟨hprogress.input_eq, hprogress.result_eq_answer⟩

def shadowing : Plan (Function Unit) :=
  { forGoal "plan" "goal" [echoing " a " ["R", "Input"], echoing "" ["r", "plan.result"]] with
    outputs := ["R"] }

def shadowedOnce : Plan (Function Unit) :=
  shadowing.advance (echoing " a " ["R", "Input"]) (.withInput " a ")

def plainlyNamed : Plan (Function Unit) :=
  { forGoal "plan" "goal" [echoing " a " ["R"], echoing "" ["r"]] with outputs := ["R"] }

theorem run_shadowing :
    Run.exec (shadowing.run callEcho blankContext {}) () = (.ok shadowedOnce, ()) :=
  rfl

theorem reserved_names_hold_iff_shadowed :
    Run.exec (shadowing.run callEcho blankContext {}) () = (.ok shadowedOnce, ()) ∧
      shadowedOnce.state.input ≠ trim " a " ∧
      shadowedOnce.state.get? resultName = some shadowedOnce.answer ∧
      (callAll callEcho (plainlyNamed, ()) (blankCalls 2)).1.state.input = "a" ∧
      (callAll callEcho (plainlyNamed, ()) (blankCalls 2)).1.state.get? resultName =
        some "a\na" := by
  obtain ⟨hstep, hcalls⟩ := reserved_names_hold_iff callEcho
  obtain ⟨out, hout, hinput, hresult, -⟩ := hstep shadowing shadowedOnce
    (echoing " a " ["R", "Input"]) blankContext {} () () rfl run_shadowing
  cases hout
  have hunnamed : ¬ (echoing " a " ["R", "Input"]).Lists resultName := by decide
  obtain ⟨hlast, hshown⟩ := hcalls plainlyNamed () (blankCalls 2)
  refine ⟨run_shadowing, fun h => ?_, (hresult rfl).2 fun h => absurd h hunnamed, ?_, ?_⟩
  · exact absurd (hinput.1 h (by decide)) (by decide)
  · exact hlast (by decide)
  · exact hshown (by decide) (by decide)

/-- The first result is passed on untrimmed, and the second one replaces what has been shown. -/
theorem reserved_names_replaced :
    (echoing " a " ["R", "Input"]).Lists inputName ∧
      shadowing.sharesOutput (echoing "" ["r", "plan.result"]) = true ∧
      (results callEcho (shadowing, ()) (blankCalls 2)).map Prod.snd = ["a", "a"] ∧
      (callAll callEcho (shadowing, ()) (blankCalls 1)).1.state.input = " a " ∧
      (stepVariables .empty (callAll callEcho (shadowing, ()) (blankCalls 1)).1.state
        (echoing "" ["r", "plan.result"])).input = " a " ∧
      (callAll callEcho (shadowing, ()) (blankCalls 2)).1.answer = "a\na" ∧
      (callAll callEcho (shadowing, ()) (blankCalls 2)).1.state.get? resultName = some "a" :=
  ⟨by decide, rfl, rfl, rfl, rfl, rfl, rfl⟩

end Orchestra.Plan
