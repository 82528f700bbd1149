import Orchestra.Proofs.Plan.Retry

namespace Orchestra.Plan

open Text

variable {σ F : Type}

def shownWith (p : Plan F) (more : List String) : String :=
  "\n".intercalate ((p.state.get? resultName).toList ++ more)

theorem shownWith_singleton (p : Plan F) (result : String) :
    p.shownWith [result] = p.extendResult result := by
  unfold shownWith extendResult
  cases p.state.get? resultName <;> rfl

theorem shownWith_cons {p p' : Plan F} {result : String}
    (h : p'.state.get? resultName = some (p.extendResult result)) (more : List String) :
    p'.shownWith more = p.shownWith (result :: more) := by
  rw [shownWith, h, extendResult, shownWith]
  cases p.state.get? resultName <;> rfl

/-- On its way to `last` the plan shows just these results. -/
def Accumulates (p : Plan F) (shown : List String) (last : Plan F) : Prop :=
  if shown = [] then
    last.state.get? resultName = p.state.get? resultName ∧ last.answer = p.answer
  else
    last.state.get? resultName = some (p.shownWith shown) ∧ last.answer = p.shownWith shown

theorem Accumulates.quiet {p p' last : Plan F} {shown : List String}
    (hresult : p'.state.get? resultName = p.state.get? resultName) (hanswer : p'.answer = p.answer)
    (h : p'.Accumulates shown last) : p.Accumulates shown last := by
  unfold Accumulates shownWith at *
  rwa [hresult, hanswer] at h

theorem Accumulates.show {p p' last : Plan F} {result : String} {shown : List String}
    (hresult : p'.state.get? resultName = some (p.extendResult result))
    (hanswer : p'.answer = p.extendResult result) (h : p'.Accumulates shown last) :
    p.Accumulates (result :: shown) last := by
  unfold Accumulates at *
  rw [if_neg (List.cons_ne_nil _ _), ← shownWith_cons hresult]
  by_cases hshown : shown = []
  · rw [if_pos hshown] at h
    rw [hshown, h.1, h.2, hresult, hanswer, shownWith_cons hresult, shownWith_singleton]
    exact ⟨rfl, rfl⟩
  · rwa [if_neg hshown] at h

def ResultReserved (p : Plan F) : Prop :=
  ∀ step ∈ p.steps, ∀ output ∈ step.outputs, ¬ SameName output resultName

theorem get?_result_advance {p step : Plan F}
    (h : ∀ output ∈ step.outputs, ¬ SameName output resultName) (out : Variables) :
    (p.advance step out).state.get? resultName =
      if p.sharesOutput step = true then some (p.extendResult (trim out.input))
      else p.state.get? resultName := by
  have hinput : ¬ SameName inputName resultName := by decide
  have houtputs : ¬ ∃ output ∈ step.outputs, SameName output resultName := by
    rintro ⟨output, hmem, hname⟩
    exact h output hmem hname
  rw [get?_advance, if_neg houtputs, if_neg hinput]
  simp only [SameName.refl, and_true]

/-- The plan passes steps one after another, each with its result. -/
inductive Progress : Plan F → List (Plan F × String) → Plan F → Prop
  | refl (p : Plan F) : Progress p [] p
  | step {p step last : Plan F} {out : Variables} {done : List (Plan F × String)}
      (hstep : p.steps[p.nextStep]? = some step) (h : Progress (p.advance step out) done last) :
      Progress p ((step, trim out.input) :: done) last

theorem Progress.drop_steps {p last : Plan F} {done : List (Plan F × String)}
    (h : Progress p done last) :
    p.steps.drop p.nextStep = done.map Prod.fst ++ last.steps.drop last.nextStep := by
  induction h with
  | refl p => rfl
  | step hstep _ ih =>
      obtain ⟨hlt, rfl⟩ := List.getElem?_eq_some_iff.1 hstep
      rw [steps_advance, nextStep_advance] at ih
      rw [List.map_cons, List.cons_append, ← ih, List.drop_eq_getElem_cons hlt]

def surfaced (p : Plan F) (done : List (Plan F × String)) : List String :=
  (done.filter fun d => p.sharesOutput d.1).map Prod.snd

theorem surfaced_advance (p step : Plan F) (out : Variables) (done : List (Plan F × String)) :
    (p.advance step out).surfaced done = p.surfaced done := by
  simp only [surfaced, sharesOutput_advance]

theorem Progress.accumulates {p last : Plan F} {done : List (Plan F × String)}
    (h : Progress p done last) (hr : p.ResultReserved) : p.Accumulates (p.surfaced done) last := by
  induction h with
  | refl p => exact ⟨rfl, rfl⟩
  | @step p step _ out done hstep _ ih =>
      have hresult := get?_result_advance (p := p) (hr step (List.mem_of_getElem? hstep)) out
      have hanswer := p.answer_advance step out
      have hrest := ih (by rw [ResultReserved, steps_advance]; exact hr)
      rw [surfaced_advance] at hrest
      rw [surfaced, List.filter_cons]
      by_cases hs : p.sharesOutput step = true
      · rw [if_pos hs] at hresult hanswer
        rw [if_pos hs, List.map_cons]
        exact hrest.show hresult hanswer
      · rw [if_neg hs] at hresult hanswer
        rw [if_neg hs]
        exact hrest.quiet hresult hanswer

variable [Described F]

def passed? (call : Invoke σ F) (k : Context F × Settings) (h : Plan F × σ) :
    Option (Plan F × String) :=
  match h.1.steps[h.1.nextStep]? with
  | none => none
  | some step =>
      match (Run.exec (step.invoke call (h.1.stepContext k.1 step) k.2) h.2).1 with
      | .error _ => none
      | .ok out => some (step, trim out.result)

def results (call : Invoke σ F) (h : Plan F × σ) :
    List (Context F × Settings) → List (Plan F × String)
  | [] => []
  | k :: rest =>
      (passed? call k h).toList ++ results call (Run.exec (runHeld call k.1 k.2) h).2 rest

theorem passed?_cases (call : Invoke σ F) (k : Context F × Settings) (h : Plan F × σ) :
    (passed? call k h = none ∧ (Run.exec (runHeld call k.1 k.2) h).2.1 = h.1) ∨
      ∃ step out, h.1.steps[h.1.nextStep]? = some step ∧
        passed? call k h = some (step, trim out.input) ∧
        (Run.exec (runHeld call k.1 k.2) h).2.1 = h.1.advance step out := by
  obtain ⟨p, w⟩ := h
  rw [passed?, exec_runHeld, exec_run]
  cases hstep : p.steps[p.nextStep]? with
  | none => exact .inl ⟨rfl, rfl⟩
  | some step =>
      dsimp only
      cases hout : Run.exec (step.invoke call (p.stepContext k.1 step) k.2) w with
      | mk r w' =>
          cases r with
          | error e => exact .inl ⟨rfl, rfl⟩
          | ok out => exact .inr ⟨step, out.vars, rfl, rfl, rfl⟩

theorem progress_callAll (call : Invoke σ F) (calls : List (Context F × Settings))
    (h : Plan F × σ) : Progress h.1 (results call h calls) (callAll call h calls).1 := by
  induction calls generalizing h with
  | nil => exact .refl h.1
  | cons k rest ih =>
      have hrest := ih (Run.exec (runHeld call k.1 k.2) h).2
      rw [results]
      rcases passed?_cases call k h with ⟨hnone, hsame⟩ | ⟨step, out, hstep, hpassed, hadvance⟩
      · rw [hsame] at hrest
        rw [hnone]
        exact hrest
      · rw [hadvance] at hrest
        rw [hpassed]
        exact .step hstep hrest

/-- After calls in a row, of which any may fail, the result of the plan has grown by a line for each
result that the plan shows, and the answer is that result. -/
theorem shown_results_accumulate (call : Invoke σ F) (p : Plan F) (w : σ)
    (calls : List (Context F × Settings))
    (hreserved : ∀ step ∈ p.steps, ∀ output ∈ step.outputs, ¬ SameName output resultName) :
    let shown := ((results call (p, w) calls).filter fun d =>
      d.1.outputs.any fun name => p.outputs.any (sameAscii · name)).map Prod.snd
    let last := (callAll call (p, w) calls).1
    if shown = [] then
      last.state.get? resultName = p.state.get? resultName ∧ last.answer = p.answer
    else
      let text := "\n".intercalate ((p.state.get? resultName).toList ++ shown)
      last.state.get? resultName = some text ∧ last.answer = text :=
  (progress_callAll call calls (p, w)).accumulates hreserved

def echo : Function Unit :=
  .ofText "text" "echo" "Give back the input" [] pure

def echoing (input : String) (outputs : List String) : Plan (Function Unit) :=
  { ofFunction echo with parameters := .withInput input, outputs }

def threeLines : Plan (Function Unit) :=
  { forGoal "plan" "goal" [echoing "a" ["R"], echoing "b" ["S"], echoing " " ["r", "R"]] with
    state := Variables.empty.set resultName "start", outputs := ["R"] }

def callEcho : Invoke Unit (Function Unit) :=
  Function.invoke 1

def blankContext : Context (Function Unit) :=
  ⟨.empty, .empty, defaultLocale⟩

def blankCalls (n : Nat) : List (Context (Function Unit) × Settings) :=
  .replicate n (blankContext, {})

theorem shown_results_accumulate_flaky :
    (∀ step ∈ threeLines.steps, ∀ output ∈ step.outputs, ¬ SameName output resultName) ∧
      (callAll flaky (threeLines, 0) (blankCalls 4)).1.answer = "start\na\n" := by
  have hreserved : ∀ step ∈ threeLines.steps, ∀ output ∈ step.outputs,
      ¬ SameName output resultName := by decide
  exact ⟨hreserved, (shown_results_accumulate flaky threeLines 0 (blankCalls 4) hreserved).2⟩

end Orchestra.Plan
