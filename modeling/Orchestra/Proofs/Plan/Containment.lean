import Orchestra.Proofs.Plan.Invocation

namespace Orchestra

open Text

theorem Variables.AgreeOn.get?_eq {q : String → Bool} {v w : Variables} (h : v.AgreeOn q w)
    {name : String} (hq : ∀ other, SameName other name → q other = true) :
    v.get? name = w.get? name := by
  have hfind (u : Variables) :
      u.get? name = ((u.entries.filter fun e => q e.1).find? fun e => SameName e.1 name).map
        Prod.snd := by
    rw [List.find?_filter, get?, Entries.find?]
    congr 2
    funext e
    by_cases he : SameName e.1 name
    · simp [he, hq e.1 he]
    · simp [he]
  rw [hfind v, hfind w, h]

namespace Plan

variable {σ F : Type}

theorem agreeOn_surface {q : String → Bool} (p : Plan F) {step : Plan F}
    (hinput : ∀ other, SameName inputName other → q other = false)
    (houtputs : ∀ other, step.Lists other → q other = false) (v : Variables) :
    (p.surface step v).AgreeOn q v := by
  refine (Variables.agreeOn_foldl ?_ _).trans (Variables.agreeOn_set hinput v _)
  intro name hname u
  cases p.state.get? name with
  | none => rfl
  | some value => exact Variables.agreeOn_set (fun other h => houtputs other ⟨name, hname, h⟩) u value

theorem get?_foldl_held (state : Variables) (names : List String) (v : Variables) (name : String) :
    (names.foldl (fun v name => match state.get? name with
      | some value => v.set name value
      | none => v) v).get? name =
      (if ∃ n ∈ names, SameName n name then state.get? name else none).or (v.get? name) := by
  induction names generalizing v with
  | nil => simp
  | cons n names ih =>
      have hone : (match state.get? n with
          | some value => v.set n value
          | none => v).get? name =
            (if SameName n name then state.get? name else none).or (v.get? name) := by
        by_cases hname : SameName n name
        · rw [if_pos hname, ← state.get?_congr hname]
          cases state.get? n with
          | none => rfl
          | some value => simp [Variables.get?_set, hname]
        · rw [if_neg hname, Option.none_or]
          cases state.get? n with
          | none => rfl
          | some value => rw [Variables.get?_set, if_neg hname]
      rw [List.foldl_cons, ih, hone]
      by_cases hname : SameName n name
      · simp only [List.mem_cons, exists_eq_or_imp, hname, true_or, if_true]
        split
        · rw [← Option.or_assoc, Option.or_self]
        · rfl
      · simp only [List.mem_cons, exists_eq_or_imp, hname, false_or, if_false, Option.none_or]

/-- What the plan has come to so far: the result it shows, or else that of the latest step. -/
def resultSoFar (p : Plan F) : String :=
  (p.state.get? resultName).getD p.state.input

theorem get?_surface (p step : Plan F) (v : Variables) (name : String) :
    (p.surface step v).get? name =
      (if step.Lists name then p.state.get? name else none).or
        ((v.setInput p.resultSoFar).get? name) :=
  get?_foldl_held p.state step.outputs _ name

theorem get?_surface_of_lists {p step : Plan F} {name value : String} (h : step.Lists name)
    (hvalue : p.state.get? name = some value) (v : Variables) :
    (p.surface step v).get? name = some value := by
  rw [get?_surface, if_pos h, hvalue, Option.some_or]

theorem input_surface {p step : Plan F} (h : ¬ step.Lists inputName) (v : Variables) :
    (p.surface step v).input = p.resultSoFar := by
  rw [Variables.input, get?_surface, if_neg h, Option.none_or, ← Variables.input,
    Variables.input_setInput]

variable [Described F] {call : Invoke σ F} {s : Settings} {g last : Stage σ F}

theorem Reaches.context_eq (h : Reaches call s g last) :
    last.context.registry = g.context.registry ∧ last.context.locale = g.context.locale := by
  induction h with
  | refl => exact ⟨rfl, rfl⟩
  | step hstep hrun h ih => exact ih

theorem Reaches.steps_eq (h : Reaches call s g last) : last.plan.steps = g.plan.steps := by
  induction h with
  | refl => rfl
  | step hstep hrun _ ih =>
      obtain ⟨out, -, rfl⟩ := advance_of_run hstep hrun
      rw [ih, steps_advance]

theorem Reaches.agreeOn {q : String → Bool} (h : Reaches call s g last)
    (hinput : ∀ other, SameName inputName other → q other = false)
    (houtputs : ∀ step ∈ g.plan.steps.drop g.plan.nextStep, ∀ other, step.Lists other →
      q other = false) :
    last.context.vars.AgreeOn q g.context.vars := by
  induction h with
  | refl => rfl
  | @step p p' step c _ _ _ hstep hrun _ ih =>
      obtain ⟨out, -, rfl⟩ := advance_of_run hstep hrun
      obtain ⟨hlt, rfl⟩ := List.getElem?_eq_some_iff.1 hstep
      rw [List.drop_eq_getElem_cons hlt] at houtputs
      obtain ⟨hfirst, hrest⟩ := List.forall_mem_cons.1 houtputs
      rw [steps_advance, nextStep_advance] at ih
      exact (ih hrest).trans (agreeOn_surface _ hinput hfirst c.vars)

theorem Reaches.exists_stage (h : Reaches call s g last) {i : Nat} (hi : g.plan.nextStep ≤ i)
    (hlast : i < last.plan.nextStep) :
    ∃ k, Reaches call s g k ∧ k.plan.nextStep = i ∧ Reaches call s k last := by
  induction h with
  | refl => omega
  | @step p _ _ _ _ _ _ hstep hrun h ih =>
      rcases Nat.eq_or_lt_of_le hi with he | hlt
      · exact ⟨_, .refl _, he, .step hstep hrun h⟩
      · obtain ⟨out, -, rfl⟩ := advance_of_run hstep hrun
        rw [nextStep_advance] at ih
        obtain ⟨k, hk, hnext, hlast⟩ := ih hlt hlast
        exact ⟨k, .step hstep hrun hk, hnext, hlast⟩

/-- Once a step has run, the main value is what the plan has come to. -/
theorem Reaches.input_eq (h : Reaches call s g last)
    (houtputs : ∀ step ∈ g.plan.steps.drop g.plan.nextStep, ¬ step.Lists inputName) :
    last = g ∨ last.context.vars.input = last.plan.resultSoFar := by
  induction h with
  | refl => exact .inl rfl
  | @step p p' step c _ _ _ hstep hrun _ ih =>
      obtain ⟨hlt, rfl⟩ := List.getElem?_eq_some_iff.1 hstep
      rw [List.drop_eq_getElem_cons hlt] at houtputs
      obtain ⟨hfirst, hrest⟩ := List.forall_mem_cons.1 houtputs
      have hinput := input_surface (p := p') hfirst c.vars
      obtain ⟨out, -, rfl⟩ := advance_of_run hstep hrun
      rw [steps_advance, nextStep_advance] at ih
      rcases ih hrest with rfl | hlast
      · exact .inr hinput
      · exact .inr hlast

theorem Reaches.nextStep_eq (h : Reaches call s g last) (hend : last.plan.hasNextStep = false) :
    last.plan.nextStep = g.plan.nextStep + (g.plan.steps.drop g.plan.nextStep).length := by
  induction h with
  | refl g =>
      have hlength : g.plan.steps.length ≤ g.plan.nextStep := by simpa [hasNextStep] using hend
      rw [List.drop_eq_nil_of_le hlength, List.length_nil, Nat.add_zero]
  | step hstep hrun _ ih =>
      obtain ⟨hlt, rfl⟩ := List.getElem?_eq_some_iff.1 hstep
      obtain ⟨out, -, rfl⟩ := advance_of_run hstep hrun
      rw [ih hend, steps_advance, nextStep_advance, List.drop_eq_getElem_cons hlt, List.length_cons,
        Nat.add_assoc, Nat.add_comm 1]

/-- Under a name that steps list, the context keeps what the last of them stored. -/
theorem Reaches.get?_output (h : Reaches call s g last) (hend : last.plan.hasNextStep = false)
    {before after : List (Plan F)} {step : Plan F} {name : String}
    (hran : g.plan.steps.drop g.plan.nextStep = before ++ step :: after) (hlists : step.Lists name)
    (hname : ¬ SameName inputName name) (hafter : ∀ later ∈ after, ¬ later.Lists name) :
    ∃ k o w', Reaches call s g k ∧ k.plan.nextStep = g.plan.nextStep + before.length ∧
      Run.exec (step.invoke call (k.plan.stepContext k.context step) s) k.world = (.ok o, w') ∧
      ((k.plan.advance step o.vars).state.get? name).isSome = true ∧
      last.context.vars.get? name = (k.plan.advance step o.vars).state.get? name := by
  have hlast := h.nextStep_eq hend
  rw [hran, List.length_append, List.length_cons] at hlast
  obtain ⟨k, hk, hnext, hrest⟩ := h.exists_stage (i := g.plan.nextStep + before.length)
    (by omega) (by omega)
  have hdrop : k.plan.steps.drop k.plan.nextStep = step :: after := by
    rw [hk.steps_eq, hnext, ← List.drop_drop, hran, List.drop_left]
  cases hrest with
  | refl => omega
  | @step p p' first c w w' _ hfirst hrun hrest =>
      obtain ⟨hlt, hget⟩ := List.getElem?_eq_some_iff.1 hfirst
      rw [List.drop_eq_getElem_cons hlt, hget] at hdrop
      obtain ⟨rfl, rfl⟩ := List.cons_eq_cons.1 hdrop
      obtain ⟨o, ho, rfl⟩ := advance_of_run hfirst hrun
      have hstored := get?_advance_of_lists (p := p) hlists o.vars
      refine ⟨_, o, w', hk, hnext, ho, by rw [hstored]; rfl, ?_⟩
      -- From here on no step lists the name, so every spelling of it is spared.
      have hkept := hrest.agreeOn (q := fun other => SameName name other)
        (fun other hi => by simpa using fun hs => hname (hi.trans hs.symm))
        (fun later hl other ho => by
          rw [steps_advance, nextStep_advance] at hl
          obtain ⟨output, houtput, hsame⟩ := ho
          simpa using fun hs => hafter later hl ⟨output, houtput, hsame.trans hs.symm⟩)
      rw [hkept.get?_eq (fun other hs => by simpa using hs.symm), hstored]
      exact get?_surface_of_lists hlists hstored c.vars

/-- A plan that is called as a function gives back the context of its caller, changed in the main
value and in the outputs of the steps that ran. Under an output it holds what the last step to list
it stored, and the main value is what the plan has come to. -/
theorem invoke_changes_outputs_only (call : Invoke σ F) (s : Settings) {p : Plan F}
    (hf : p.function = none) {c out : Context F} {w w' : σ}
    (h : Run.exec (p.invoke call c s) w = (.ok out, w')) :
    let ran := p.steps.drop p.nextStep
    out.registry = c.registry ∧ out.locale = c.locale ∧ (ran = [] → out.vars = c.vars) ∧
      out.vars.AgreeOn
        (fun name => ¬ SameName inputName name ∧ ∀ step ∈ ran, ¬ step.Lists name) c.vars ∧
      ∃ last, Reaches call s ⟨p, c, w⟩ ⟨last, out, w'⟩ ∧
        last.nextStep = p.nextStep + ran.length ∧
        (ran ≠ [] → (∀ step ∈ ran, ¬ step.Lists inputName) →
          out.result = (last.state.get? resultName).getD last.state.input) ∧
        ∀ before step after name, ran = before ++ step :: after → step.Lists name →
          ¬ SameName inputName name → (∀ later ∈ after, ¬ later.Lists name) →
          ∃ k o w₁, Reaches call s ⟨p, c, w⟩ k ∧ k.plan.nextStep = p.nextStep + before.length ∧
            Run.exec (step.invoke call (k.plan.stepContext k.context step) s) k.world =
              (.ok o, w₁) ∧
            ((k.plan.advance step o.vars).state.get? name).isSome = true ∧
            out.vars.get? name = (k.plan.advance step o.vars).state.get? name := by
  intro ran
  obtain ⟨last, hreach, hends⟩ := (exec_invoke_iff call hf c s w _).1 h
  cases hends with
  | @finished last out w' hend =>
      obtain ⟨hregistry, hlocale⟩ := hreach.context_eq
      have hnext : last.nextStep = p.nextStep + ran.length := hreach.nextStep_eq hend
      refine ⟨hregistry, hlocale, ?_, ?_, last, hreach, hnext, ?_, ?_⟩
      · intro hran
        cases hreach with
        | refl => rfl
        | step hstep =>
            obtain ⟨hlt, -⟩ := List.getElem?_eq_some_iff.1 hstep
            exact absurd (List.drop_eq_nil_iff.1 hran) (Nat.not_le.2 hlt)
      · refine hreach.agreeOn (fun other hi => ?_) fun step hstep other hl => ?_
        · simp [hi]
        · simpa using fun _ => ⟨step, hstep, hl⟩
      · intro hran hinput
        rcases hreach.input_eq hinput with he | he
        · cases he
          have := List.length_pos_iff.2 hran
          omega
        · exact he
      · intro before step after name hsplit hlists hname hafter
        exact hreach.get?_output hend hsplit hlists hname hafter

def nestedOutputs : Plan (Function Unit) :=
  forGoal "plan" "goal"
    [echoing "a" ["X"], { forGoal "inner" "goal" [echoing "b" ["S"]] with outputs := ["Y"] }]

def callerContext : Context (Function Unit) :=
  ⟨(Variables.withInput "").set "s" "kept", .empty, "de-DE"⟩

def handedBack : Context (Function Unit) :=
  callerContext.withVariables (((callerContext.vars.setInput "b").set "X" "a").set "Y" "b")

theorem exec_nestedOutputs :
    Run.exec (nestedOutputs.invoke callEcho callerContext {}) () = (.ok handedBack, ()) :=
  rfl

theorem invoke_changes_outputs_only_nested :
    Run.exec (nestedOutputs.invoke callEcho callerContext {}) () = (.ok handedBack, ()) ∧
      handedBack.vars.get? "s" = some "kept" ∧
      ∃ last, Reaches callEcho {} ⟨nestedOutputs, callerContext, ()⟩ ⟨last, handedBack, ()⟩ ∧
        handedBack.result = (last.state.get? resultName).getD last.state.input := by
  obtain ⟨-, -, -, hagree, last, hreach, -, hinput, -⟩ :=
    invoke_changes_outputs_only callEcho {} rfl exec_nestedOutputs
  have hspared : ∀ step ∈ nestedOutputs.steps, ∀ output ∈ step.outputs, ¬ SameName output "s" := by
    decide
  refine ⟨exec_nestedOutputs, ?_, last, hreach, hinput (by decide) (by decide)⟩
  rw [hagree.get?_eq]
  · rfl
  · intro other hs
    have hmain : ¬ SameName inputName other := fun h => absurd (h.trans hs) (by decide)
    have houtputs : ∀ step ∈ nestedOutputs.steps, ¬ step.Lists other :=
      fun step hstep ⟨output, ho, h⟩ => hspared step hstep output ho (h.trans hs)
    exact decide_eq_true ⟨hmain, houtputs⟩

end Plan

end Orchestra
