import Orchestra.Function
import Orchestra.Proofs.Plan.Advance
import Orchestra.Proofs.Plan.Held
import Orchestra.Proofs.Plan.Steady

namespace Orchestra.Plan

variable {σ τ F : Type} [Described F]

/-- What a call may come to. Without a step left nothing happens, a failing step leaves the plan as
it was, and a step that comes out well is passed. -/
inductive Transition (call : Invoke σ F) (c : Context F) (s : Settings) :
    Plan F × σ → Except PlanError Unit → Plan F × σ → Prop
  | idle {p : Plan F} {w : σ} (h : p.steps[p.nextStep]? = none) :
      Transition call c s (p, w) (.ok ()) (p, w)
  | failed {p step : Plan F} {w w' : σ} {e : CallError} (h : p.steps[p.nextStep]? = some step)
      (he : Run.exec (step.invoke call (p.stepContext c step) s) w = (.error e, w')) :
      Transition call c s (p, w)
        (.error (.stepFailed p.nextStep step.signature.qualifiedName e)) (p, w')
  | passed {p step : Plan F} {w w' : σ} {out : Context F} {state : Variables} {answer : String}
      (h : p.steps[p.nextStep]? = some step)
      (ho : Run.exec (step.invoke call (p.stepContext c step) s) w = (.ok out, w'))
      (hs : state.AgreeOn (fun name => ¬ p.Writes step name) p.state) :
      Transition call c s (p, w) (.ok ()) ({ p with state, answer, nextStep := p.nextStep + 1 }, w')

theorem transition_runHeld (call : Invoke σ F) (c : Context F) (s : Settings) (h : Plan F × σ) :
    Transition call c s h (Run.exec (runHeld call c s) h).1 (Run.exec (runHeld call c s) h).2 := by
  obtain ⟨p, w⟩ := h
  rw [exec_runHeld, exec_run]
  cases hstep : p.steps[p.nextStep]? with
  | none => exact .idle hstep
  | some step =>
      dsimp only
      cases hout : Run.exec (step.invoke call (p.stepContext c step) s) w with
      | mk r w' =>
          cases r with
          | error e => exact .failed hstep hout
          | ok out =>
              dsimp only
              rw [p.advance_eq step out.vars]
              exact .passed hstep hout (p.agreeOn_advance step out.vars)

structure Success (σ F : Type) [Described F] where
  call : Context F × Settings
  world : σ
  index : Nat

def callAll (call : Invoke σ F) (h : Plan F × σ) (calls : List (Context F × Settings)) :
    Plan F × σ :=
  calls.foldl (fun h k => (Run.exec (runHeld call k.1 k.2) h).2) h

def successes (call : Invoke σ F) (h : Plan F × σ) :
    List (Context F × Settings) → List (Success σ F)
  | [] => []
  | k :: rest =>
      match Run.exec (runHeld call k.1 k.2) h with
      | (.error _, h') => successes call h' rest
      | (.ok (), h') =>
          if h.1.hasNextStep then ⟨k, h.2, h.1.nextStep⟩ :: successes call h' rest
          else successes call h' rest

/-- The calls that came out well made again, each in the world it found then. -/
def replay (call : Invoke σ F) : Plan F → List (Success σ F) → Except PlanError (Plan F)
  | p, [] => .ok p
  | p, d :: rest =>
      match Run.exec (runHeld call d.call.1 d.call.2) (p, d.world) with
      | (.error e, _) => .error e
      | (.ok (), h) => replay call h.1 rest

theorem passed_of_runHeld {call : Invoke σ F} {c : Context F} {s : Settings} {p p' : Plan F}
    {w w' : σ} (h : Run.exec (runHeld call c s) (p, w) = (.ok (), (p', w'))) :
    (p.hasNextStep = false ∧ p' = p) ∨
      p.hasNextStep = true ∧
        ∃ state answer, p' = { p with state, answer, nextStep := p.nextStep + 1 } := by
  have ht := transition_runHeld call c s (p, w)
  rw [h] at ht
  cases ht with
  | idle hn => exact .inl ⟨by simpa [hasNextStep] using hn, rfl⟩
  | passed hstep _ _ =>
      obtain ⟨hlt, -⟩ := List.getElem?_eq_some_iff.1 hstep
      exact .inr ⟨by simpa [hasNextStep] using hlt, _, _, rfl⟩

theorem kept_of_runHeld {call : Invoke σ F} {c : Context F} {s : Settings} {h h' : Plan F × σ}
    {e : PlanError} (he : Run.exec (runHeld call c s) h = (.error e, h')) : h'.1 = h.1 := by
  have ht := transition_runHeld call c s h
  rw [he] at ht
  cases ht
  rfl

theorem reproduces_runHeld {call : Invoke σ F} {steady : Invoke τ F} (hr : Reproduces call steady)
    {c : Context F} {s : Settings} {p p' : Plan F} {w w' : σ}
    (h : Run.exec (runHeld call c s) (p, w) = (.ok (), (p', w'))) (v : τ) :
    ∃ v', Run.exec (runHeld steady c s) (p, v) = (.ok (), (p', v')) := by
  rw [exec_runHeld] at h
  cases hrun : Run.exec (p.run call c s) w with
  | mk r w₁ =>
      cases r with
      | error e =>
          rw [hrun] at h
          cases h
      | ok p₁ =>
          rw [hrun] at h
          obtain rfl : p₁ = p' := by cases h; rfl
          obtain ⟨v', hv⟩ := reproduces_run hr p c s w p₁ w₁ hrun v
          exact ⟨v', by rw [exec_runHeld, hv]⟩

inductive Passes (call : Invoke σ F) : Plan F → List (Success σ F) → Plan F → Prop
  | nil (p : Plan F) : Passes call p [] p
  | cons {p p' last : Plan F} {k : Context F × Settings} {w w' : σ} {ds : List (Success σ F)}
      (hn : p.hasNextStep = true) (h : Run.exec (runHeld call k.1 k.2) (p, w) = (.ok (), (p', w')))
      (hr : Passes call p' ds last) : Passes call p (⟨k, w, p.nextStep⟩ :: ds) last

theorem passes_callAll (call : Invoke σ F) (calls : List (Context F × Settings)) (p : Plan F) (w : σ) :
    Passes call p (successes call (p, w) calls) (callAll call (p, w) calls).1 := by
  induction calls generalizing p w with
  | nil => exact .nil p
  | cons k rest ih =>
      rw [callAll, List.foldl_cons, successes]
      cases hrun : Run.exec (runHeld call k.1 k.2) (p, w) with
      | mk r h =>
          obtain ⟨p', w'⟩ := h
          cases r with
          | error e =>
              -- The calls that follow find the plan that the failing call found.
              obtain rfl : p' = p := kept_of_runHeld hrun
              exact ih p' w'
          | ok =>
              dsimp only
              rcases passed_of_runHeld hrun with ⟨hn, rfl⟩ | ⟨hn, -⟩
              · rw [hn]
                exact ih p' w'
              · rw [if_pos hn]
                exact .cons hn hrun (ih p' w')

theorem Passes.frame {call : Invoke σ F} {p last : Plan F} {ds : List (Success σ F)}
    (h : Passes call p ds last) :
    ∃ state answer, last = { p with state, answer, nextStep := p.nextStep + ds.length } := by
  induction h with
  | nil p =>
      cases p
      exact ⟨_, _, rfl⟩
  | cons hn h hr ih =>
      rcases passed_of_runHeld h with ⟨hf, -⟩ | ⟨-, _, _, rfl⟩
      · rw [hn] at hf
        cases hf
      · obtain ⟨state, answer, rfl⟩ := ih
        refine ⟨state, answer, ?_⟩
        simp only [List.length_cons, Nat.add_assoc, Nat.add_comm 1]

theorem Passes.indices {call : Invoke σ F} {p last : Plan F} {ds : List (Success σ F)}
    (h : Passes call p ds last) :
    ds.map Success.index = List.range' p.nextStep ds.length ∧ ∀ d ∈ ds, d.index < p.steps.length := by
  induction h with
  | nil p => exact ⟨rfl, by simp⟩
  | @cons p _ _ _ _ _ ds hn h hr ih =>
      rcases passed_of_runHeld h with ⟨hf, -⟩ | ⟨-, _, _, rfl⟩
      · rw [hn] at hf
        cases hf
      · obtain ⟨hmap, hlt⟩ := ih
        refine ⟨?_, List.forall_mem_cons.2 ⟨by simpa [hasNextStep] using hn, hlt⟩⟩
        rw [List.map_cons, hmap, List.length_cons, List.range'_succ]

theorem Passes.replay {call : Invoke σ F} {p last : Plan F} {ds : List (Success σ F)}
    (h : Passes call p ds last) : replay call p ds = .ok last := by
  induction h with
  | nil p => rfl
  | cons hn h hr ih =>
      rw [Plan.replay, h]
      exact ih

theorem Passes.again {call : Invoke σ F} {steady : Invoke τ F} (hr : Reproduces call steady)
    {p last : Plan F} {ds : List (Success σ F)} (h : Passes call p ds last) (v : τ) :
    (callAll steady (p, v) (ds.map Success.call)).1 = last ∧
      (successes steady (p, v) (ds.map Success.call)).map Success.index = ds.map Success.index := by
  induction h generalizing v with
  | nil p => exact ⟨rfl, rfl⟩
  | cons hn h _ ih =>
      obtain ⟨v', hv⟩ := reproduces_runHeld hr h v
      obtain ⟨hlast, hindex⟩ := ih v'
      constructor
      · rw [List.map_cons, callAll, List.foldl_cons, hv]
        exact hlast
      · rw [List.map_cons, successes, hv]
        simp only [hn, if_true, List.map_cons, hindex]

/-- A call is atomic: it passes the next step or leaves the plan as it is. After calls in a row the
plan has passed as many steps as came out well, in their order, and it is the plan that these calls
alone lead to. -/
theorem calls_atomic_in_order (call : Invoke σ F) :
    (∀ c s p w, Run.exec (runHeld call c s) (p, w) =
      match Run.exec (p.run call c s) w with
      | (.ok p', w') => (.ok (), (p', w'))
      | (.error e, w') => (.error e, (p, w'))) ∧
    (∀ c s h,
      Transition call c s h (Run.exec (runHeld call c s) h).1 (Run.exec (runHeld call c s) h).2) ∧
    ∀ (p : Plan F) (w : σ) (calls : List (Context F × Settings)),
      let done := successes call (p, w) calls
      let last := (callAll call (p, w) calls).1
      (∃ state answer, last = { p with state, answer, nextStep := p.nextStep + done.length }) ∧
      done.map Success.index = List.range' p.nextStep done.length ∧
      (∀ d ∈ done, d.index < p.steps.length) ∧
      replay call p done = .ok last ∧
      ∀ (τ : Type) (steady : Invoke τ F), Reproduces call steady → ∀ v : τ,
        (callAll steady (p, v) (done.map Success.call)).1 = last ∧
        (successes steady (p, v) (done.map Success.call)).map Success.index =
          done.map Success.index := by
  refine ⟨fun c s p w => exec_runHeld call c s p w, transition_runHeld call, ?_⟩
  intro p w calls
  have h := passes_callAll call calls p w
  exact ⟨h.frame, h.indices.1, h.indices.2, h.replay, fun τ steady hr v => h.again hr v⟩

def flaky : Invoke Nat (Function Unit) := fun _ c _ => do
  let attempts ← get
  set (attempts + 1)
  if attempts = 0 then throw (.internal "first attempt") else pure c

def recovered : Invoke Unit (Function Unit) := fun _ c _ => pure c

theorem reproduces_flaky : Reproduces flaky recovered := by
  intro f c s w a w' h v
  have hflaky : Run.exec (flaky f c s) w =
      Run.exec (if w = 0 then throw (.internal "first attempt") else pure c) (w + 1) := rfl
  rw [hflaky] at h
  by_cases hw : w = 0
  · rw [if_pos hw] at h
    cases h
  · rw [if_neg hw] at h
    cases h
    exact ⟨v, rfl⟩

def flakyPlan : Plan (Function Unit) :=
  forGoal "plan" "goal" [ofFunction (.ofText "test" "flaky" "" [] pure)]

def threeCalls : List (Context (Function Unit) × Settings) :=
  .replicate 3 (⟨.empty, .empty, defaultLocale⟩, {})

theorem calls_atomic_in_order_flaky :
    Reproduces flaky recovered ∧
      (callAll flaky (flakyPlan, 0) threeCalls).1.nextStep = 1 ∧
      (callAll recovered (flakyPlan, ())
        ((successes flaky (flakyPlan, 0) threeCalls).map Success.call)).1 =
          (callAll flaky (flakyPlan, 0) threeCalls).1 := by
  obtain ⟨-, -, hcalls⟩ := calls_atomic_in_order flaky
  obtain ⟨⟨state, answer, hlast⟩, -, -, -, hagain⟩ := hcalls flakyPlan 0 threeCalls
  have hlength : (successes flaky (flakyPlan, 0) threeCalls).length = 1 := rfl
  refine ⟨reproduces_flaky, ?_, (hagain Unit recovered reproduces_flaky ()).1⟩
  rw [hlast, hlength]
  rfl

end Orchestra.Plan
