import Orchestra.Plan.Step
import Orchestra.Proofs.Run

namespace Orchestra.Plan

variable {σ τ F : Type} [Described F]

/-- What a function gives under `call` in some world, it gives under `steady` in every world. -/
def Reproduces (call : Invoke σ F) (steady : Invoke τ F) : Prop :=
  ∀ f c s, (call f c s).Reproduces (steady f c s)

mutual

theorem reproduces_invoke {call : Invoke σ F} {steady : Invoke τ F} (hr : Reproduces call steady) :
    ∀ (p : Plan F) (c : Context F) (s : Settings), (invoke call p c s).Reproduces (invoke steady p c s)
  | ⟨_, _, _, _, _, _, state, _, _, _, some f⟩, c, s =>
      hr f (c.withVariables (c.vars.setAllMissing state.entries)) s
  | ⟨_, _, _, _, _, _, _, steps, _, nextStep, none⟩, c, s =>
      reproduces_invokeSteps hr steps _ nextStep c s
termination_by structural p => p

theorem reproduces_invokeSteps {call : Invoke σ F} {steady : Invoke τ F}
    (hr : Reproduces call steady) :
    ∀ (steps : List (Plan F)) (p : Plan F) (skip : Nat) (c : Context F) (s : Settings),
      (invokeSteps call p skip steps c s).Reproduces (invokeSteps steady p skip steps c s)
  | [], _, _, c, _ => .pure c
  | _ :: rest, p, skip + 1, c, s => reproduces_invokeSteps hr rest p skip c s
  | step :: rest, p, 0, c, s =>
      .bind ((reproduces_invoke hr step (p.stepContext c step) s).mapError _) fun out =>
        reproduces_invokeSteps hr rest (p.advance step out.vars) 0 _ s
termination_by structural steps => steps

end

theorem reproduces_run {call : Invoke σ F} {steady : Invoke τ F} (hr : Reproduces call steady)
    (p : Plan F) (c : Context F) (s : Settings) :
    (p.run call c s).Reproduces (p.run steady c s) := by
  unfold run
  cases p.steps[p.nextStep]? with
  | none => exact .pure p
  | some step =>
      exact .bind ((reproduces_invoke hr step _ s).mapError _) fun out => .pure _

end Orchestra.Plan
