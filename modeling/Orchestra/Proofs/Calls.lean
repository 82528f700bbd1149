import Mathlib.Logic.Relation
import Orchestra.Function
import Orchestra.Proofs.Template.Renders

namespace Orchestra

namespace Run

variable {σ ε α β : Type}

/-- Whatever `x` gives fulfils `P`. -/
def Yields (x : Run σ ε α) (P : α → Prop) : Prop :=
  ∀ w a w', exec x w = (.ok a, w') → P a

theorem Yields.pure {P : α → Prop} {a : α} (h : P a) : Yields (pure a : Run σ ε α) P := by
  rintro w b w' ⟨⟩
  exact h

theorem Yields.bind {P : β → Prop} {x : Run σ ε α} {f : α → Run σ ε β}
    (k : ∀ a, Yields (f a) P) : Yields (x >>= f) P := by
  intro w b w' hb
  obtain ⟨a, w₁, -, hf⟩ := exec_bind_eq_ok_iff.1 hb
  exact k a w₁ b w' hf

theorem Yields.bind_congr {P : α → Prop} {x : Run σ ε α} {f g : α → Run σ ε β} (h : Yields x P)
    (k : ∀ a, P a → f a = g a) : x >>= f = x >>= g := by
  funext w
  change exec (x >>= f) w = exec (x >>= g) w
  rw [exec_bind, exec_bind]
  cases hx : exec x w with
  | mk r w₁ =>
      cases r with
      | error e => rfl
      | ok a => exact congrArg (exec · w₁) (k a (h w a w₁ hx))

end Run

namespace Template

variable {σ F : Type} [Described F]

def Block.called? : Block → Option FunctionId
  | .code _ (.function f :: _) _ => some f
  | _ => none

theorem startCall_eq {c : Context F} {source : String} {i : FunctionId} {args : List Block} {g : F}
    {v : Variables} (hg : c.registry.resolve? i.plugin i.name = some g)
    (hv : bindArguments source c.vars args = .ok v) :
    startCall c source i args = .call i g (c.withVariables v) := by
  rw [startCall, hg, hv]

/-- A block is settled without a call, or it makes one call: in the same registry, with the variables
of the call. -/
theorem start_cases (c : Context F) (b : Block) :
    (∃ r, start c b = .settled r) ∨
    ∃ i g v, b.called? = some i ∧ c.registry.resolve? i.plugin i.name = some g ∧
      start c b = .call i g (c.withVariables v) := by
  match b with
  | .code source (.function i :: args) closed =>
      cases hg : c.registry.resolve? i.plugin i.name with
      | none => exact .inl ⟨.error (.functionNotFound i.raw), by rw [start, startCode, startCall, hg]⟩
      | some g =>
          cases hv : bindArguments source c.vars args with
          | error e => exact .inl ⟨.error e, by rw [start, startCode, startCall, hg, hv]⟩
          | ok v => exact .inr ⟨i, g, v, rfl, hg, startCall_eq hg hv⟩
  | .text _ | .literal _ | .variable _ | .argument _ | .function _ | .code _ (.literal _ :: _) _
  | .code _ (.variable _ :: _) _ => exact .inl ⟨.ok _, rfl⟩
  | .code _ [] _ | .code _ (.text _ :: _) _ | .code _ (.argument _ :: _) _
  | .code _ (.code .. :: _) _ => exact .inl ⟨.error _, rfl⟩

theorem renderBlock_text (call : Invoke σ F) (c : Context F) (s : String) :
    renderBlock call c (.text s) = pure s := rfl

theorem renderBlock_cases (c : Context F) (b : Block) :
    (∃ r, ∀ (τ : Type) (call : Invoke τ F), renderBlock call c b = .ofExcept r) ∨
    ∃ i g v, b.called? = some i ∧ c.registry.resolve? i.plugin i.name = some g ∧
      ∀ (τ : Type) (call : Invoke τ F), renderBlock call c b =
        Context.result <$> (call g (c.withVariables v) {}).mapError (.functionFailed i.raw) := by
  rcases start_cases c b with ⟨r, hr⟩ | ⟨i, g, v, hi, hg, hmade⟩
  · exact .inl ⟨r, fun τ call => by rw [renderBlock, hr]; rfl⟩
  · exact .inr ⟨i, g, v, hi, hg, fun τ call => by rw [renderBlock, hmade]; rfl⟩

theorem renderBlock_congr {call call' : Invoke σ F} {c : Context F} {b : Block}
    (h : ∀ i, b.called? = some i → ∀ g, c.registry.resolve? i.plugin i.name = some g →
      ∀ c', c'.registry = c.registry → call g c' {} = call' g c' {}) :
    renderBlock call c b = renderBlock call' c b := by
  rcases renderBlock_cases c b with ⟨r, hr⟩ | ⟨i, g, v, hi, hg, hmade⟩
  · rw [hr, hr]
  · rw [hmade, hmade, h i hi g hg (c.withVariables v) rfl]

theorem renderBlocks_congr {call call' : Invoke σ F} {c : Context F} {bs : List Block}
    (h : ∀ b ∈ bs, ∀ i, b.called? = some i → ∀ g, c.registry.resolve? i.plugin i.name = some g →
      ∀ c', c'.registry = c.registry → call g c' {} = call' g c' {}) :
    renderBlocks call c bs = renderBlocks call' c bs := by
  induction bs with
  | nil => rfl
  | cons b bs ih =>
      obtain ⟨hb, hbs⟩ := List.forall_mem_cons.1 h
      rw [renderBlocks, renderBlocks, renderBlock_congr hb, ih hbs]

end Template

theorem Prompt.invoke_eq {σ F : Type} [Described F] (p : Prompt σ) (call : Invoke σ F) (c : Context F)
    (settings : Settings) :
    p.invoke call c settings = do
      let prompt ← (Template.renderBlocks call
          (c.withVariables (fillDefaults p.signature.parameters c.vars)) p.blocks).mapError fun e =>
        .invocationFailed p.signature.qualifiedName e.message
      let answer ← p.complete prompt (if settings.isDefault then p.settings else settings)
      return c.withVariables ((fillDefaults p.signature.parameters c.vars).setInput answer) := by
  rw [invoke, Template.renderBlocksWithin_eq]
  rfl

namespace Plan

variable {σ F : Type} [Described F]

mutual

def callees : Plan F → List F
  | ⟨_, _, _, _, _, _, _, _, _, _, some f⟩ => [f]
  | ⟨_, _, _, _, _, _, _, steps, _, _, none⟩ => calleesAll steps

def calleesAll : List (Plan F) → List F
  | [] => []
  | step :: rest => callees step ++ calleesAll rest

end

omit [Described F] in
theorem callees_subset {step : Plan F} {steps : List (Plan F)} (h : step ∈ steps) :
    step.callees ⊆ calleesAll steps := by
  induction h with
  | head => exact List.subset_append_left _ _
  | tail _ _ ih => exact List.Subset.trans ih (List.subset_append_right _ _)

mutual

theorem invoke_congr {call call' : Invoke σ F} {r : Registry F} {s : Settings} :
    ∀ (p : Plan F) (c : Context F), c.registry = r →
      (∀ f ∈ p.callees, ∀ c, c.registry = r → call f c s = call' f c s) →
      p.invoke call c s = p.invoke call' c s
  | ⟨_, _, _, _, _, _, state, _, _, _, some f⟩, c, hc, h =>
      h f (List.mem_singleton_self f) (c.withVariables (c.vars.setAllMissing state.entries)) hc
  | ⟨_, _, _, _, _, _, _, steps, _, nextStep, none⟩, c, hc, h =>
      invokeSteps_congr steps _ nextStep c hc h
termination_by structural p => p

theorem invokeSteps_congr {call call' : Invoke σ F} {r : Registry F} {s : Settings} :
    ∀ (steps : List (Plan F)) (p : Plan F) (skip : Nat) (c : Context F), c.registry = r →
      (∀ f ∈ calleesAll steps, ∀ c, c.registry = r → call f c s = call' f c s) →
      invokeSteps call p skip steps c s = invokeSteps call' p skip steps c s
  | [], _, _, _, _, _ => rfl
  | _ :: rest, p, skip + 1, c, hc, h =>
      invokeSteps_congr rest p skip c hc (List.forall_mem_append.1 h).2
  | step :: rest, p, 0, c, hc, h => by
      obtain ⟨hstep, hrest⟩ := List.forall_mem_append.1 h
      rw [invokeSteps, invokeSteps, invoke_congr step (p.stepContext c step) hc hstep]
      congr 1
      funext out
      exact invokeSteps_congr rest _ 0 _ hc hrest
termination_by structural steps => steps

end

theorem run_congr {call call' : Invoke σ F} {p : Plan F} {c : Context F} {s : Settings}
    (h : ∀ f ∈ calleesAll p.steps, ∀ c', c'.registry = c.registry → call f c' s = call' f c' s) :
    p.run call c s = p.run call' c s := by
  unfold run
  cases hstep : p.steps[p.nextStep]? with
  | none => rfl
  | some step =>
      have hsub := callees_subset (List.mem_of_getElem? hstep)
      dsimp only
      rw [invoke_congr step (p.stepContext c step) rfl fun f hf => h f (hsub hf)]

theorem yields_invokeSteps (call : Invoke σ F) (s : Settings) (steps : List (Plan F)) (p : Plan F)
    (skip : Nat) (c : Context F) :
    (invokeSteps call p skip steps c s).Yields fun out => out.registry = c.registry := by
  induction steps generalizing p skip c with
  | nil => exact .pure rfl
  | cons step rest ih =>
      cases skip with
      | zero => exact .bind fun out => ih (p.advance step out.vars) 0 _
      | succ skip => exact ih p skip c

theorem yields_invoke {call : Invoke σ F} {s : Settings}
    (h : ∀ f c, (call f c s).Yields fun out => out.registry = c.registry) (p : Plan F)
    (c : Context F) : (p.invoke call c s).Yields fun out => out.registry = c.registry := by
  obtain ⟨name, plugin, description, parameters, content, answer, state, steps, outputs, nextStep, f⟩ := p
  cases f with
  | some f => exact h f (c.withVariables (c.vars.setAllMissing state.entries))
  | none => exact yields_invokeSteps call s steps _ nextStep c

end Plan

namespace Function

variable {σ : Type}

theorem yields_invoke (depth : Nat) (f : Function σ) (c : Context (Function σ)) (s : Settings) :
    (invoke depth f c s).Yields fun out => out.registry = c.registry := by
  induction depth generalizing f c s with
  | zero => rintro w a w' ⟨⟩
  | succ depth ih =>
      cases f with
      | native signature handler => exact .bind fun out => .pure rfl
      | prompt p => exact .bind fun prompt => .bind fun answer => .pure rfl
      | plan signature p => exact Plan.yields_invoke (fun f c => ih f c s) p c

def reachBy (call : Invoke σ (Function σ)) (c : Context (Function σ)) : Reach σ :=
  fun plugin name scope s => do
    let f ← .ofExcept (c.registry.get? plugin name)
    let out ← call f { c with vars := scope.vars, locale := scope.locale } s
    return ⟨out.vars, out.locale⟩

/-- What a call does, with `call` for the calls within it and `through` around completions. -/
def callWith (through : Completion σ → Completion σ) (call : Invoke σ (Function σ)) :
    Invoke σ (Function σ)
  | .native _ handler, c, s => do
      let out ← handler (reachBy call c) ⟨c.vars, c.locale⟩ s
      return { c with vars := out.vars, locale := out.locale }
  | .prompt p, c, s => Prompt.invoke { p with complete := through p.complete } call c s
  | .plan _ p, c, s => p.invoke call c s

theorem invoke_succ (depth : Nat) : @invoke σ (depth + 1) = callWith id (invoke depth) := by
  funext f c s
  cases f <;> rfl

/-- The functions that a function can call. A native function reaches whatever is registered. -/
inductive Calls (r : Registry (Function σ)) : Function σ → Function σ → Prop
  | registered {signature : Signature} {handler : Reach σ → Scope → Settings → Run σ CallError Scope}
      {g : Function σ} (h : g ∈ r.functions) : Calls r (.native signature handler) g
  | template {p : Prompt σ} {b : Template.Block} {i : Template.FunctionId} {g : Function σ}
      (hb : b ∈ p.blocks) (hi : b.called? = some i) (h : r.resolve? i.plugin i.name = some g) :
      Calls r (.prompt p) g
  | leaf {signature : Signature} {p : Plan (Function σ)} {g : Function σ} (h : g ∈ p.callees) :
      Calls r (.plan signature p) g

abbrev Underneath (r : Registry (Function σ)) : Function σ → Function σ → Prop :=
  Relation.ReflTransGen (Calls r)

/-- What holds of a function, and from each function of those that it can call, holds of all
underneath it. -/
theorem Underneath.of_closed {r : Registry (Function σ)} {P : Function σ → Prop} {f g : Function σ}
    (h : Underneath r f g) (hf : P f) (hclosed : ∀ g k, P g → Calls r g k → P k) : P g := by
  induction h with
  | refl => exact hf
  | tail _ hcalls ih => exact hclosed _ _ ih hcalls

theorem reachBy_congr {call call' : Invoke σ (Function σ)} {c : Context (Function σ)} {s : Settings}
    (h : ∀ g ∈ c.registry.functions, ∀ c', c'.registry = c.registry → call g c' s = call' g c' s)
    (plugin : Option String) (name : String) (scope : Scope) :
    reachBy call c plugin name scope s = reachBy call' c plugin name scope s := by
  unfold reachBy Registry.get?
  cases hg : c.registry.resolve? plugin name with
  | none => rfl
  | some g =>
      have hcall := h g (List.mem_of_find?_eq_some hg)
        { c with vars := scope.vars, locale := scope.locale } rfl
      change (call g _ s >>= _) = (call' g _ s >>= _)
      rw [hcall]

end Function

end Orchestra
