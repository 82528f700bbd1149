import Orchestra.Proofs.Calls
import Orchestra.Proofs.Template.Concatenation

namespace Orchestra

namespace Function

variable {σ : Type}

/-- A native function that hands on the settings it is given: other functions matter to it only as
they behave under these. -/
def PassesOn : Function σ → Prop
  | .native _ handler => ∀ (reach reach' : Reach σ) (scope : Scope) (s : Settings),
      (∀ plugin name scope', reach plugin name scope' s = reach' plugin name scope' s) →
        handler reach scope s = handler reach' scope s
  | .prompt _ | .plan .. => True

/-- An interpreter that does what a call does when the settings are in `T`, and what a completion
does when they are in `C`. What it does under other settings is left open. Calls that come out alike
under every such interpreter are calls within which no other settings are given. -/
structure BoundOn (T C : Settings → Prop) (through : Completion σ → Completion σ)
    (call : Nat → Invoke σ (Function σ)) : Prop where
  complete : ∀ complete prompt s, C s → through complete prompt s = complete prompt s
  zero : ∀ f c s, T s → call 0 f c s = invoke 0 f c s
  succ : ∀ depth f c s, T s → call (depth + 1) f c s = callWith through (call depth) f c s

/-- Called with settings in `T`, the function completes prompts with settings in `C`, and its
template calls nothing unless no settings are in `T` too. -/
def Leads (T C : Settings → Prop) : Function σ → Prop
  | .prompt p => (∀ s, T s → C (if s.isDefault then p.settings else s)) ∧
      ((∃ b ∈ p.blocks, ∃ i, b.called? = some i) → T {})
  | .native .. | .plan .. => True

def Sound (T C : Settings → Prop) (r : Registry (Function σ)) (f : Function σ) : Prop :=
  ∀ g, Underneath r f g → g.PassesOn ∧ g.Leads T C

variable {T C : Settings → Prop} {through : Completion σ → Completion σ}
  {call : Nat → Invoke σ (Function σ)} {r : Registry (Function σ)}

theorem Sound.of_calls {f g : Function σ} (h : Sound T C r f) (hg : Calls r f g) : Sound T C r g :=
  fun k hk => h k (hk.head hg)

theorem BoundOn.invoke_eq (h : BoundOn T C through call) (depth : Nat) (f : Function σ)
    (c : Context (Function σ)) (s : Settings) (hs : T s) (hf : Sound T C c.registry f) :
    invoke depth f c s = call depth f c s := by
  induction depth generalizing f c s with
  | zero => exact (h.zero f c s hs).symm
  | succ depth ih =>
      rw [h.succ depth f c s hs, invoke_succ]
      -- A call within the call has settings of `T` again, in the same registry.
      have hcalls {g : Function σ} (hg : Calls c.registry f g) {t : Settings} (ht : T t)
          (c' : Context (Function σ)) (hc : c'.registry = c.registry) :
          invoke depth g c' t = call depth g c' t :=
        ih g c' t ht (hc ▸ hf.of_calls hg)
      obtain ⟨hpasses, hleads⟩ := hf f .refl
      cases f with
      | native signature handler =>
          have hreach := hpasses (reachBy (invoke depth) c) (reachBy (call depth) c)
            ⟨c.vars, c.locale⟩ s (reachBy_congr fun g hg c' hc => hcalls (.registered hg) hs c' hc)
          rw [callWith, hreach, callWith]
      | prompt p =>
          obtain ⟨hcomplete, hempty⟩ := hleads
          have hrender (v : Variables) :
              Template.renderBlocks (invoke depth) (c.withVariables v) p.blocks =
                Template.renderBlocks (call depth) (c.withVariables v) p.blocks :=
            Template.renderBlocks_congr fun b hb i hi g hg c' hc =>
              hcalls (.template hb hi hg) (hempty ⟨b, hb, i, hi⟩) c' hc
          have hanswer (prompt : String) :
              through p.complete prompt (if s.isDefault then p.settings else s) =
                p.complete prompt (if s.isDefault then p.settings else s) :=
            h.complete p.complete prompt _ (hcomplete s hs)
          simp only [callWith, Prompt.invoke_eq, hrender, hanswer, id]
      | plan signature p =>
          exact Plan.invoke_congr p c rfl fun g hg c' hc => hcalls (.leaf hg) hs c' hc

theorem BoundOn.runPipeline_eq (h : BoundOn T C through call) (depth : Nat) (fs : List (Function σ))
    (c : Context (Function σ)) (s : Settings) (hs : T s)
    (hf : ∀ f ∈ fs, Sound T C c.registry f) :
    runPipeline (invoke depth) s fs c = runPipeline (call depth) s fs c := by
  induction fs generalizing c with
  | nil => rfl
  | cons f fs ih =>
      obtain ⟨hfirst, hrest⟩ := List.forall_mem_cons.1 hf
      rw [runPipeline, runPipeline, ← h.invoke_eq depth f c s hs hfirst]
      exact (yields_invoke depth f c s).bind_congr fun out hout =>
        ih out fun g hg => hout ▸ hrest g hg

/-- No code of the template calls a function. -/
def Callless : Function σ → Prop
  | .prompt p => ∀ b ∈ p.blocks, b.called? = none
  | .native .. | .plan .. => True

/-- All native functions underneath hand settings on, and no template underneath calls. -/
def Conveys (r : Registry (Function σ)) (f : Function σ) : Prop :=
  ∀ g, Underneath r f g → g.PassesOn ∧ g.Callless

theorem Conveys.sound {s : Settings} (hs : s.isDefault = false) {f : Function σ}
    (h : f.Conveys r) : Sound (· = s) (· = s) r f := by
  intro g hg
  obtain ⟨hpasses, hcallless⟩ := h g hg
  refine ⟨hpasses, ?_⟩
  cases g with
  | native | plan => trivial
  | prompt p =>
      refine ⟨?_, ?_⟩
      · rintro t rfl
        simp [hs]
      · rintro ⟨b, hb, i, hi⟩
        rw [hcallless b hb] at hi
        cases hi

end Function

namespace Prompt

variable {σ F : Type} [Described F]

theorem invoke_congr {call call' : Invoke σ F} (p : Prompt σ)
    (h : ∀ f c, call f c {} = call' f c {}) (c : Context F) (s : Settings) :
    p.invoke call c s = p.invoke call' c s := by
  have hrender (v : Variables) : Template.renderBlocks call (c.withVariables v) p.blocks =
      Template.renderBlocks call' (c.withVariables v) p.blocks :=
    Template.renderBlocks_congr fun _ _ _ _ g _ c' _ => h g c'
  simp only [invoke_eq, hrender]

theorem depends_at_iff_independent {s : Settings} (hs : s.isDefault = false) (p : Prompt σ) :
    (∀ call call' : Invoke σ F, (∀ f c, call f c s = call' f c s) →
        ∀ c, p.invoke call c s = p.invoke call' c s) ↔
      ∀ (call call' : Invoke σ F) c, p.invoke call c s = p.invoke call' c s := by
  classical
  constructor
  · intro h call call' c
    let mixed : Invoke σ F := fun f c t => if t = s then call f c t else call' f c t
    have hempty : ({} : Settings) ≠ s := by
      rintro rfl
      cases hs
    calc p.invoke call c s
        = p.invoke mixed c s := h call mixed (fun f c => by simp [mixed]) c
      _ = p.invoke call' c s := p.invoke_congr (fun f c => by simp [mixed, hempty]) c s
  · intro h call call' _ c
    exact h call call' c

end Prompt

namespace Function

variable {σ : Type}

/-- The settings `s` of a call are all that is given underneath it: an interpreter that is bound on
`s` alone cannot be told from the true one, whether functions are called in a row, by a plan that
runs one step or all its steps, or as a prompt. This needs templates that call nothing, since a
prompt gives `s` to the functions of its template only where it hangs on none of them. It rests on
native functions that reach others through the registry of their context alone and leave that
registry as it is; the bound on the depth of calls is that of `invoke` and can be any. -/
theorem settings_reach_every_call {s : Settings} (hs : s.isDefault = false)
    {through : Completion σ → Completion σ} {call : Nat → Invoke σ (Function σ)}
    (h : BoundOn (· = s) (· = s) through call) (depth : Nat) (c : Context (Function σ)) :
    (∀ fs : List (Function σ), (∀ f ∈ fs, f.Conveys c.registry) →
        runPipeline (invoke depth) s fs c = runPipeline (call depth) s fs c) ∧
      (∀ p : Plan (Function σ), (∀ f ∈ Plan.calleesAll p.steps, f.Conveys c.registry) →
        p.run (invoke depth) c s = p.run (call depth) c s) ∧
      (∀ p : Plan (Function σ), (∀ f ∈ p.callees, f.Conveys c.registry) →
        p.invoke (invoke depth) c s = p.invoke (call depth) c s) ∧
      (∀ p : Prompt σ, Conveys c.registry (.prompt p) →
        p.invoke (invoke depth) c s =
          Prompt.invoke { p with complete := through p.complete } (call depth) c s) ∧
      ∀ p : Prompt σ,
        (∀ call call' : Invoke σ (Function σ), (∀ f c, call f c s = call' f c s) →
            ∀ c, p.invoke call c s = p.invoke call' c s) ↔
          ∀ (call call' : Invoke σ (Function σ)) c, p.invoke call c s = p.invoke call' c s := by
  have hcall {f : Function σ} (hf : f.Conveys c.registry) (c' : Context (Function σ))
      (hc : c'.registry = c.registry) : invoke depth f c' s = call depth f c' s :=
    h.invoke_eq depth f c' s rfl (hc ▸ hf.sound hs)
  refine ⟨fun fs hfs => ?_, fun p hp => ?_, fun p hp => ?_, fun p hp => ?_, ?_⟩
  · exact h.runPipeline_eq depth fs c s rfl fun f hf => (hfs f hf).sound hs
  · exact Plan.run_congr fun f hf => hcall (hp f hf)
  · exact Plan.invoke_congr p c rfl fun f hf => hcall (hp f hf)
  · have hprompt := h.invoke_eq (depth + 1) (.prompt p) c s rfl (hp.sound hs)
    rwa [h.succ depth _ c s rfl] at hprompt
  · exact Prompt.depends_at_iff_independent hs

def strictly (complete : Completion σ) : Completion σ := fun prompt s =>
  if s.isDefault then throw (.internal "no settings") else complete prompt s

def strict : Nat → Invoke σ (Function σ)
  | 0, f, c, s => invoke 0 f c s
  | depth + 1, f, c, s =>
      if s.isDefault then throw (.internal "no settings")
      else callWith strictly (strict depth) f c s

theorem boundOn_strict {s : Settings} (hs : s.isDefault = false) :
    BoundOn (σ := σ) (· = s) (· = s) strictly strict where
  complete := by
    rintro complete prompt t rfl
    simp [strictly, hs]
  zero _ _ _ _ := rfl
  succ := by
    rintro depth f c t rfl
    simp [strict, hs]

def eight : Settings := { maxTokens := some 8 }

def note : Function (List Settings) :=
  .native { name := "note", plugin := "text", description := "" } fun _ scope s => do
    modify (· ++ [s])
    return scope

def relay : Function (List Settings) :=
  .native { name := "relay", plugin := "text", description := "" } fun reach scope s =>
    reach (some "text") "note" scope s

def asking (blocks : List Template.Block) : Prompt (List Settings) where
  signature := { name := "ask", plugin := "writer", description := "" }
  blocks := blocks
  settings := {}
  complete prompt s := do
    modify (· ++ [s])
    return prompt

def noted : Context (Function (List Settings)) where
  vars := .empty
  registry := (Registry.empty.register note).register relay

def nested : Plan (Function (List Settings)) :=
  .forGoal "outer" "" [.ofFunction relay,
    .forGoal "inner" "" [.ofFunction (.prompt (asking [.text "hi"]))]]

theorem conveys_nested : (ofPlan nested).Conveys noted.registry := by
  intro g hg
  have hmem : g ∈ [ofPlan nested, relay, note, .prompt (asking [.text "hi"])] := by
    apply hg.of_closed (List.mem_cons_self ..)
    intro g k hg hcalls
    cases hcalls with
    | registered h =>
        rcases List.mem_cons.1 h with rfl | h
        · simp
        · obtain rfl := List.mem_singleton.1 (List.mem_filter.1 h).1
          simp
    | @template p b i k hb hi h =>
        obtain rfl : p = asking [.text "hi"] := by simpa [ofPlan, relay, note] using hg
        obtain rfl := List.mem_singleton.1 hb
        cases hi
    | @leaf signature p k h =>
        obtain ⟨-, rfl⟩ : signature = nested.signature ∧ p = nested := by
          simpa [ofPlan, relay, note] using hg
        have hk : k = relay ∨ k = .prompt (asking [.text "hi"]) := by
          simpa [nested, Plan.forGoal, Plan.ofFunction, Plan.callees, Plan.calleesAll] using h
        rcases hk with rfl | rfl <;> simp
  simp only [List.mem_cons, List.not_mem_nil, or_false] at hmem
  rcases hmem with rfl | rfl | rfl | rfl
  · exact ⟨trivial, trivial⟩
  · exact ⟨fun reach reach' scope s h => h _ _ _, trivial⟩
  · exact ⟨fun reach reach' scope s h => rfl, trivial⟩
  · exact ⟨trivial, by simp [Callless, asking, Template.Block.called?]⟩

theorem settings_reach_every_call_nested :
    eight.isDefault = false ∧ BoundOn (σ := List Settings) (· = eight) (· = eight) strictly strict ∧
      (ofPlan nested).Conveys noted.registry ∧
      runPipeline (invoke 3) eight [ofPlan nested, ofPlan nested] noted =
        runPipeline (strict 3) eight [ofPlan nested, ofPlan nested] noted ∧
      (Run.exec (runPipeline (invoke 3) eight [ofPlan nested, ofPlan nested] noted) []).2.map
        Settings.maxTokens = [some 8, some 8, some 8, some 8] := by
  have hs : eight.isDefault = false := rfl
  have hrow : ∀ f ∈ [ofPlan nested, ofPlan nested], f.Conveys noted.registry := by
    simpa using conveys_nested
  have hreach := settings_reach_every_call hs (boundOn_strict hs) 3 noted
  exact ⟨hs, boundOn_strict hs, conveys_nested, hreach.1 _ hrow, by decide +kernel⟩

def calling : Prompt (List Settings) :=
  asking [.code "text.note" [.function ⟨some "text", "note"⟩] true]

/-- A function that is called from a template is given no settings, whatever the prompt was given. -/
theorem settings_lost_in_template :
    eight.isDefault = false ∧ note.PassesOn ∧
      Template.extract "{{text.note}}" true = .ok calling.blocks ∧
      (Run.exec (calling.invoke (invoke 1) noted eight) []).2.map Settings.maxTokens =
        [none, some 8] ∧
      calling.invoke (invoke 1) noted eight ≠
        Prompt.invoke { calling with complete := strictly calling.complete } (strict 1) noted eight := by
  refine ⟨rfl, fun reach reach' scope s h => rfl, ?_, by decide +kernel, ?_⟩
  · have hpieces : Template.Piece.ofTemplate "{{text.note}}" =
        [.text [], .code "text.note".toList true, .text []] := rfl
    have hcode : Template.Block.codeOfText? (String.ofList "text.note".toList) true =
        .ok (.code "text.note" [.function ⟨some "text", "note"⟩] true) :=
      Template.codeOfText?_word 't' "ext.note".toList rfl (by decide) rfl rfl true
    rw [Template.extract, Template.blocks?, hpieces, Template.blocksOf?, Template.blocksOf?,
      if_neg (by decide), hcode]
    rfl
  · intro h
    have hlog := congrArg (fun x => (Run.exec x []).2.map Settings.maxTokens) h
    revert hlog
    decide +kernel

end Function

end Orchestra
