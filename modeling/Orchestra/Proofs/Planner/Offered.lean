import Orchestra.Planner.Basic
import Orchestra.Proofs.Plan.Appending
import Orchestra.Proofs.Plan.LoneStep
import Orchestra.Proofs.Prompt.Dependence
import Orchestra.Proofs.Registration
import Orchestra.Proofs.Xml.Names

namespace Orchestra

open Text

variable {σ F : Type} [Described F]

namespace Plan

theorem local_of_document? {text : String} {root : Xml.Element} (h : document? text = .ok root) :
    root.Local := by
  obtain ⟨_, -, hparse⟩ := exists_source h
  exact Xml.local_of_parse? hparse

theorem local_of_mem_planChildren {root e : Xml.Element} (h : root.Local)
    (he : e ∈ planChildren root) : Xml.Local e.name := by
  obtain ⟨plan, hplan, hchild⟩ := List.mem_flatMap.1 he
  exact h e (Xml.Element.child_mem_preorder hchild root (List.mem_filter.1 hplan).1)

theorem exists_qualified {e : Xml.Element} {names : String × String}
    (h : elementFunction? e = some names) :
    ∃ qualified, e.name = "function." ++ qualified ∧ callName qualified = names := by
  obtain ⟨name, attributes, children⟩ := e
  have hlead : "function.".toList <+: name.toList := by
    rw [elementFunction?] at h
    split at h
    · rename_i hprefix
      exact List.isPrefixOf_iff_prefix.1 hprefix
    · cases h
  obtain ⟨rest, hrest⟩ := hlead
  obtain rfl : name = "function." ++ String.ofList rest := by
    rw [← String.toList_inj, String.toList_append, String.toList_ofList (l := rest), hrest]
  rw [elementFunction?_function] at h
  exact ⟨String.ofList rest, rfl, Option.some.inj h⟩

def Nameable (r : Registry F) (f : F) : Prop :=
  ∃ qualified, Xml.Local qualified ∧
    r.resolve? (some (callName qualified).1) (callName qualified).2 = some f

theorem nameable_of_element {r : Registry F} {e : Xml.Element} {f : F} (he : Xml.Local e.name)
    (hf : functionOf? r e = some f) : Nameable r f := by
  obtain ⟨names, hnames, hresolve⟩ := Option.bind_eq_some_iff.1 hf
  obtain ⟨qualified, hname, rfl⟩ := exists_qualified hnames
  refine ⟨qualified, fun c hc => he c ?_, hresolve⟩
  rw [hname, String.toList_append]
  exact List.mem_append_right _ hc

/-- A leaf whose function the planner may use. -/
def Offered (config : PlannerConfig) (step : Plan F) : Prop :=
  ∃ f, step.function = some f ∧ config.offers (Described.signature f) = true

theorem offered_iff {config : PlannerConfig} {step : Plan F} {f : F} (h : step.function = some f) :
    Offered config step ↔ config.offers (Described.signature f) = true := by
  constructor
  · rintro ⟨g, hg, hoffers⟩
    obtain rfl : f = g := Option.some.inj (h.symm.trans hg)
    exact hoffers
  · exact fun hoffers => ⟨f, h, hoffers⟩

theorem mem_stepElements_iff {r : Registry F} {es : List Xml.Element} {x : F × Xml.Element} :
    x ∈ stepElements r es ↔ x.2 ∈ es ∧ functionOf? r x.2 = some x.1 := by
  obtain ⟨f, e⟩ := x
  simp [stepElements, List.mem_filterMap, Option.map_eq_some_iff]

end Plan

namespace Planner

open Plan

def answering (planner : Planner σ) (complete : Completion σ) : Planner σ :=
  { planner with prompt := { planner.prompt with complete } }

theorem make?_eq_ok {config : PlannerConfig} {complete : Completion σ} {planner : Planner σ}
    (h : make? config complete = .ok planner) :
    planner.config = config ∧
      Template.extract (config.promptTemplate.getD defaultPrompt) true =
        .ok planner.prompt.blocks := by
  rw [make?, Template.bind_pure_eq_map] at h
  obtain ⟨prompt, hprompt, rfl⟩ := Template.exists_of_map_eq_ok h
  cases hmade : Prompt.make? plannerPlugin "create_plan" (config.promptTemplate.getD defaultPrompt)
      { description := "Turn a goal into a step by step plan of available functions"
        completion := { maxTokens := some config.maxTokens } } complete {} with
  | error e =>
      rw [hmade] at hprompt
      cases hprompt
  | ok p =>
      rw [hmade] at hprompt
      cases hprompt
      exact ⟨rfl, (Prompt.make?_eq_ok hmade).1⟩

def planningContext (config : PlannerConfig) (r : Registry F) (goal : String) : Context F :=
  ⟨(Variables.withInput (trim goal)).set manualName (manual config r), r, defaultLocale⟩

def planOf (config : PlannerConfig) (r : Registry F) (name goal answer : String) :
    Except PlanError (Plan F) :=
  match (forGoal name (trim goal)).addMarkup? r config.missingFunctions answer with
  | .error e => .error e
  | .ok q =>
      if q.steps.isEmpty then .error (.emptyPlan (trim goal)) else .ok { q with content := answer }

section Created

variable {planner : Planner σ} {call : Invoke σ F} {r : Registry F} {name goal : String}
  {settings : Settings} {w w' : σ} {plan : Plan F}

/-- A plan is created from the answer alone, once there is one. -/
theorem exec_createPlan (hgoal : trim goal ≠ "") :
    Run.exec (planner.createPlan call r name goal settings) w =
      match Run.exec (Context.result <$>
        planner.prompt.invoke call (planningContext planner.config r goal) settings) w with
      | (.ok answer, w') => (planOf planner.config r name goal answer, w')
      | (.error e, w') => (.error (.planningFailed e.message), w') := by
  rw [createPlan, if_neg hgoal, planningContext, Run.exec_map]
  dsimp only
  rw [Run.exec_bind, Run.exec_mapError]
  rcases Run.exec (planner.prompt.invoke call ⟨_, r, defaultLocale⟩ settings) w
    with ⟨e | out, w₁⟩
  · rfl
  · dsimp only [Except.mapError, Except.map]
    rw [Run.exec_bind, Run.exec_ofExcept, planOf]
    cases (forGoal name (trim goal)).addMarkup? r planner.config.missingFunctions out.result with
    | error e => rfl
    | ok q =>
        dsimp only
        split <;> rfl

theorem planOf_eq_ok {config : PlannerConfig} {answer : String} :
    planOf config r name goal answer = .ok plan ↔
      ∃ q, (forGoal name (trim goal)).addMarkup? r config.missingFunctions answer = .ok q ∧
        q.steps ≠ [] ∧ plan = { q with content := answer } := by
  rw [planOf]
  cases (forGoal name (trim goal)).addMarkup? r config.missingFunctions answer with
  | error e => exact ⟨nofun, fun ⟨_, h, _⟩ => nomatch h⟩
  | ok q =>
      cases hsteps : q.steps with
      | nil => simp [hsteps]
      | cons step steps => simp [hsteps, eq_comm]

theorem steps_of_createPlan
    (h : Run.exec (planner.createPlan call r name goal settings) w = (.ok plan, w')) :
    ∃ root, document? plan.content = .ok root ∧
      plan.steps = (stepElements r (planChildren root)).map fun x => (Draft.ofElement x.1 x.2).step := by
  by_cases hgoal : trim goal = ""
  · rw [createPlan, if_pos hgoal] at h
    cases h
  · rw [exec_createPlan hgoal] at h
    split at h
    · obtain ⟨hplan, -⟩ := Prod.mk.inj h
      obtain ⟨q, hq, -, rfl⟩ := planOf_eq_ok.1 hplan
      obtain ⟨root, hroot, rfl⟩ := addMarkup?_eq_ok hq
      exact ⟨root, hroot, List.nil_append _⟩
    · cases h

theorem offered_of_createPlan
    (h : Run.exec (planner.createPlan call r name goal settings) w = (.ok plan, w'))
    (config : PlannerConfig) :
    ∃ root, document? plan.content = .ok root ∧
      ((∀ step ∈ plan.steps, Offered config step) ↔
        ∀ e ∈ planChildren root, ∀ f, functionOf? r e = some f →
          config.offers (signature f) = true) := by
  obtain ⟨root, hroot, hsteps⟩ := steps_of_createPlan h
  refine ⟨root, hroot, ?_⟩
  rw [hsteps, List.forall_mem_map]
  constructor
  · intro hoffered e he f hf
    have hstep := hoffered (f, e) (mem_stepElements_iff.2 ⟨he, hf⟩)
    exact (offered_iff (leafFor_ofElement f e).function).1 hstep
  · rintro hoffers ⟨f, e⟩ hx
    obtain ⟨he, hf⟩ := mem_stepElements_iff.1 hx
    exact (offered_iff (leafFor_ofElement f e).function).2 (hoffers e he f hf)

theorem exec_createPlan_answering (hblocks : ∀ b ∈ planner.prompt.blocks, Template.Sound b)
    (hcall : ∀ b ∈ planner.prompt.blocks, b.called? = none) (hgoal : trim goal ≠ "")
    (answer : String) :
    Run.exec ((planner.answering fun _ _ => pure answer).createPlan call r name goal settings) w =
      (planOf planner.config r name goal answer, w) := by
  obtain ⟨ss, hss⟩ := Template.exists_plains hblocks hcall
    (Prompt.fillDefaults planner.prompt.signature.parameters
      (planningContext planner.config r goal).vars)
  have hresult : Context.result <$> (planner.answering fun _ _ => pure answer).prompt.invoke call
      (planningContext (planner.answering fun _ _ => pure answer).config r goal) settings =
        pure answer :=
    Prompt.result_invoke hss
  rw [exec_createPlan hgoal, hresult]
  rfl

end Created

/-- Whether the functions of a created plan are offered is up to the answer: they are just when the
answer names no other function. So a planner whose prompt calls nothing keeps to what it offers,
whatever it is answered, only if it offers every function that a plan can name at all. -/
theorem created_offered_iff {config : PlannerConfig} {made : Completion σ} {planner : Planner σ}
    (h : make? config made = .ok planner) (call : Invoke σ F) (r : Registry F) (w : σ) :
    (∀ name goal settings plan w',
      Run.exec (planner.createPlan call r name goal settings) w = (.ok plan, w') →
        ∃ root, document? plan.content = .ok root ∧
          ((∀ step ∈ plan.steps, Offered config step) ↔
            ∀ e ∈ planChildren root, ∀ f, functionOf? r e = some f →
              config.offers (signature f) = true)) ∧
    ((∀ b ∈ planner.prompt.blocks, b.called? = none) →
      ((∀ complete name goal settings plan w',
        Run.exec ((planner.answering complete).createPlan call r name goal settings) w =
            (.ok plan, w') →
          ∀ step ∈ plan.steps, Offered config step) ↔
        ∀ f ∈ r.functions, Nameable r f → config.offers (signature f) = true)) := by
  obtain ⟨rfl, hextract⟩ := make?_eq_ok h
  refine ⟨fun name goal settings plan w' hplan => offered_of_createPlan hplan _, fun hcall => ?_⟩
  constructor
  · -- An answer of one element would bring the function into the plan.
    rintro hsafe f - ⟨qualified, hlocal, hresolve⟩
    have hread : (forGoal "plan" (trim "goal")).addMarkup? r planner.config.missingFunctions
        (loneStep qualified) = .ok (forGoal "plan" (trim "goal") [ofFunction f]) := by
      rw [addMarkup?_loneStep (fun c hc => (hlocal c hc).1) (fun hc => (hlocal ':' hc).2 rfl),
        hresolve]
      rfl
    have hcreated := planOf_eq_ok.2 ⟨_, hread, List.cons_ne_nil _ _, rfl⟩
    have hexec : Run.exec ((planner.answering fun _ _ => pure (loneStep qualified)).createPlan call r
        "plan" "goal" {}) w = _ :=
      exec_createPlan_answering (Template.sound_of_extract hextract) hcall (by decide) _
    rw [hcreated] at hexec
    have hstep := hsafe _ _ _ _ _ _ hexec (ofFunction f) (List.mem_singleton_self _)
    exact (offered_iff rfl).1 hstep
  · intro hoffers complete name goal settings plan w' hplan
    obtain ⟨root, hroot, hsteps⟩ := offered_of_createPlan hplan planner.config
    refine hsteps.2 fun e he f hf => hoffers f ?_ ?_
    · obtain ⟨names, -, hresolve⟩ := Option.bind_eq_some_iff.1 hf
      exact (Registry.find?_eq_some_iff.1 hresolve).1
    · exact nameable_of_element (local_of_mem_planChildren (local_of_document? hroot) he) hf

def secretive : PlannerConfig :=
  { excludedPlugins := ["admin"], promptTemplate := some "Go" }

def secretPlanner (complete : Completion Unit) : Planner Unit where
  config := secretive
  prompt :=
    { signature :=
        { name := "create_plan", plugin := plannerPlugin
          description := "Turn a goal into a step by step plan of available functions" }
      blocks := [.text "Go"], settings := { maxTokens := some 1024 }, complete }

theorem make?_secretive (complete : Completion Unit) :
    make? secretive complete = .ok (secretPlanner complete) := by
  have hpieces : Template.Piece.ofTemplate "Go" = [.text "Go".toList] := rfl
  have hextract : Template.extract (secretive.promptTemplate.getD defaultPrompt) true =
      .ok [.text "Go"] := by
    change Template.extract "Go" true = _
    rw [Template.extract, Template.blocks?, hpieces]
    rfl
  rw [make?, Prompt.make?, hextract]
  rfl

def translate : Function Unit :=
  .ofText "writer" "translate" "" [] pure

def wipe : Function Unit :=
  .ofText "admin" "wipe" "" [] pure

def passOn : Invoke Unit (Function Unit) :=
  fun _ c _ => pure c

theorem created_offered_iff_unregistered :
    make? secretive (fun _ _ => pure "") = .ok (secretPlanner fun _ _ => pure "") ∧
      ∀ complete goal plan w',
        Run.exec (((secretPlanner fun _ _ => pure "").answering complete).createPlan passOn
            (Registry.empty.register translate) "plan" goal {}) () = (.ok plan, w') →
          ∀ step ∈ plan.steps, Offered secretive step := by
  refine ⟨make?_secretive _, fun complete goal plan w' hplan => ?_⟩
  obtain ⟨-, hsafe⟩ := created_offered_iff (make?_secretive fun _ _ => pure "") passOn
    (Registry.empty.register translate) ()
  have hoffers : ∀ f ∈ (Registry.empty.register translate).functions,
      Nameable (Registry.empty.register translate) f → secretive.offers (signature f) = true :=
    List.forall_mem_singleton.2 fun _ => by decide
  exact (hsafe (List.forall_mem_singleton.2 rfl)).2 hoffers complete "plan" goal {} plan w' hplan

def disobedient : String :=
  "<plan><function.writer.translate/><function.admin.wipe/></plan>"

theorem document?_disobedient :
    document? disobedient = .ok ⟨"xml", [], [⟨"plan", [],
      [⟨"function.writer.translate", [], []⟩, ⟨"function.admin.wipe", [], []⟩]⟩]⟩ :=
  document?_of_tokens? [.start ⟨"", "xml"⟩ [] false, .start ⟨"", "plan"⟩ [] false,
    .start ⟨"", "function.writer.translate"⟩ [] true, .start ⟨"", "function.admin.wipe"⟩ [] true,
    .stop ⟨"", "plan"⟩, .stop ⟨"", "xml"⟩] (by decide +kernel) rfl

/-- A function of the hidden plugin is not offered, and it is a step of the plan all the same. -/
theorem hidden_function_planned :
    make? secretive (fun _ _ => pure disobedient) = .ok (secretPlanner fun _ _ => pure disobedient) ∧
      secretive.offers (signature wipe) = false ∧
      ∃ plan, Run.exec ((secretPlanner fun _ _ => pure disobedient).createPlan passOn
          ((Registry.empty.register translate).register wipe) "plan" "goal" {}) () =
            (.ok plan, ()) ∧
        plan.steps.map Plan.function = [some translate, some wipe] := by
  have hread : (forGoal "plan" (trim "goal")).addMarkup?
      ((Registry.empty.register translate).register wipe) secretive.missingFunctions disobedient =
        .ok (forGoal "plan" (trim "goal") [ofFunction translate, ofFunction wipe]) := by
    rw [addMarkup?_of_document? document?_disobedient]
    rfl
  have hcreated := planOf_eq_ok.2 ⟨_, hread, List.cons_ne_nil _ _, rfl⟩
  have hblocks : ∀ b ∈ (secretPlanner fun _ _ => pure disobedient).prompt.blocks,
      Template.Sound b :=
    List.forall_mem_singleton.2 (.text "Go")
  have hcall : ∀ b ∈ (secretPlanner fun _ _ => pure disobedient).prompt.blocks,
      b.called? = none :=
    List.forall_mem_singleton.2 rfl
  have hexec : Run.exec (((secretPlanner fun _ _ => pure disobedient).answering
      fun _ _ => pure disobedient).createPlan passOn
        ((Registry.empty.register translate).register wipe) "plan" "goal" {}) () = _ :=
    exec_createPlan_answering hblocks hcall (by decide) _
  exact ⟨make?_secretive _, by decide, _, hexec.trans (congrArg (·, ()) hcreated), rfl⟩

end Planner

end Orchestra
