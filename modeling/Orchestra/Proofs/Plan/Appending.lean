import Orchestra.Proofs.Plan.Held
import Orchestra.Proofs.Plan.Markup
import Orchestra.Proofs.Variables.Lookup

namespace Orchestra

open Text

def Xml.Element.arguments (e : Xml.Element) : List (String × String) :=
  e.attributes.filter fun a => a.1 ≠ "setContextVariable" ∧ a.1 ≠ "appendToResult"

namespace Plan

variable {σ F : Type}

theorem step_addAttribute (d : Draft F) (a : String × String) :
    (d.addAttribute a).step =
      { d.step with
        parameters := d.step.parameters.setAll
          (if a.1 ≠ "setContextVariable" ∧ a.1 ≠ "appendToResult" then [a] else [])
        outputs := (d.addAttribute a).step.outputs } := by
  unfold Draft.addAttribute
  by_cases hkept : a.1 = "setContextVariable"
  · simp [hkept, Variables.setAll]
  · by_cases happended : a.1 = "appendToResult" <;> simp [hkept, happended, Variables.setAll]

theorem step_foldl_addAttribute (as : List (String × String)) (d : Draft F) :
    (as.foldl Draft.addAttribute d).step =
      { d.step with
        parameters := d.step.parameters.setAll
          (as.filter fun a => a.1 ≠ "setContextVariable" ∧ a.1 ≠ "appendToResult")
        outputs := (as.foldl Draft.addAttribute d).step.outputs } := by
  induction as generalizing d with
  | nil =>
      obtain ⟨step, outputs⟩ := d
      cases step
      rfl
  | cons a as ih =>
      rw [List.foldl_cons, ih, step_addAttribute]
      by_cases ha : a.1 ≠ "setContextVariable" ∧ a.1 ≠ "appendToResult" <;>
        simp [ha, Variables.setAll]

variable [Described F]

theorem step_ofElement (f : F) (e : Xml.Element) :
    (Draft.ofElement f e).step =
      { ofFunction f with
        parameters := (defaultsOf (Described.signature f).parameters).setAll e.arguments
        outputs := (Draft.ofElement f e).step.outputs } :=
  step_foldl_addAttribute e.attributes ⟨ofFunction f, []⟩

/-- A leaf as an element describes it: the function with nothing run yet. A parameter has the last
value that the element gives under its name, or else the default that the function declares. -/
structure LeafFor (f : F) (e : Xml.Element) (step : Plan F) : Prop where
  function : step.function = some f
  steps : step.steps = []
  state : step.state = .empty
  nextStep : step.nextStep = 0
  outputs : ∀ name ∈ e.appended, name ∈ step.outputs
  parameters : ∀ name, step.parameters.get? name =
    ((e.arguments.reverse.find? fun a => SameName a.1 name).map Prod.snd).or
      ((defaultsOf (Described.signature f).parameters).get? name)

theorem leafFor_ofElement (f : F) (e : Xml.Element) : LeafFor f e (Draft.ofElement f e).step where
  function := by rw [step_ofElement]; rfl
  steps := by rw [step_ofElement]; rfl
  state := by rw [step_ofElement]; rfl
  nextStep := by rw [step_ofElement]; rfl
  outputs name h := (mem_step_outputs_iff f e name).2 (.inr h)
  parameters name := by
    rw [step_ofElement]
    exact Variables.get?_setAll _ e.arguments name

def gather (r : Registry F) (missing : MissingFunctions) :
    List Xml.Element → List (Plan F) → List String → Except PlanError (List (Plan F) × List String)
  | [], steps, outputs => .ok (steps, outputs)
  | e :: rest, steps, outputs =>
      match elementFunction? e with
      | none => gather r missing rest steps outputs
      | some (plugin, name) =>
          match r.resolve? (some plugin) name, missing with
          | some f, _ =>
              let d := Draft.ofElement f e
              gather r missing rest (steps ++ [d.step]) (outputs ++ d.outputs)
          | none, .skip => gather r missing rest steps outputs
          | none, .fail => .error (.functionNotFound plugin name)

theorem gather_eq (r : Registry F) (missing : MissingFunctions) (es : List Xml.Element)
    (steps : List (Plan F)) (outputs : List String) :
    gather r missing es steps outputs =
      (drafts? r missing es).map fun ds =>
        (steps ++ ds.map Draft.step, outputs ++ ds.flatMap Draft.outputs) := by
  induction es generalizing steps outputs with
  | nil => simp [gather, drafts?, Except.map]
  | cons e rest ih =>
      rw [gather, drafts?]
      cases elementFunction? e with
      | none => exact ih steps outputs
      | some names =>
          obtain ⟨plugin, name⟩ := names
          dsimp only
          cases r.resolve? (some plugin) name with
          | none =>
              cases missing with
              | skip => exact ih steps outputs
              | fail => rfl
          | some f =>
              dsimp only
              rw [ih]
              cases drafts? r missing rest with
              | error e => rfl
              | ok ds => simp [Except.map]

/-- Reads a text into a plan that is changed in its place. What was written before a failure would
remain. -/
def addMarkupHeld (r : Registry F) (missing : MissingFunctions) (text : String) :
    Run (Plan F × σ) PlanError Unit := do
  let root ← .ofExcept (document? text)
  let (steps, outputs) ← .ofExcept (gather r missing (planChildren root) [] [])
  write fun p => { p with outputs := p.outputs ++ outputs }
  write fun p => { p with steps := p.steps ++ steps }

theorem exec_addMarkupHeld (r : Registry F) (missing : MissingFunctions) (text : String)
    (p : Plan F) (w : σ) :
    Run.exec (addMarkupHeld r missing text) (p, w) =
      match p.addMarkup? r missing text with
      | .ok q => (.ok (), (q, w))
      | .error e => (.error e, (p, w)) := by
  rw [addMarkupHeld, Run.exec_bind, Run.exec_ofExcept]
  cases hroot : document? text with
  | error e => rw [addMarkup?_of_error hroot]
  | ok root =>
      dsimp only
      rw [addMarkup?_of_document? hroot, Run.exec_bind, Run.exec_ofExcept, gather_eq]
      cases drafts? r missing (planChildren root) with
      | error e => rfl
      | ok ds => rfl

theorem functionOf?_of_mem_stepElements {r : Registry F} {es : List Xml.Element}
    {x : F × Xml.Element} (h : x ∈ stepElements r es) : functionOf? r x.2 = some x.1 := by
  obtain ⟨e, -, hx⟩ := List.mem_filterMap.1 h
  obtain ⟨f, hf, rfl⟩ := Option.map_eq_some_iff.1 hx
  exact hf

theorem document?_error {text : String} {e : PlanError} (h : document? text = .error e) :
    ∃ more, e = .parse (text ++ more) := by
  unfold document? at h
  split at h
  · cases h
  · split at h
    · cases h
      exact ⟨"", by simp⟩
    · split at h
      · cases h
      · rename_i fragment _ _ _
        cases h
        exact ⟨"\n\nrecovered fragment:\n" ++ fragment, by simp [String.append_assoc]⟩

theorem addMarkup?_error {r : Registry F} {missing : MissingFunctions} {p : Plan F} {text : String}
    {e : PlanError} (h : p.addMarkup? r missing text = .error e) :
    (∃ plugin name, e = .functionNotFound plugin name) ∨ ∃ more, e = .parse (text ++ more) := by
  cases hroot : document? text with
  | error e' =>
      rw [addMarkup?_of_error hroot] at h
      cases h
      exact .inr (document?_error hroot)
  | ok root =>
      rw [addMarkup?_of_document? hroot] at h
      cases hdrafts : drafts? r missing (planChildren root) with
      | error e' =>
          rw [hdrafts] at h
          cases h
          exact .inl (drafts?_error hdrafts)
      | ok ds =>
          rw [hdrafts] at h
          cases h

/-- A text goes into a plan as a whole or not at all. A refused text leaves the plan as it was, and
the error names a missing function or begins with the text. An accepted one only adds: behind the
steps there were, a leaf for each element whose function is found, and behind the outputs the names
that these elements append to the result. -/
theorem markup_added_or_refused (r : Registry F) (missing : MissingFunctions) (text : String)
    (p : Plan F) (w : σ) :
    (Run.exec (addMarkupHeld r missing text) (p, w) =
      match p.addMarkup? r missing text with
      | .ok q => (.ok (), (q, w))
      | .error e => (.error e, (p, w))) ∧
    match p.addMarkup? r missing text with
    | .error e =>
        (∃ plugin name, e = .functionNotFound plugin name) ∨ ∃ more, e = .parse (text ++ more)
    | .ok q =>
        ∃ root, document? text = .ok root ∧
          let es := stepElements r (planChildren root)
          q = { p with
            steps := p.steps ++ es.map fun x => (Draft.ofElement x.1 x.2).step
            outputs := p.outputs ++ es.flatMap fun x => x.2.appended } ∧
          ∀ x ∈ es, functionOf? r x.2 = some x.1 ∧ LeafFor x.1 x.2 (Draft.ofElement x.1 x.2).step := by
  refine ⟨exec_addMarkupHeld r missing text p w, ?_⟩
  split
  · rename_i e h
    exact addMarkup?_error h
  · rename_i q h
    obtain ⟨root, hroot, hq⟩ := addMarkup?_eq_ok h
    exact ⟨root, hroot, hq, fun x hx => ⟨functionOf?_of_mem_stepElements hx, leafFor_ofElement x.1 x.2⟩⟩

end Plan

end Orchestra
