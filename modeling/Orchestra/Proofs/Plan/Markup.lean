import Orchestra.Plan.Markup

namespace Orchestra

def Xml.Element.kept (e : Xml.Element) : List String :=
  (e.attributes.filter fun a => a.1 = "setContextVariable").map Prod.snd

def Xml.Element.appended (e : Xml.Element) : List String :=
  (e.attributes.filter fun a => a.1 = "appendToResult").map Prod.snd

namespace Plan

variable {F : Type}

theorem outputs_addAttribute (d : Draft F) (a : String × String) :
    (d.addAttribute a).outputs =
      d.outputs ++ if a.1 = "appendToResult" then [a.2] else [] := by
  unfold Draft.addAttribute
  by_cases hkept : a.1 = "setContextVariable"
  · simp [hkept]
  · by_cases happended : a.1 = "appendToResult" <;> simp [hkept, happended]

theorem step_outputs_addAttribute (d : Draft F) (a : String × String) :
    (d.addAttribute a).step.outputs =
      d.step.outputs ++
        if a.1 = "setContextVariable" ∨ a.1 = "appendToResult" then [a.2] else [] := by
  unfold Draft.addAttribute
  by_cases hkept : a.1 = "setContextVariable"
  · simp [hkept]
  · by_cases happended : a.1 = "appendToResult" <;> simp [hkept, happended]

theorem foldl_collect {α β : Type} (view : β → List String) (f : β → α → β) (q : α → Prop)
    [DecidablePred q] (value : α → String)
    (h : ∀ b a, view (f b a) = view b ++ if q a then [value a] else []) (as : List α) (b : β) :
    view (as.foldl f b) = view b ++ (as.filter fun a => q a).map value := by
  induction as generalizing b with
  | nil => simp
  | cons a as ih =>
      rw [List.foldl_cons, ih, h]
      by_cases ha : q a <;> simp [ha]

theorem exists_source {text : String} {root : Xml.Element} (h : document? text = .ok root) :
    ∃ source, (source = "<xml>" ++ text ++ "</xml>" ∨ recover? text = some source) ∧
      Xml.parse? source = some root := by
  unfold document? at h
  split at h
  · rename_i hparse
    cases h
    exact ⟨_, .inl rfl, hparse⟩
  · split at h
    · cases h
    · rename_i fragment hrecover
      split at h
      · rename_i hparse
        cases h
        exact ⟨fragment, .inr hrecover, hparse⟩
      · cases h

theorem document?_of_tokens? {text : String} {root : Xml.Element} (ts : List Xml.Token)
    (hts : Xml.tokens? ("<xml>" ++ text ++ "</xml>").toList = some ts)
    (hroot : (ts.foldlM Xml.Builder.step ⟨[], none⟩).bind Xml.Builder.root = some root) :
    document? text = .ok root := by
  have hparse : Xml.parse? ("<xml>" ++ text ++ "</xml>") = some root := by
    rw [Xml.parse?, hts]
    exact hroot
  rw [document?, hparse]

variable [Described F]

theorem outputs_ofElement (f : F) (e : Xml.Element) : (Draft.ofElement f e).outputs = e.appended :=
  foldl_collect Draft.outputs Draft.addAttribute (fun a => a.1 = "appendToResult") Prod.snd
    outputs_addAttribute e.attributes ⟨ofFunction f, []⟩

theorem step_outputs_ofElement (f : F) (e : Xml.Element) :
    (Draft.ofElement f e).step.outputs =
      (e.attributes.filter fun a =>
        a.1 = "setContextVariable" ∨ a.1 = "appendToResult").map Prod.snd :=
  foldl_collect (fun d => d.step.outputs) Draft.addAttribute
    (fun a => a.1 = "setContextVariable" ∨ a.1 = "appendToResult") Prod.snd
    step_outputs_addAttribute e.attributes ⟨ofFunction f, []⟩

theorem mem_step_outputs_iff (f : F) (e : Xml.Element) (name : String) :
    name ∈ (Draft.ofElement f e).step.outputs ↔ name ∈ e.kept ∨ name ∈ e.appended := by
  simp only [step_outputs_ofElement, Xml.Element.kept, Xml.Element.appended, List.mem_map,
    List.mem_filter, decide_eq_true_eq]
  constructor
  · rintro ⟨a, ⟨ha, hkept | happended⟩, rfl⟩
    · exact .inl ⟨a, ⟨ha, hkept⟩, rfl⟩
    · exact .inr ⟨a, ⟨ha, happended⟩, rfl⟩
  · rintro (⟨a, ⟨ha, hkept⟩, rfl⟩ | ⟨a, ⟨ha, happended⟩, rfl⟩)
    · exact ⟨a, ⟨ha, .inl hkept⟩, rfl⟩
    · exact ⟨a, ⟨ha, .inr happended⟩, rfl⟩

/-- The function an element stands for, if it stands for one that can be found. -/
def functionOf? (r : Registry F) (e : Xml.Element) : Option F :=
  (elementFunction? e).bind fun names => r.resolve? (some names.1) names.2

def stepElements (r : Registry F) (es : List Xml.Element) : List (F × Xml.Element) :=
  es.filterMap fun e => (functionOf? r e).map (·, e)

def unresolved? (r : Registry F) (e : Xml.Element) : Option (String × String) :=
  (elementFunction? e).filter fun names => (r.resolve? (some names.1) names.2).isNone

/-- Elements give their steps unless a function is missing and that counts as a failure. Then the
first such element is named. -/
theorem drafts?_eq (r : Registry F) (missing : MissingFunctions) (es : List Xml.Element) :
    drafts? r missing es =
      match missing, es.findSome? (unresolved? r) with
      | .fail, some (plugin, name) => .error (.functionNotFound plugin name)
      | _, _ => .ok ((stepElements r es).map fun x => Draft.ofElement x.1 x.2) := by
  induction es with
  | nil => cases missing <;> rfl
  | cons e rest ih =>
      rw [drafts?]
      cases hnames : elementFunction? e with
      | none => simpa [stepElements, functionOf?, unresolved?, hnames] using ih
      | some names =>
          obtain ⟨plugin, name⟩ := names
          cases hfound : r.resolve? (some plugin) name with
          | none =>
              cases missing with
              | skip => simpa [stepElements, functionOf?, hnames, hfound] using ih
              | fail =>
                  have hfirst : unresolved? r e = some (plugin, name) := by
                    simp [unresolved?, hnames, Option.filter, hfound]
                  rw [List.findSome?_cons, hfirst]
                  dsimp only
                  rw [hfound]
          | some f =>
              have hfirst : unresolved? r e = none := by
                simp [unresolved?, hnames, Option.filter, hfound]
              have hsteps : stepElements r (e :: rest) = (f, e) :: stepElements r rest := by
                simp [stepElements, functionOf?, hnames, hfound]
              rw [List.findSome?_cons, hfirst, hsteps]
              dsimp only
              rw [hfound, ih]
              cases missing with
              | skip => rfl
              | fail => cases rest.findSome? (unresolved? r) <;> rfl

theorem drafts?_eq_map {r : Registry F} {missing : MissingFunctions} {es : List Xml.Element}
    {ds : List (Draft F)} (h : drafts? r missing es = .ok ds) :
    ds = (stepElements r es).map fun x => Draft.ofElement x.1 x.2 := by
  rw [drafts?_eq] at h
  split at h
  · cases h
  · exact (Except.ok.inj h).symm

theorem drafts?_error {r : Registry F} {missing : MissingFunctions} {es : List Xml.Element}
    {e : PlanError} (h : drafts? r missing es = .error e) :
    ∃ plugin name, e = .functionNotFound plugin name := by
  rw [drafts?_eq] at h
  split at h
  · exact ⟨_, _, (Except.error.inj h).symm⟩
  · cases h

def withDrafts (p : Plan F) (ds : List (Draft F)) : Plan F :=
  { p with steps := p.steps ++ ds.map Draft.step, outputs := p.outputs ++ ds.flatMap Draft.outputs }

theorem addMarkup?_of_error {text : String} {e : PlanError} (h : document? text = .error e)
    (p : Plan F) (r : Registry F) (missing : MissingFunctions) :
    p.addMarkup? r missing text = .error e := by
  rw [addMarkup?, h]
  rfl

theorem addMarkup?_of_document? {text : String} {root : Xml.Element}
    (h : document? text = .ok root) (p : Plan F) (r : Registry F) (missing : MissingFunctions) :
    p.addMarkup? r missing text =
      (drafts? r missing (planChildren root)).map p.withDrafts := by
  rw [addMarkup?, h]
  change Except.bind (drafts? r missing (planChildren root)) _ = _
  cases drafts? r missing (planChildren root) <;> rfl

/-- A text that is accepted puts the steps of its elements behind those of the plan, and the names
that go into the answer behind its outputs. -/
theorem addMarkup?_eq_ok {p q : Plan F} {r : Registry F} {missing : MissingFunctions}
    {text : String} (h : p.addMarkup? r missing text = .ok q) :
    ∃ root, document? text = .ok root ∧
      q = { p with
        steps := p.steps ++
          (stepElements r (planChildren root)).map fun x => (Draft.ofElement x.1 x.2).step
        outputs := p.outputs ++
          (stepElements r (planChildren root)).flatMap fun x => x.2.appended } := by
  cases hroot : document? text with
  | error e =>
      rw [addMarkup?_of_error hroot] at h
      cases h
  | ok root =>
      refine ⟨root, rfl, ?_⟩
      rw [addMarkup?_of_document? hroot] at h
      cases hdrafts : drafts? r missing (planChildren root) with
      | error e =>
          rw [hdrafts] at h
          cases h
      | ok ds =>
          rw [hdrafts] at h
          cases h
          rw [drafts?_eq_map hdrafts]
          simp only [withDrafts, List.map_map, List.flatMap_map, Function.comp_def,
            outputs_ofElement]

end Plan

end Orchestra
