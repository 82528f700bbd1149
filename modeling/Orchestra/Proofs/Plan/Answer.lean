import Orchestra.Proofs.Plan.Accumulation
import Orchestra.Proofs.Plan.Markup

namespace Orchestra.Plan

open Text

variable {σ F : Type}

/-- The result of the element goes into the answer: because it is said so, or because it is kept
under a name that also stands for a part of the answer. -/
def Surfaces (es : List (F × Xml.Element)) (e : Xml.Element) : Prop :=
  e.appended ≠ [] ∨
    ∃ name ∈ e.kept, ∃ x ∈ es, ∃ other ∈ x.2.appended, sameAscii other name = true

instance (es : List (F × Xml.Element)) (e : Xml.Element) : Decidable (Surfaces es e) :=
  inferInstanceAs (Decidable (_ ∨ _))

theorem answer_of_accumulates {p last : Plan F} {shown : List String}
    (hresult : p.state.get? resultName = none) (hanswer : p.answer = "")
    (h : p.Accumulates shown last) : last.answer = "\n".intercalate shown := by
  unfold Accumulates shownWith at h
  by_cases hshown : shown = []
  · rw [if_pos hshown] at h
    rw [h.2, hanswer, hshown]
    rfl
  · rw [if_neg hshown, hresult] at h
    exact h.2

variable [Described F]

theorem sharesOutput_iff_surfaces {p : Plan F} {es : List (F × Xml.Element)}
    (hp : p.outputs = es.flatMap fun x => x.2.appended) {x : F × Xml.Element} (hx : x ∈ es) :
    p.sharesOutput (Draft.ofElement x.1 x.2).step = true ↔ Surfaces es x.2 := by
  simp only [sharesOutput, List.any_eq_true, mem_step_outputs_iff, hp, List.mem_flatMap]
  constructor
  · rintro ⟨name, hkept | happended, other, ⟨y, hy, hother⟩, hsame⟩
    · exact .inr ⟨name, hkept, y, hy, other, hother, hsame⟩
    · exact .inl (List.ne_nil_of_mem happended)
  · rintro (happended | ⟨name, hkept, y, hy, other, hother, hsame⟩)
    · obtain ⟨name, hname⟩ := List.exists_mem_of_ne_nil _ happended
      exact ⟨name, .inr hname, name, ⟨x, hx, hname⟩, sameAscii_refl name⟩
    · exact ⟨name, .inl hkept, other, ⟨y, hy, hother⟩, hsame⟩

theorem surfaced_eq {p : Plan F} {es : List (F × Xml.Element)} {done : List (Plan F × String)}
    (hp : p.outputs = es.flatMap fun x => x.2.appended)
    (hdone : done.map Prod.fst = es.map fun x => (Draft.ofElement x.1 x.2).step) :
    p.surfaced done =
      ((es.zip (done.map Prod.snd)).filter fun x => Surfaces es x.1.2).map Prod.snd := by
  have hzip : done = (es.zip (done.map Prod.snd)).map
      (Prod.map (fun x => (Draft.ofElement x.1 x.2).step) id) := by
    rw [← List.zip_map_left, ← hdone]
    exact List.zip_of_prod rfl rfl
  generalize done.map Prod.snd = rs at hzip ⊢
  have hshares : ∀ x ∈ es.zip rs,
      p.sharesOutput (Draft.ofElement x.1.1 x.1.2).step = decide (Surfaces es x.1.2) := by
    intro x hx
    have hiff := sharesOutput_iff_surfaces hp (List.of_mem_zip (a := x.1) (b := x.2) hx).1
    rw [Bool.eq_iff_iff, hiff, decide_eq_true_iff]
  rw [hzip, surfaced, List.filter_map, List.map_map, ← List.filter_congr hshares]
  rfl

theorem attribute_of_mem_step_outputs {f : F} {e : Xml.Element} {name : String}
    (h : name ∈ (Draft.ofElement f e).step.outputs) : ∃ a ∈ e.attributes, a.2 = name := by
  rw [step_outputs_ofElement] at h
  obtain ⟨a, ha, rfl⟩ := List.mem_map.1 h
  exact ⟨a, (List.mem_filter.1 ha).1, rfl⟩

theorem mem_of_mem_stepElements {r : Registry F} {es : List Xml.Element} {x : F × Xml.Element}
    (h : x ∈ stepElements r es) : x.2 ∈ es := by
  obtain ⟨e, he, hx⟩ := List.mem_filterMap.1 h
  obtain ⟨f, -, rfl⟩ := Option.map_eq_some_iff.1 hx
  exact he

theorem resultReserved_of_attributes {p : Plan F} {r : Registry F} {es : List Xml.Element}
    (hp : p.steps = (stepElements r es).map fun x => (Draft.ofElement x.1 x.2).step)
    (h : ∀ e ∈ es, ∀ a ∈ e.attributes, ¬ SameName a.2 resultName) : p.ResultReserved := by
  intro step hstep output houtput
  rw [hp] at hstep
  obtain ⟨x, hx, rfl⟩ := List.mem_map.1 hstep
  obtain ⟨a, ha, rfl⟩ := attribute_of_mem_step_outputs houtput
  exact h x.2 (mem_of_mem_stepElements hx) a ha

structure Fresh (es : List (F × Xml.Element)) (p : Plan F) : Prop where
  steps : p.steps = es.map fun x => (Draft.ofElement x.1 x.2).step
  outputs : p.outputs = es.flatMap fun x => x.2.appended
  nextStep : p.nextStep = 0
  result : p.state.get? resultName = none
  answer : p.answer = ""

theorem fresh_of_addMarkup? {r : Registry F} {missing : MissingFunctions}
    {name goal text : String} {root : Xml.Element} {p : Plan F} (hroot : document? text = .ok root)
    (hp : (forGoal name goal).addMarkup? r missing text = .ok p) :
    p.Fresh (stepElements r (planChildren root)) := by
  obtain ⟨root', hroot', rfl⟩ := addMarkup?_eq_ok hp
  rw [hroot] at hroot'
  cases hroot'
  exact ⟨rfl, rfl, rfl, rfl, rfl⟩

theorem Fresh.done_eq {p last : Plan F} {es : List (F × Xml.Element)}
    {done : List (Plan F × String)} (hp : p.Fresh es) (h : Progress p done last)
    (hend : last.hasNextStep = false) :
    done.map Prod.fst = es.map fun x => (Draft.ofElement x.1 x.2).step := by
  have hleft : last.steps.drop last.nextStep = [] := by
    simpa [hasNextStep] using hend
  have hdrop := h.drop_steps
  rw [hleft, List.append_nil, hp.nextStep, List.drop_zero, hp.steps] at hdrop
  exact hdrop.symm

/-- The answer of a plan that was read and carried out to its end has a line for each step whose
element goes into the answer. -/
theorem answer_eq_surfaced_results {r : Registry F} {missing : MissingFunctions}
    {name goal text : String} {root : Xml.Element} {p : Plan F} (hroot : document? text = .ok root)
    (hp : (forGoal name goal).addMarkup? r missing text = .ok p)
    (hreserved : ∀ e ∈ planChildren root, ∀ a ∈ e.attributes, ¬ SameName a.2 resultName)
    (call : Invoke σ F) (w : σ) (calls : List (Context F × Settings))
    (hend : (callAll call (p, w) calls).1.hasNextStep = false) :
    let es := stepElements r (planChildren root)
    let done := results call (p, w) calls
    done.map Prod.fst = (es.map fun x => (Draft.ofElement x.1 x.2).step) ∧
      (callAll call (p, w) calls).1.answer =
        "\n".intercalate
          (((es.zip (done.map Prod.snd)).filter fun x => Surfaces es x.1.2).map Prod.snd) := by
  intro es done
  have hfresh := fresh_of_addMarkup? hroot hp
  have hprogress := progress_callAll call calls (p, w)
  have hdone := hfresh.done_eq hprogress hend
  have hshown := hprogress.accumulates (resultReserved_of_attributes hfresh.steps hreserved)
  refine ⟨hdone, ?_⟩
  rw [← surfaced_eq hfresh.outputs hdone]
  exact answer_of_accumulates hfresh.result hfresh.answer hshown

def clashing : String :=
  "<plan><function.text.echo input=\x22a\x22 setContextVariable=\x22R\x22/>" ++
    "<function.text.echo input=\x22b\x22 appendToResult=\x22R\x22/></plan>"

def clashingRoot : Xml.Element :=
  ⟨"xml", [], [⟨"plan", [],
    [⟨"function.text.echo", [("input", "a"), ("setContextVariable", "R")], []⟩,
      ⟨"function.text.echo", [("input", "b"), ("appendToResult", "R")], []⟩]⟩]⟩

theorem document?_clashing : document? clashing = .ok clashingRoot :=
  document?_of_tokens? [.start ⟨"", "xml"⟩ [] false, .start ⟨"", "plan"⟩ [] false,
    .start ⟨"", "function.text.echo"⟩ [(⟨"", "input"⟩, "a"), (⟨"", "setContextVariable"⟩, "R")] true,
    .start ⟨"", "function.text.echo"⟩ [(⟨"", "input"⟩, "b"), (⟨"", "appendToResult"⟩, "R")] true,
    .stop ⟨"", "plan"⟩, .stop ⟨"", "xml"⟩] (by decide +kernel) rfl

def echoRegistry : Registry (Function Unit) :=
  Registry.empty.register echo

def clashingPlan : Plan (Function Unit) :=
  { forGoal "plan" "goal" [echoing "a" ["R"], echoing "b" ["R"]] with outputs := ["R"] }

theorem addMarkup?_clashing :
    (forGoal "plan" "goal").addMarkup? echoRegistry .fail clashing = .ok clashingPlan := by
  rw [addMarkup?, document?_clashing]
  rfl

theorem clashing_unreserved : ∀ e ∈ planChildren clashingRoot, ∀ a ∈ e.attributes,
    ¬ SameName a.2 resultName := by
  decide

theorem answer_eq_surfaced_results_clashing :
    document? clashing = .ok clashingRoot ∧
      (forGoal "plan" "goal").addMarkup? echoRegistry .fail clashing = .ok clashingPlan ∧
      (∀ e ∈ planChildren clashingRoot, ∀ a ∈ e.attributes, ¬ SameName a.2 resultName) ∧
      (callAll callEcho (clashingPlan, ()) (blankCalls 2)).1.hasNextStep = false ∧
      (callAll callEcho (clashingPlan, ()) (blankCalls 2)).1.answer = "a\nb" :=
  ⟨document?_clashing, addMarkup?_clashing, clashing_unreserved, rfl,
    (answer_eq_surfaced_results document?_clashing addMarkup?_clashing clashing_unreserved callEcho ()
      (blankCalls 2) rfl).2⟩

/-- The first result is in the answer though only the second element is marked for it. -/
theorem answer_has_unmarked_result :
    document? clashing = .ok clashingRoot ∧
      (clashingRoot.preorder.filter fun e => e.name = planTag).length = 1 ∧
      (forGoal "plan" "goal").addMarkup? echoRegistry .fail clashing = .ok clashingPlan ∧
      (∀ e ∈ planChildren clashingRoot, ∀ a ∈ e.attributes, ¬ SameName a.2 resultName) ∧
      (planChildren clashingRoot).map Xml.Element.appended = [[], ["R"]] ∧
      (results callEcho (clashingPlan, ()) (blankCalls 2)).map Prod.snd = ["a", "b"] ∧
      (callAll callEcho (clashingPlan, ()) (blankCalls 2)).1.hasNextStep = false ∧
      (callAll callEcho (clashingPlan, ()) (blankCalls 2)).1.answer = "a\nb" :=
  ⟨document?_clashing, rfl, addMarkup?_clashing, clashing_unreserved, rfl, rfl, rfl, rfl⟩

end Orchestra.Plan
