import Mathlib.Data.List.Flatten
import Orchestra.Proofs.Plan.Answer
import Orchestra.Proofs.Plan.Appending
import Orchestra.Proofs.Xml.Elements

namespace Orchestra.Plan

open Xml

variable {F : Type}

theorem planChildren_mk (name : String) (attributes : List (String × String))
    (children : List Element) :
    planChildren ⟨name, attributes, children⟩ =
      (if name = planTag then children else []) ++ children.flatMap planChildren := by
  have hbelow : ((preorderAll children).filter fun e => e.name = planTag).flatMap
      Element.children = children.flatMap planChildren := by
    rw [preorderAll_eq_flatMap, List.filter_flatMap, List.flatMap_assoc]
    rfl
  rw [planChildren, Element.preorder, List.filter_cons]
  by_cases hname : name = planTag
  · simp only [hname, decide_true, if_true, List.flatMap_cons, hbelow]
  · simp only [hname, decide_false, if_false, Bool.false_eq_true, hbelow, List.nil_append]

theorem planChildren_subset {x e : Element} (h : x ∈ e.preorder) :
    planChildren x ⊆ planChildren e := by
  intro y hy
  obtain ⟨plan, hplan, hy⟩ := List.mem_flatMap.1 hy
  obtain ⟨hmem, htag⟩ := List.mem_filter.1 hplan
  exact List.mem_flatMap.2 ⟨plan, List.mem_filter.2 ⟨preorder_subset h hmem, htag⟩, hy⟩

theorem eq_of_flatMap_eq {α β : Type} {f g : α → List β} {as : List α}
    (hsub : ∀ a ∈ as, (f a).Sublist (g a)) (h : as.flatMap f = as.flatMap g) :
    ∀ a ∈ as, f a = g a := by
  induction as with
  | nil => exact List.forall_mem_nil _
  | cons a as ih =>
      obtain ⟨ha, has⟩ := List.forall_mem_cons.1 hsub
      have hrest := (List.Sublist.flatMap_right as has).length_le
      have hlength := congrArg List.length h
      rw [List.flatMap_cons, List.flatMap_cons, List.length_append, List.length_append] at hlength
      have hfirst := ha.length_le
      obtain ⟨hhead, htail⟩ := List.append_inj h (by omega)
      exact List.forall_mem_cons.2 ⟨hhead, ih has htail⟩

variable [Described F]

theorem functionOf?_congr (r : Registry F) {x y : Element} (h : x.name = y.name) :
    functionOf? r x = functionOf? r y := by
  rw [functionOf?, functionOf?, elementFunction?, elementFunction?, h]

theorem unresolved?_congr (r : Registry F) {x y : Element} (h : x.name = y.name) :
    unresolved? r x = unresolved? r y := by
  rw [unresolved?, unresolved?, elementFunction?, elementFunction?, h]

theorem ofElement_congr (f : F) {x y : Element} (h : x.attributes = y.attributes) :
    Draft.ofElement f x = Draft.ofElement f y := by
  rw [Draft.ofElement, Draft.ofElement, h]

theorem unresolved?_eq_some_iff {r : Registry F} {e : Element} {plugin name : String} :
    unresolved? r e = some (plugin, name) ↔
      elementFunction? e = some (plugin, name) ∧ r.resolve? (some plugin) name = none := by
  rw [unresolved?, Option.filter_eq_some_iff, Option.isNone_iff_eq_none]

def draftsOf (r : Registry F) (es : List Element) : List (Draft F) :=
  es.filterMap fun e => (functionOf? r e).map fun f => .ofElement f e

theorem map_stepElements (r : Registry F) (es : List Element) :
    ((stepElements r es).map fun x => Draft.ofElement x.1 x.2) = draftsOf r es := by
  simp only [stepElements, draftsOf, List.map_filterMap, Option.map_map]
  rfl

def isUnresolved (r : Registry F) (e : Element) : Bool :=
  (unresolved? r e).isSome

theorem functionOf?_of_isUnresolved {r : Registry F} {e : Element} (h : isUnresolved r e = true) :
    functionOf? r e = none := by
  obtain ⟨⟨plugin, name⟩, hnames⟩ := Option.isSome_iff_exists.1 h
  obtain ⟨hcalled, hnone⟩ := unresolved?_eq_some_iff.1 hnames
  rw [functionOf?, hcalled, Option.bind_some, hnone]

theorem drafts?_skip (r : Registry F) (es : List Element) :
    drafts? r .skip es = .ok (draftsOf r es) := by
  rw [drafts?_eq, map_stepElements]

theorem drafts?_fail_of_resolved {r : Registry F} {es : List Element}
    (h : ∀ e ∈ es, isUnresolved r e = false) : drafts? r .fail es = .ok (draftsOf r es) := by
  have hnone : es.findSome? (unresolved? r) = none :=
    List.findSome?_eq_none_iff.2 fun e he => by simpa [isUnresolved] using h e he
  rw [drafts?_eq, hnone, map_stepElements]

theorem draftsOf_eq_nil_iff {r : Registry F} {es : List Element} :
    draftsOf r es = [] ↔ ∀ e ∈ es, functionOf? r e = none := by
  simp only [draftsOf, List.filterMap_eq_nil_iff, Option.map_eq_none_iff]

/-- What the plan elements in an element give, the element itself among them. -/
def draftsIn (r : Registry F) (e : Element) : List (Draft F) :=
  draftsOf r (planChildren e)

theorem draftsIn_mk (r : Registry F) (name : String) (attributes : List (String × String))
    (children : List Element) :
    draftsIn r ⟨name, attributes, children⟩ =
      (if name = planTag then draftsOf r children else []) ++ children.flatMap (draftsIn r) := by
  rw [draftsIn, planChildren_mk, draftsOf, List.filterMap_append, List.filterMap_flatMap]
  split <;> rfl

theorem draftsIn_eq_nil_of_mem {r : Registry F} {x e : Element} (h : x ∈ e.preorder)
    (he : draftsIn r e = []) : draftsIn r x = [] :=
  draftsOf_eq_nil_iff.2 fun y hy => draftsOf_eq_nil_iff.1 he y (planChildren_subset h hy)

/-- What is left of the steps in an element when the unresolved ones are taken out around it. -/
def draftsLeft (r : Registry F) (e : Element) : List (Draft F) :=
  if isUnresolved r e then [] else draftsIn r (e.without (isUnresolved r))

theorem draftsOf_withoutAll (r : Registry F) (es : List Element) :
    draftsOf r (withoutAll (isUnresolved r) es) = draftsOf r es := by
  induction es with
  | nil => rfl
  | cons e es ih =>
      rw [withoutAll]
      by_cases he : isUnresolved r e = true
      · rw [if_pos he, ih, draftsOf, draftsOf, List.filterMap_cons, functionOf?_of_isUnresolved he]
        rfl
      · have hdraft : ((functionOf? r (e.without (isUnresolved r))).map fun f =>
            Draft.ofElement f (e.without (isUnresolved r))) =
              (functionOf? r e).map fun f => .ofElement f e := by
          rw [functionOf?_congr r (name_without _ e)]
          exact congrArg (Option.map · _) (funext fun f => ofElement_congr f (attributes_without _ e))
        rw [if_neg he, draftsOf, draftsOf, List.filterMap_cons, List.filterMap_cons, hdraft,
          ← draftsOf, ← draftsOf, ih]

theorem flatMap_withoutAll (r : Registry F) (es : List Element) :
    (withoutAll (isUnresolved r) es).flatMap (draftsIn r) = es.flatMap (draftsLeft r) := by
  induction es with
  | nil => rfl
  | cons e es ih =>
      rw [withoutAll, List.flatMap_cons, draftsLeft]
      by_cases he : isUnresolved r e = true
      · rw [if_pos he, if_pos he, ih, List.nil_append]
      · rw [if_neg he, if_neg he, List.flatMap_cons, ih]

theorem draftsIn_without_mk (r : Registry F) (name : String) (attributes : List (String × String))
    (children : List Element) :
    draftsIn r (Element.without (isUnresolved r) ⟨name, attributes, children⟩) =
      (if name = planTag then draftsOf r children else []) ++
        children.flatMap (draftsLeft r) := by
  rw [Element.without, draftsIn_mk, draftsOf_withoutAll, flatMap_withoutAll]

theorem draftsIn_without_sublist (r : Registry F) (e : Element) :
    (draftsIn r (e.without (isUnresolved r))).Sublist (draftsIn r e) := by
  induction e using Element.inductionOn with
  | mk name attributes children ih =>
      rw [draftsIn_without_mk, draftsIn_mk]
      refine (List.Sublist.refl _).append (List.Sublist.flatMap_right _ fun child hchild => ?_)
      rw [draftsLeft]
      split
      · exact List.nil_sublist _
      · exact ih child hchild

theorem draftsLeft_sublist (r : Registry F) (e : Element) :
    (draftsLeft r e).Sublist (draftsIn r e) := by
  rw [draftsLeft]
  split
  · exact List.nil_sublist _
  · exact draftsIn_without_sublist r e

theorem flatMap_draftsLeft_eq_iff (r : Registry F) (es : List Element) :
    es.flatMap (draftsLeft r) = es.flatMap (draftsIn r) ↔
      ∀ e ∈ es, draftsLeft r e = draftsIn r e :=
  ⟨eq_of_flatMap_eq fun e _ => draftsLeft_sublist r e, List.flatMap_congr⟩

/-- Without the unresolved elements the steps are the same exactly if there are none inside of
them. -/
theorem draftsIn_without_eq_iff (r : Registry F) (e : Element) :
    draftsIn r (e.without (isUnresolved r)) = draftsIn r e ↔
      ∀ x ∈ preorderAll e.children, isUnresolved r x = true → draftsIn r x = [] := by
  induction e using Element.inductionOn with
  | mk name attributes children ih =>
      have hchild : ∀ child ∈ children, draftsLeft r child = draftsIn r child ↔
          ∀ x ∈ child.preorder, isUnresolved r x = true → draftsIn r x = [] := by
        intro child hchild
        rw [draftsLeft]
        by_cases hgone : isUnresolved r child = true
        · rw [if_pos hgone]
          constructor
          · exact fun hnil x hx _ => draftsIn_eq_nil_of_mem hx hnil.symm
          · exact fun h => (h child (mem_preorder.2 (.inl rfl)) hgone).symm
        · rw [if_neg hgone, ih child hchild]
          constructor
          · intro h x hx hx'
            rcases mem_preorder.1 hx with rfl | hbelow
            · exact absurd hx' hgone
            · exact h x (mem_preorderAll.2 hbelow) hx'
          · exact fun h x hx => h x (mem_preorder.2 (.inr (mem_preorderAll.1 hx)))
      rw [draftsIn_without_mk, draftsIn_mk, List.append_cancel_left_eq, flatMap_draftsLeft_eq_iff]
      constructor
      · intro h x hx
        obtain ⟨child, hmem, hx⟩ := mem_preorderAll.1 hx
        exact (hchild child hmem).1 (h child hmem) x hx
      · exact fun h child hmem => (hchild child hmem).2 fun x hx =>
          h x (mem_preorderAll.2 ⟨child, hmem, hx⟩)

theorem isUnresolved_of_mem_planChildren_without {r : Registry F} {y : Element} (e : Element)
    (h : y ∈ planChildren (e.without (isUnresolved r))) : isUnresolved r y = false := by
  induction e using Element.inductionOn with
  | mk name attributes children ih =>
      rw [Element.without, planChildren_mk, List.mem_append] at h
      rcases h with h | h
      · split at h
        · obtain ⟨child, -, hkept, rfl⟩ := mem_withoutAll.1 h
          rwa [isUnresolved, unresolved?_congr r (name_without _ child)]
        · cases h
      · obtain ⟨x, hx, hy⟩ := List.mem_flatMap.1 h
        obtain ⟨child, hchild, -, rfl⟩ := mem_withoutAll.1 hx
        exact ih child hchild hy

theorem draftsOf_filter (r : Registry F) (es : List Element) :
    draftsOf r (es.filter fun e => !isUnresolved r e) = draftsOf r es := by
  rw [draftsOf, draftsOf, List.filterMap_filter]
  refine List.filterMap_congr fun e _ => ?_
  by_cases he : isUnresolved r e = true
  · rw [he, functionOf?_of_isUnresolved he]
    rfl
  · rw [Bool.not_eq_true] at he
    rw [he]
    rfl

def addElements? (p : Plan F) (r : Registry F) (missing : MissingFunctions) (es : List Element) :
    Except PlanError (Plan F) :=
  (drafts? r missing es).map p.withDrafts

theorem addElements?_skip (p : Plan F) (r : Registry F) (es : List Element) :
    p.addElements? r .skip es = .ok (p.withDrafts (draftsOf r es)) := by
  rw [addElements?, drafts?_skip]
  rfl

theorem addElements?_fail_of_resolved (p : Plan F) {r : Registry F} {es : List Element}
    (h : ∀ e ∈ es, isUnresolved r e = false) :
    p.addElements? r .fail es = .ok (p.withDrafts (draftsOf r es)) := by
  rw [addElements?, drafts?_fail_of_resolved h]
  rfl

/-- Where a missing function is a failure, elements are refused because of the first one that is
missing, and otherwise give the steps they give anyway. -/
theorem addElements?_fail_cases (p : Plan F) (r : Registry F) (es : List Element) :
    p.addElements? r .fail es = p.addElements? r .skip es ∨
      ∃ before x after plugin name, es = before ++ x :: after ∧
        (∀ y ∈ before, unresolved? r y = none) ∧ elementFunction? x = some (plugin, name) ∧
        r.resolve? (some plugin) name = none ∧
        p.addElements? r .fail es = .error (.functionNotFound plugin name) := by
  cases hfirst : es.findSome? (unresolved? r) with
  | none =>
      left
      rw [addElements?_skip, addElements?_fail_of_resolved]
      intro e he
      rw [isUnresolved, List.findSome?_eq_none_iff.1 hfirst e he]
      rfl
  | some names =>
      obtain ⟨plugin, name⟩ := names
      obtain ⟨before, x, after, rfl, hx, hbefore⟩ := List.findSome?_eq_some_iff.1 hfirst
      obtain ⟨hcalled, hnone⟩ := unresolved?_eq_some_iff.1 hx
      refine .inr ⟨before, x, after, plugin, name, rfl, hbefore, hcalled, hnone, ?_⟩
      rw [addElements?, drafts?_eq, hfirst]
      rfl

omit [Described F] in
theorem withDrafts_eq_iff {p : Plan F} {ds ds' : List (Draft F)} (h : ds.Sublist ds') :
    p.withDrafts ds = p.withDrafts ds' ↔ ds = ds' := by
  constructor
  · intro he
    have hsteps := congrArg (fun q => q.steps.length) he
    simp only [withDrafts, List.length_append, List.length_map] at hsteps
    exact h.eq_of_length (by omega)
  · rintro rfl
    rfl

/-- A text that is accepted where a missing function is a failure gives the same plan where it is
passed over, and one that is refused there is refused by both for the same reason. Otherwise the
first element without a function is named, and the plan is that of the elements that are left. It
is also that of the document without the unresolved elements, exactly if no step stands inside of
one of them. -/
theorem policies_differ_on_missing (p : Plan F) (r : Registry F) (text : String) :
    (∀ q, p.addMarkup? r .fail text = .ok q → p.addMarkup? r .skip text = .ok q) ∧
    (∀ e, p.addMarkup? r .skip text = .error e →
      (∃ cause, e = .parse cause) ∧ p.addMarkup? r .fail text = .error e) ∧
    ∀ q e, p.addMarkup? r .skip text = .ok q → p.addMarkup? r .fail text = .error e →
      ∃ root, document? text = .ok root ∧
        (∀ missing, p.addMarkup? r missing text = p.addElements? r missing (planChildren root)) ∧
        (∃ before x after plugin name, planChildren root = before ++ x :: after ∧
          (∀ y ∈ before, unresolved? r y = none) ∧ elementFunction? x = some (plugin, name) ∧
          r.resolve? (some plugin) name = none ∧ e = .functionNotFound plugin name) ∧
        p.addElements? r .fail ((planChildren root).filter fun y => !isUnresolved r y) = .ok q ∧
        (p.addElements? r .fail (planChildren (root.without (isUnresolved r))) = .ok q ↔
          ∀ x ∈ preorderAll root.children, isUnresolved r x = true →
            ∀ y ∈ planChildren x, functionOf? r y = none) := by
  cases hroot : document? text with
  | error cause =>
      simp only [addMarkup?_of_error hroot]
      obtain ⟨more, rfl⟩ := document?_error hroot
      refine ⟨nofun, fun e he => ?_, nofun⟩
      cases he
      exact ⟨⟨_, rfl⟩, rfl⟩
  | ok root =>
      have hadd (missing : MissingFunctions) :
          p.addMarkup? r missing text = p.addElements? r missing (planChildren root) :=
        addMarkup?_of_document? hroot p r missing
      have hskip := addElements?_skip p r (planChildren root)
      rw [hadd .fail, hadd .skip, hskip]
      rcases addElements?_fail_cases p r (planChildren root) with hsame | hmissing
      · rw [hsame, hskip]
        exact ⟨fun q h => h, nofun, nofun⟩
      · obtain ⟨before, x, after, plugin, name, hsplit, hbefore, hcalled, hnone, hfail⟩ := hmissing
        rw [hfail]
        refine ⟨nofun, nofun, ?_⟩
        rintro _ _ ⟨⟩ ⟨⟩
        refine ⟨root, rfl, hadd, ⟨before, x, after, plugin, name, hsplit, hbefore, hcalled, hnone,
          rfl⟩, ?_, ?_⟩
        · rw [addElements?_fail_of_resolved, draftsOf_filter]
          intro y hy
          simpa using (List.mem_filter.1 hy).2
        · rw [addElements?_fail_of_resolved p fun y => isUnresolved_of_mem_planChildren_without root,
            Except.ok.injEq, ← draftsIn, ← draftsIn, withDrafts_eq_iff (draftsIn_without_sublist r root),
            draftsIn_without_eq_iff]
          simp only [draftsIn, draftsOf_eq_nil_iff]

def sheltering : String :=
  "<plan><function.nope.x><plan><function.text.echo input=\x22a\x22/></plan></function.nope.x></plan>"

def echoElement : Element :=
  ⟨"function.text.echo", [("input", "a")], []⟩

def shelter : Element :=
  ⟨"function.nope.x", [], [⟨"plan", [], [echoElement]⟩]⟩

def shelteringRoot : Element :=
  ⟨"xml", [], [⟨"plan", [], [shelter]⟩]⟩

def covering : String :=
  "<plan><function.nope.x><function.text.echo input=\x22a\x22/></function.nope.x></plan>"

def coveringRoot : Element :=
  ⟨"xml", [], [⟨"plan", [], [⟨"function.nope.x", [], [echoElement]⟩]⟩]⟩

def uncovered : String :=
  "<plan><function.text.echo input=\x22a\x22/></plan>"

def uncoveredRoot : Element :=
  ⟨"xml", [], [⟨"plan", [], [echoElement]⟩]⟩

theorem document?_sheltering : document? sheltering = .ok shelteringRoot :=
  document?_of_tokens? [.start ⟨"", "xml"⟩ [] false, .start ⟨"", "plan"⟩ [] false,
    .start ⟨"", "function.nope.x"⟩ [] false, .start ⟨"", "plan"⟩ [] false,
    .start ⟨"", "function.text.echo"⟩ [(⟨"", "input"⟩, "a")] true, .stop ⟨"", "plan"⟩,
    .stop ⟨"", "function.nope.x"⟩, .stop ⟨"", "plan"⟩, .stop ⟨"", "xml"⟩] (by decide +kernel) rfl

theorem document?_covering : document? covering = .ok coveringRoot :=
  document?_of_tokens? [.start ⟨"", "xml"⟩ [] false, .start ⟨"", "plan"⟩ [] false,
    .start ⟨"", "function.nope.x"⟩ [] false,
    .start ⟨"", "function.text.echo"⟩ [(⟨"", "input"⟩, "a")] true,
    .stop ⟨"", "function.nope.x"⟩, .stop ⟨"", "plan"⟩, .stop ⟨"", "xml"⟩] (by decide +kernel) rfl

theorem document?_uncovered : document? uncovered = .ok uncoveredRoot :=
  document?_of_tokens? [.start ⟨"", "xml"⟩ [] false, .start ⟨"", "plan"⟩ [] false,
    .start ⟨"", "function.text.echo"⟩ [(⟨"", "input"⟩, "a")] true, .stop ⟨"", "plan"⟩,
    .stop ⟨"", "xml"⟩] (by decide +kernel) rfl

theorem document?_bare : document? "<plan></plan>" = .ok ⟨"xml", [], [⟨"plan", [], []⟩]⟩ :=
  document?_of_tokens? [.start ⟨"", "xml"⟩ [] false, .start ⟨"", "plan"⟩ [] false,
    .stop ⟨"", "plan"⟩, .stop ⟨"", "xml"⟩] (by decide +kernel) rfl

def echoPlan : Plan (Function Unit) :=
  forGoal "plan" "goal" [echoing "a" []]

theorem addMarkup?_sheltering :
    (forGoal "plan" "goal").addMarkup? echoRegistry .skip sheltering = .ok echoPlan ∧
      (forGoal "plan" "goal").addMarkup? echoRegistry .fail sheltering =
        .error (.functionNotFound "nope" "x") := by
  rw [addMarkup?, addMarkup?, document?_sheltering]
  exact ⟨rfl, rfl⟩

theorem policies_differ_on_missing_sheltered :
    (forGoal "plan" "goal").addMarkup? echoRegistry .skip sheltering = .ok echoPlan ∧
      (forGoal "plan" "goal").addMarkup? echoRegistry .fail sheltering =
        .error (.functionNotFound "nope" "x") ∧
      (forGoal "plan" "goal").addElements? echoRegistry .fail
        ((planChildren shelteringRoot).filter fun y => !isUnresolved echoRegistry y) =
          .ok echoPlan ∧
      (forGoal "plan" "goal").addElements? echoRegistry .fail
        (planChildren (shelteringRoot.without (isUnresolved echoRegistry))) ≠ .ok echoPlan := by
  obtain ⟨hskip, hfail⟩ := addMarkup?_sheltering
  obtain ⟨-, -, hmissing⟩ := policies_differ_on_missing (forGoal "plan" "goal") echoRegistry sheltering
  obtain ⟨root, hroot, -, -, hfilter, hwithout⟩ := hmissing echoPlan _ hskip hfail
  obtain rfl : shelteringRoot = root := Except.ok.inj (document?_sheltering.symm.trans hroot)
  refine ⟨hskip, hfail, hfilter, fun h => ?_⟩
  have hshelter : shelter ∈ preorderAll shelteringRoot.children :=
    mem_preorderAll.2 ⟨_, List.mem_singleton_self _,
      mem_preorder.2 (.inr ⟨shelter, List.mem_singleton_self _, mem_preorder.2 (.inl rfl)⟩)⟩
  have hecho : echoElement ∈ planChildren shelter := List.mem_singleton_self _
  cases hwithout.1 h shelter hshelter rfl echoElement hecho

/-- Neither without the missing function and all that it holds, nor with what it holds in its place,
does the document give the plan that skipping gives. -/
theorem removal_changes_steps :
    (forGoal "plan" "goal").addMarkup? echoRegistry .skip sheltering = .ok echoPlan ∧
      (forGoal "plan" "goal").addMarkup? echoRegistry .fail sheltering =
        .error (.functionNotFound "nope" "x") ∧
      document? sheltering = .ok shelteringRoot ∧
      document? "<plan></plan>" = .ok (shelteringRoot.without (isUnresolved echoRegistry)) ∧
      (forGoal "plan" "goal").addMarkup? echoRegistry .fail "<plan></plan>" =
        .ok (forGoal "plan" "goal") ∧
      (forGoal "plan" "goal").addMarkup? echoRegistry .skip covering =
        .ok (forGoal "plan" "goal") ∧
      (forGoal "plan" "goal").addMarkup? echoRegistry .fail covering =
        .error (.functionNotFound "nope" "x") ∧
      (forGoal "plan" "goal").addMarkup? echoRegistry .fail uncovered = .ok echoPlan ∧
      forGoal "plan" "goal" ≠ echoPlan := by
  have hsteps : forGoal "plan" "goal" ≠ echoPlan := fun h =>
    absurd (congrArg (fun p => p.steps.length) h) (by decide)
  refine ⟨addMarkup?_sheltering.1, addMarkup?_sheltering.2, document?_sheltering, document?_bare, ?_⟩
  rw [addMarkup?, document?_bare, addMarkup?, addMarkup?, document?_covering, addMarkup?,
    document?_uncovered]
  exact ⟨rfl, rfl, rfl, rfl, hsteps⟩

end Orchestra.Plan
