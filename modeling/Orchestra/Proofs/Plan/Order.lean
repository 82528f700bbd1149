import Mathlib.Data.List.Forall2
import Orchestra.Proofs.Plan.Missing
import Orchestra.Proofs.Xml.Places

namespace Orchestra.Plan

open Xml

def childPlaces (x : Place × Element) : List (Place × Element) :=
  x.2.children.zipIdx.map fun c => (x.1 ++ [c.2], c.1)

def planPlaces (root : Element) : List (Place × Element) :=
  (root.placed.filter fun x => x.2.name = planTag).flatMap childPlaces

theorem map_snd_planPlaces (root : Element) :
    (planPlaces root).map Prod.snd = planChildren root := by
  have hchildren (x : Place × Element) : (childPlaces x).map Prod.snd = x.2.children := by
    rw [childPlaces, List.map_map]
    exact List.zipIdx_map_fst 0 x.2.children
  rw [planPlaces, List.map_flatMap, planChildren, ← map_snd_placed, List.filter_map,
    List.flatMap_map]
  exact List.flatMap_congr fun x _ => hchildren x

theorem mem_childPlaces {x y : Place × Element} :
    y ∈ childPlaces x ↔ ∃ i, y.1 = x.1 ++ [i] ∧ x.2.children[i]? = some y.2 := by
  rw [childPlaces, List.mem_map]
  constructor
  · rintro ⟨c, hc, rfl⟩
    exact ⟨c.2, rfl, List.mem_zipIdx_iff_getElem?.1 hc⟩
  · rintro ⟨i, hplace, hchild⟩
    exact ⟨(y.2, i), List.mem_zipIdx_iff_getElem?.2 hchild, Prod.ext hplace.symm rfl⟩

/-- The place is that of an element right below a plan element. -/
def InPlan (root : Element) (place : Place) : Prop :=
  place ≠ [] ∧ ∃ plan, root.at? place.dropLast = some plan ∧ plan.name = planTag

theorem mem_planPlaces {root e : Element} {place : Place} :
    (place, e) ∈ planPlaces root ↔ InPlan root place ∧ root.at? place = some e := by
  simp only [planPlaces, List.mem_flatMap, List.mem_filter, decide_eq_true_eq, mem_childPlaces]
  constructor
  · rintro ⟨⟨parent, plan⟩, ⟨hplan, hname⟩, i, rfl, hchild⟩
    rw [mem_placed] at hplan
    refine ⟨⟨List.concat_ne_nil _ _, plan, by rwa [List.dropLast_concat], hname⟩, ?_⟩
    rw [at?_concat, hplan]
    exact hchild
  · rintro ⟨⟨hne, plan, hplan, hname⟩, he⟩
    refine ⟨(place.dropLast, plan), ⟨mem_placed.2 hplan, hname⟩, place.getLast hne,
      (List.dropLast_concat_getLast hne).symm, ?_⟩
    rw [← List.dropLast_concat_getLast hne, at?_concat, hplan] at he
    exact he

/-- The plan element of the first place comes first, or else the elements do. -/
def PlanByPlan (a b : Place) : Prop :=
  a.dropLast < b.dropLast ∨ (a.dropLast = b.dropLast ∧ a < b)

/-- The plan element of the second place stands inside of the plan element of the first. -/
def Encloses (a b : Place) : Prop :=
  a.dropLast <+: b.dropLast ∧ a.dropLast ≠ b.dropLast

instance (a b : Place) : Decidable (Encloses a b) :=
  inferInstanceAs (Decidable (_ ∧ _))

theorem pairwise_planPlaces (root : Element) :
    (planPlaces root).Pairwise fun x y => PlanByPlan x.1 y.1 := by
  refine List.pairwise_flatMap.2 ⟨fun x _ => ?_, ?_⟩
  · refine List.pairwise_map.2 ((pairwise_zipIdx x.2.children).imp ?_)
    rintro c d hlt
    have hplaces : x.1 ++ [c.2] < x.1 ++ [d.2] :=
      List.append_left_lt (List.cons_lt_cons_iff.2 (.inl hlt))
    exact .inr ⟨by rw [List.dropLast_concat, List.dropLast_concat], hplaces⟩
  · refine ((pairwise_placed root).filter _).imp fun hlt => ?_
    intro x hx y hy
    obtain ⟨i, hx, -⟩ := mem_childPlaces.1 hx
    obtain ⟨j, hy, -⟩ := mem_childPlaces.1 hy
    exact .inl (by rwa [hx, hy, List.dropLast_concat, List.dropLast_concat])

theorem PlanByPlan.irrefl {a : Place} : ¬ PlanByPlan a a := by
  rintro (h | ⟨-, h⟩) <;> exact lt_irrefl _ h

theorem PlanByPlan.asymm {a b : Place} (h : PlanByPlan a b) : ¬ PlanByPlan b a := by
  rintro (h' | ⟨he, h'⟩)
  · rcases h with h | ⟨he, -⟩
    · exact lt_asymm h h'
    · exact absurd h' (he ▸ lt_irrefl _)
  · rcases h with h | ⟨-, h⟩
    · exact absurd h (he ▸ lt_irrefl _)
    · exact lt_asymm h h'

theorem lt_of_encloses {a b : Place} (h : Encloses a b) : a.dropLast < b.dropLast := by
  obtain ⟨⟨rest, hrest⟩, hne⟩ := h
  cases rest with
  | nil => exact absurd (by simpa using hrest) hne
  | cons i rest =>
      have hlt : a.dropLast ++ [] < a.dropLast ++ i :: rest :=
        List.append_left_lt (List.nil_lt_cons i rest)
      rwa [List.append_nil, hrest] at hlt

theorem dropLast_cases {p q : Place} {i j : Nat} (h : p ++ [i] < q ++ [j]) :
    p < q ∨ p = q ∨ (q <+: p ∧ q ≠ p) := by
  induction p generalizing q with
  | nil =>
      cases q with
      | nil => exact .inr (.inl rfl)
      | cons y q => exact .inl (List.nil_lt_cons _ _)
  | cons x p ih =>
      cases q with
      | nil => exact .inr (.inr ⟨List.nil_prefix, nofun⟩)
      | cons y q =>
          rcases List.cons_lt_cons_iff.1 h with hlt | ⟨rfl, hlt⟩
          · exact .inl (List.cons_lt_cons_iff.2 (.inl hlt))
          · rcases ih hlt with hlt | rfl | ⟨hinside, hne⟩
            · exact .inl (List.cons_lt_cons_iff.2 (.inr ⟨rfl, hlt⟩))
            · exact .inr (.inl rfl)
            · refine .inr (.inr ⟨List.cons_prefix_cons.2 ⟨rfl, hinside⟩, ?_⟩)
              exact fun he => hne (List.cons.inj he).2

theorem planByPlan_iff {a b : Place} (ha : a ≠ []) (hb : b ≠ []) (h : a < b) :
    PlanByPlan a b ↔ ¬ Encloses b a := by
  constructor
  · rintro (hlt | ⟨he, -⟩) hencloses
    · exact lt_asymm hlt (lt_of_encloses hencloses)
    · exact hencloses.2 he.symm
  · intro hencloses
    have hcases := h
    rw [← List.dropLast_concat_getLast ha, ← List.dropLast_concat_getLast hb] at hcases
    rcases dropLast_cases hcases with hlt | he | hinside
    · exact .inl hlt
    · exact .inr ⟨he, h⟩
    · exact absurd hinside hencloses

variable {F : Type} [Described F]

/-- The element at a place gives a step: it stands right below a plan element, for a function that
is found. -/
structure StepAt (r : Registry F) (root : Element) (place : Place) (f : F) (e : Element) : Prop where
  inPlan : InPlan root place
  element : root.at? place = some e
  function : functionOf? r e = some f

def stepPlaces (r : Registry F) (root : Element) : List (Place × F × Element) :=
  (planPlaces root).filterMap fun x => (functionOf? r x.2).map fun f => (x.1, f, x.2)

theorem map_snd_stepPlaces (r : Registry F) (root : Element) :
    (stepPlaces r root).map Prod.snd = stepElements r (planChildren root) := by
  rw [stepPlaces, stepElements, ← map_snd_planPlaces, List.map_filterMap, List.filterMap_map]
  refine List.filterMap_congr fun x _ => ?_
  rw [Option.map_map]
  rfl

theorem mem_stepPlaces {r : Registry F} {root e : Element} {place : Place} {f : F} :
    (place, f, e) ∈ stepPlaces r root ↔ StepAt r root place f e := by
  simp only [stepPlaces, List.mem_filterMap, Option.map_eq_some_iff, Prod.mk.injEq]
  constructor
  · rintro ⟨x, hx, f, hf, rfl, rfl, rfl⟩
    obtain ⟨hplan, he⟩ := mem_planPlaces.1 hx
    exact ⟨hplan, he, hf⟩
  · rintro ⟨hplan, he, hf⟩
    exact ⟨(place, e), mem_planPlaces.2 ⟨hplan, he⟩, f, hf, rfl, rfl, rfl⟩

theorem pairwise_stepPlaces (r : Registry F) (root : Element) :
    ((stepPlaces r root).map Prod.fst).Pairwise PlanByPlan := by
  refine List.pairwise_map.2 (List.pairwise_filterMap.2 ((pairwise_planPlaces root).imp ?_))
  intro x y hxy a ha b hb
  obtain ⟨f, -, rfl⟩ := Option.map_eq_some_iff.1 ha
  obtain ⟨g, -, rfl⟩ := Option.map_eq_some_iff.1 hb
  exact hxy

/-- Places in a row that are those of the steps in a row: one each for all the elements that give a
step. Of two elements the one that starts first has the first step, unless the plan element of the
other one stands around its own. -/
structure Listed (r : Registry F) (root : Element) (places : List Place) (steps : List (Plan F)) :
    Prop where
  each : List.Forall₂ (fun place step =>
    ∃ f e, StepAt r root place f e ∧ step = (Draft.ofElement f e).step) places steps
  once : places.Nodup
  all : ∀ place f e, StepAt r root place f e → place ∈ places
  order : ∀ (i j : Nat) (a b : Place), places[i]? = some a → places[j]? = some b → a < b →
    (i < j ↔ ¬ Encloses b a)

theorem listed_stepPlaces (r : Registry F) (root : Element) :
    Listed r root ((stepPlaces r root).map Prod.fst)
      ((stepElements r (planChildren root)).map fun x => (Draft.ofElement x.1 x.2).step) where
  each := by
    rw [← map_snd_stepPlaces, List.map_map, List.forall₂_map_left_iff, List.forall₂_map_right_iff,
      List.forall₂_same]
    rintro ⟨place, f, e⟩ hmem
    exact ⟨f, e, mem_stepPlaces.1 hmem, rfl⟩
  once := by
    refine (pairwise_stepPlaces r root).imp ?_
    rintro a _ h rfl
    exact PlanByPlan.irrefl h
  all place f e h := List.mem_map.2 ⟨(place, f, e), mem_stepPlaces.2 h, rfl⟩
  order i j a b ha hb hlt := by
    have hne {k : Nat} {c : Place} (hc : ((stepPlaces r root).map Prod.fst)[k]? = some c) :
        c ≠ [] := by
      obtain ⟨⟨place, f, e⟩, hmem, rfl⟩ := List.mem_map.1 (List.mem_of_getElem? hc)
      exact (mem_stepPlaces.1 hmem).inPlan.1
    have hsorted {k l : Nat} {c d : Place} (hc : ((stepPlaces r root).map Prod.fst)[k]? = some c)
        (hd : ((stepPlaces r root).map Prod.fst)[l]? = some d) (hkl : k < l) : PlanByPlan c d := by
      obtain ⟨hk, rfl⟩ := List.getElem?_eq_some_iff.1 hc
      obtain ⟨hl, rfl⟩ := List.getElem?_eq_some_iff.1 hd
      exact List.pairwise_iff_getElem.1 (pairwise_stepPlaces r root) k l hk hl hkl
    rw [← planByPlan_iff (hne ha) (hne hb) hlt]
    refine ⟨hsorted ha hb, fun hab => ?_⟩
    rcases Nat.lt_trichotomy i j with hij | rfl | hji
    · exact hij
    · rw [ha, Option.some_inj] at hb
      exact absurd hab (hb ▸ PlanByPlan.irrefl)
    · exact absurd (hsorted hb ha hji) hab.asymm

/-- The steps of a text are those of the elements right below its plan elements for which there is
a function, one for each. They come plan by plan: of two such elements the one whose start tag
comes first has the first step, unless the other one stands in a plan element around the plan
element of the first. -/
theorem steps_plan_by_plan {p q : Plan F} {r : Registry F} {missing : MissingFunctions}
    {text : String} (h : p.addMarkup? r missing text = .ok q) :
    ∃ source root places steps,
      (source = "<xml>" ++ text ++ "</xml>" ∨ recover? text = some source) ∧
      parse? source = some root ∧ document? text = .ok root ∧
      startTags? source = some (root.placed.map fun x => x.2.tag) ∧
      (root.placed.Pairwise fun x y => x.1 < y.1) ∧
      (∀ place e, (place, e) ∈ root.placed ↔ root.at? place = some e) ∧
      q.steps = p.steps ++ steps ∧ Listed r root places steps := by
  obtain ⟨root, hroot, rfl⟩ := addMarkup?_eq_ok h
  obtain ⟨source, hsource, hparse⟩ := exists_source hroot
  have htags := startTags?_of_parse? hparse
  rw [← map_snd_placed, List.map_map] at htags
  exact ⟨source, root, _, _, hsource, hparse, hroot, htags, pairwise_placed root,
    fun place e => mem_placed, rfl, listed_stepPlaces r root⟩

def nested : String :=
  "<plan><plan><function.text.echo input=\x22a\x22/></plan><function.text.echo input=\x22b\x22/></plan>"

def outerElement : Element :=
  ⟨"function.text.echo", [("input", "b")], []⟩

def nestedRoot : Element :=
  ⟨"xml", [], [⟨"plan", [], [⟨"plan", [], [echoElement]⟩, outerElement]⟩]⟩

def nestedPlan : Plan (Function Unit) :=
  forGoal "plan" "goal" [echoing "b" [], echoing "a" []]

theorem document?_nested : document? nested = .ok nestedRoot :=
  document?_of_tokens? [.start ⟨"", "xml"⟩ [] false, .start ⟨"", "plan"⟩ [] false,
    .start ⟨"", "plan"⟩ [] false, .start ⟨"", "function.text.echo"⟩ [(⟨"", "input"⟩, "a")] true,
    .stop ⟨"", "plan"⟩, .start ⟨"", "function.text.echo"⟩ [(⟨"", "input"⟩, "b")] true,
    .stop ⟨"", "plan"⟩, .stop ⟨"", "xml"⟩] (by decide +kernel) rfl

theorem addMarkup?_nested :
    (forGoal "plan" "goal").addMarkup? echoRegistry .fail nested = .ok nestedPlan := by
  rw [addMarkup?, document?_nested]
  rfl

theorem stepAt_inner : StepAt echoRegistry nestedRoot [0, 0, 0] echo echoElement :=
  ⟨⟨List.cons_ne_nil _ _, _, rfl, rfl⟩, rfl, rfl⟩

theorem stepAt_outer : StepAt echoRegistry nestedRoot [0, 1] echo outerElement :=
  ⟨⟨List.cons_ne_nil _ _, _, rfl, rfl⟩, rfl, rfl⟩

theorem steps_plan_by_plan_nested :
    (forGoal "plan" "goal").addMarkup? echoRegistry .fail nested = .ok nestedPlan ∧
      Listed echoRegistry nestedRoot [[0, 1], [0, 0, 0]] [echoing "b" [], echoing "a" []] := by
  obtain ⟨source, root, places, steps, -, -, hroot, -, -, -, hsteps, hlisted⟩ :=
    steps_plan_by_plan addMarkup?_nested
  obtain rfl : nestedRoot = root := Except.ok.inj (document?_nested.symm.trans hroot)
  obtain rfl : steps = [echoing "b" [], echoing "a" []] := hsteps.symm
  have hinner := hlisted.all _ _ _ stepAt_inner
  have houter := hlisted.all _ _ _ stepAt_outer
  match places, hlisted.each.length_eq with
  | [a, b], _ =>
      simp only [List.mem_cons, List.not_mem_nil, or_false] at hinner houter
      obtain rfl | rfl := hinner
      · obtain rfl : [0, 1] = b := houter.resolve_left (by decide)
        -- The inner plan is not read first, since the outer one stands around it.
        have hfirst := (hlisted.order 0 1 _ _ rfl rfl (by decide)).1 Nat.zero_lt_one
        exact absurd (by decide) hfirst
      · obtain rfl : [0, 1] = a := houter.resolve_right (by decide)
        exact ⟨addMarkup?_nested, hlisted⟩

/-- The step that is written first comes last. -/
theorem nested_plan_read_late :
    document? nested = .ok nestedRoot ∧
      ([0, 0, 0] : Place) < [0, 1] ∧
      StepAt echoRegistry nestedRoot [0, 0, 0] echo echoElement ∧
      StepAt echoRegistry nestedRoot [0, 1] echo outerElement ∧
      (Draft.ofElement echo echoElement).step = echoing "a" [] ∧
      (Draft.ofElement echo outerElement).step = echoing "b" [] ∧
      (forGoal "plan" "goal").addMarkup? echoRegistry .fail nested =
        .ok (forGoal "plan" "goal" [echoing "b" [], echoing "a" []]) :=
  ⟨document?_nested, by decide, stepAt_inner, stepAt_outer, rfl, rfl, addMarkup?_nested⟩

end Orchestra.Plan
