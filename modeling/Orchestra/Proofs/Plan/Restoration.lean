import Orchestra.Proofs.Plan.Reload

namespace Orchestra.Plan

variable {F : Type}

mutual

theorem nodes_bare : ∀ p : Plan F, p.bare.nodes = p.nodes.map bare
  | ⟨_, _, _, _, _, _, _, steps, _, _, _⟩ => by
      rw [bare, nodes, nodes, List.map_cons, nodesAll_bareAll steps, bare]

theorem nodesAll_bareAll : ∀ steps : List (Plan F),
    nodesAll (bareAll steps) = (nodesAll steps).map bare
  | [] => rfl
  | step :: rest => by
      rw [bareAll, nodesAll, nodesAll, List.map_append, nodes_bare step, nodesAll_bareAll rest]

end

mutual

theorem bare_bare : ∀ p : Plan F, p.bare.bare = p.bare
  | ⟨_, _, _, _, _, _, _, steps, _, _, _⟩ => by
      rw [bare, bare, bareAll_bareAll steps]

theorem bareAll_bareAll : ∀ steps : List (Plan F), bareAll (bareAll steps) = bareAll steps
  | [] => rfl
  | step :: rest => by
      rw [bareAll, bareAll, bare_bare step, bareAll_bareAll rest]

end

theorem isEmpty_bareAll (steps : List (Plan F)) : (bareAll steps).isEmpty = steps.isEmpty := by
  cases steps <;> rfl

variable [Described F]

/-- A leaf that should get a function which the registry does not have. -/
def Lacking (r : Registry F) (p : Plan F) : Prop :=
  p.Marked ∧ r.resolve? (some p.plugin) p.name = none

instance (r : Registry F) (p : Plan F) : Decidable (Lacking r p) :=
  inferInstanceAs (Decidable (_ ∧ _))

mutual

/-- The plan with the functions of the registry at marked leaves. -/
def attached (r : Registry F) : Plan F → Plan F
  | ⟨name, plugin, description, parameters, content, answer, state, steps, outputs, nextStep, f⟩ =>
      ⟨name, plugin, description, parameters, content, answer, state, attachedAll r steps, outputs,
        nextStep,
        if steps.isEmpty = true ∧ plugin ≠ planPlugin then r.resolve? (some plugin) name else f⟩

def attachedAll (r : Registry F) : List (Plan F) → List (Plan F)
  | [] => []
  | step :: rest => attached r step :: attachedAll r rest

end

theorem attach?_steps (r : Registry F) (name plugin description : String) (parameters : Variables)
    (content answer : String) (state : Variables) (step : Plan F) (rest : List (Plan F))
    (outputs : List String) (nextStep : Nat) (f : Option F) :
    attach? r ⟨name, plugin, description, parameters, content, answer, state, step :: rest, outputs,
        nextStep, f⟩ =
      (attachAll? r (step :: rest)).map fun steps =>
        ⟨name, plugin, description, parameters, content, answer, state, steps, outputs, nextStep, f⟩ := by
  rw [attach?, attachAll?]
  cases attach? r step with
  | error e => rfl
  | ok step =>
      cases attachAll? r rest <;> rfl

mutual

/-- Functions are attached from left to right, up to the first leaf that lacks one. -/
theorem attach?_eq (r : Registry F) : ∀ p : Plan F,
    p.attach? r =
      match p.nodes.find? fun n => Lacking r n with
      | some n => .error (.functionNotFound n.plugin n.name)
      | none => .ok (p.attached r)
  | ⟨name, plugin, _, _, _, _, _, [], _, _, f⟩ => by
      rw [attach?, nodes, nodesAll, attached, attachedAll, List.find?_singleton]
      by_cases hp : plugin = planPlugin
      · simp [Lacking, Marked, hp]
      · cases hr : r.resolve? (some plugin) name <;> simp [Lacking, Marked, hp, hr]
  | ⟨name, plugin, description, parameters, content, answer, state, step :: rest, outputs, nextStep,
      f⟩ => by
      have hself : ¬ Lacking r ⟨name, plugin, description, parameters, content, answer, state,
          step :: rest, outputs, nextStep, f⟩ := by
        rintro ⟨⟨hempty, -⟩, -⟩
        cases hempty
      rw [attach?_steps, attachAll?_eq r (step :: rest), nodes,
        List.find?_cons_of_neg (by simpa using hself), attached, if_neg (by simp)]
      cases (nodesAll (step :: rest)).find? fun n => Lacking r n <;> rfl

theorem attachAll?_eq (r : Registry F) : ∀ steps : List (Plan F),
    attachAll? r steps =
      match (nodesAll steps).find? fun n => Lacking r n with
      | some n => .error (.functionNotFound n.plugin n.name)
      | none => .ok (attachedAll r steps)
  | [] => rfl
  | step :: rest => by
      have hhead := attach?_eq r step
      have htail := attachAll?_eq r rest
      rw [attachAll?, nodesAll, List.find?_append]
      cases hstep : step.nodes.find? fun n => Lacking r n with
      | some n =>
          rw [hstep] at hhead
          rw [hhead]
          rfl
      | none =>
          rw [hstep] at hhead
          rw [hhead, Option.none_or]
          cases hrest : (nodesAll rest).find? fun n => Lacking r n with
          | some n =>
              rw [hrest] at htail
              rw [htail]
              rfl
          | none =>
              rw [hrest] at htail
              rw [htail]
              rfl

end

mutual

theorem bare_attached (r : Registry F) : ∀ p : Plan F, (p.attached r).bare = p.bare
  | ⟨_, _, _, _, _, _, _, steps, _, _, _⟩ => by
      rw [attached, bare, bareAll_attachedAll r steps, bare]

theorem bareAll_attachedAll (r : Registry F) : ∀ steps : List (Plan F),
    bareAll (attachedAll r steps) = bareAll steps
  | [] => rfl
  | step :: rest => by
      rw [attachedAll, bareAll, bare_attached r step, bareAll_attachedAll r rest, bareAll]

end

mutual

theorem nodes_attached (r : Registry F) : ∀ p : Plan F,
    (p.attached r).nodes = p.nodes.map (attached r)
  | ⟨_, _, _, _, _, _, _, steps, _, _, _⟩ => by
      rw [attached, nodes, nodes, List.map_cons, nodesAll_attachedAll r steps, attached]

theorem nodesAll_attachedAll (r : Registry F) : ∀ steps : List (Plan F),
    nodesAll (attachedAll r steps) = (nodesAll steps).map (attached r)
  | [] => rfl
  | step :: rest => by
      rw [attachedAll, nodesAll, nodesAll, List.map_append, nodes_attached r step,
        nodesAll_attachedAll r rest]

end

theorem isEmpty_attachedAll (r : Registry F) (steps : List (Plan F)) :
    (attachedAll r steps).isEmpty = steps.isEmpty := by
  cases steps <;> rfl

theorem function_attached_bare (r : Registry F) (p : Plan F) :
    (p.bare.attached r).function =
      if (p.bare.attached r).Marked then
        r.resolve? (some (p.bare.attached r).plugin) (p.bare.attached r).name
      else none := by
  cases p
  simp only [bare, attached, Marked, isEmpty_attachedAll]

theorem lacking_bare (r : Registry F) (p : Plan F) : Lacking r p.bare ↔ Lacking r p := by
  cases p
  simp only [Lacking, Marked, bare, isEmpty_bareAll]

theorem lacking_attached (r : Registry F) (p : Plan F) : Lacking r (p.attached r) ↔ Lacking r p := by
  cases p
  simp only [Lacking, Marked, attached, isEmpty_attachedAll]

theorem find?_lacking_bare (r : Registry F) (p : Plan F) :
    (p.bare.nodes.find? fun n => Lacking r n) = (p.nodes.find? fun n => Lacking r n).map bare := by
  simp only [nodes_bare, List.find?_map, Function.comp_def, lacking_bare]

theorem ofText?_toText_eq (r : Registry F) {p : Plan F}
    (hn : ∀ n ∈ p.nodes, n.nextStep < UInt64.size) (hd : p.toJson.depth < 128) :
    ofText? r p.toText =
      match p.nodes.find? fun n => Lacking r n with
      | some n => .error (.functionNotFound n.plugin n.name)
      | none => .ok (p.bare.attached r) := by
  rw [ofText?, read_toText hn hd]
  dsimp only
  rw [attach?_eq, find?_lacking_bare]
  cases p.nodes.find? fun n => Lacking r n with
  | some n =>
      cases n
      rfl
  | none => rfl

theorem function_of_not_lacking {r : Registry F} {p : Plan F}
    (h : ∀ n ∈ p.nodes, ¬ Lacking r n) : ∀ m ∈ (p.bare.attached r).nodes,
      (m.function.isSome = true ↔ m.Marked) ∧
        ∀ f, m.function = some f → r.resolve? (some m.plugin) m.name = some f := by
  intro m hm
  simp only [nodes_attached, nodes_bare, List.map_map, List.mem_map, Function.comp] at hm
  obtain ⟨n, hn, rfl⟩ := hm
  have hfunction := function_attached_bare r n
  by_cases hmarked : (n.bare.attached r).Marked
  · rw [if_pos hmarked] at hfunction
    have hfound : r.resolve? (some (n.bare.attached r).plugin) (n.bare.attached r).name ≠ none := by
      intro hnone
      exact h n hn ((lacking_bare r n).1 ((lacking_attached r n.bare).1 ⟨hmarked, hnone⟩))
    refine ⟨iff_of_true ?_ hmarked, fun f hf => hfunction.symm.trans hf⟩
    rw [hfunction]
    exact Option.isSome_iff_ne_none.2 hfound
  · rw [if_neg hmarked] at hfunction
    rw [hfunction]
    exact ⟨iff_of_false (by simp) hmarked, nofun⟩

/-- A text form gives the plan back but for its functions. Reading it then fails at the first leaf
that lacks a function, and otherwise the marked leaves hold those that the registry has for them. -/
theorem text_form_restores (r : Registry F) (p : Plan F)
    (hn : ∀ n ∈ p.nodes, n.nextStep < UInt64.size) (hd : p.toJson.depth < 128) :
    (Json.parse? p.toText).bind (ofJson? Json.depthLimit) = some p.bare ∧
      ((∃ e, ofText? r p.toText = .error e) ↔ ∃ n ∈ p.nodes, Lacking r n) ∧
      (∀ e, ofText? r p.toText = .error e →
        ∃ n, (p.nodes.find? fun n => Lacking r n) = some n ∧
          e = .functionNotFound n.plugin n.name) ∧
      ∀ q, ofText? r p.toText = .ok q →
        q.bare = p.bare ∧ ∀ m ∈ q.nodes, (m.function.isSome = true ↔ m.Marked) ∧
          ∀ f, m.function = some f → r.resolve? (some m.plugin) m.name = some f := by
  refine ⟨read_toText hn hd, ?_⟩
  rw [ofText?_toText_eq r hn hd]
  cases hfind : p.nodes.find? fun n => Lacking r n with
  | some n =>
      have hlacking : Lacking r n := by simpa using List.find?_some hfind
      refine ⟨iff_of_true ⟨_, rfl⟩ ⟨n, List.mem_of_find?_eq_some hfind, hlacking⟩, ?_, nofun⟩
      rintro _ ⟨⟩
      exact ⟨n, rfl, rfl⟩
  | none =>
      have hall : ∀ n ∈ p.nodes, ¬ Lacking r n := by simpa using hfind
      refine ⟨iff_of_false nofun ?_, nofun, ?_⟩
      · rintro ⟨n, hmem, hlacking⟩
        exact hall n hmem hlacking
      · rintro _ ⟨⟩
        exact ⟨by rw [bare_attached, bare_bare], function_of_not_lacking hall⟩

def renamed (name : String) : Plan (Function Unit) :=
  { ofFunction upper with name }

def remembering : Plan (Function Unit) :=
  { forGoal "plan" "a \x22quoted\x22 goal\n\u0001é"
      [ofFunction upper, forGoal "inner" "" [renamed "gone"], renamed "lost"] with
    state := Variables.empty.set "Ä\\" "\x7f", outputs := ["R"], nextStep := 1 }

theorem text_form_restores_remembering :
    (∀ n ∈ remembering.nodes, n.nextStep < UInt64.size) ∧ remembering.toJson.depth < 128 ∧
      (Json.parse? remembering.toText).bind (ofJson? Json.depthLimit) = some remembering.bare ∧
      ofText? registered remembering.toText = .error (.functionNotFound "text" "gone") := by
  have hn : ∀ n ∈ remembering.nodes, n.nextStep < UInt64.size := by decide
  have hd : remembering.toJson.depth < 128 := by decide
  obtain ⟨hread, hfails, hfirst, -⟩ := text_form_restores registered remembering hn hd
  have hlacking : ∃ n ∈ remembering.nodes, Lacking registered n := by decide
  obtain ⟨e, he⟩ := hfails.2 hlacking
  obtain ⟨n, hfind, rfl⟩ := hfirst e he
  have hnames : (remembering.nodes.find? fun n => Lacking registered n).map
      (fun n => (n.plugin, n.name)) = some ("text", "gone") := by decide
  rw [hfind] at hnames
  simp only [Option.map_some, Option.some.injEq, Prod.mk.injEq] at hnames
  rw [hnames.1, hnames.2] at he
  exact ⟨hn, hd, hread, he⟩

end Orchestra.Plan
