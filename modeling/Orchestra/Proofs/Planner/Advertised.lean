import Orchestra.Function
import Orchestra.Planner.Basic
import Orchestra.Proofs.Plan.LoneStep
import Orchestra.Proofs.Registration
import Orchestra.Proofs.Text.Lowercase

namespace Orchestra

open Text

namespace Plan

theorem callName_plain {qualified : String} (h : '.' ∉ qualified.toList) :
    callName qualified = ("", qualified) := by
  rw [callName, List.dropWhile_eq_nil_iff.2 (all_ne_of_not_mem h)]

theorem callName_dot {front : String} (back : String) (h : '.' ∉ front.toList) :
    callName (front ++ "." ++ back) = (front, back) := by
  have hspan := span_append (all_ne_of_not_mem h) (r := '.' :: back.toList) (by simp)
  have hlist : (front ++ "." ++ back).toList = front.toList ++ '.' :: back.toList := by simp
  rw [callName, hlist, hspan.1, hspan.2]
  simp

theorem exists_first_dot {name : String} (h : '.' ∈ name.toList) :
    ∃ front back : String, name = front ++ "." ++ back ∧ '.' ∉ front.toList := by
  obtain ⟨front, back, hname, hfront⟩ := List.eq_append_cons_of_mem h
  refine ⟨String.ofList front, String.ofList back, ?_, by simpa using hfront⟩
  rw [← String.toList_inj, hname]
  simp

end Plan

namespace Signature

open Plan

/-- What a reader must take for the plugin, or for the name where no plugin is written. -/
def leading (s : Signature) : String :=
  if s.plugin = "" ∨ s.plugin = globalPlugin then s.name else s.plugin

/-- A name of an element in which the first dot is the one between plugin and name. -/
structure Readable (s : Signature) : Prop where
  undotted : '.' ∉ s.leading.toList
  unprefixed : ':' ∉ s.qualifiedName.toList

theorem pluginOf_global {s : Signature} (h : s.plugin = "" ∨ s.plugin = globalPlugin) :
    pluginOf s.plugin = globalPlugin := by
  rcases h with h | h <;> rw [h] <;> rfl

theorem of_callName_eq_iff (s : Signature) :
    FunctionKey.of (some (callName s.qualifiedName).1) (callName s.qualifiedName).2 =
        .ofSignature s ↔ '.' ∉ s.leading.toList := by
  by_cases hglobal : s.plugin = "" ∨ s.plugin = globalPlugin
  · have hkey : FunctionKey.ofSignature s = ⟨lowercase globalPlugin, lowercase s.name⟩ := by
      rw [FunctionKey.ofSignature, FunctionKey.of, Option.getD_some, pluginOf_global hglobal]
    rw [qualifiedName, leading, if_pos hglobal, if_pos hglobal, hkey]
    constructor
    · intro h hdot
      obtain ⟨front, back, hname, hfront⟩ := exists_first_dot hdot
      rw [hname, callName_dot back hfront] at h
      have hfront' : front ++ "." ≠ "" := by simp
      exact lowercase_append_ne hfront' (congrArg FunctionKey.name h).symm
    · intro hdot
      rw [callName_plain hdot]
      rfl
  · rw [qualifiedName, leading, if_neg hglobal, if_neg hglobal]
    constructor
    · intro h hdot
      obtain ⟨front, back, hplugin, hfront⟩ := exists_first_dot hdot
      have hqualified : s.plugin ++ "." ++ s.name = front ++ "." ++ (back ++ "." ++ s.name) := by
        rw [hplugin]
        simp only [String.append_assoc]
      rw [hqualified, callName_dot _ hfront] at h
      have hback : back ++ "." ≠ "" := by simp
      exact lowercase_append_ne hback (congrArg FunctionKey.name h)
    · intro hdot
      rw [callName_dot s.name hdot]
      rfl

end Signature

namespace Planner

open Plan

variable {F : Type} [Described F]

/-- A listed function is called by the name it is listed under just when that name is readable.
Otherwise a plan that calls it gets no step for the function, whatever step it may get instead. -/
theorem listed_called_iff {config : PlannerConfig} {r : Registry F} {s : Signature}
    (hs : s ∈ r.views.filter config.offers)
    (hname : ∀ c ∈ s.qualifiedName.toList, Xml.isNameChar c = true) (missing : MissingFunctions)
    (p : Plan F) :
    ∃ f ∈ r.functions, signature f = s ∧
      (p.addMarkup? r missing (loneStep s.qualifiedName) =
          .ok { p with steps := p.steps ++ [ofFunction f] } ↔ s.Readable) ∧
      (¬ s.Readable → ∀ q, p.addMarkup? r missing (loneStep s.qualifiedName) = .ok q →
        ∃ steps, q.steps = p.steps ++ steps ∧ ∀ step ∈ steps, step.function ≠ some f) := by
  obtain ⟨key, f, hf, rfl⟩ := Registry.mem_views_iff.1 (List.mem_filter.1 hs).1
  have hfunctions : f ∈ r.functions := (Registry.find?_eq_some_iff.1 hf).1
  have hresolve : r.resolve? (some (callName (signature f).qualifiedName).1)
      (callName (signature f).qualifiedName).2 = some f ↔ '.' ∉ (signature f).leading.toList := by
    rw [Registry.resolve?, Registry.find?_eq_some_iff, ← Signature.of_callName_eq_iff, keyOf,
      eq_comm, and_iff_right hfunctions]
  have hother : ¬ (signature f).Readable → ∀ q,
      p.addMarkup? r missing (loneStep (signature f).qualifiedName) = .ok q →
        ∃ steps, q.steps = p.steps ++ steps ∧ ∀ step ∈ steps, step.function ≠ some f := by
    intro hread q hq
    by_cases hcolon : ':' ∈ (signature f).qualifiedName.toList
    · obtain ⟨e, he⟩ := document?_loneStep_colon hname hcolon
      rw [addMarkup?_of_error he] at hq
      cases hq
    · have hdot : ¬ '.' ∉ (signature f).leading.toList := fun hdot => hread ⟨hdot, hcolon⟩
      rw [addMarkup?_loneStep hname hcolon] at hq
      rw [← hresolve] at hdot
      split at hq
      · rename_i g hg
        cases hq
        refine ⟨[ofFunction g], rfl, List.forall_mem_singleton.2 fun he => hdot ?_⟩
        rw [hg]
        exact he
      · cases hq
        exact ⟨[], (List.append_nil _).symm, List.forall_mem_nil _⟩
      · cases hq
  refine ⟨f, hfunctions, rfl, ⟨fun h => ?_, fun hread => ?_⟩, hother⟩
  · by_contra hread
    obtain ⟨steps, hsteps, hnone⟩ := hother hread _ h
    obtain rfl := List.append_cancel_left hsteps
    exact hnone _ (List.mem_singleton_self _) rfl
  · rw [addMarkup?_loneStep hname hread.unprefixed, hresolve.2 hread.undotted]

def lone (plugin name : String) : Registry (Function Unit) :=
  Registry.empty.register (.ofText plugin name "" [] pure)

theorem mem_views_lone (plugin name : String) :
    signature (Function.ofText plugin name "" [] pure : Function Unit) ∈
      (lone plugin name).views :=
  Registry.mem_views_iff.2
    ⟨_, _, Registry.find?_eq_some_iff.2 ⟨List.mem_singleton_self _, rfl⟩, rfl⟩

theorem listed_called_iff_behind_plugin :
    let s := signature (Function.ofText "Text" "upper.case" "" [] pure : Function Unit)
    s ∈ (lone "Text" "upper.case").views.filter ({} : PlannerConfig).offers ∧
      (∀ c ∈ s.qualifiedName.toList, Xml.isNameChar c = true) ∧
      (forGoal "plan" "goal").addMarkup? (lone "Text" "upper.case") .fail
          "<plan><function.Text.upper.case/></plan>" =
        .ok (forGoal "plan" "goal" [ofFunction (.ofText "Text" "upper.case" "" [] pure)]) := by
  intro s
  have hs : s ∈ (lone "Text" "upper.case").views.filter ({} : PlannerConfig).offers :=
    List.mem_filter.2 ⟨mem_views_lone _ _, by decide⟩
  have hname : ∀ c ∈ s.qualifiedName.toList, Xml.isNameChar c = true :=
    List.all_eq_true.1 (by decide)
  obtain ⟨f, hf, -, hstep, -⟩ := listed_called_iff hs hname .fail (forGoal "plan" "goal")
  obtain rfl := List.mem_singleton.1 hf
  exact ⟨hs, hname, hstep.2 ⟨by decide, by decide⟩⟩

/-- A plugin with a dot in its name. Its function is listed with the plugin in front, and the plan
that calls it so gets no step. -/
theorem listed_not_called :
    let s := signature (Function.ofText "my.tools" "upper" "" [] pure : Function Unit)
    s ∈ (lone "my.tools" "upper").views.filter ({} : PlannerConfig).offers ∧
      s.qualifiedName = "my.tools.upper" ∧
      (∀ c ∈ s.qualifiedName.toList, Xml.isNameChar c = true) ∧
      ∀ p : Plan (Function Unit),
        p.addMarkup? (lone "my.tools" "upper") .skip (loneStep s.qualifiedName) = .ok p ∧
        p.addMarkup? (lone "my.tools" "upper") .fail (loneStep s.qualifiedName) =
          .error (.functionNotFound "my" "tools.upper") := by
  intro s
  have hname : ∀ c ∈ s.qualifiedName.toList, Xml.isNameChar c = true :=
    List.all_eq_true.1 (by decide)
  have hcolon : ':' ∉ s.qualifiedName.toList := by decide
  have hqualified : s.qualifiedName = "my" ++ "." ++ "tools.upper" := by decide
  have hread : callName s.qualifiedName = ("my", "tools.upper") := by
    rw [hqualified, callName_dot _ (by decide)]
  have hnone : (lone "my.tools" "upper").resolve? (some "my") "tools.upper" = none := by
    decide +kernel
  refine ⟨List.mem_filter.2 ⟨mem_views_lone _ _, by decide⟩, rfl, hname, fun p => ⟨?_, ?_⟩⟩
  · rw [addMarkup?_loneStep hname hcolon, hread, hnone]
  · rw [addMarkup?_loneStep hname hcolon, hread, hnone]

end Planner

end Orchestra
