import Orchestra.Proofs.Registration
import Orchestra.Proofs.Text.Lowercase

namespace Orchestra

variable {F : Type} [Described F]

namespace Registry

/-- The functions that are found in a plugin, in the order of their names. -/
structure Lists (r : Registry F) (plugin : String) (ss : List Signature) : Prop where
  ordered : ss.Pairwise fun s t => s.name < t.name
  mem_iff : ∀ s, s ∈ ss ↔
    s ∈ r.views ∧ ∃ f, r.resolve? (some plugin) s.name = some f ∧ signature f = s

variable {r : Registry F} {plugin other : String} {ss ts : List Signature}

theorem Lists.congr (h : ∀ name, r.resolve? (some plugin) name = r.resolve? (some other) name) :
    Lists r plugin ss ↔ Lists r other ss := by
  have hmem (s : Signature) :
      (∃ f, r.resolve? (some plugin) s.name = some f ∧ signature f = s) ↔
        ∃ f, r.resolve? (some other) s.name = some f ∧ signature f = s := by
    rw [h]
  constructor
  · rintro ⟨hordered, hlisted⟩
    exact ⟨hordered, fun s => (hlisted s).trans (and_congr_right' (hmem s))⟩
  · rintro ⟨hordered, hlisted⟩
    exact ⟨hordered, fun s => (hlisted s).trans (and_congr_right' (hmem s).symm)⟩

theorem Lists.unique (hs : Lists r plugin ss) (ht : Lists r plugin ts) : ss = ts := by
  have hnodup {us : List Signature} (hu : us.Pairwise fun s t => s.name < t.name) : us.Nodup :=
    hu.imp fun {s t} (hlt : s.name < t.name) (heq : s = t) => String.lt_irrefl t.name (heq ▸ hlt)
  refine List.Perm.eq_of_pairwise (fun s t _ _ hst hts => absurd hts (String.lt_asymm hst))
    hs.ordered ht.ordered ?_
  refine (List.perm_ext_iff_of_nodup (hnodup hs.ordered) (hnodup ht.ordered)).2 fun s => ?_
  rw [hs.mem_iff, ht.mem_iff]

theorem resolve?_name_iff {f : F} (hf : f ∈ r.functions) :
    (∃ g, r.resolve? (some plugin) (signature f).name = some g ∧ signature g = signature f) ↔
      (keyOf f).plugin = Text.lowercase (Signature.pluginOf plugin) := by
  constructor
  · rintro ⟨g, hg, hsame⟩
    have hkey : keyOf f = .of (some plugin) (signature f).name := by
      rw [keyOf, ← hsame]
      exact keyOf_of_find? (hsame ▸ hg)
    rw [hkey]
    rfl
  · intro hplugin
    have hkey : keyOf f = .of (some plugin) (signature f).name := by
      rw [FunctionKey.of, FunctionKey.mk.injEq]
      exact ⟨hplugin, rfl⟩
    exact ⟨f, find?_eq_some_iff.2 ⟨hf, hkey⟩, rfl⟩

theorem lists_of_lowercase
    (h : Text.lowercase other = Text.lowercase (Signature.pluginOf plugin)) :
    Lists r plugin (r.pluginViews other) where
  ordered := r.pairwise_pluginViews other
  mem_iff s := by
    rw [pluginViews, (List.mergeSort_perm ..).mem_iff, List.mem_filter, decide_eq_true_iff, views,
      (List.mergeSort_perm ..).mem_iff, h]
    refine and_congr_right fun hs => ?_
    obtain ⟨f, hf, rfl⟩ := List.mem_map.1 hs
    exact (resolve?_name_iff hf).symm

theorem lists_nil_iff : Lists r plugin [] ↔ ∀ name, r.resolve? (some plugin) name = none := by
  constructor
  · intro h name
    refine Option.eq_none_iff_forall_ne_some.2 fun f hf => ?_
    have hmem : signature f ∈ r.views := mem_views_iff.2 ⟨_, f, hf, rfl⟩
    have hkey : keyOf f = .of (some plugin) name := keyOf_of_find? hf
    have hplugin : (keyOf f).plugin = Text.lowercase (Signature.pluginOf plugin) := by
      rw [hkey]
      rfl
    have hfound := (resolve?_name_iff (find?_eq_some_iff.1 hf).1).2 hplugin
    exact List.not_mem_nil ((h.mem_iff _).2 ⟨hmem, hfound⟩)
  · intro h
    refine ⟨.nil, fun s => ⟨fun hs => absurd hs List.not_mem_nil, ?_⟩⟩
    rintro ⟨-, f, hf, -⟩
    rw [h] at hf
    cases hf

theorem pluginViews_empty (r : Registry F) : r.pluginViews "" = [] := by
  have hnone : (r.signatures.filter fun s =>
      (FunctionKey.ofSignature s).plugin = Text.lowercase "") = [] := by
    refine List.filter_eq_nil_iff.2 fun s _ => ?_
    have hplugin : Signature.pluginOf s.plugin ≠ "" := by
      unfold Signature.pluginOf
      split
      · decide
      · assumption
    have hne : Text.lowercase (Signature.pluginOf s.plugin ++ "") ≠ Text.lowercase "" :=
      Text.lowercase_append_ne hplugin
    rw [String.append_empty] at hne
    exact mt of_decide_eq_true hne
  rw [pluginViews, hnone, List.mergeSort_nil]

theorem lists_pluginViews_of_ne (h : plugin ≠ "") : Lists r plugin (r.pluginViews plugin) :=
  lists_of_lowercase (by rw [Signature.pluginOf, if_neg h])

/-- Listing a plugin agrees with finding its functions, except under the empty name: that one means
the global plugin wherever functions are found, and lists nothing. -/
theorem lists_pluginViews_iff (changes : List (Registration F)) (plugin : String) :
    let r := ofChanges changes
    (Lists r plugin (r.pluginViews plugin) ↔
        plugin ≠ "" ∨ ∀ name, r.resolve? none name = none) ∧
      (∀ ss, Lists r plugin ss ↔ ss = r.pluginViews (Signature.pluginOf plugin)) ∧
      ∀ other, (∀ name, r.resolve? (some plugin) name = r.resolve? (some other) name) →
        (r.pluginViews plugin = r.pluginViews other ↔
          (plugin = "" ↔ other = "") ∨ ∀ name, r.resolve? (some plugin) name = none) := by
  intro r
  have hempty : Lists r "" [] ↔ ∀ name, r.resolve? none name = none := lists_nil_iff
  have hright : Lists r plugin (r.pluginViews (Signature.pluginOf plugin)) := by
    refine lists_of_lowercase ?_
    rfl
  refine ⟨?_, fun ss => ⟨fun hss => hss.unique hright, fun hss => hss ▸ hright⟩, ?_⟩
  · by_cases h : plugin = ""
    · subst h
      rw [pluginViews_empty, hempty]
      simp
    · simp [h, lists_pluginViews_of_ne h]
  · intro other hsame
    by_cases h : plugin = "" <;> by_cases h' : other = ""
    · simp [h, h']
    · subst h
      have hother : Lists r "" (r.pluginViews other) :=
        (Lists.congr hsame).2 (lists_pluginViews_of_ne h')
      simp only [pluginViews_empty, h', not_true_eq_false, false_or, iff_false]
      rw [← lists_nil_iff]
      exact ⟨fun he => he ▸ hother, fun hnil => hnil.unique hother⟩
    · subst h'
      have hplugin : Lists r plugin (r.pluginViews plugin) := lists_pluginViews_of_ne h
      simp only [pluginViews_empty, h, iff_true, false_or]
      rw [← lists_nil_iff]
      exact ⟨fun he => he ▸ hplugin, fun hnil => hplugin.unique hnil⟩
    · have hother : Lists r plugin (r.pluginViews other) :=
        (Lists.congr hsame).2 (lists_pluginViews_of_ne h')
      simp [h, h', (lists_pluginViews_of_ne h).unique hother]

def stocked : List (Registration Label) :=
  [.register ⟨"text", "b"⟩, .register ⟨"tools", "b"⟩, .register ⟨"", "echo"⟩,
    .register ⟨"Text", "b"⟩, .register ⟨"text", "A"⟩, .unregister (some "Tools") "B"]

theorem lists_pluginViews_iff_stocked :
    (∀ name, (ofChanges stocked).resolve? (some "TEXT") name =
        (ofChanges stocked).resolve? (some "text") name) ∧
      (ofChanges stocked).pluginViews "TEXT" = (ofChanges stocked).pluginViews "text" ∧
      Lists (ofChanges stocked) "TEXT"
        [{ name := "A", plugin := "text" }, { name := "b", plugin := "Text" }] := by
  have hsame (name : String) : (ofChanges stocked).resolve? (some "TEXT") name =
      (ofChanges stocked).resolve? (some "text") name :=
    congrArg (fun plugin => (ofChanges stocked).find? ⟨plugin, Text.lowercase name⟩)
      (by decide +kernel : Text.lowercase "TEXT" = Text.lowercase "text")
  obtain ⟨hlists, -, hother⟩ := lists_pluginViews_iff stocked "TEXT"
  have hviews : (ofChanges stocked).pluginViews "TEXT" =
      [{ name := "A", plugin := "text" }, { name := "b", plugin := "Text" }] := by
    have hfilter : ((ofChanges stocked).signatures.filter fun s =>
        (FunctionKey.ofSignature s).plugin = Text.lowercase "TEXT") =
          [{ name := "A", plugin := "text" }, { name := "b", plugin := "Text" }] := by
      decide +kernel
    rw [pluginViews, hfilter]
    exact List.mergeSort_of_pairwise (by decide)
  exact ⟨hsame, (hother "text" hsame).2 (.inl (by decide)), hviews ▸ hlists.2 (.inl (by decide))⟩

/-- A function without a plugin is found under the empty name and not listed there. -/
theorem global_not_listed :
    (ofChanges [.register (⟨"", "echo"⟩ : Label)]).resolve? (some "") "echo" = some ⟨"", "echo"⟩ ∧
      (ofChanges [.register (⟨"", "echo"⟩ : Label)]).views = [{ name := "echo", plugin := "" }] ∧
      (ofChanges [.register (⟨"", "echo"⟩ : Label)]).pluginViews "" = [] ∧
      ¬ Lists (ofChanges [.register (⟨"", "echo"⟩ : Label)]) "" [] := by
  have hfound : (ofChanges [.register (⟨"", "echo"⟩ : Label)]).resolve? (some "") "echo" =
      some ⟨"", "echo"⟩ := by
    decide +kernel
  refine ⟨hfound, by decide +kernel, pluginViews_empty _, fun h => ?_⟩
  rw [lists_nil_iff.1 h] at hfound
  cases hfound

end Registry

end Orchestra
