import Mathlib.Data.Set.Card
import Orchestra.Context
import Orchestra.Proofs.Distinct

namespace Orchestra

variable {F : Type} [Described F]

/-- A change of a registry. -/
inductive Registration (F : Type)
  | register (f : F)
  | unregister (plugin : Option String) (name : String)

namespace Registration

def key : Registration F → FunctionKey
  | register f => keyOf f
  | unregister plugin name => .of plugin name

def function? : Registration F → Option F
  | register f => some f
  | unregister .. => none

end Registration

/-- The function registered last under a key, if the key was not unregistered since. -/
def lastRegistered? (changes : List (Registration F)) (key : FunctionKey) : Option F :=
  (changes.reverse.find? fun change => change.key = key).bind Registration.function?

/-- The order of listings: by plugin, then by name. -/
def Signature.Before (s t : Signature) : Prop :=
  s.plugin < t.plugin ∨ s.plugin = t.plugin ∧ s.name < t.name

theorem Signature.Before.asymm {s t : Signature} (h : s.Before t) : ¬ t.Before s := by
  unfold Signature.Before at *
  grind

section Sorting

variable {α : Type} {le : α → α → Bool} {apart before : α → α → Prop}

theorem pairwise_mergeSort_of_apart (htrans : ∀ x y z, le x y = true → le y z = true → le x z = true)
    (htotal : ∀ x y, (le x y || le y x) = true) (hsymm : ∀ {x y}, apart x y → apart y x)
    (hbefore : ∀ {x y}, le x y = true ∧ apart x y → before x y) {xs : List α}
    (h : xs.Pairwise apart) : (xs.mergeSort le).Pairwise before := by
  have hle := List.pairwise_mergeSort htrans htotal xs
  have hapart := (List.Perm.pairwise_iff hsymm (List.mergeSort_perm xs le)).2 h
  exact (hle.and hapart).imp hbefore

theorem mergeSort_eq_of_perm (hasymm : ∀ {x y}, before x y → ¬ before y x) {xs ys : List α}
    (hxs : (xs.mergeSort le).Pairwise before) (hys : (ys.mergeSort le).Pairwise before)
    (hperm : xs.Perm ys) : xs.mergeSort le = ys.mergeSort le := by
  refine List.Perm.eq_of_pairwise (fun x y _ _ hxy hyx => absurd hyx (hasymm hxy)) hxs hys ?_
  exact (List.mergeSort_perm xs le).trans (hperm.trans (List.mergeSort_perm ys le).symm)

end Sorting

namespace Registry

def change (r : Registry F) : Registration F → Registry F
  | .register f => r.register f
  | .unregister plugin name => (r.unregister plugin name).2

def ofChanges (changes : List (Registration F)) : Registry F :=
  changes.foldl change empty

structure Alike (r r' : Registry F) : Prop where
  resolve? : ∀ plugin name, r.resolve? plugin name = r'.resolve? plugin name
  get? : ∀ plugin name, r.get? plugin name = r'.get? plugin name
  contains : ∀ plugin name, r.contains plugin name = r'.contains plugin name
  unregister : ∀ plugin name, (r.unregister plugin name).1 = (r'.unregister plugin name).1
  count : r.count = r'.count
  views : r.views = r'.views
  pluginViews : ∀ plugin, r.pluginViews plugin = r'.pluginViews plugin

theorem find?_change (r : Registry F) (change : Registration F) (key : FunctionKey) :
    (r.change change).find? key = if change.key = key then change.function? else r.find? key := by
  cases change with
  | register f => exact r.find?_register f key
  | unregister plugin name => exact r.find?_erase (.of plugin name) key

theorem find?_ofChanges (changes : List (Registration F)) (key : FunctionKey) :
    (ofChanges changes).find? key = lastRegistered? changes key := by
  induction changes using List.reverseRecOn with
  | nil => rfl
  | append_singleton changes change ih =>
      rw [ofChanges, List.foldl_concat, ← ofChanges, find?_change, ih, lastRegistered?,
        lastRegistered?, List.reverse_concat, List.find?_cons]
      by_cases h : change.key = key <;> simp [h]

theorem find?_eq_some_iff {r : Registry F} {key : FunctionKey} {f : F} :
    r.find? key = some f ↔ f ∈ r.functions ∧ keyOf f = key :=
  KeysDistinct.find?_eq_some_iff r.distinct

theorem mem_functions_iff {r : Registry F} {f : F} :
    f ∈ r.functions ↔ ∃ key, r.find? key = some f := by
  simp [find?_eq_some_iff]

theorem perm_of_find? {r r' : Registry F} (h : ∀ key, r.find? key = r'.find? key) :
    r.functions.Perm r'.functions := by
  have hnodup (r : Registry F) : r.functions.Nodup := KeysDistinct.nodup r.distinct
  refine (List.perm_ext_iff_of_nodup (hnodup r) (hnodup r')).2 fun f => ?_
  simp only [mem_functions_iff, h]

theorem count_eq_ncard (r : Registry F) :
    r.count = {key | (r.find? key).isSome = true}.ncard := by
  have hkeys : {key | (r.find? key).isSome = true} = (r.functions.map keyOf).toFinset := by
    ext key
    simp [Option.isSome_iff_exists, find?_eq_some_iff]
  have hnodup : (r.functions.map keyOf).Nodup := List.pairwise_map.2 r.distinct
  rw [hkeys, Set.ncard_coe_finset, List.toFinset_card_of_nodup hnodup, List.length_map]
  rfl

theorem keys_signatures (r : Registry F) : KeysDistinct FunctionKey.ofSignature r.signatures :=
  List.pairwise_map.2 r.distinct

theorem pairwise_views (r : Registry F) : r.views.Pairwise Signature.Before := by
  refine pairwise_mergeSort_of_apart ?_ ?_ (fun hne => hne.symm) ?_ r.keys_signatures
  · intro s t u
    simp only [Bool.or_eq_true, Bool.and_eq_true, decide_eq_true_eq]
    grind
  · intro s t
    simp only [Bool.or_eq_true, Bool.and_eq_true, decide_eq_true_eq]
    grind
  · intro s t
    simp only [Bool.or_eq_true, Bool.and_eq_true, decide_eq_true_eq, Signature.Before]
    rintro ⟨hlt | ⟨hplugin, hname⟩, hne⟩
    · exact .inl hlt
    · have : s.name ≠ t.name := fun h => hne (by rw [FunctionKey.ofSignature, hplugin, h]; rfl)
      grind

theorem names_apart (r : Registry F) (plugin : String) :
    (r.signatures.filter fun s =>
      (FunctionKey.ofSignature s).plugin = Text.lowercase plugin).Pairwise
        fun s t => s.name ≠ t.name := by
  refine List.Pairwise.imp_of_mem ?_ (r.keys_signatures.filter _)
  intro s t hs ht hne hname
  have hplugin : (FunctionKey.ofSignature s).plugin = (FunctionKey.ofSignature t).plugin := by
    rw [of_decide_eq_true (List.mem_filter.1 hs).2, of_decide_eq_true (List.mem_filter.1 ht).2]
  refine hne ?_
  rw [FunctionKey.mk.injEq]
  exact ⟨hplugin, congrArg Text.lowercase hname⟩

theorem pairwise_pluginViews (r : Registry F) (plugin : String) :
    (r.pluginViews plugin).Pairwise fun s t => s.name < t.name := by
  refine pairwise_mergeSort_of_apart ?_ ?_ (fun hne => hne.symm) ?_ (r.names_apart plugin)
  · intro s t u
    simp only [decide_eq_true_eq]
    exact String.le_trans
  · intro s t
    simpa using String.le_total s.name t.name
  · intro s t
    simp only [decide_eq_true_eq]
    grind

theorem mem_views_iff {r : Registry F} {s : Signature} :
    s ∈ r.views ↔ ∃ key f, r.find? key = some f ∧ signature f = s := by
  rw [views, (List.mergeSort_perm ..).mem_iff, signatures, List.mem_map]
  simp only [mem_functions_iff]
  exact ⟨fun ⟨f, ⟨key, h⟩, hs⟩ => ⟨key, f, h, hs⟩, fun ⟨key, f, h, hs⟩ => ⟨f, ⟨key, h⟩, hs⟩⟩

theorem alike_of_find? {r r' : Registry F} (h : ∀ key, r.find? key = r'.find? key) : Alike r r' := by
  have hresolve (plugin : Option String) (name : String) :
      r.resolve? plugin name = r'.resolve? plugin name := h _
  have hperm := perm_of_find? h
  have hsignatures : r.signatures.Perm r'.signatures := hperm.map signature
  exact {
    resolve? := hresolve
    get? := fun plugin name => by rw [get?, get?, hresolve]
    contains := fun plugin name => by rw [contains, contains, hresolve]
    unregister := hresolve
    count := hperm.length_eq
    views := mergeSort_eq_of_perm Signature.Before.asymm r.pairwise_views r'.pairwise_views hsignatures
    pluginViews := fun plugin =>
      mergeSort_eq_of_perm (fun h => String.lt_asymm h) (r.pairwise_pluginViews plugin)
        (r'.pairwise_pluginViews plugin) (hsignatures.filter _) }

theorem alike_of_perm {r r' : Registry F} (h : r.functions.Perm r'.functions) : Alike r r' :=
  alike_of_find? fun key => KeysDistinct.find?_perm r.distinct h key

theorem lastRegistered?_append (changes : List (Registration F)) {fs : List F}
    (h : KeysDistinct keyOf fs) (key : FunctionKey) :
    lastRegistered? (changes ++ fs.map .register) key =
      (fs.find? fun f => keyOf f = key).or (lastRegistered? changes key) := by
  have hlast : ((fs.map Registration.register).reverse.find? fun change => change.key = key) =
      (fs.find? fun f => keyOf f = key).map .register := by
    have hkey (f : F) : decide ((Registration.register f).key = key) = decide (keyOf f = key) := rfl
    rw [← List.map_reverse, List.find?_map, h.find?_perm fs.reverse_perm.symm]
    simp only [Function.comp_def, hkey]
  rw [lastRegistered?, List.reverse_append, List.find?_append, hlast]
  cases fs.find? fun f => keyOf f = key with
  | none => rfl
  | some f => rfl

theorem alike_of_registered (changes : List (Registration F)) {fs gs : List F} (hperm : fs.Perm gs)
    (h : KeysDistinct keyOf fs) :
    Alike (ofChanges (changes ++ fs.map .register)) (ofChanges (changes ++ gs.map .register)) := by
  refine alike_of_find? fun key => ?_
  rw [find?_ofChanges, find?_ofChanges, lastRegistered?_append changes h,
    lastRegistered?_append changes (h.perm hperm), h.find?_perm hperm]

/-- A registry finds what was registered last under a key and not unregistered since, it counts the
keys that hold something, and it lists each of these functions once, in the order of the names.
Neither the order in which it keeps its functions nor the order in which functions of different keys
were registered can be told from its answers. -/
theorem finds_last_registered (changes : List (Registration F)) :
    let r := ofChanges changes
    (∀ name, FunctionKey.of none name = .of (some "_GLOBAL_FUNCTIONS_") name ∧
      FunctionKey.of (some "") name = .of (some "_GLOBAL_FUNCTIONS_") name) ∧
    (∀ plugin name,
      let found := lastRegistered? changes (.of plugin name)
      r.resolve? plugin name = found ∧
      r.contains plugin name = found.isSome ∧
      r.get? plugin name =
        (match found with
        | some f => .ok f
        | none => .error (.functionNotFound (plugin.getD globalPlugin) name)) ∧
      (r.unregister plugin name).1 = found ∧
      (r.unregister plugin name).2.resolve? plugin name = none ∧
      ∀ other name', FunctionKey.of other name' ≠ .of plugin name →
        (r.unregister plugin name).2.resolve? other name' = r.resolve? other name') ∧
    r.count = {key | (lastRegistered? changes key).isSome = true}.ncard ∧
    r.views.Pairwise Signature.Before ∧ r.views.length = r.count ∧
    (∀ s, s ∈ r.views ↔ ∃ key f, lastRegistered? changes key = some f ∧ signature f = s) ∧
    (∀ r' : Registry F, r.functions.Perm r'.functions → Alike r r') ∧
    ∀ fs gs : List F, fs.Perm gs → KeysDistinct keyOf fs →
      Alike (ofChanges (changes ++ fs.map .register)) (ofChanges (changes ++ gs.map .register)) := by
  intro r
  have hresolve (plugin : Option String) (name : String) :
      r.resolve? plugin name = lastRegistered? changes (.of plugin name) :=
    find?_ofChanges changes _
  refine ⟨fun name => ⟨rfl, rfl⟩, ?_, ?_, r.pairwise_views, ?_, ?_, fun r' => alike_of_perm,
    fun fs gs => alike_of_registered changes⟩
  · intro plugin name found
    refine ⟨hresolve plugin name, ?_, ?_, hresolve plugin name, ?_, ?_⟩
    · rw [contains, hresolve]
    · have hfound : found = r.resolve? plugin name := (hresolve plugin name).symm
      rw [hfound]
      rfl
    · exact (r.find?_erase _ _).trans (if_pos rfl)
    · intro other name' hne
      exact (r.find?_erase _ _).trans (if_neg hne.symm)
  · rw [count_eq_ncard]
    simp only [r, find?_ofChanges]
  · rw [views, (List.mergeSort_perm ..).length_eq, signatures, List.length_map, count]
  · intro s
    simp only [mem_views_iff, r, find?_ofChanges]

structure Label where
  plugin : String
  name : String
deriving DecidableEq

instance : Described Label where
  signature f := { name := f.name, plugin := f.plugin }

def replaced : List (Registration Label) :=
  [.register ⟨"", "Echo"⟩, .register ⟨"_GLOBAL_FUNCTIONS_", "echo"⟩, .register ⟨"a", "f"⟩,
    .unregister (some "A") "F"]

def newcomers : List Label :=
  [⟨"b", "g"⟩, ⟨"a", "f"⟩]

theorem finds_last_registered_replaced :
    (ofChanges replaced).resolve? none "ECHO" = some ⟨"_GLOBAL_FUNCTIONS_", "echo"⟩ ∧
      newcomers.Perm newcomers.reverse ∧ KeysDistinct keyOf newcomers ∧
      Alike (ofChanges (replaced ++ newcomers.map .register))
        (ofChanges (replaced ++ newcomers.reverse.map .register)) := by
  obtain ⟨-, hfound, -, -, -, -, -, hrow⟩ := finds_last_registered replaced
  have hperm : newcomers.Perm newcomers.reverse := newcomers.reverse_perm.symm
  have hkeys : KeysDistinct keyOf newcomers := by decide +kernel
  refine ⟨?_, hperm, hkeys, hrow _ _ hperm hkeys⟩
  rw [(hfound none "ECHO").1]
  decide +kernel

end Registry

end Orchestra
