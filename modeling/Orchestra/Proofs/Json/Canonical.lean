import Orchestra.Proofs.Json.Bounds
import Orchestra.Proofs.Json.Sorting

namespace Orchestra.Json

variable {j k : Json}

def Exact : Json → Prop
  | .number n => n.Fits
  | _ => True

theorem plain_of_sorted (hs : k.Everywhere Sorted) (he : k.Everywhere Exact) : Plain k := by
  induction k using inductionOn with
  | mk k ih =>
      have hchildren : ∀ c ∈ k.children, Plain c := by
        intro c hc
        obtain ⟨key, hkey⟩ := exists_key hs.here hc
        exact ih c hc (hs.child hkey) (he.child hkey)
      cases k with
      | array items => exact plainItems_iff.2 hchildren
      | object members =>
          exact plainMembers_iff.2 fun m hm => hchildren m.2 (List.mem_map_of_mem hm)
      | number n => exact he.here
      | unreadable => exact hs.here.elim
      | _ => trivial

theorem Plain.everywhere (h : Plain k) : k.Everywhere Plain := by
  induction k using inductionOn with
  | mk k ih =>
      refine everywhere_of_children h fun c hc => ih c hc ?_
      cases k with
      | array items => exact plainItems_iff.1 h c hc
      | object members =>
          obtain ⟨m, hm, rfl⟩ := List.mem_map.1 hc
          exact plainMembers_iff.1 h m hm
      | _ => cases hc

theorem SortsTo.depth_le (h : SortsTo j k) : k.depth ≤ j.depth := by
  induction j using inductionOn generalizing k with
  | mk j ih =>
      have hchildren {n : Nat} (hj : j.depth ≤ n + 1) : k.depth ≤ n + 1 := by
        refine depth_le_succ_iff.2 fun c hc => ?_
        obtain ⟨key, hkey⟩ := exists_key h.sorted hc
        obtain ⟨d, hd, hdc⟩ := exists_of_rel (h.child? key) hkey
        have hmem := mem_children_of_child? hd
        exact (ih d hmem hdc).trans (depth_le_succ_iff.1 hj d hmem)
      rcases h.cases with ⟨items, ks, rfl, rfl, -⟩ | ⟨ms, ns, rfl, rfl, -⟩ | ⟨rfl, -, -⟩
      · exact hchildren (Nat.le_refl _)
      · exact hchildren (Nat.le_refl _)
      · exact Nat.le_refl _

theorem SortsTo.exact (h : SortsTo j k) (hj : j.Everywhere Fitting)
    (hk : ∀ path x, k.at? path ≠ some (.number (.float x))) : k.Everywhere Exact := by
  intro path c hc
  cases c with
  | number n =>
      cases n with
      | float x => exact absurd hc (hk path x)
      | whole n =>
          obtain ⟨d, hd, hdc⟩ := exists_of_rel (h.at? path) hc
          rcases hdc.cases with ⟨_, _, -, hne, -⟩ | ⟨_, _, -, hne, -⟩ | ⟨rfl, -, -⟩
          · cases hne
          · cases hne
          · exact hj path _ hd
  | _ => trivial

theorem compact_eq_empty_iff {members : List (String × Json)} :
    (object members).compact = "\x7b\x7d" ↔ members = [] := by
  rw [compact, ← String.toList_inj, String.toList_ofList]
  cases members with
  | nil => decide
  | cons m rest => simp [compactChars, compactMembers, joinWith_cons, quote]

theorem lookup_filter (p : String → Bool) (ms : List (String × Json)) (name : String) :
    (ms.filter fun m => p m.1).lookup name = if p name = true then ms.lookup name else none := by
  induction ms with
  | nil => simp
  | cons m ms ih =>
      rw [List.filter_cons, lookup_cons_eq]
      by_cases hname : name = m.1
      · subst hname
        by_cases hm : p m.1 = true <;> simp [hm, ih, lookup_cons_eq]
      · by_cases hm : p m.1 = true <;> simp [hm, ih, lookup_cons_eq, hname]

theorem child?_filter (p : String → Bool) (ms : List (String × Json)) (name : String) :
    (object (ms.filter fun m => p m.1)).child? (.name name) =
      if p name = true then (object ms).child? (.name name) else none := by
  rw [child?, child?, ← List.filter_reverse, lookup_filter]

theorem at?_filter {p : String → Bool} {name : String} (h : p name = true)
    (ms : List (String × Json)) (path : List Key) :
    (object (ms.filter fun m => p m.1)).at? (.name name :: path) =
      (object ms).at? (.name name :: path) := by
  rw [at?, at?, child?_filter, if_pos h]

theorem everywhere_filter {P : Json → Prop} (p : String → Bool) {ms : List (String × Json)}
    (h : (object ms).Everywhere P) (hroot : P (object (ms.filter fun m => p m.1))) :
    (object (ms.filter fun m => p m.1)).Everywhere P := by
  intro path c hc
  cases path with
  | nil =>
      cases hc
      exact hroot
  | cons key path =>
      obtain ⟨d, hd, hrest⟩ := Option.bind_eq_some_iff.1 hc
      cases key with
      | place i => cases hd
      | name name =>
          rw [child?_filter, Option.ite_none_right_eq_some] at hd
          exact h.child hd.2 path c hrest

theorem depth_filter_le (p : String → Bool) {ms : List (String × Json)} {n : Nat}
    (h : (object ms).depth ≤ n + 1) : (object (ms.filter fun m => p m.1)).depth ≤ n + 1 := by
  have hsub : (object (ms.filter fun m => p m.1)).children ⊆ (object ms).children :=
    List.map_subset _ (List.filter_subset_self ms)
  exact depth_le_succ_iff.2 fun c hc => depth_le_succ_iff.1 h c (hsub hc)

end Orchestra.Json
