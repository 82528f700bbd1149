import Mathlib.Data.List.Forall2
import Orchestra.Proofs.Distinct
import Orchestra.Proofs.Json.Paths

namespace Orchestra.Json

section

variable {α : Type} {ms : List (String × α)}

def Ascending (ms : List (String × α)) : Prop :=
  ms.Pairwise fun m n => m.1 < n.1

theorem lt_of_not_lt {a b : String} (h : ¬ a < b) (hne : a ≠ b) : b < a := by
  refine Decidable.byContradiction fun k => ?_
  exact hne (String.le_antisymm (String.not_lt.1 k) (String.not_lt.1 h))

theorem mem_putSorted {name : String} {value : α} {m : String × α}
    (h : m ∈ putSorted name value ms) : m = (name, value) ∨ m ∈ ms := by
  induction ms with
  | nil => exact .inl (List.mem_singleton.1 h)
  | cons n ms ih =>
      simp only [putSorted] at h
      split at h
      · exact List.mem_cons.1 h
      · split at h
        · exact (List.mem_cons.1 h).imp_right fun hm => List.mem_cons_of_mem _ hm
        · rcases List.mem_cons.1 h with rfl | hm
          · exact .inr List.mem_cons_self
          · exact (ih hm).imp_right fun hm => List.mem_cons_of_mem _ hm

theorem Ascending.putSorted (h : Ascending ms) (name : String) (value : α) :
    Ascending (putSorted name value ms) := by
  induction ms with
  | nil => exact List.pairwise_singleton ..
  | cons n ms ih =>
      obtain ⟨hn, hms⟩ := List.pairwise_cons.1 h
      simp only [Json.putSorted]
      split
      · rename_i hlt
        refine List.pairwise_cons.2 ⟨List.forall_mem_cons.2 ⟨hlt, fun m hm => ?_⟩, h⟩
        exact String.lt_trans hlt (hn m hm)
      · split
        · rename_i heq
          exact List.pairwise_cons.2 ⟨fun m hm => heq ▸ hn m hm, hms⟩
        · rename_i hlt hne
          refine List.pairwise_cons.2 ⟨fun m hm => ?_, ih hms⟩
          rcases mem_putSorted hm with rfl | hm
          · exact lt_of_not_lt hlt hne
          · exact hn m hm

theorem lookup_cons_eq (m : String × α) (ms : List (String × α)) (name : String) :
    (m :: ms).lookup name = if name = m.1 then some m.2 else ms.lookup name := by
  rw [List.lookup_cons]
  by_cases h : name = m.1
  · simp [h]
  · rw [beq_false_of_ne h, if_neg h]

theorem lookup_putSorted (name : String) (value : α) (ms : List (String × α)) (other : String) :
    (putSorted name value ms).lookup other =
      if other = name then some value else ms.lookup other := by
  induction ms with
  | nil => exact lookup_cons_eq (name, value) [] other
  | cons n ms ih =>
      simp only [putSorted]
      split
      · exact lookup_cons_eq (name, value) (n :: ms) other
      · split
        · rename_i heq
          rw [lookup_cons_eq, lookup_cons_eq, ← heq]
          split <;> rfl
        · rename_i hne
          rw [lookup_cons_eq, lookup_cons_eq, ih]
          by_cases h : other = n.1 <;> simp [h, Ne.symm hne]

theorem sortMembers_concat (ms : List (String × α)) (m : String × α) :
    sortMembers (ms ++ [m]) = putSorted m.1 m.2 (sortMembers ms) :=
  List.foldl_concat ..

theorem ascending_sortMembers (ms : List (String × α)) : Ascending (sortMembers ms) := by
  induction ms using List.reverseRecOn with
  | nil => exact .nil
  | append_singleton ms m ih =>
      rw [sortMembers_concat]
      exact ih.putSorted m.1 m.2

theorem lookup_sortMembers (ms : List (String × α)) (name : String) :
    (sortMembers ms).lookup name = ms.reverse.lookup name := by
  induction ms using List.reverseRecOn with
  | nil => rfl
  | append_singleton ms m ih =>
      rw [sortMembers_concat, lookup_putSorted, ih, List.reverse_concat, lookup_cons_eq]

theorem Ascending.sortMembers_eq (h : Ascending ms) : sortMembers ms = ms := by
  have hcons (name : String) (value : α) (m : String × α) (ms : List (String × α))
      (hm : ¬ ¬ m.1 < name) : Json.putSorted name value (m :: ms) = m :: Json.putSorted name value ms := by
    have hlt : m.1 < name := Decidable.not_not.1 hm
    have hne : name ≠ m.1 := by
      rintro rfl
      exact String.lt_irrefl _ hlt
    rw [Json.putSorted, if_neg (String.lt_asymm hlt), if_neg hne]
  have hordered : ms.Pairwise fun m n => ¬ ¬ m.1 < n.1 := h.imp not_not_intro
  exact foldl_put (r := fun a b => ¬ a < b) (f := Json.putSorted) (fun _ _ => rfl) hcons ms [] hordered

theorem Ascending.lookup_reverse (h : Ascending ms) {m : String × α} (hm : m ∈ ms) :
    ms.reverse.lookup m.1 = some m.2 := by
  rw [← lookup_sortMembers, h.sortMembers_eq]
  induction ms with
  | nil => cases hm
  | cons n ms ih =>
      obtain ⟨hn, hms⟩ := List.pairwise_cons.1 h
      rw [lookup_cons_eq]
      rcases List.mem_cons.1 hm with rfl | hm
      · rw [if_pos rfl]
      · have hne : m.1 ≠ n.1 := by
          intro heq
          exact String.lt_irrefl n.1 (heq ▸ hn m hm)
        rw [if_neg hne]
        exact ih hms hm

end

/-- All of the document can be read, and sorting makes it the other one. -/
def SortsTo (j k : Json) : Prop :=
  sorted? j = some k

/-- Sorting changes nothing in the value, leaving aside what lies under it. -/
def Sorted : Json → Prop
  | .object members => Ascending members
  | .unreadable => False
  | _ => True

theorem sortedItems?_eq_some_iff {items ks : List Json} :
    sortedItems? items = some ks ↔ List.Forall₂ SortsTo items ks := by
  induction items generalizing ks with
  | nil => simp [sortedItems?, eq_comm]
  | cons item rest ih =>
      simp only [sortedItems?, Option.bind_eq_bind, Option.bind_eq_some_iff, Option.pure_def,
        Option.some.injEq, List.forall₂_cons_left_iff, ih]
      constructor
      · rintro ⟨k, hk, ks, hks, rfl⟩
        exact ⟨k, ks, hk, hks, rfl⟩
      · rintro ⟨k, ks, hk, hks, rfl⟩
        exact ⟨k, hk, ks, hks, rfl⟩

theorem sortedMembers?_eq_some_iff {ms ns : List (String × Json)} :
    sortedMembers? ms = some ns ↔
      List.Forall₂ (fun m n => m.1 = n.1 ∧ SortsTo m.2 n.2) ms ns := by
  induction ms generalizing ns with
  | nil => simp [sortedMembers?, eq_comm]
  | cons m ms ih =>
      simp only [sortedMembers?, Option.bind_eq_bind, Option.bind_eq_some_iff, Option.pure_def,
        Option.some.injEq, List.forall₂_cons_left_iff, ih]
      constructor
      · rintro ⟨k, hk, ns, hns, rfl⟩
        exact ⟨(m.1, k), ns, ⟨rfl, hk⟩, hns, rfl⟩
      · rintro ⟨⟨_, k⟩, ns, ⟨rfl, hk⟩, hns, rfl⟩
        exact ⟨k, hk, ns, hns, rfl⟩

theorem SortsTo.cases {j k : Json} (h : SortsTo j k) :
    (∃ items ks, j = .array items ∧ k = .array ks ∧ List.Forall₂ SortsTo items ks) ∨
    (∃ ms ns, j = .object ms ∧ k = .object (sortMembers ns) ∧
      List.Forall₂ (fun m n => m.1 = n.1 ∧ SortsTo m.2 n.2) ms ns) ∨
    (j = k ∧ j.children = [] ∧ Sorted k) := by
  cases j with
  | array items =>
      obtain ⟨ks, hks, rfl⟩ := Option.map_eq_some_iff.1 h
      exact .inl ⟨items, ks, rfl, rfl, sortedItems?_eq_some_iff.1 hks⟩
  | object ms =>
      obtain ⟨ns, hns, rfl⟩ := Option.map_eq_some_iff.1 h
      exact .inr (.inl ⟨ms, ns, rfl, rfl, sortedMembers?_eq_some_iff.1 hns⟩)
  | unreadable => cases h
  | _ =>
      cases h
      exact .inr (.inr ⟨rfl, rfl, trivial⟩)

theorem exists_of_rel {R : Json → Json → Prop} {x y : Option Json} (h : Option.Rel R x y) {c : Json}
    (hc : y = some c) : ∃ d, x = some d ∧ R d c := by
  subst hc
  cases h with
  | some hdc => exact ⟨_, rfl, hdc⟩

theorem rel_getElem? {R : Json → Json → Prop} {items ks : List Json} (h : List.Forall₂ R items ks)
    (i : Nat) : Option.Rel R items[i]? ks[i]? := by
  induction h generalizing i with
  | nil => exact .none
  | cons hjk _ ih =>
      cases i with
      | zero => exact .some hjk
      | succ i => exact ih i

theorem rel_lookup {R : Json → Json → Prop} {ms ns : List (String × Json)}
    (h : List.Forall₂ (fun m n => m.1 = n.1 ∧ R m.2 n.2) ms ns) (name : String) :
    Option.Rel R (ms.lookup name) (ns.lookup name) := by
  induction h with
  | nil => exact .none
  | cons hmn _ ih =>
      rw [lookup_cons_eq, lookup_cons_eq, ← hmn.1]
      split
      · exact .some hmn.2
      · exact ih

variable {j k c : Json}

namespace SortsTo

theorem child? (h : SortsTo j k) (key : Key) : Option.Rel SortsTo (j.child? key) (k.child? key) := by
  rcases h.cases with ⟨items, ks, rfl, rfl, hks⟩ | ⟨ms, ns, rfl, rfl, hns⟩ | ⟨rfl, hleaf, -⟩
  · cases key with
    | place i => exact rel_getElem? hks i
    | name s => exact .none
  · cases key with
    | place i => exact .none
    | name s =>
        have hlast : (sortMembers ns).reverse.lookup s = ns.reverse.lookup s := by
          rw [← lookup_sortMembers, (ascending_sortMembers ns).sortMembers_eq, lookup_sortMembers]
        simp only [Json.child?, hlast]
        exact rel_lookup (List.forall₂_reverse_iff.2 hns) s
  · cases hc : j.child? key with
    | none => exact .none
    | some c =>
        have hmem := mem_children_of_child? hc
        rw [hleaf] at hmem
        cases hmem

theorem at? (h : SortsTo j k) (path : List Key) : Option.Rel SortsTo (j.at? path) (k.at? path) := by
  induction path generalizing j k with
  | nil => exact .some h
  | cons key path ih =>
      have hchild := h.child? key
      simp only [Json.at?]
      generalize j.child? key = c at hchild ⊢
      generalize k.child? key = d at hchild ⊢
      cases hchild with
      | none => exact .none
      | some hcd => exact ih hcd

theorem face_eq (h : SortsTo j k) : k.face = j.face := by
  rcases h.cases with ⟨items, ks, rfl, rfl, hks⟩ | ⟨ms, ns, rfl, rfl, -⟩ | ⟨rfl, -, -⟩
  · rw [face, face, hks.length_eq]
  · rfl
  · rfl

theorem face_at? (h : SortsTo j k) (path : List Key) :
    (k.at? path).map face = (j.at? path).map face := by
  have hpath := h.at? path
  generalize j.at? path = c at hpath ⊢
  generalize k.at? path = d at hpath ⊢
  cases hpath with
  | none => rfl
  | some hcd => exact congrArg some hcd.face_eq

theorem sorted (h : SortsTo j k) : Sorted k := by
  rcases h.cases with ⟨items, ks, rfl, rfl, -⟩ | ⟨ms, ns, rfl, rfl, -⟩ | ⟨rfl, -, hsorted⟩
  · trivial
  · exact ascending_sortMembers ns
  · exact hsorted

theorem everywhere_sorted (h : SortsTo j k) : k.Everywhere Sorted := by
  intro path c hc
  obtain ⟨d, -, hdc⟩ := exists_of_rel (h.at? path) hc
  exact hdc.sorted

end SortsTo

theorem exists_key (hk : Sorted k) (hc : c ∈ k.children) : ∃ key, k.child? key = some c := by
  cases k with
  | array items =>
      obtain ⟨i, hi⟩ := List.mem_iff_getElem?.1 hc
      exact ⟨.place i, hi⟩
  | object members =>
      obtain ⟨m, hm, rfl⟩ := List.mem_map.1 hc
      exact ⟨.name m.1, Ascending.lookup_reverse hk hm⟩
  | _ => cases hc

theorem SortsTo.exists_name {ms ns : List (String × Json)} (h : SortsTo (.object ms) (.object ns)) :
    ∀ n ∈ ns, ∃ m ∈ ms, m.1 = n.1 := by
  intro n hn
  have hfound : (object ns).child? (.name n.1) = some n.2 := Ascending.lookup_reverse h.sorted hn
  obtain ⟨d, hd, -⟩ := exists_of_rel (h.child? (.name n.1)) hfound
  exact ⟨(n.1, d), List.mem_reverse.1 (mem_of_lookup hd), rfl⟩

theorem sortsTo_self (h : k.Everywhere Sorted) : SortsTo k k := by
  induction k using inductionOn with
  | mk k ih =>
      have hchildren : ∀ c ∈ k.children, SortsTo c c := by
        intro c hc
        obtain ⟨key, hkey⟩ := exists_key h.here hc
        exact ih c hc (h.child hkey)
      cases k with
      | array items =>
          have hitems : List.Forall₂ SortsTo items items := List.forall₂_same.2 hchildren
          rw [SortsTo, sorted?, sortedItems?_eq_some_iff.2 hitems, Option.map_some]
      | object members =>
          have hmembers : List.Forall₂ (fun m n => m.1 = n.1 ∧ SortsTo m.2 n.2) members members :=
            List.forall₂_same.2 fun m hm => ⟨rfl, hchildren m.2 (List.mem_map_of_mem hm)⟩
          rw [SortsTo, sorted?, sortedMembers?_eq_some_iff.2 hmembers, Option.map_some,
            Ascending.sortMembers_eq h.here]
      | unreadable => exact h.here.elim
      | _ => rfl

end Orchestra.Json
