import Mathlib.Data.List.Induction
import Mathlib.Data.List.Nodup

namespace Orchestra

variable {α κ : Type} [DecidableEq κ]

/-- At most one element has a key. -/
def KeysDistinct (key : α → κ) (xs : List α) : Prop :=
  xs.Pairwise fun x y => key x ≠ key y

namespace KeysDistinct

variable {key : α → κ} {xs ys : List α}

instance : Decidable (KeysDistinct key xs) :=
  inferInstanceAs (Decidable (xs.Pairwise fun x y => key x ≠ key y))

omit [DecidableEq κ] in
theorem perm (h : KeysDistinct key xs) (hperm : xs.Perm ys) : KeysDistinct key ys :=
  (hperm.pairwise_iff fun hne => hne.symm).1 h

omit [DecidableEq κ] in
theorem nodup (h : KeysDistinct key xs) : xs.Nodup :=
  h.imp fun hne heq => hne (congrArg key heq)

theorem find?_eq_some_iff (h : KeysDistinct key xs) {k : κ} {x : α} :
    (xs.find? fun y => key y = k) = some x ↔ x ∈ xs ∧ key x = k := by
  constructor
  · intro hx
    exact ⟨List.mem_of_find?_eq_some hx, by simpa using List.find?_some hx⟩
  · rintro ⟨hx, rfl⟩
    obtain ⟨before, after, rfl⟩ := List.append_of_mem hx
    have hbefore : (before.find? fun y => key y = key x) = none := by
      refine List.find?_eq_none.2 fun y hy => ?_
      simpa using (List.pairwise_append.1 h).2.2 y hy x List.mem_cons_self
    rw [List.find?_append, hbefore]
    simp

theorem find?_perm (h : KeysDistinct key xs) (hperm : xs.Perm ys) (k : κ) :
    (xs.find? fun y => key y = k) = ys.find? fun y => key y = k := by
  ext x
  rw [h.find?_eq_some_iff, (h.perm hperm).find?_eq_some_iff, hperm.mem_iff]

end KeysDistinct

/-- What is left when of the elements with one key the first is kept, in its place. -/
structure KeepsFirst (key : α → κ) (xs ys : List α) : Prop where
  mem_iff : ∀ x, x ∈ ys ↔ (xs.find? fun y => key y = key x) = some x
  ordered : ys.Pairwise fun x y =>
    (xs.findIdx fun z => key z = key x) < xs.findIdx fun z => key z = key y

namespace KeepsFirst

variable {key : α → κ} {xs ys : List α}

theorem nil : KeepsFirst key [] [] where
  mem_iff _ := ⟨nofun, nofun⟩
  ordered := .nil

theorem keysDistinct (h : KeepsFirst key xs ys) : KeysDistinct key ys :=
  h.ordered.imp fun {x y} hlt (heq : key x = key y) => by
    rw [heq] at hlt
    exact Nat.lt_irrefl _ hlt

theorem unique {zs : List α} (h : KeepsFirst key xs ys) (k : KeepsFirst key xs zs) : ys = zs := by
  refine List.Perm.eq_of_pairwise (fun _ _ _ _ hlt hgt => absurd hgt (Nat.lt_asymm hlt)) h.ordered
    k.ordered ?_
  refine (List.perm_ext_iff_of_nodup h.keysDistinct.nodup k.keysDistinct.nodup).2 fun x => ?_
  rw [h.mem_iff, k.mem_iff]

theorem findIdx_lt (h : KeepsFirst key xs ys) {y : α} (hy : y ∈ ys) :
    (xs.findIdx fun z => key z = key y) < xs.length :=
  List.findIdx_lt_length_of_exists
    ⟨y, List.mem_of_find?_eq_some ((h.mem_iff y).1 hy), decide_eq_true rfl⟩

theorem mem_concat_of_old (h : KeepsFirst key xs ys) {x : α} (hx : key x ∈ xs.map key) (y : α) :
    y ∈ ys ↔ ((xs ++ [x]).find? fun z => key z = key y) = some y := by
  rw [h.mem_iff, List.find?_append]
  cases hy : xs.find? fun z => key z = key y with
  | some z => simp
  | none =>
      obtain ⟨z, hz, hzx⟩ := List.mem_map.1 hx
      have hne : key z ≠ key y := by simpa using List.find?_eq_none.1 hy z hz
      simp [← hzx, hne]

theorem mem_concat_of_new (h : KeepsFirst key xs ys) {x : α} (hx : key x ∉ xs.map key) (y : α) :
    y ∈ ys ++ [x] ↔ ((xs ++ [x]).find? fun z => key z = key y) = some y := by
  rw [List.mem_append, List.mem_singleton, h.mem_iff, List.find?_append]
  cases hy : xs.find? fun z => key z = key y with
  | some z =>
      have hzy : key z = key y := by simpa using List.find?_some hy
      have hne : y ≠ x := by
        rintro rfl
        exact hx (hzy ▸ List.mem_map_of_mem (List.mem_of_find?_eq_some hy))
      simp [hne]
  | none =>
      by_cases hxy : x = y
      · simp [hxy]
      · simp [hxy, Ne.symm hxy]

theorem concat (h : KeepsFirst key xs ys) (x : α) :
    KeepsFirst key (xs ++ [x]) (ys ++ if key x ∈ xs.map key then [] else [x]) := by
  have hold {y : α} (hy : y ∈ ys) : ((xs ++ [x]).findIdx fun z => key z = key y) =
      xs.findIdx fun z => key z = key y := by
    rw [List.findIdx_append, if_pos (h.findIdx_lt hy)]
  have hordered : ys.Pairwise fun y z => ((xs ++ [x]).findIdx fun w => key w = key y) <
      (xs ++ [x]).findIdx fun w => key w = key z := by
    refine List.Pairwise.imp_of_mem (fun hy hz hlt => ?_) h.ordered
    rwa [hold hy, hold hz]
  by_cases hx : key x ∈ xs.map key
  · rw [if_pos hx, List.append_nil]
    exact ⟨h.mem_concat_of_old hx, hordered⟩
  · have hlast : xs.length ≤ (xs ++ [x]).findIdx fun z => key z = key x := by
      have hall : (xs.findIdx fun z => key z = key x) = xs.length := by
        refine List.findIdx_eq_length_of_false fun z hz => decide_eq_false fun hzx => ?_
        exact hx (hzx ▸ List.mem_map_of_mem hz)
      rw [List.findIdx_append, hall, if_neg (Nat.lt_irrefl _)]
      exact Nat.le_add_left ..
    rw [if_neg hx]
    refine ⟨h.mem_concat_of_new hx,
      List.pairwise_append.2 ⟨hordered, List.pairwise_singleton .., fun y hy z hz => ?_⟩⟩
    rw [List.mem_singleton.1 hz, hold hy]
    exact Nat.lt_of_lt_of_le (h.findIdx_lt hy) hlast

end KeepsFirst

section

variable [DecidableEq α]

theorem eraseDups_concat (xs : List α) (x : α) :
    (xs ++ [x]).eraseDups = xs.eraseDups ++ if x ∈ xs then [] else [x] := by
  rw [List.eraseDups_append]
  by_cases h : x ∈ xs <;> simp [List.removeAll, List.eraseDups_cons, h]

theorem nodup_eraseDups (xs : List α) : xs.eraseDups.Nodup := by
  induction xs using List.reverseRecOn with
  | nil => simp
  | append_singleton xs x ih =>
      rw [eraseDups_concat]
      by_cases h : x ∈ xs
      · simpa [h] using ih
      · rw [if_neg h, List.nodup_append]
        refine ⟨ih, List.nodup_singleton x, ?_⟩
        rintro y hy _ hx rfl
        exact h (List.mem_singleton.1 hx ▸ List.mem_eraseDups.1 hy)

end

section

variable {β : Type} {r : String → String → Prop}
  {f : String → β → List (String × β) → List (String × β)}

theorem foldl_put (hnil : ∀ name value, f name value [] = [(name, value)])
    (hcons : ∀ name value e es, ¬ r e.1 name → f name value (e :: es) = e :: f name value es)
    (es acc : List (String × β)) (h : (acc ++ es).Pairwise fun d e => ¬ r d.1 e.1) :
    es.foldl (fun acc e => f e.1 e.2 acc) acc = acc ++ es := by
  have happend (name : String) (value : β) (es : List (String × β)) (hes : ∀ e ∈ es, ¬ r e.1 name) :
      f name value es = es ++ [(name, value)] := by
    induction es with
    | nil => exact hnil name value
    | cons e es ih =>
        obtain ⟨he, hes⟩ := List.forall_mem_cons.1 hes
        rw [hcons name value e es he, ih hes]
        rfl
  induction es generalizing acc with
  | nil => simp
  | cons e es ih =>
      have hfresh : ∀ d ∈ acc, ¬ r d.1 e.1 := by
        intro d hd
        exact (List.pairwise_append.1 h).2.2 d hd e (by simp)
      rw [List.foldl_cons, happend e.1 e.2 acc hfresh, ih _ (by simpa using h), List.append_assoc]
      rfl

end

end Orchestra
