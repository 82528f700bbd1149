import Mathlib.Data.List.Basic
import Orchestra.Json.Record

namespace Orchestra.Json

variable {names : List String}

theorem record?_append {known others : Record} (hknown : ∀ m ∈ known, m.1 ∈ names)
    (hothers : ∀ m ∈ others, m.1 ∉ names) (hnodup : (known.map Prod.fst).Nodup) :
    record? names (.object (known ++ others)) = some known := by
  have hfilter : (known ++ others).filter (fun m => m.1 ∈ names) = known := by
    rw [List.filter_append, List.filter_eq_self.2 fun m hm => decide_eq_true (hknown m hm),
      List.filter_eq_nil_iff.2 fun m hm => by simpa using hothers m hm, List.append_nil]
  rw [record?, hfilter, if_pos hnodup]

theorem record?_fields (hn : names.Nodup) (members : Record) (h : members.map Prod.fst = names) :
    record? names (.object members) = some members := by
  subst h
  have hrecord := record?_append (fun _ => List.mem_map_of_mem) (List.forall_mem_nil _) hn
  rwa [List.append_nil] at hrecord

theorem list?_strings (xs : List String) : list? text? (.strings xs) = some xs := by
  induction xs with
  | nil => rfl
  | cons x xs ih =>
      simp only [strings, list?] at ih ⊢
      rw [List.map_cons, List.mapM_cons, ih]
      rfl

theorem natBelow?_ofNat {bound n : Nat} (h : n < bound) : natBelow? bound (.ofNat n) = some n :=
  if_pos h

end Orchestra.Json
