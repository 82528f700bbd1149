import Orchestra.Proofs.Variables.Log
import Orchestra.Proofs.Variables.Lookup

namespace Orchestra.Variables

open Text

variable {v w : Variables}

theorem entries_eq_map_names (v : Variables) :
    v.entries = (v.entries.map Prod.fst).map fun name => (name, (v.get? name).getD "") := by
  have hself : ∀ e ∈ v.entries, (e.1, (v.get? e.1).getD "") = e := by
    intro e he
    rw [get?_of_mem he]
    rfl
  rw [List.map_map]
  exact ((List.map_congr_left hself).trans (List.map_id _)).symm

theorem ext_of_names (hnames : v.entries.map Prod.fst = w.entries.map Prod.fst)
    (hvalues : ∀ name, v.get? name = w.get? name) : v = w := by
  ext1
  rw [entries_eq_map_names v, entries_eq_map_names w, hnames]
  simp only [hvalues]

theorem get?_empty (name : String) :
    empty.get? name = if SameName inputName name then some "" else none := by
  by_cases h : SameName inputName name
  · simp [empty, withInput, get?, Entries.find?, h]
  · rw [if_neg h, empty, get?_withInput h]

theorem names_setAll (v : Variables) {es : List (String × String)} (h : Entries.Distinct es) :
    (v.setAll es).entries.map Prod.fst =
      v.entries.map Prod.fst ++ (es.map Prod.fst).filter fun name => (v.get? name).isNone := by
  induction es generalizing v with
  | nil => simp [setAll]
  | cons e es ih =>
      obtain ⟨he, hes⟩ := List.pairwise_cons.1 h
      -- The other names of `es` are not that of `e`, so writing `e` makes none of them present.
      have hkeep : ((es.map Prod.fst).filter fun name => ((v.set e.1 e.2).get? name).isNone) =
          (es.map Prod.fst).filter fun name => (v.get? name).isNone := by
        refine List.filter_congr fun name hname => ?_
        obtain ⟨d, hd, rfl⟩ := List.mem_map.1 hname
        rw [get?_set, if_neg (he d hd)]
      rw [setAll, List.foldl_cons, ← setAll, ih (v.set e.1 e.2) hes, names_set, hkeep, List.map_cons,
        List.filter_cons]
      cases v.get? e.1 <;> simp

theorem get?_setAll_entries (v w : Variables) (name : String) :
    (v.setAll w.entries).get? name = (w.get? name).or (v.get? name) := by
  have hkeys : KeysDistinct (fun e => fold e.1) w.entries := w.distinct
  have hlast : (w.entries.reverse.find? fun e => SameName e.1 name) =
      w.entries.find? fun e => SameName e.1 name :=
    (hkeys.find?_perm w.entries.reverse_perm.symm (fold name)).symm
  rw [get?_setAll, hlast]
  rfl

theorem empty_setAll_entries (v : Variables) : empty.setAll v.entries = v := by
  obtain ⟨e, rest, hv⟩ : ∃ e rest, v.entries = e :: rest :=
    List.exists_cons_of_ne_nil fun h => by simpa [h] using v.input_first
  have hinput : e.1 = inputName := by simpa [hv] using v.input_first
  have hrest : ∀ d ∈ rest, ¬ SameName inputName d.1 := by
    have hdistinct := v.distinct
    rw [hv] at hdistinct
    exact hinput ▸ (List.pairwise_cons.1 hdistinct).1
  refine ext_of_names ?_ fun name => ?_
  · have hnew : ((rest.map Prod.fst).filter fun name => (empty.get? name).isNone) =
        rest.map Prod.fst := by
      refine List.filter_eq_self.2 fun name hname => ?_
      obtain ⟨d, hd, rfl⟩ := List.mem_map.1 hname
      rw [get?_empty, if_neg (hrest d hd)]
      rfl
    have hold : (empty.get? inputName).isNone = false := by rw [get?_input]; rfl
    rw [names_setAll empty v.distinct, hv, List.map_cons, hinput, List.filter_cons, hold, hnew]
    rfl
  · rw [get?_setAll_entries, get?_empty]
    split
    · rename_i hname
      rw [← v.get?_congr hname, get?_input, Option.some_or]
    · rw [Option.or_none]

theorem get?_updateFrom (a b : Variables) (name : String) :
    (a.updateFrom b true).get? name = (b.get? name).or (a.get? name) :=
  get?_setAll_entries a b name

theorem names_updateFrom (a b : Variables) :
    (a.updateFrom b true).entries.map Prod.fst =
      a.entries.map Prod.fst ++ (b.entries.map Prod.fst).filter fun name => (a.get? name).isNone :=
  names_setAll a b.distinct

theorem updateFrom_assoc (a b c : Variables) :
    (a.updateFrom b true).updateFrom c true = a.updateFrom (b.updateFrom c true) true := by
  refine ext_of_names ?_ fun name => ?_
  · simp only [names_updateFrom, get?_updateFrom, List.filter_append, List.filter_filter,
      List.append_assoc, Option.isNone_or, Bool.and_comm]
  · simp only [get?_updateFrom, Option.or_assoc]

theorem updateFrom_idem (a b : Variables) :
    (a.updateFrom b true).updateFrom b true = a.updateFrom b true := by
  refine ext_of_names ?_ fun name => ?_
  · have hnone : ((b.entries.map Prod.fst).filter
        fun name => ((a.updateFrom b true).get? name).isNone) = [] := by
      refine List.filter_eq_nil_iff.2 fun name hname => ?_
      obtain ⟨e, he, rfl⟩ := List.mem_map.1 hname
      rw [get?_updateFrom, get?_of_mem he]
      exact Bool.false_ne_true
    rw [names_updateFrom (a.updateFrom b true), hnone, List.append_nil]
  · rw [get?_updateFrom, get?_updateFrom, ← Option.or_assoc, Option.or_self]

/-- The first set gives places and spellings, and the second the values of the names in both. -/
theorem entries_updateFrom (a b : Variables) :
    (a.updateFrom b true).entries =
      (a.entries.map fun e => (e.1, (b.get? e.1).getD e.2)) ++
        b.entries.filter fun e => ¬ a.contains e.1 := by
  rw [entries_eq_map_names, names_updateFrom, List.map_append, List.map_map, List.filter_map,
    List.map_map]
  congr 1
  · refine List.map_congr_left fun e he => ?_
    rw [Function.comp_apply, get?_updateFrom, get?_of_mem he]
    cases b.get? e.1 <;> rfl
  · have hnew : (b.entries.filter ((fun name => (a.get? name).isNone) ∘ Prod.fst)) =
        b.entries.filter fun e => ¬ a.contains e.1 := by
      refine List.filter_congr fun e _ => ?_
      cases h : a.get? e.1 <;> simp [contains, h]
    rw [hnew]
    refine (List.map_congr_left fun e he => ?_).trans (List.map_id _)
    rw [Function.comp_apply, get?_updateFrom, get?_of_mem (List.mem_of_mem_filter he)]
    rfl

/-- Merging is associative and idempotent, with the empty set on its left side as a neutral element.
The entries keep the order and the spelling of their first set and the value of their last, and a
set that is taken over without merging is that set. -/
theorem merging_laws (a b c : Variables) :
    (a.updateFrom b true).updateFrom c true = a.updateFrom (b.updateFrom c true) true ∧
      (a.updateFrom b true).updateFrom b true = a.updateFrom b true ∧
      empty.updateFrom b true = b ∧
      (∀ name, (a.updateFrom b true).get? name = (b.get? name).or (a.get? name)) ∧
      (a.updateFrom b true).entries =
        (a.entries.map fun e => (e.1, (b.get? e.1).getD e.2)) ++
          (b.entries.filter fun e => ¬ a.contains e.1) ∧
      a.updateFrom b false = b :=
  ⟨updateFrom_assoc a b c, updateFrom_idem a b, empty_setAll_entries b, get?_updateFrom a b,
    entries_updateFrom a b, empty_setAll_entries b⟩

example :
    ((ofList [("b", "1"), ("c", "2")]).updateFrom (.ofList [("D", "3"), ("B", "4")]) true).entries =
      [("INPUT", ""), ("b", "4"), ("c", "2"), ("D", "3")] := by
  decide

end Orchestra.Variables
