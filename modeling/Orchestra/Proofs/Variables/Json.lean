import Orchestra.Proofs.Distinct
import Orchestra.Proofs.Json.Reading
import Orchestra.Variables.Json

namespace Orchestra

open Text

namespace Entries

theorem put_cons (name value : String) (e : String × String) (es : List (String × String))
    (h : ¬ SameName e.1 name) : put name value (e :: es) = e :: put name value es :=
  if_neg h

end Entries

namespace Variables

theorem entries_setAll (v : Variables) (pairs : List (String × String)) :
    (v.setAll pairs).entries = pairs.foldl (fun es e => Entries.put e.1 e.2 es) v.entries := by
  induction pairs generalizing v with
  | nil => rfl
  | cons e pairs ih =>
      rw [setAll, List.foldl_cons] at *
      exact ih (v.set e.1 e.2)

theorem ofList_entries (v : Variables) : ofList v.entries = v := by
  obtain ⟨entries, hfirst, hdistinct⟩ := v
  cases entries with
  | nil => cases hfirst
  | cons e rest =>
      obtain ⟨name, value⟩ := e
      obtain rfl : name = inputName := by simpa using hfirst
      ext1
      rw [ofList, entries_setAll, List.foldl_cons]
      have hput : Entries.put inputName value empty.entries = [(inputName, value)] := by
        simp [Entries.put, empty, withInput, SameName.refl]
      have hfold := foldl_put (f := Entries.put) (fun _ _ => rfl) Entries.put_cons rest
        [(inputName, value)] hdistinct
      rw [hput, hfold]
      rfl

theorem putExact_cons (name value : String) (e : String × String) (es : List (String × String))
    (h : ¬ e.1 = name) : putExact name value (e :: es) = e :: putExact name value es :=
  if_neg h

theorem pairs?_toJson (es : List (String × String)) :
    pairs? (es.map fun e => (e.1, .string e.2)) = some es := by
  induction es with
  | nil => rfl
  | cons e es ih =>
      rw [List.map_cons, pairs?, ih]
      rfl

theorem ofJson?_toJson (v : Variables) : ofJson? v.toJson = some v := by
  have hdistinct : v.entries.Pairwise fun d e => ¬ d.1 = e.1 := by
    apply v.distinct.imp
    intro d e hne heq
    rw [heq] at hne
    exact hne (SameName.refl e.1)
  have hfold : v.entries.foldl (fun kept e => putExact e.1 e.2 kept) [] = v.entries :=
    foldl_put (f := putExact) (fun _ _ => rfl) putExact_cons v.entries [] hdistinct
  rw [toJson, ofJson?, pairs?_toJson, Option.map_some, hfold, ofList_entries]

theorem plain_toJson (v : Variables) : v.toJson.Plain :=
  Json.plainMembers_iff.2 (List.forall_mem_map.2 fun _ _ => trivial)

theorem head?_entries (v : Variables) : v.entries.head? = some (inputName, v.input) := by
  obtain ⟨entries, hfirst, -⟩ := v
  cases entries with
  | nil => cases hfirst
  | cons e rest =>
      obtain ⟨name, value⟩ := e
      obtain rfl : name = inputName := by simpa using hfirst
      simp [input, get?, Entries.find?, SameName.refl]

theorem depth_toJson (v : Variables) : v.toJson.depth ≤ Json.depthLimit := by
  have hvalues : ∀ c ∈ v.toJson.children, c.depth ≤ 0 := by
    rw [toJson, Json.children, List.map_map]
    exact List.forall_mem_map.2 fun _ _ => Nat.le_refl 0
  exact (Json.depth_le_succ_iff.2 hvalues).trans (by decide)

/-- The text of a set holds its entries in their order, as they are spelled. Reading it back gives the
set, with the main value in front although it is put into a set that has an empty one already. -/
theorem entries_kept_by_text (v : Variables) :
    Json.parse? v.text = some (.object (v.entries.map fun e => (e.1, .string e.2))) ∧
      ∃ w, parse? v.text = some w ∧ w.entries = v.entries ∧
        w.entries.head? = some ("INPUT", v.input) := by
  have hread : Json.parse? v.text = some v.toJson := Json.parse?_compact v.plain_toJson v.depth_toJson
  refine ⟨hread, v, ?_, rfl, ?_⟩
  · rw [parse?, hread]
    exact ofJson?_toJson v
  · exact v.head?_entries

example : (((empty.set "b" "\n\x22").set "ä" "").setInput "\\").text =
    "\x7b\x22INPUT\x22:\x22\\\\\x22,\x22b\x22:\x22\\n\\\x22\x22,\x22ä\x22:\x22\x22\x7d" := by
  decide +kernel

end Variables

end Orchestra
