import Orchestra.Proofs.Text.Lowercase
import Orchestra.Variables

namespace Orchestra

open Text

theorem sameAscii_inputName_iff (name : String) :
    sameAscii name inputName = true ↔ SameName name inputName := by
  have hall : ((fold inputName).all fun d => Unshared d) = true := by decide
  have hunshared : ∀ d ∈ fold inputName, Unshared d := by
    intro d hd
    simpa using List.all_eq_true.1 hall d hd
  exact ⟨sameName_of_sameAscii, sameAscii_of_sameName hunshared⟩

namespace Variables

theorem get?_setAll (v : Variables) (pairs : List (String × String)) (name : String) :
    (v.setAll pairs).get? name =
      ((pairs.reverse.find? fun e => SameName e.1 name).map Prod.snd).or (v.get? name) := by
  induction pairs generalizing v with
  | nil => rfl
  | cons e pairs ih =>
      rw [setAll, List.foldl_cons, ← setAll, ih, get?_set, List.reverse_cons, List.find?_append,
        Option.map_or, Option.or_assoc]
      by_cases he : SameName e.1 name <;> simp [he]

theorem get?_setMissing (v : Variables) (name value other : String) :
    (v.setMissing name value).get? other =
      (v.get? other).or (if SameName name other then some value else none) := by
  unfold setMissing contains
  by_cases h : SameName name other
  · rw [if_pos h, v.get?_congr h]
    cases hv : v.get? other with
    | none => simp [get?_set, h]
    | some old => simp [hv]
  · rw [if_neg h, Option.or_none]
    split
    · rfl
    · rw [get?_set, if_neg h]

/-- Of several values under one name the first counts, and only if the name had none before. -/
theorem get?_foldl_setMissing (value : String × String → String) (es : List (String × String))
    (v : Variables) (name : String) :
    (es.foldl (fun v e => v.setMissing e.1 (value e)) v).get? name =
      (v.get? name).or ((es.find? fun e => SameName e.1 name).map value) := by
  induction es generalizing v with
  | nil => simp
  | cons e es ih =>
      rw [List.foldl_cons, ih, get?_setMissing, Option.or_assoc, List.find?_cons]
      by_cases h : SameName e.1 name
      · simp [h]
      · simp [h]

theorem get?_setAllMissing (v : Variables) (es : List (String × String)) (name : String) :
    (v.setAllMissing es).get? name = (v.get? name).or (Entries.find? name es) :=
  get?_foldl_setMissing Prod.snd es v name

theorem get?_withInput {name : String} (h : ¬ SameName inputName name) (value : String) :
    (withInput value).get? name = none := by
  simp [withInput, get?, Entries.find?, h]

end Variables

end Orchestra
