import Orchestra.Proofs.Distinct
import Orchestra.Variables

namespace Orchestra

open Text

namespace Variables

inductive Event
  | written (name value : String)
  | removed (name : String)
deriving DecidableEq

namespace Event

def name : Event → String
  | written name _ => name
  | removed name => name

def value? : Event → Option String
  | written _ value => some value
  | removed _ => none

end Event

abbrev Log := List Event

namespace Log

def ofPairs (pairs : List (String × String)) : Log :=
  pairs.map fun e => .written e.1 e.2

/-- The value written last, under any spelling of the name, since the name was removed last. -/
def lastWritten? (log : Log) (name : String) : Option String :=
  (log.reverse.find? fun e => SameName e.name name).bind Event.value?

/-- The main value is there from the start, and a removal leaves it empty. -/
def value? (log : Log) (name : String) : Option String :=
  if SameName inputName name then some ((log.lastWritten? name).getD "")
  else log.lastWritten? name

def removes (log : Log) (name : String) : Bool :=
  log.any fun e => e.value? = none ∧ SameName e.name name

/-- The names that stand in the end, each in the place and in the spelling of its first writing
since its last removal. The main name is left out. -/
def firstWritten (before : Log) : Log → List String
  | [] => []
  | .removed name :: after => firstWritten (before ++ [.removed name]) after
  | .written name value :: after =>
      let later := firstWritten (before ++ [.written name value]) after
      if ¬ SameName inputName name ∧ before.lastWritten? name = none ∧ removes after name = false then
        name :: later
      else later

def names (log : Log) : List String :=
  inputName :: firstWritten [] log

def entries (log : Log) : List (String × String) :=
  log.names.map fun name => (name, (log.value? name).getD "")

end Log

namespace Log

theorem lastWritten?_concat (log : Log) (e : Event) (name : String) :
    lastWritten? (log ++ [e]) name =
      if SameName e.name name then e.value? else log.lastWritten? name := by
  rw [lastWritten?, List.reverse_concat, List.find?_cons]
  by_cases h : SameName e.name name
  · simp [h]
  · simp [h, lastWritten?]

theorem value?_concat (log : Log) (e : Event) (name : String) :
    value? (log ++ [e]) name =
      if SameName e.name name then
        (if SameName inputName name then some (e.value?.getD "") else e.value?)
      else log.value? name := by
  unfold value?
  rw [lastWritten?_concat]
  by_cases h : SameName e.name name
  · simp [h]
  · simp [h]

theorem removes_concat (log : Log) (e : Event) (name : String) :
    removes (log ++ [e]) name =
      (log.removes name || decide (e.value? = none ∧ SameName e.name name)) := by
  simp [removes]

theorem firstWritten_concat_written (name value : String) (before log : Log) :
    firstWritten before (log ++ [.written name value]) =
      firstWritten before log ++
        if ¬ SameName inputName name ∧ (before ++ log).lastWritten? name = none then [name]
        else [] := by
  induction log generalizing before with
  | nil => simp [firstWritten, removes]
  | cons e log ih =>
      have hlater := ih (before ++ [e])
      rw [List.append_assoc, List.singleton_append] at hlater
      cases e with
      | removed n => exact hlater
      | written n v =>
          have hsame : removes (log ++ [.written name value]) n = removes log n := by
            simp [removes_concat, Event.value?]
          simp only [List.cons_append, firstWritten, hlater, hsame]
          split
          · rw [List.cons_append]
          · rfl

theorem firstWritten_concat_removed (name : String) (before log : Log) :
    firstWritten before (log ++ [.removed name]) =
      (firstWritten before log).filter fun n => ¬ SameName n name := by
  induction log generalizing before with
  | nil => rfl
  | cons e log ih =>
      have hlater := ih (before ++ [e])
      cases e with
      | removed n => exact hlater
      | written n v =>
          simp only [List.cons_append, firstWritten, hlater, removes_concat]
          by_cases hn : SameName n name
          · have hback : SameName (Event.removed name).name n := hn.symm
            by_cases hc : ¬ SameName inputName n ∧ before.lastWritten? n = none ∧ removes log n = false
            · simp [hc, hn, hback, Event.value?]
            · simp [hc, hback, Event.value?]
          · have hback : ¬ SameName (Event.removed name).name n := fun h => hn h.symm
            by_cases hc : ¬ SameName inputName n ∧ before.lastWritten? n = none ∧ removes log n = false
            · simp [hc, hn, hback]
            · simp only [hback, and_false, decide_false, Bool.or_false, if_neg hc]

theorem not_input_of_mem_firstWritten {name : String} {before log : Log}
    (h : name ∈ firstWritten before log) : ¬ SameName inputName name := by
  induction log generalizing before with
  | nil => simp [firstWritten] at h
  | cons e log ih =>
      cases e with
      | removed n => exact ih h
      | written n v =>
          simp only [firstWritten] at h
          split at h
          · rename_i hc
            rcases List.mem_cons.1 h with rfl | h
            · exact hc.1
            · exact ih h
          · exact ih h

theorem names_concat_written (log : Log) (name value : String) :
    names (log ++ [.written name value]) =
      log.names ++ if (log.value? name).isSome = true then [] else [name] := by
  rw [names, firstWritten_concat_written, names, List.cons_append, List.nil_append, value?]
  by_cases hi : SameName inputName name
  · simp [hi]
  · cases log.lastWritten? name <;> simp [hi]

theorem names_concat_removed (log : Log) (name : String) :
    names (log ++ [.removed name]) =
      if SameName inputName name then log.names
      else log.names.filter fun n => ¬ SameName n name := by
  rw [names, firstWritten_concat_removed, names]
  by_cases hi : SameName inputName name
  · rw [if_pos hi, List.filter_eq_self.2]
    intro n hn
    exact decide_eq_true fun h => not_input_of_mem_firstWritten hn (hi.trans h.symm)
  · simp [hi]

end Log

theorem get?_eq_some_iff {v : Variables} {name value : String} :
    v.get? name = some value ↔ ∃ e ∈ v.entries, SameName e.1 name ∧ e.2 = value := by
  have hkeys : KeysDistinct (fun e => fold e.1) v.entries := v.distinct
  rw [get?, Entries.find?, Option.map_eq_some_iff]
  refine exists_congr fun e => ?_
  rw [← and_assoc]
  exact and_congr_left' hkeys.find?_eq_some_iff

theorem get?_of_mem {v : Variables} {e : String × String} (h : e ∈ v.entries) :
    v.get? e.1 = some e.2 :=
  get?_eq_some_iff.2 ⟨e, h, .refl _, rfl⟩

theorem contains_iff_exists_mem {v : Variables} {name : String} :
    v.contains name = true ↔ ∃ e ∈ v.entries, SameName e.1 name := by
  simp [contains, get?, Entries.find?]

theorem names_put (name value : String) (es : List (String × String)) :
    (Entries.put name value es).map Prod.fst =
      es.map Prod.fst ++ if ∃ e ∈ es, SameName e.1 name then [] else [name] := by
  induction es with
  | nil => rfl
  | cons e es ih =>
      by_cases he : SameName e.1 name
      · simp [Entries.put, he]
      · simp only [Entries.put, he, if_false, List.map_cons, ih, List.cons_append, List.mem_cons,
          exists_eq_or_imp, false_or]

theorem names_set (v : Variables) (name value : String) :
    (v.set name value).entries.map Prod.fst =
      v.entries.map Prod.fst ++ if (v.get? name).isSome = true then [] else [name] := by
  rw [← contains, ite_congr (propext contains_iff_exists_mem) (fun _ => rfl) fun _ => rfl]
  exact names_put name value v.entries

theorem names_remove (v : Variables) (name : String) :
    (v.remove name).entries.map Prod.fst =
      if SameName inputName name then v.entries.map Prod.fst
      else (v.entries.map Prod.fst).filter fun n => ¬ SameName n name := by
  unfold remove
  by_cases h : SameName inputName name
  · rw [dif_pos h, if_pos h, setInput, names_set, get?_input]
    simp
  · rw [dif_neg h, if_neg h, List.filter_map]
    rfl

/-- The set holds what the log says, under the names that the log says. -/
structure Records (log : Log) (v : Variables) : Prop where
  get?_eq : ∀ name, v.get? name = log.value? name
  names_eq : v.entries.map Prod.fst = log.names

namespace Records

theorem empty : Records [] .empty where
  get?_eq name := by
    by_cases h : SameName inputName name <;>
      simp [Variables.empty, withInput, get?, Entries.find?, Log.value?, Log.lastWritten?, h]
  names_eq := rfl

variable {log log' : Log} {v w : Variables}

theorem set (h : Records log v) (name value : String) :
    Records (log ++ [.written name value]) (v.set name value) where
  get?_eq other := by
    rw [get?_set, Log.value?_concat, h.get?_eq]
    simp [Event.name, Event.value?]
  names_eq := by
    rw [names_set, h.names_eq, h.get?_eq, ← Log.names_concat_written]

theorem remove (h : Records log v) (name : String) :
    Records (log ++ [.removed name]) (v.remove name) where
  get?_eq other := by
    rw [get?_remove, Log.value?_concat, h.get?_eq]
    by_cases hn : SameName name other
    · have hi : SameName inputName name ↔ SameName inputName other :=
        ⟨fun k => k.trans hn, fun k => k.trans hn.symm⟩
      simp [Event.name, Event.value?, hn, hi]
    · simp [Event.name, hn]
  names_eq := by
    rw [names_remove, h.names_eq, Log.names_concat_removed]

theorem setAll (h : Records log v) (pairs : List (String × String)) :
    Records (log ++ .ofPairs pairs) (v.setAll pairs) := by
  induction pairs generalizing log v with
  | nil => simpa [Log.ofPairs, Variables.setAll] using h
  | cons e pairs ih =>
      have hrest := ih (h.set e.1 e.2)
      rw [List.append_assoc] at hrest
      exact hrest

theorem ofList (pairs : List (String × String)) : Records (.ofPairs pairs) (.ofList pairs) :=
  empty.setAll pairs

theorem entries_eq (h : Records log v) : v.entries = log.entries := by
  rw [Log.entries, ← h.names_eq, List.map_map]
  have hself : ∀ e ∈ v.entries, (e.1, (log.value? e.1).getD "") = e := by
    intro e he
    rw [← h.get?_eq, get?_of_mem he]
    rfl
  exact (List.map_congr_left hself).trans (List.map_id _) |>.symm

theorem updateFrom (h : Records log v) (k : Records log' w) (merge : Bool) :
    Records ((if merge then log else []) ++ .ofPairs log'.entries) (v.updateFrom w merge) := by
  rw [← k.entries_eq]
  cases merge with
  | true => exact h.setAll w.entries
  | false => exact empty.setAll w.entries

end Records

end Variables

end Orchestra
