import Mathlib.Data.Set.Card
import Orchestra.Proofs.Variables.Log
import Orchestra.Variables.Json

namespace Orchestra.Variables

open Text

/-- Of pairs with the very same name the first gives the place and the last the value. -/
def lastOfEach (pairs : List (String × String)) : List (String × String) :=
  (pairs.map Prod.fst).eraseDups.map fun name => (name, (pairs.reverse.lookup name).getD "")

def members (text : String) : List (String × String) :=
  match Json.parse? text with
  | some (.object members) => (pairs? members).getD []
  | _ => []

/-- How a set came about. -/
inductive History
  | new
  | withInput (value : String)
  | collect (pairs : List (String × String))
  | read (text : String)
  | set (h : History) (name value : String)
  | setOptional (h : History) (name : String) (value : Option String)
  | remove (h : History) (name : String)
  | update (h : History) (value : String)
  | updateFrom (h other : History) (merge : Bool)
  | clone (h : History)

namespace History

def build : History → Option Variables
  | new => some .empty
  | withInput value => some (.withInput value)
  | collect pairs => some (.ofList pairs)
  | read text => parse? text
  | set h name value => h.build.map fun v => v.set name value
  | setOptional h name value => h.build.map fun v => v.setOptional name value
  | remove h name => h.build.map fun v => v.remove name
  | update h value => h.build.map fun v => v.setInput value
  | updateFrom h other merge =>
      h.build.bind fun v => other.build.map fun w => v.updateFrom w merge
  | clone h => h.build

def log : History → Log
  | new => []
  | withInput value => [.written inputName value]
  | collect pairs => .ofPairs pairs
  | read text => .ofPairs (lastOfEach (members text))
  | set h name value => h.log ++ [.written name value]
  | setOptional h name (some value) => h.log ++ [.written name value]
  | setOptional h name none => h.log ++ [.removed name]
  | remove h name => h.log ++ [.removed name]
  | update h value => h.log ++ [.written inputName value]
  | updateFrom h other merge => (if merge then h.log else []) ++ .ofPairs other.log.entries
  | clone h => h.log

end History

theorem putExact_map {f : String → String} {names : List String} (h : names.Nodup)
    (name value : String) :
    putExact name value (names.map fun n => (n, f n)) =
      (names ++ if name ∈ names then [] else [name]).map
        fun n => (n, if n = name then value else f n) := by
  induction names with
  | nil => simp [putExact]
  | cons n names ih =>
      obtain ⟨hn, hrest⟩ := List.nodup_cons.1 h
      by_cases he : n = name
      · subst he
        have hsame : ∀ m ∈ names, (m, if m = n then value else f m) = (m, f m) := by
          intro m hm
          have hne : m ≠ n := fun he => hn (he ▸ hm)
          rw [if_neg hne]
        simp [putExact, List.map_congr_left hsame]
      · simp [putExact, he, ih hrest, Ne.symm he]

theorem foldl_putExact (pairs : List (String × String)) :
    pairs.foldl (fun kept e => putExact e.1 e.2 kept) [] = lastOfEach pairs := by
  induction pairs using List.reverseRecOn with
  | nil => rfl
  | append_singleton pairs e ih =>
      obtain ⟨name, value⟩ := e
      have hnames : (pairs ++ [(name, value)]).map Prod.fst = pairs.map Prod.fst ++ [name] := by simp
      rw [List.foldl_concat, ih, lastOfEach, putExact_map (nodup_eraseDups _), lastOfEach, hnames,
        eraseDups_concat]
      simp only [List.mem_eraseDups]
      refine List.map_congr_left fun n _ => ?_
      by_cases hn : n = name
      · simp [hn]
      · simp [List.lookup_cons, hn, beq_false_of_ne hn]

theorem parse?_eq_some {text : String} {v : Variables} (h : parse? text = some v) :
    v = .ofList (lastOfEach (members text)) := by
  cases hj : Json.parse? text with
  | none => simp [parse?, hj] at h
  | some j =>
      rw [parse?, hj] at h
      change ofJson? j = some v at h
      cases j with
      | object ms =>
          obtain ⟨pairs, hp, rfl⟩ := Option.map_eq_some_iff.1 h
          rw [members, hj, foldl_putExact]
          simp only [hp, Option.getD_some]
      | _ => cases h

theorem records_of_build {h : History} {v : Variables} (hv : h.build = some v) :
    Records h.log v := by
  induction h generalizing v with
  | new =>
      cases hv
      exact .empty
  | withInput value =>
      cases hv
      exact Records.empty.set inputName value
  | collect pairs =>
      cases hv
      exact .ofList pairs
  | read text =>
      rw [parse?_eq_some hv]
      exact .ofList _
  | set h name value ih =>
      obtain ⟨v, hb, rfl⟩ := Option.map_eq_some_iff.1 hv
      exact (ih hb).set name value
  | setOptional h name value ih =>
      obtain ⟨v, hb, rfl⟩ := Option.map_eq_some_iff.1 hv
      cases value with
      | none => exact (ih hb).remove name
      | some value => exact (ih hb).set name value
  | remove h name ih =>
      obtain ⟨v, hb, rfl⟩ := Option.map_eq_some_iff.1 hv
      exact (ih hb).remove name
  | update h value ih =>
      obtain ⟨v, hb, rfl⟩ := Option.map_eq_some_iff.1 hv
      exact (ih hb).set inputName value
  | updateFrom h other merge ih ihOther =>
      obtain ⟨v, hb, hm⟩ := Option.bind_eq_some_iff.1 hv
      obtain ⟨w, hw, rfl⟩ := Option.map_eq_some_iff.1 hm
      exact (ih hb).updateFrom (ihOther hw) merge
  | clone h ih => exact ih hv

def keys (v : Variables) : Set (List Char) :=
  {key | ∃ name, fold name = key ∧ (v.get? name).isSome = true}

theorem keys_eq (v : Variables) : v.keys = (v.entries.map fun e => fold e.1).toFinset := by
  ext key
  constructor
  · rintro ⟨name, rfl, hname⟩
    obtain ⟨value, hvalue⟩ := Option.isSome_iff_exists.1 hname
    obtain ⟨e, he, hsame, -⟩ := get?_eq_some_iff.1 hvalue
    simpa using ⟨e.1, ⟨e.2, he⟩, hsame⟩
  · intro h
    obtain ⟨e, he, rfl⟩ := List.mem_map.1 (List.mem_toFinset.1 (Finset.mem_coe.1 h))
    exact ⟨e.1, rfl, by rw [get?_of_mem he]; rfl⟩

theorem size_eq_ncard (v : Variables) : v.size = v.keys.ncard := by
  have hnodup : (v.entries.map fun e => fold e.1).Nodup := List.pairwise_map.2 v.distinct
  rw [keys_eq, Set.ncard_coe_finset, List.toFinset_card_of_nodup hnodup, List.length_map]
  rfl

theorem keys_congr {v w : Variables} (h : ∀ name, v.get? name = w.get? name) : v.keys = w.keys := by
  simp only [keys, h]

theorem agree_iff (v w : Variables) : v.agree w = true ↔ ∀ name, v.get? name = w.get? name := by
  simp only [agree, Bool.and_eq_true, beq_iff_eq, List.all_eq_true]
  constructor
  · rintro ⟨hsize, hall⟩ name
    have hheld {value : String} (h : v.get? name = some value) : w.get? name = some value := by
      obtain ⟨e, he, hsame, rfl⟩ := get?_eq_some_iff.1 h
      rw [← w.get?_congr hsame, hall e he]
    have hsubset : v.keys ⊆ w.keys := by
      rintro _ ⟨other, rfl, hother⟩
      obtain ⟨value, hvalue⟩ := Option.isSome_iff_exists.1 hother
      obtain ⟨e, he, hsame, -⟩ := get?_eq_some_iff.1 hvalue
      exact ⟨e.1, hsame, by rw [hall e he]; rfl⟩
    -- As many names on both sides, so none is on the other side alone.
    have hkeys : v.keys = w.keys := by
      refine Set.eq_of_subset_of_ncard_le hsubset ?_ (by rw [keys_eq]; exact Finset.finite_toSet _)
      rw [← size_eq_ncard, ← size_eq_ncard, hsize]
    cases hv : v.get? name with
    | some value => exact (hheld hv).symm
    | none =>
        cases hw : w.get? name with
        | none => rfl
        | some value =>
            obtain ⟨other, hsame, hother⟩ : fold name ∈ v.keys := hkeys ▸ ⟨name, rfl, by rw [hw]; rfl⟩
            rw [v.get?_congr hsame, hv] at hother
            cases hother
  · intro h
    refine ⟨by rw [size_eq_ncard, size_eq_ncard, keys_congr h], fun e he => ?_⟩
    rw [← h, get?_of_mem he]

theorem isEmpty_iff (v : Variables) :
    v.isEmpty = true ↔ ∀ name, v.get? name = if SameName inputName name then some "" else none := by
  have hempty (name : String) :
      empty.get? name = if SameName inputName name then some "" else none := by
    by_cases h : SameName inputName name <;> simp [empty, withInput, get?, Entries.find?, h]
  simp only [← hempty, ← agree_iff, agree, isEmpty, Bool.and_eq_true, beq_iff_eq]
  refine and_congr_right fun hsize => ?_
  obtain ⟨e, he⟩ : ∃ e, v.entries = [e] := List.length_eq_one_iff.1 hsize
  have hname : e.1 = inputName := by simpa [he] using v.input_first
  have hvalue : v.input = e.2 := by
    rw [← Option.some_inj, ← get?_input, ← hname, get?_of_mem (he ▸ List.mem_singleton_self e)]
  have hblank : empty.input = "" := input_withInput ""
  rw [hvalue, he, List.all_cons, List.all_nil, Bool.and_true, hname, get?_input, hblank, beq_iff_eq,
    Option.some_inj]
  exact eq_comm

/-- However a set came about, its main value comes first under its own name, and no two of its names
differ in case alone. Each name holds the value written last since its last removal, and stands where
and as it was first written since then. Membership, size, emptiness and equality follow the values. -/
theorem holds_last_written {h : History} {v : Variables} (hv : h.build = some v) :
    v.entries.head?.map Prod.fst = some "INPUT" ∧
      (v.entries.Pairwise fun d e => d.1.toList.flatMap lower ≠ e.1.toList.flatMap lower) ∧
      (∀ name, v.get? name = h.log.value? name) ∧
      v.entries = h.log.entries ∧
      (∀ name, v.contains name = (h.log.value? name).isSome) ∧
      v.size = {key | ∃ name, fold name = key ∧ (h.log.value? name).isSome = true}.ncard ∧
      (v.isEmpty = true ↔
        ∀ name, h.log.value? name = if SameName inputName name then some "" else none) ∧
      ∀ (k : History) (w : Variables), k.build = some w →
        (v.agree w = true ↔ ∀ name, h.log.value? name = k.log.value? name) := by
  have hrecords := records_of_build hv
  have hvalue (name : String) : h.log.value? name = v.get? name := (hrecords.get?_eq name).symm
  refine ⟨v.input_first, v.distinct, hrecords.get?_eq, hrecords.entries_eq, ?_, ?_, ?_, ?_⟩
  · intro name
    rw [hvalue, contains]
  · simp only [hvalue]
    exact v.size_eq_ncard
  · simp only [hvalue]
    exact v.isEmpty_iff
  · intro k w hw
    simp only [hvalue, ← (records_of_build hw).get?_eq]
    exact v.agree_iff w

def renewed : History :=
  .set
    (.remove
      (.updateFrom (.read "\x7b\"b\": \"1\", \"B\": \"2\", \"b\": \"3\"\x7d") (.collect [("C", "4")]) true)
      "B")
    "B" "5"

def renewedSet : Variables :=
  (empty.set "C" "4").set "B" "5"

theorem holds_last_written_renewed :
    renewed.build = some renewedSet ∧
      renewed.log.entries = [("INPUT", ""), ("C", "4"), ("B", "5")] ∧
      renewed.log.value? "b" = some "5" := by
  have hbuild : renewed.build = some renewedSet := by decide +kernel
  obtain ⟨-, -, hvalue, hentries, -⟩ := holds_last_written hbuild
  exact ⟨hbuild, hentries ▸ rfl, hvalue "b" ▸ rfl⟩

end Orchestra.Variables
