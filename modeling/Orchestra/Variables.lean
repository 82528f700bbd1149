import Orchestra.Text.Case

namespace Orchestra

open Text

/-- The name every variable set holds: the main value passed in and handed back. -/
def inputName : String := "INPUT"

namespace Entries

/-- A new value keeps the place and the spelling of the name that is already there. -/
def put (name value : String) : List (String × String) → List (String × String)
  | [] => [(name, value)]
  | e :: rest => if SameName e.1 name then (e.1, value) :: rest else e :: put name value rest

def erase (name : String) (es : List (String × String)) : List (String × String) :=
  es.filter fun e => ¬ SameName e.1 name

def find? (name : String) (es : List (String × String)) : Option String :=
  (es.find? fun e => SameName e.1 name).map Prod.snd

def Distinct (es : List (String × String)) : Prop :=
  es.Pairwise fun a b => ¬ SameName a.1 b.1

theorem mem_put {name value : String} {es : List (String × String)} {e : String × String}
    (h : e ∈ put name value es) : e = (name, value) ∨ ∃ d ∈ es, d.1 = e.1 := by
  induction es with
  | nil => exact .inl (by simpa [put] using h)
  | cons d rest ih =>
      simp only [put] at h
      split at h
      · rcases List.mem_cons.1 h with rfl | h
        · exact .inr ⟨d, by simp, rfl⟩
        · exact .inr ⟨e, by simp [h], rfl⟩
      · rcases List.mem_cons.1 h with rfl | h
        · exact .inr ⟨e, by simp, rfl⟩
        · rcases ih h with h | ⟨d, hd, hn⟩
          · exact .inl h
          · exact .inr ⟨d, by simp [hd], hn⟩

theorem distinct_put {es : List (String × String)} (h : Distinct es) (name value : String) :
    Distinct (put name value es) := by
  induction es with
  | nil => simp [put, Distinct]
  | cons d rest ih =>
      have hp := List.pairwise_cons.1 h
      simp only [put]
      split
      · exact List.pairwise_cons.2 hp
      · rename_i hd
        refine List.pairwise_cons.2 ⟨?_, ih hp.2⟩
        intro e he
        rcases mem_put he with rfl | ⟨c, hc, hn⟩
        · exact hd
        · exact hn ▸ hp.1 c hc

theorem distinct_erase {es : List (String × String)} (h : Distinct es) (name : String) :
    Distinct (erase name es) :=
  List.Pairwise.filter _ h

theorem head_put {es : List (String × String)} {n : String}
    (h : es.head?.map Prod.fst = some n) (name value : String) :
    (put name value es).head?.map Prod.fst = some n := by
  cases es with
  | nil => simp at h
  | cons d rest =>
      simp only [put]
      split <;> simpa using h

theorem head_erase {es : List (String × String)} {n : String}
    (h : es.head?.map Prod.fst = some n) {name : String} (hn : ¬ SameName n name) :
    (erase name es).head?.map Prod.fst = some n := by
  cases es with
  | nil => simp at h
  | cons d rest =>
      simp only [List.head?_cons, Option.map_some, Option.some.injEq] at h
      subst h
      simp [erase, hn]

theorem find?_put (es : List (String × String)) (name value other : String) :
    find? other (put name value es) =
      if SameName name other then some value else find? other es := by
  induction es with
  | nil => by_cases h : SameName name other <;> simp [put, find?, h]
  | cons d rest ih =>
      simp only [put]
      by_cases hd : SameName d.1 name
      · by_cases h : SameName name other
        · simp [find?, hd, h, hd.trans h]
        · have : ¬ SameName d.1 other := fun k => h (hd.symm.trans k)
          simp [find?, hd, h, this]
      · simp only [hd, if_false]
        by_cases h : SameName d.1 other
        · have : ¬ SameName name other := fun k => hd (h.trans k.symm)
          simp [find?, h, this]
        · simpa [find?, h] using ih

theorem find?_erase (es : List (String × String)) (name other : String) :
    find? other (erase name es) = if SameName name other then none else find? other es := by
  induction es with
  | nil => simp [erase, find?]
  | cons d rest ih =>
      by_cases hd : SameName d.1 name
      · by_cases h : SameName name other
        · simpa [erase, find?, hd, h] using ih
        · have : ¬ SameName d.1 other := fun k => h (hd.symm.trans k)
          simpa [erase, find?, hd, h, this] using ih
      · by_cases h : SameName d.1 other
        · have : ¬ SameName name other := fun k => hd (h.trans k.symm)
          simp [erase, find?, hd, h, this]
        · simpa [erase, find?, hd, h] using ih

end Entries

/-- Named texts in the order of their first writing. Names are compared without regard to case,
and the main value always comes first. -/
@[ext] structure Variables where
  entries : List (String × String)
  input_first : entries.head?.map Prod.fst = some inputName
  distinct : Entries.Distinct entries
deriving DecidableEq

namespace Variables

def withInput (value : String) : Variables where
  entries := [(inputName, value)]
  input_first := rfl
  distinct := List.pairwise_singleton ..

def empty : Variables := withInput ""

instance : Inhabited Variables := ⟨empty⟩

def get? (v : Variables) (name : String) : Option String :=
  Entries.find? name v.entries

def contains (v : Variables) (name : String) : Bool :=
  (v.get? name).isSome

def input (v : Variables) : String :=
  (v.get? inputName).getD ""

def set (v : Variables) (name value : String) : Variables where
  entries := Entries.put name value v.entries
  input_first := Entries.head_put v.input_first name value
  distinct := Entries.distinct_put v.distinct name value

def setInput (v : Variables) (value : String) : Variables :=
  v.set inputName value

def remove (v : Variables) (name : String) : Variables :=
  if h : SameName inputName name then v.setInput ""
  else
    { entries := Entries.erase name v.entries
      input_first := Entries.head_erase v.input_first h
      distinct := Entries.distinct_erase v.distinct name }

def setOptional (v : Variables) (name : String) : Option String → Variables
  | some value => v.set name value
  | none => v.remove name

def setAll (v : Variables) (pairs : List (String × String)) : Variables :=
  pairs.foldl (fun v e => v.set e.1 e.2) v

def setMissing (v : Variables) (name value : String) : Variables :=
  if v.contains name then v else v.set name value

def setAllMissing (v : Variables) (pairs : List (String × String)) : Variables :=
  pairs.foldl (fun v e => v.setMissing e.1 e.2) v

def ofList (pairs : List (String × String)) : Variables :=
  empty.setAll pairs

/-- The entries of `other` written in their order, over those of `v` or over nothing. -/
def updateFrom (v other : Variables) (merge : Bool) : Variables :=
  (if merge then v else empty).setAll other.entries

def size (v : Variables) : Nat :=
  v.entries.length

def isEmpty (v : Variables) : Bool :=
  v.size == 1 && v.input == ""

def agree (v w : Variables) : Bool :=
  v.size == w.size && v.entries.all fun e => w.get? e.1 == some e.2

theorem get?_set (v : Variables) (name value other : String) :
    (v.set name value).get? other = if SameName name other then some value else v.get? other :=
  Entries.find?_put ..

theorem get?_remove (v : Variables) (name other : String) :
    (v.remove name).get? other =
      if SameName name other then (if SameName inputName name then some "" else none)
      else v.get? other := by
  unfold remove
  by_cases h : SameName inputName name
  · have e : SameName inputName other ↔ SameName name other :=
      ⟨fun k => h.symm.trans k, fun k => h.trans k⟩
    simp [h, setInput, get?_set, e]
  · simp only [h, dif_neg, not_false_eq_true, if_false]
    exact Entries.find?_erase ..

theorem get?_congr (v : Variables) {a b : String} (h : SameName a b) : v.get? a = v.get? b := by
  have (x : String) : SameName x a ↔ SameName x b := ⟨fun k => k.trans h, fun k => k.trans h.symm⟩
  simp [get?, Entries.find?, this]

@[simp] theorem input_withInput (value : String) : (withInput value).input = value := by
  simp [withInput, input, get?, Entries.find?, SameName.refl]

@[simp] theorem input_setInput (v : Variables) (value : String) :
    (v.setInput value).input = value := by
  simp [setInput, input, get?_set, SameName.refl]

theorem get?_input (v : Variables) : v.get? inputName = some v.input := by
  rcases v with ⟨entries, first, _⟩
  cases entries with
  | nil => simp at first
  | cons e rest =>
      simp only [List.head?_cons, Option.map_some, Option.some.injEq] at first
      simp [input, get?, Entries.find?, first, SameName.refl]

end Variables

end Orchestra
