import Mathlib.Algebra.Order.BigOperators.Group.List
import Mathlib.Algebra.Order.Group.Nat
import Mathlib.Data.List.Induction
import Mathlib.Data.List.TakeWhile
import Orchestra.Plan.Expansion

namespace Orchestra

open Text

def Variables.blank (v : Variables) : Variables where
  entries := v.entries.map fun e => (e.1, "")
  input_first := by
    rw [List.head?_map, Option.map_map]
    exact v.input_first
  distinct := by
    refine List.pairwise_map.2 (v.distinct.imp ?_)
    exact fun hne => hne

theorem Variables.get?_blank (v : Variables) (name : String) :
    v.blank.get? name = (v.get? name).map fun _ => "" := by
  simp only [get?, blank, Entries.find?, List.find?_map, Option.map_map]
  rfl

namespace Plan

/-- A character on its own, or a dollar sign with the name behind it. -/
inductive Part
  | plain (c : Char)
  | reference (name : List Char)

def Part.chars : Part → List Char
  | .plain c => [c]
  | .reference name => '$' :: name

def parts : List Char → List Part
  | [] => []
  | c :: rest =>
      if c = '$' ∧ rest.takeWhile isWord ≠ [] then
        .reference (rest.takeWhile isWord) :: parts (rest.dropWhile isWord)
      else .plain c :: parts rest
termination_by cs => cs.length
decreasing_by
  · exact Nat.lt_succ_of_le (List.dropWhile_sublist isWord).length_le
  · exact Nat.lt_succ_self _

theorem chars_parts (cs : List Char) : (parts cs).flatMap Part.chars = cs := by
  fun_induction parts cs with
  | case1 => rfl
  | case2 c rest h ih =>
      rw [List.flatMap_cons, ih, Part.chars, h.1, List.cons_append, List.takeWhile_append_dropWhile]
  | case3 c rest h ih => rw [List.flatMap_cons, ih, Part.chars, List.singleton_append]

def WordName (name : List Char) : Prop :=
  name ≠ [] ∧ ∀ c ∈ name, isWord c = true

theorem WordName.not_mem {name : List Char} (h : WordName name) : '$' ∉ name :=
  fun hmem => absurd (h.2 '$' hmem) (by decide)

theorem wordName_takeWhile {cs : List Char} (h : cs.takeWhile isWord ≠ []) :
    WordName (cs.takeWhile isWord) :=
  ⟨h, fun _ hc => List.mem_takeWhile_imp hc⟩

theorem WordName.of_mem_parts {cs name : List Char} (h : .reference name ∈ parts cs) :
    WordName name := by
  fun_induction parts cs with
  | case1 => cases h
  | case2 c rest hc ih =>
      rcases List.mem_cons.1 h with heq | h
      · cases heq
        exact wordName_takeWhile hc.2
      · exact ih h
  | case3 c rest hc ih =>
      rcases List.mem_cons.1 h with heq | h
      · cases heq
      · exact ih h

theorem references_append {w : List Char} (h : '$' ∉ w) (cs : List Char) :
    references (w ++ cs) = references cs := by
  induction w with
  | nil => rfl
  | cons c w ih =>
      obtain ⟨hc, hw⟩ := not_or.1 (mt List.mem_cons.2 h)
      rw [List.cons_append, references, if_neg (fun hr => hc hr.1.symm), ih hw]

theorem mem_references_iff {cs name : List Char} :
    name ∈ references cs ↔ .reference name ∈ parts cs := by
  fun_induction parts cs with
  | case1 => simp [references]
  | case2 c rest h ih =>
      have hskip := references_append (wordName_takeWhile h.2).not_mem (rest.dropWhile isWord)
      rw [List.takeWhile_append_dropWhile] at hskip
      rw [references, if_pos h, List.mem_cons, hskip, ih, List.mem_cons, Part.reference.injEq]
  | case3 c rest h ih =>
      rw [references, if_neg h, ih, List.mem_cons]
      simp

/-- One of the names that begin the text, none of which is longer, or nothing if none does. -/
inductive Longest (names : List (List Char)) (cs : List Char) : Option (List Char) → Prop
  | missing (h : ∀ n ∈ names, ¬ n <+: cs) : Longest names cs none
  | found {p : List Char} (hp : p ∈ names) (hbegins : p <+: cs)
      (h : ∀ n ∈ names, n <+: cs → n.length ≤ p.length) : Longest names cs (some p)

theorem Longest.pass {names : List (List Char)} {cs name : List Char} {best : Option (List Char)}
    (h : Longest names cs best) (hname : ¬ name <+: cs) : Longest (names ++ [name]) cs best := by
  cases h with
  | missing h => exact .missing (List.forall_mem_append.2 ⟨h, List.forall_mem_singleton.2 hname⟩)
  | found hp hbegins h =>
      refine .found (List.mem_append_left _ hp) hbegins (List.forall_mem_append.2 ⟨h, ?_⟩)
      exact List.forall_mem_singleton.2 fun hn => absurd hn hname

theorem Longest.keep {names : List (List Char)} {cs p : List Char} (h : Longest names cs (some p))
    {name : List Char} (hlen : name.length ≤ p.length) :
    Longest (names ++ [name]) cs (some p) := by
  cases h with
  | found hp hbegins h =>
      refine .found (List.mem_append_left _ hp) hbegins (List.forall_mem_append.2 ⟨h, ?_⟩)
      exact List.forall_mem_singleton.2 fun _ => hlen

theorem Longest.exchange {names : List (List Char)} {cs name : List Char}
    {best : Option (List Char)} (h : Longest names cs best) (hname : name <+: cs)
    (hlen : ∀ p ∈ best, p.length < name.length) : Longest (names ++ [name]) cs (some name) := by
  refine .found (List.mem_append_right _ (List.mem_singleton_self _)) hname
    (List.forall_mem_append.2 ⟨?_, List.forall_mem_singleton.2 fun _ => le_rfl⟩)
  cases h with
  | missing h => exact fun n hn hbegins => absurd hbegins (h n hn)
  | found hp _ h => exact fun n hn hbegins => (h n hn hbegins).trans (hlen _ rfl).le

theorem longestPrefix?_concat (names : List (List Char)) (name cs : List Char) :
    longestPrefix? (names ++ [name]) cs =
      if name.isPrefixOf cs && (longestPrefix? names cs).all (·.length < name.length) then some name
      else longestPrefix? names cs := by
  rw [longestPrefix?, List.foldl_concat]
  rfl

theorem longest_longestPrefix? (names : List (List Char)) (cs : List Char) :
    Longest names cs (longestPrefix? names cs) := by
  induction names using List.reverseRecOn with
  | nil => exact .missing (List.forall_mem_nil _)
  | append_singleton names name ih =>
      rw [longestPrefix?_concat]
      by_cases hname : name <+: cs
      · rw [List.isPrefixOf_iff_prefix.2 hname, Bool.true_and]
        split
        · rename_i hall
          exact ih.exchange hname (by simpa [Option.all_eq_true] using hall)
        · rename_i hall
          cases hbest : longestPrefix? names cs with
          | none => simp [hbest] at hall
          | some p =>
              rw [hbest] at ih hall
              exact ih.keep (by simpa using hall)
      · have hbegins : name.isPrefixOf cs = false :=
          Bool.eq_false_iff.2 fun h => hname (List.isPrefixOf_iff_prefix.1 h)
        rw [hbegins, Bool.false_and, if_neg Bool.false_ne_true]
        exact ih.pass hname

theorem longestPrefix?_self {names : List (List Char)} {name : List Char} (h : name ∈ names) :
    longestPrefix? names name = some name := by
  have hlongest := longest_longestPrefix? names name
  generalize longestPrefix? names name = best at hlongest ⊢
  cases hlongest with
  | missing hall => exact absurd List.prefix_rfl (hall name h)
  | found hp hbegins hall => rw [hbegins.eq_of_length_le (hall name h List.prefix_rfl)]

theorem prefix_takeWhile_iff {name : List Char} (h : ∀ c ∈ name, isWord c = true) (cs : List Char) :
    name <+: cs.takeWhile isWord ↔ name <+: cs := by
  constructor
  · exact fun hpre => hpre.trans (List.takeWhile_prefix _)
  · rintro ⟨rest, rfl⟩
    rw [List.takeWhile_append_of_pos h]
    exact List.prefix_append _ _

theorem longestPrefix?_takeWhile {names : List (List Char)} (h : ∀ n ∈ names, WordName n)
    (cs : List Char) : longestPrefix? names (cs.takeWhile isWord) = longestPrefix? names cs := by
  refine List.foldl_ext _ _ _ fun best name hname => ?_
  have hbegins : name.isPrefixOf (cs.takeWhile isWord) = name.isPrefixOf cs := by
    rw [Bool.eq_iff_iff, List.isPrefixOf_iff_prefix, List.isPrefixOf_iff_prefix,
      prefix_takeWhile_iff (h name hname).2]
  rw [hbegins]

theorem longestPrefix?_nil {names : List (List Char)} (h : ∀ n ∈ names, WordName n) :
    longestPrefix? names [] = none := by
  have hlongest := longest_longestPrefix? names []
  generalize longestPrefix? names [] = best at hlongest ⊢
  cases hlongest with
  | missing => rfl
  | found hp hbegins => exact absurd (List.prefix_nil.1 hbegins) (h _ hp).1

theorem substitute_skip (names : List (List Char)) (value : List Char → List Char)
    (w cs : List Char) : substitute names value w.length (w ++ cs) = substitute names value 0 cs := by
  induction w with
  | nil => rfl
  | cons c w ih => exact ih

theorem substitute_append {w : List Char} (h : '$' ∉ w) (names : List (List Char))
    (value : List Char → List Char) (cs : List Char) :
    substitute names value 0 (w ++ cs) = w ++ substitute names value 0 cs := by
  induction w with
  | nil => rfl
  | cons c w ih =>
      obtain ⟨hc, hw⟩ := not_or.1 (mt List.mem_cons.2 h)
      rw [List.cons_append, substitute, if_neg (Ne.symm hc), ih hw, List.cons_append]

def Part.substituted (names : List (List Char)) (value : List Char → List Char) :
    Part → List Char
  | .plain c => [c]
  | .reference name =>
      match longestPrefix? names name with
      | some p => value p ++ name.drop p.length
      | none => '$' :: name

theorem substitute_reference {names : List (List Char)} (h : ∀ n ∈ names, WordName n)
    (value : List Char → List Char) {name : List Char} (hname : WordName name) {rest : List Char}
    (hrest : (name ++ rest).takeWhile isWord = name) :
    substitute names value 0 ('$' :: (name ++ rest)) =
      (Part.reference name).substituted names value ++ substitute names value 0 rest := by
  have hlongest := longest_longestPrefix? names name
  rw [substitute, if_pos rfl, Part.substituted, ← longestPrefix?_takeWhile h, hrest]
  generalize longestPrefix? names name = best at hlongest ⊢
  cases hlongest with
  | missing =>
      dsimp only
      rw [substitute_append hname.not_mem, List.cons_append]
  | @found p hp hbegins =>
      obtain ⟨tail, rfl⟩ := hbegins
      have htail : '$' ∉ tail := fun hmem => hname.not_mem (List.mem_append_right p hmem)
      dsimp only
      rw [List.append_assoc, substitute_skip, substitute_append htail, List.drop_left,
        List.append_assoc]

theorem substitute_eq_flatMap {names : List (List Char)} (h : ∀ n ∈ names, WordName n)
    (value : List Char → List Char) (cs : List Char) :
    substitute names value 0 cs = (parts cs).flatMap (Part.substituted names value) := by
  fun_induction parts cs with
  | case1 => rfl
  | case2 c rest hc ih =>
      have hsplit := List.takeWhile_append_dropWhile (p := isWord) (l := rest)
      have hword : (rest.takeWhile isWord ++ rest.dropWhile isWord).takeWhile isWord =
          rest.takeWhile isWord := by rw [hsplit]
      have hreference := substitute_reference h value (wordName_takeWhile hc.2) hword
      rw [hsplit] at hreference
      rw [hc.1, hreference, ih, List.flatMap_cons]
  | case3 c rest hc ih =>
      rw [List.flatMap_cons, ← ih, Part.substituted, List.singleton_append, substitute]
      by_cases hdollar : c = '$'
      · have hempty : rest.takeWhile isWord = [] := by
          simpa [hdollar] using hc
        rw [if_pos hdollar, ← longestPrefix?_takeWhile h, hempty, longestPrefix?_nil h]
      · rw [if_neg hdollar]

def valueOf? (primary fallback : Variables) (name : List Char) : Option (List Char) :=
  (lookup? primary fallback (String.ofList name)).map String.toList

def Part.replaced (find : List Char → Option (List Char)) : Part → List Char
  | .plain c => [c]
  | .reference name => (find name).getD ('$' :: name)

/-- The text read once from left to right, with whole references replaced. -/
def expandWhole (text : String) (primary fallback : Variables) : String :=
  String.ofList ((parts text.toList).flatMap (Part.replaced (valueOf? primary fallback)))

def Mentions (text : String) (name : List Char) : Prop :=
  .reference name ∈ parts text.toList

/-- What a part of the text becomes. A name without a value gives way to the longest name that it
begins with, of those that have a value and that the text refers to. -/
inductive Becomes (text : String) (find : List Char → Option (List Char)) : Part → List Char → Prop
  | plain (c : Char) : Becomes text find (.plain c) [c]
  | value {name value : List Char} (h : find name = some value) :
      Becomes text find (.reference name) value
  | kept {name : List Char} (h : find name = none)
      (hnone : ∀ p, Mentions text p → (find p).isSome → ¬ p <+: name) :
      Becomes text find (.reference name) ('$' :: name)
  | inside {p tail value : List Char} (h : find (p ++ tail) = none) (hp : find p = some value)
      (hmentions : Mentions text p)
      (hlongest : ∀ q, Mentions text q → (find q).isSome → q <+: p ++ tail → q.length ≤ p.length) :
      Becomes text find (.reference (p ++ tail)) (value ++ tail)

def knownNames (text : String) (find : List Char → Option (List Char)) : List (List Char) :=
  (references text.toList).filter fun name => (find name).isSome

theorem mem_knownNames {text : String} {find : List Char → Option (List Char)} {name : List Char} :
    name ∈ knownNames text find ↔ Mentions text name ∧ (find name).isSome := by
  rw [knownNames, List.mem_filter, mem_references_iff, Mentions]

def Part.expanded (text : String) (find : List Char → Option (List Char)) : Part → List Char :=
  Part.substituted (knownNames text find) fun name => (find name).getD []

theorem expand_eq_flatMap (text : String) (primary fallback : Variables) :
    expand text primary fallback =
      String.ofList ((parts text.toList).flatMap
        (Part.expanded text (valueOf? primary fallback))) := by
  have hnames : ∀ n ∈ knownNames text (valueOf? primary fallback), WordName n :=
    fun n hn => .of_mem_parts (mem_knownNames.1 hn).1
  have hvalue : (fun name => ((lookup? primary fallback (String.ofList name)).getD "").toList) =
      fun name => (valueOf? primary fallback name).getD [] := by
    funext name
    rw [valueOf?]
    cases lookup? primary fallback (String.ofList name) <;> rfl
  have hknown : ((references text.toList).filter fun name =>
      (lookup? primary fallback (String.ofList name)).isSome) =
        knownNames text (valueOf? primary fallback) := by
    simp only [knownNames, valueOf?, Option.isSome_map]
  rw [expand, hvalue, hknown, substitute_eq_flatMap hnames]
  rfl

theorem becomes_expanded {text : String} (find : List Char → Option (List Char)) {part : Part}
    (h : part ∈ parts text.toList) : Becomes text find part (part.expanded text find) := by
  cases part with
  | plain c => exact .plain c
  | reference name =>
      have hlongest := longest_longestPrefix? (knownNames text find) name
      have hself : name ∈ knownNames text find →
          longestPrefix? (knownNames text find) name = some name := longestPrefix?_self
      rw [Part.expanded, Part.substituted]
      generalize longestPrefix? (knownNames text find) name = best at hlongest hself ⊢
      cases hlongest with
      | missing hall =>
          refine .kept ?_ fun p hmentions hvalue => hall p (mem_knownNames.2 ⟨hmentions, hvalue⟩)
          rw [← Option.not_isSome_iff_eq_none]
          exact fun hvalue => hall name (mem_knownNames.2 ⟨h, hvalue⟩) List.prefix_rfl
      | @found p hp hbegins hall =>
          obtain ⟨tail, rfl⟩ := hbegins
          obtain ⟨hmentions, hvalue⟩ := mem_knownNames.1 hp
          obtain ⟨value, hvalue⟩ := Option.isSome_iff_exists.1 hvalue
          dsimp only
          rw [hvalue, Option.getD_some, List.drop_left]
          cases hwhole : find (p ++ tail) with
          | none =>
              exact .inside hwhole hvalue hmentions fun q hq hqvalue =>
                hall q (mem_knownNames.2 ⟨hq, hqvalue⟩)
          | some whole =>
              have hknown : p ++ tail ∈ knownNames text find :=
                mem_knownNames.2 ⟨h, by rw [hwhole]; rfl⟩
              obtain rfl : tail = [] := by simpa using hself hknown
              rw [List.append_nil, List.append_nil]
              exact .value hvalue

/-- No name without a value begins with a name that has one, among those that the text refers to. -/
def NamesApart (text : String) (find : List Char → Option (List Char)) : Prop :=
  ∀ name known, Mentions text name → find name = none → Mentions text known →
    (find known).isSome → ¬ known <+: name

theorem Becomes.eq_replaced {text : String} {find : List Char → Option (List Char)}
    (hapart : NamesApart text find) {part : Part} (hpart : part ∈ parts text.toList)
    {piece : List Char} (h : Becomes text find part piece) : piece = part.replaced find := by
  cases h with
  | plain c => rfl
  | value h | kept h =>
      rw [Part.replaced, h]
      rfl
  | inside h hp hmentions hlongest =>
      exact absurd (List.prefix_append _ _) (hapart _ _ hpart h hmentions (by rw [hp]; rfl))

theorem expand_eq_whole_of_namesApart {text : String} {primary fallback : Variables}
    (h : NamesApart text (valueOf? primary fallback)) :
    expand text primary fallback = expandWhole text primary fallback := by
  rw [expand_eq_flatMap, expandWhole]
  refine congrArg String.ofList (List.flatMap_congr fun part hpart => ?_)
  exact (becomes_expanded _ hpart).eq_replaced h hpart

theorem Becomes.length_le {text : String} {find : List Char → Option (List Char)}
    (hempty : ∀ name value, find name = some value → value = []) {part : Part} {piece : List Char}
    (h : Becomes text find part piece) : piece.length ≤ (part.replaced find).length := by
  cases h with
  | plain c => exact le_rfl
  | value h | kept h =>
      rw [Part.replaced, h]
      exact le_rfl
  | inside h hp hmentions hlongest =>
      rw [Part.replaced, h, hempty _ _ hp, Option.getD_none, List.nil_append, List.length_cons,
        List.length_append]
      omega

theorem Becomes.length_lt {text : String} {find : List Char → Option (List Char)}
    (hempty : ∀ name value, find name = some value → value = []) {name known piece : List Char}
    (hname : find name = none) (hknown : Mentions text known) (hvalue : (find known).isSome)
    (hbegins : known <+: name) (h : Becomes text find (.reference name) piece) :
    piece.length < ((Part.reference name).replaced find).length := by
  cases h with
  | value h =>
      rw [hname] at h
      cases h
  | kept h hnone => exact absurd hbegins (hnone known hknown hvalue)
  | inside h hp hmentions hlongest =>
      rw [Part.replaced, h, hempty _ _ hp, Option.getD_none, List.nil_append, List.length_cons,
        List.length_append]
      omega

theorem lookup?_blank (primary fallback : Variables) (name : String) :
    lookup? primary.blank fallback.blank name = (lookup? primary fallback name).map fun _ => "" := by
  rw [lookup?, lookup?, Variables.get?_blank, Variables.get?_blank]
  cases primary.get? name <;> rfl

theorem eq_nil_of_valueOf?_blank {primary fallback : Variables} {name value : List Char}
    (h : valueOf? primary.blank fallback.blank name = some value) : value = [] := by
  rw [valueOf?, lookup?_blank] at h
  obtain ⟨_, hblank, rfl⟩ := Option.map_eq_some_iff.1 h
  obtain ⟨_, -, rfl⟩ := Option.map_eq_some_iff.1 hblank
  rfl

theorem namesApart_of_expand_blank {text : String} {primary fallback : Variables}
    (h : expand text primary.blank fallback.blank =
      expandWhole text primary.blank fallback.blank) :
    NamesApart text (valueOf? primary.blank fallback.blank) := by
  intro name known hmentions hname hknown hvalue hbegins
  let find := valueOf? primary.blank fallback.blank
  have hempty : ∀ name value, find name = some value → value = [] :=
    fun name value => eq_nil_of_valueOf?_blank
  have hlt := List.sum_lt_sum (l := parts text.toList)
    (fun part => (part.expanded text find).length) (fun part => (part.replaced find).length)
    (fun part hpart => (becomes_expanded find hpart).length_le hempty)
    ⟨.reference name, hmentions,
      (becomes_expanded find hmentions).length_lt hempty hname hknown hvalue hbegins⟩
  rw [expand_eq_flatMap, expandWhole, String.ofList_inj] at h
  have hlength := congrArg List.length h
  rw [List.length_flatMap, List.length_flatMap] at hlength
  exact absurd hlength hlt.ne

theorem namesApart_congr {text : String} {find find' : List Char → Option (List Char)}
    (h : ∀ name, (find name).isSome = (find' name).isSome) :
    NamesApart text find ↔ NamesApart text find' := by
  have hnone (name : List Char) : find name = none ↔ find' name = none := by
    rw [← Option.not_isSome_iff_eq_none, h, Option.not_isSome_iff_eq_none]
  simp only [NamesApart, hnone, h]

/-- Expansion is the substitution of whole references, whatever the values are, exactly when no name
without a value begins with one that has a value, among those the text refers to. Otherwise such a
reference gives way to the value of the longest name that it begins with. -/
theorem expand_eq_whole_iff (text : String) (primary fallback : Variables) :
    (parts text.toList).flatMap Part.chars = text.toList ∧
    (∃ pieces, List.Forall₂ (Becomes text (valueOf? primary fallback)) (parts text.toList) pieces ∧
      expand text primary fallback = String.ofList pieces.flatten) ∧
    ((∀ p f : Variables,
        (∀ name, (lookup? p f name).isSome = (lookup? primary fallback name).isSome) →
          expand text p f = expandWhole text p f) ↔
      NamesApart text (valueOf? primary fallback)) := by
  have hnames {p f q g : Variables}
      (h : ∀ name, (lookup? p f name).isSome = (lookup? q g name).isSome) :
      NamesApart text (valueOf? p f) ↔ NamesApart text (valueOf? q g) := by
    refine namesApart_congr fun name => ?_
    rw [valueOf?, valueOf?, Option.isSome_map, Option.isSome_map, h]
  refine ⟨chars_parts _, ⟨_, ?_, expand_eq_flatMap text primary fallback⟩, ?_, ?_⟩
  · exact List.forall₂_map_right_iff.2
      (List.forall₂_same.2 fun part hpart => becomes_expanded _ hpart)
  · intro h
    have hblank (name : String) : (lookup? primary.blank fallback.blank name).isSome =
        (lookup? primary fallback name).isSome := by
      rw [lookup?_blank, Option.isSome_map]
    exact (hnames hblank).1 (namesApart_of_expand_blank (h _ _ hblank))
  · intro h p f hsame
    exact expand_eq_whole_of_namesApart ((hnames hsame).2 h)

def heldA : Variables :=
  .ofList [("a", "1")]

def heldAB : Variables :=
  .ofList [("ab", "$a"), ("A", "2")]

theorem parts_known : parts "$ab $a-$c".toList =
    [.reference ['a', 'b'], .plain ' ', .reference ['a'], .plain '-', .reference ['c']] := by
  simp [parts, isWord]

theorem expand_eq_whole_iff_known :
    (∀ p f : Variables,
      (∀ name, (lookup? p f name).isSome = (lookup? heldA heldAB name).isSome) →
        expand "$ab $a-$c" p f = expandWhole "$ab $a-$c" p f) ∧
      expandWhole "$ab $a-$c" heldA heldAB = "$a 1-$c" := by
  obtain ⟨-, -, hwhole⟩ := expand_eq_whole_iff "$ab $a-$c" heldA heldAB
  refine ⟨hwhole.2 ?_, by rw [expandWhole, parts_known]; rfl⟩
  intro name known hmentions hname hknown hvalue hbegins
  rw [Mentions, parts_known] at hmentions hknown
  simp only [List.mem_cons, List.not_mem_nil, reduceCtorEq, Part.reference.injEq, or_false,
    false_or] at hmentions hknown
  rcases hmentions with rfl | rfl | rfl
  · cases hname
  · cases hname
  · rcases hknown with rfl | rfl | rfl
    · exact absurd hbegins (by decide)
    · exact absurd hbegins (by decide)
    · cases hvalue

/-- A name without a value begins with one that has a value and is referred to as well. -/
theorem unknown_name_replaced_in_part :
    lookup? heldA .empty "ab" = none ∧ expandWhole "$ab $a" heldA .empty = "$ab 1" ∧
      expand "$ab $a" heldA .empty = "1b 1" := by
  have hparts : parts "$ab $a".toList =
      [.reference ['a', 'b'], .plain ' ', .reference ['a']] := by
    simp [parts, isWord]
  refine ⟨rfl, ?_, rfl⟩
  rw [expandWhole, hparts]
  rfl

end Plan

end Orchestra
