import Orchestra.Proofs.Text.Trimming
import Orchestra.Xml.Token

namespace Orchestra.Xml

open Text

def FirstBehind (stop front : List Char) : Prop :=
  ∀ x y, front ++ stop = x ++ (stop ++ y) → y = []

theorem firstBehind_nil (stop : List Char) : FirstBehind stop [] := by
  intro x y h
  have := congrArg List.length h
  simp only [List.nil_append, List.length_append] at this
  exact List.length_eq_zero_iff.1 (by omega)

theorem firstBehind_cons {stop front : List Char} {c : Char} :
    FirstBehind stop (c :: front) ↔ ¬ stop <+: c :: (front ++ stop) ∧ FirstBehind stop front := by
  constructor
  · intro h
    refine ⟨?_, fun x y he => h (c :: x) y (congrArg (c :: ·) he)⟩
    rintro ⟨y, hy⟩
    obtain rfl := h [] y hy.symm
    have := congrArg List.length hy
    simp only [List.append_nil, List.length_cons, List.length_append] at this
    omega
  · rintro ⟨hlead, h⟩ x y he
    cases x with
    | nil => exact absurd ⟨y, he.symm⟩ hlead
    | cons d x => exact h x y (List.cons.inj he).2

theorem prefix_append_iff {stop cs ds : List Char} (h : stop.length ≤ cs.length) :
    stop <+: cs ++ ds ↔ stop <+: cs :=
  ⟨fun hp => List.prefix_of_prefix_length_le hp (List.prefix_append cs ds) h,
    fun hp => hp.trans (List.prefix_append cs ds)⟩

theorem upTo?_eq_some_iff {stop cs front back : List Char} (hne : stop ≠ []) :
    upTo? stop cs = some (front, back) ↔
      cs = front ++ (stop ++ back) ∧ FirstBehind stop front := by
  induction cs generalizing front with
  | nil => simp [upTo?, hne]
  | cons c rest ih =>
      rw [upTo?]
      by_cases hlead : stop <+: c :: rest
      · rw [if_pos (List.isPrefixOf_iff_prefix.2 hlead)]
        obtain ⟨k, hk⟩ := hlead
        rw [← hk, List.drop_left]
        constructor
        · rintro ⟨⟩
          exact ⟨rfl, firstBehind_nil stop⟩
        · rintro ⟨he, hfirst⟩
          have hpre : stop <+: front ++ stop :=
            (prefix_append_iff (by simp)).1 ⟨k, by rw [he, List.append_assoc]⟩
          obtain ⟨y, hy⟩ := hpre
          obtain rfl := hfirst [] y hy.symm
          obtain rfl : front = [] := by simpa using hy.symm
          rw [List.append_cancel_left he]
      · rw [if_neg fun h => hlead (List.isPrefixOf_iff_prefix.1 h)]
        constructor
        · intro h
          obtain ⟨⟨f, b⟩, hr, he⟩ := Option.map_eq_some_iff.1 h
          obtain ⟨rfl, rfl⟩ := Prod.mk.inj he
          obtain ⟨rfl, hfirst⟩ := ih.1 hr
          refine ⟨rfl, firstBehind_cons.2 ⟨fun hp => hlead ?_, hfirst⟩⟩
          rw [← List.append_assoc, ← List.cons_append]
          exact hp.trans (List.prefix_append _ _)
        · rintro ⟨he, hfirst⟩
          cases front with
          | nil => exact absurd ⟨back, he.symm⟩ hlead
          | cons d f =>
              obtain ⟨rfl, rfl⟩ := List.cons.inj he
              rw [ih.2 ⟨rfl, (firstBehind_cons.1 hfirst).2⟩]
              rfl

theorem FirstBehind.of_append {stop cs ds : List Char} (h : FirstBehind stop (cs ++ ds)) :
    FirstBehind stop ds := by
  intro x y he
  exact h (cs ++ x) y (by rw [List.append_assoc, he, List.append_assoc])

theorem firstBehind_singleton {c : Char} {cs : List Char} (h : c ∉ cs) : FirstBehind [c] cs := by
  intro x y he
  obtain ⟨-, -, hy⟩ := (List.append_cons_inj_of_notMem h List.not_mem_nil).1 he
  exact hy.symm

def Spaces (cs : List Char) : Prop :=
  ∀ c ∈ cs, isSpace c = true

theorem isNameChar_of_isSpace {c : Char} (h : isSpace c = true) : isNameChar c = false := by
  simp only [isSpace, Bool.or_eq_true, beq_iff_eq] at h
  rcases h with ((rfl | rfl) | rfl) | rfl <;> decide

theorem Spaces.head_append {sp cs : List Char} (h : Spaces sp)
    (hcs : ∀ c ∈ cs.head?, isNameChar c = false) : ∀ c ∈ (sp ++ cs).head?, isNameChar c = false := by
  cases sp with
  | nil => exact hcs
  | cons d sp =>
      rintro _ ⟨⟩
      exact isNameChar_of_isSpace (h d (List.mem_cons_self ..))

theorem skipSpace_append {sp cs : List Char} (hsp : Spaces sp)
    (hcs : ∀ c ∈ cs.head?, isSpace c = false) : skipSpace (sp ++ cs) = cs :=
  (span_append hsp hcs).2

theorem exists_spaces (cs : List Char) :
    ∃ sp, Spaces sp ∧ cs = sp ++ skipSpace cs ∧ ∀ c ∈ (skipSpace cs).head?, isSpace c = false := by
  obtain ⟨sp, rest, rfl, hsp, hrest⟩ := exists_span isSpace cs
  rw [skipSpace_append hsp hrest]
  exact ⟨sp, hsp, rfl, hrest⟩

structure NameText (cs : List Char) (n : Name) : Prop where
  chars : ∀ c ∈ cs, isNameChar c = true
  read : Name.ofChars? cs = some n

theorem name?_eq_some_iff {cs after : List Char} {n : Name} :
    name? cs = some (n, after) ↔
      ∃ part, NameText part n ∧ cs = part ++ after ∧ ∀ c ∈ after.head?, isNameChar c = false := by
  simp only [name?, bind, Option.bind_eq_some_iff, pure, Option.some.injEq, Prod.mk.injEq]
  constructor
  · rintro ⟨m, hm, rfl, rfl⟩
    exact ⟨_, ⟨fun c hc => List.mem_takeWhile_imp hc, hm⟩, List.takeWhile_append_dropWhile.symm,
      fun c hc => not_of_head?_dropWhile hc⟩
  · rintro ⟨part, hpart, rfl, hafter⟩
    obtain ⟨htake, hdrop⟩ := span_append hpart.chars hafter
    exact ⟨n, by rw [htake, hpart.read], rfl, hdrop⟩

theorem NameText.ne_nil {cs : List Char} {n : Name} (h : NameText cs n) : cs ≠ [] :=
  Name.ofChars?_ne_nil h.read

theorem NameText.eq_or_eq {cs : List Char} {n : Name} (h : NameText cs n) :
    cs = n.base.toList ∨ cs = n.space.toList ++ ':' :: n.base.toList := by
  have hread := h.read
  unfold Name.ofChars? at hread
  dsimp only at hread
  split at hread
  · split at hread
    · cases hread
      exact .inl (by simp)
    · cases hread
  · rename_i c back hback
    split at hread
    · cases hread
      right
      obtain rfl : c = ':' := by simpa using not_of_dropWhile hback
      rw [String.toList_ofList, String.toList_ofList, ← hback, List.takeWhile_append_dropWhile]
    · cases hread

def QuoteMark (q : Char) : Prop :=
  q = '\x22' ∨ q = '\x27'

theorem quoted?_eq_some_iff {cs value after : List Char} :
    quoted? cs = some (value, after) ↔
      ∃ q, QuoteMark q ∧ (∀ c ∈ value, c ≠ q ∧ c ≠ '<') ∧ cs = q :: (value ++ q :: after) := by
  constructor
  · intro h
    unfold quoted? at h
    split at h
    · cases h
    · rename_i q rest
      split at h
      · cases h
      · rename_i hq
        split at h
        · cases h
        · rename_i c back hdrop
          split at h
          · rename_i hc
            subst c
            cases h
            refine ⟨q, by unfold QuoteMark; tauto, fun c hc => ?_, ?_⟩
            · simpa using List.mem_takeWhile_imp hc
            · rw [← hdrop, List.takeWhile_append_dropWhile]
          · cases h
  · rintro ⟨q, hq, hvalue, rfl⟩
    have hspan := span_append (p := fun c => decide (c ≠ q ∧ c ≠ '<'))
      (fun c hc => decide_eq_true (hvalue c hc)) (r := q :: after) (by simp)
    have hmark : ¬ (q ≠ '\x22' ∧ q ≠ '\x27') := by unfold QuoteMark at hq; tauto
    simp only [quoted?, if_neg hmark, hspan, if_pos]

inductive AttributeText : List Char → Name × String → Prop
  | mk {name sp sp' value : List Char} {n : Name} {q : Char} {v : String} (hname : NameText name n)
      (hsp : Spaces sp) (hsp' : Spaces sp') (hq : QuoteMark q)
      (hvalue : ∀ c ∈ value, c ≠ q ∧ c ≠ '<') (hchars : value.all isChar = true)
      (hread : attributeValue? value = some v) :
      AttributeText (name ++ (sp ++ '=' :: (sp' ++ q :: (value ++ [q])))) (n, v)

theorem attribute?_eq_some_iff {cs after : List Char} {a : Name × String} :
    attribute? cs = some (a, after) ↔ ∃ part, AttributeText part a ∧ cs = part ++ after := by
  constructor
  · intro h
    unfold attribute? at h
    split at h
    · cases h
    · rename_i n rest hname
      obtain ⟨name, hn, rfl, -⟩ := name?_eq_some_iff.1 hname
      obtain ⟨sp, hsp, hrest, -⟩ := exists_spaces rest
      split at h
      · cases h
      · rename_i c more hskip
        split at h
        · cases h
        · rename_i hc
          obtain rfl : c = '=' := not_not.1 hc
          obtain ⟨sp', hsp', hmore, -⟩ := exists_spaces more
          split at h
          · cases h
          · rename_i value back hquoted
            obtain ⟨q, hq, hvalue, hback⟩ := quoted?_eq_some_iff.1 hquoted
            split at h
            · rename_i hchars
              obtain ⟨v, hread, he⟩ := Option.map_eq_some_iff.1 h
              cases he
              refine ⟨_, .mk hn hsp hsp' hq hvalue hchars hread, ?_⟩
              rw [hrest, hskip, hmore, hback]
              simp
            · cases h
  · rintro ⟨_, @⟨name, sp, sp', value, n, q, v, hname, hsp, hsp', hq, hvalue, hchars, hread⟩, rfl⟩
    have htext : name ++ (sp ++ '=' :: (sp' ++ q :: (value ++ [q]))) ++ after =
        name ++ (sp ++ '=' :: (sp' ++ q :: (value ++ q :: after))) := by
      simp
    have hquote : ∀ c ∈ (q :: (value ++ q :: after)).head?, isSpace c = false := by
      rintro c ⟨⟩
      rcases hq with rfl | rfl <;> decide
    rw [htext, attribute?,
      name?_eq_some_iff.2 ⟨name, hname, rfl, hsp.head_append (by rintro c ⟨⟩; decide)⟩]
    dsimp only
    rw [skipSpace_append hsp (by rintro c ⟨⟩; decide)]
    dsimp only
    rw [if_neg (by simp), skipSpace_append hsp' hquote,
      quoted?_eq_some_iff.2 ⟨q, hq, hvalue, rfl⟩]
    dsimp only
    rw [if_pos hchars, hread]
    rfl

theorem AttributeText.head {cs : List Char} {a : Name × String} (h : AttributeText cs a) :
    ∃ c rest, cs = c :: rest ∧ isNameChar c = true := by
  obtain @⟨name, sp, sp', value, n, q, v, hname⟩ := h
  obtain ⟨c, name, rfl⟩ := List.exists_cons_of_ne_nil hname.ne_nil
  exact ⟨c, _, rfl, hname.chars c (List.mem_cons_self ..)⟩

inductive AttributesText : List Char → List (Name × String) → Bool → Prop
  | close {sp : List Char} (hsp : Spaces sp) : AttributesText (sp ++ ['>']) [] false
  | closeEmpty {sp : List Char} (hsp : Spaces sp) : AttributesText (sp ++ ['/', '>']) [] true
  | cons {sp part rest : List Char} {a : Name × String} {as : List (Name × String)} {empty : Bool}
      (hsp : Spaces sp) (hne : sp ≠ []) (ha : AttributeText part a)
      (h : AttributesText rest as empty) : AttributesText (sp ++ (part ++ rest)) (a :: as) empty

theorem attributes?_close {cs rest : List Char} (h : skipSpace cs = '>' :: rest) :
    attributes? cs = some ([], false, rest) := by
  rw [attributes?]
  split
  · rename_i hs
    cases hs.symm.trans h
  · rename_i hs
    cases hs.symm.trans h
    rfl
  · rename_i hs
    exact absurd h (hs rest)

theorem attributes?_closeEmpty {cs rest : List Char} (h : skipSpace cs = '/' :: '>' :: rest) :
    attributes? cs = some ([], true, rest) := by
  rw [attributes?]
  split
  · rename_i hs
    cases hs.symm.trans h
    rfl
  · rename_i hs
    cases hs.symm.trans h
  · rename_i hs _
    exact absurd h (hs rest)

theorem attributes?_cons {cs rest : List Char} {a : Name × String}
    (hspace : cs.head?.any isSpace = true) (ha : attribute? (skipSpace cs) = some (a, rest)) :
    attributes? cs = (attributes? rest).map fun r => (a :: r.1, r.2) := by
  obtain ⟨part, hpart, hskip⟩ := attribute?_eq_some_iff.1 ha
  obtain ⟨c, part, rfl, hc⟩ := hpart.head
  rw [attributes?]
  split
  · rename_i more hs
    obtain ⟨rfl, -⟩ := List.cons.inj (hs.symm.trans hskip)
    exact absurd hc (by decide)
  · rename_i more hs
    obtain ⟨rfl, -⟩ := List.cons.inj (hs.symm.trans hskip)
    exact absurd hc (by decide)
  · rw [if_pos hspace]
    split
    · rename_i hnone
      rw [ha] at hnone
      cases hnone
    · rename_i hsome
      rw [ha] at hsome
      cases hsome
      rfl

theorem attributes?_eq_some_iff {cs after : List Char} {as : List (Name × String)} {empty : Bool} :
    attributes? cs = some (as, empty, after) ↔
      ∃ part, AttributesText part as empty ∧ cs = part ++ after := by
  constructor
  · intro h
    fun_induction attributes? cs generalizing as empty after with
    | case1 cs rest hs =>
        cases h
        obtain ⟨sp, hsp, hcs, -⟩ := exists_spaces cs
        exact ⟨_, .closeEmpty hsp, by rw [hcs, hs]; simp⟩
    | case2 cs rest hs =>
        cases h
        obtain ⟨sp, hsp, hcs, -⟩ := exists_spaces cs
        exact ⟨_, .close hsp, by rw [hcs, hs]; simp⟩
    | case3 => cases h
    | case4 cs =>
        rename_i hspace a rest ha _ _ ih
        obtain ⟨⟨as', empty', after'⟩, hr, he⟩ := Option.map_eq_some_iff.1 h
        cases he
        obtain ⟨sp, hsp, hcs, hhead⟩ := exists_spaces cs
        obtain ⟨part, hpart, hskip⟩ := attribute?_eq_some_iff.1 ha
        obtain ⟨back, hback, rfl⟩ := ih hr
        refine ⟨_, .cons hsp ?_ hpart hback, ?_⟩
        · rintro rfl
          rw [hcs, List.nil_append] at hspace
          obtain ⟨c, hc, hspace⟩ := (Option.any_eq_true ..).1 hspace
          rw [hhead c hc] at hspace
          cases hspace
        · rw [hcs, hskip]
          simp only [List.append_assoc]
    | case5 => cases h
  · rintro ⟨part, h, rfl⟩
    induction h with
    | @close sp hsp =>
        apply attributes?_close
        rw [List.append_assoc]
        exact skipSpace_append hsp (by rintro c ⟨⟩; decide)
    | @closeEmpty sp hsp =>
        apply attributes?_closeEmpty
        rw [List.append_assoc]
        exact skipSpace_append hsp (by rintro c ⟨⟩; decide)
    | @cons sp part rest a as empty hsp hne ha h ih =>
        have hpart : ∀ c ∈ (part ++ (rest ++ after)).head?, isSpace c = false := by
          obtain ⟨c, part, rfl, hc⟩ := ha.head
          rintro _ ⟨⟩
          exact Bool.eq_false_iff.2 fun hs => by simp [isNameChar_of_isSpace hs] at hc
        have hread : attribute? (skipSpace (sp ++ (part ++ rest) ++ after)) =
            some (a, rest ++ after) := by
          rw [List.append_assoc, List.append_assoc, skipSpace_append hsp hpart]
          exact attribute?_eq_some_iff.2 ⟨part, ha, rfl⟩
        have hspace : (sp ++ (part ++ rest) ++ after).head?.any isSpace = true := by
          obtain ⟨c, sp, rfl⟩ := List.exists_cons_of_ne_nil hne
          exact hsp c (List.mem_cons_self ..)
        rw [attributes?_cons hspace hread, ih]
        rfl

theorem AttributesText.head {cs : List Char} {as : List (Name × String)} {empty : Bool}
    (h : AttributesText cs as empty) :
    ∃ c rest, cs = c :: rest ∧ (isSpace c = true ∨ c = '/' ∨ c = '>') := by
  have hcons {sp : List Char} (hsp : Spaces sp) (hne : sp ≠ []) (r : List Char) :
      ∃ c rest, sp ++ r = c :: rest ∧ (isSpace c = true ∨ c = '/' ∨ c = '>') := by
    obtain ⟨c, sp, rfl⟩ := List.exists_cons_of_ne_nil hne
    exact ⟨c, _, rfl, .inl (hsp c (List.mem_cons_self ..))⟩
  cases h with
  | @close sp hsp =>
      by_cases hne : sp = []
      · exact ⟨'>', [], by rw [hne]; rfl, .inr (.inr rfl)⟩
      · exact hcons hsp hne _
  | @closeEmpty sp hsp =>
      by_cases hne : sp = []
      · exact ⟨'/', ['>'], by rw [hne]; rfl, .inr (.inl rfl)⟩
      · exact hcons hsp hne _
  | cons hsp hne => exact hcons hsp hne _

theorem AttributesText.head_append {cs : List Char} {as : List (Name × String)} {empty : Bool}
    (h : AttributesText cs as empty) (after : List Char) :
    ∀ c ∈ (cs ++ after).head?, isNameChar c = false := by
  obtain ⟨c, cs, rfl, hc⟩ := h.head
  rintro _ ⟨⟩
  rcases hc with hc | rfl | rfl
  · exact isNameChar_of_isSpace hc
  · decide
  · decide

def AtMarkup (cs : List Char) : Prop :=
  ∀ c ∈ cs.head?, c = '<'

theorem atMarkup_cons (cs : List Char) : AtMarkup ('<' :: cs) := by
  rintro c ⟨⟩
  rfl

structure Instruction (target sp body : List Char) : Prop where
  names : ∀ c ∈ target, isNameChar c = true
  start : startsName target = true
  space : Spaces sp
  target_ends : ∀ c ∈ (sp ++ (body ++ ['?', '>'])).head?, isNameChar c = false
  space_ends : ∀ c ∈ (body ++ ['?', '>']).head?, isSpace c = false
  first : FirstBehind ['?', '>'] body
  chars : body.all isChar = true
  undeclared : ¬ ['x', 'm', 'l', ' '] <+: target ++ (sp ++ (body ++ ['?', '>']))

/-- How a token is written. Only character data depends on what stands behind it. -/
inductive Lexeme (after : List Char) : List Char → Token → Prop
  | comment {body : List Char} (hfirst : FirstBehind ['-', '-', '>'] body)
      (hbody : body.all isChar = true ∧ ¬ contains ['-', '-'] (body ++ ['-']) = true) :
      Lexeme after ('<' :: '!' :: '-' :: '-' :: (body ++ ['-', '-', '>'])) .aside
  | cdata {body : List Char} (hfirst : FirstBehind [']', ']', '>'] body)
      (hbody : body.all isChar = true) :
      Lexeme after ('<' :: '!' :: '[' :: 'C' :: 'D' :: 'A' :: 'T' :: 'A' :: '[' ::
        (body ++ [']', ']', '>'])) (.text false)
  | instruction {target sp body : List Char} (h : Instruction target sp body) :
      Lexeme after ('<' :: '?' :: (target ++ (sp ++ (body ++ ['?', '>'])))) .aside
  | stop {name sp : List Char} {n : Name} (hname : NameText name n) (hsp : Spaces sp) :
      Lexeme after ('<' :: '/' :: (name ++ (sp ++ ['>']))) (.stop n)
  | start {name rest : List Char} {n : Name} {as : List (Name × String)} {empty : Bool}
      (hname : NameText name n) (hrest : AttributesText rest as empty) :
      Lexeme after ('<' :: (name ++ rest)) (.start n as empty)
  | text {body : List Char} (hne : body ≠ []) (hopen : '<' ∉ body) (hafter : AtMarkup after)
      (hbody : body.all isChar = true ∧ ¬ contains [']', ']', '>'] body = true ∧
        (decode? id body).isSome = true) :
      Lexeme after body (.text (body.all isSpace))

theorem Lexeme.change {after after' part : List Char} {t : Token} (h : Lexeme after part t)
    (hafter : AtMarkup after → AtMarkup after') : Lexeme after' part t := by
  cases h with
  | comment hfirst hbody => exact .comment hfirst hbody
  | cdata hfirst hbody => exact .cdata hfirst hbody
  | instruction h => exact .instruction h
  | stop hname hsp => exact .stop hname hsp
  | start hname hrest => exact .start hname hrest
  | text hne hopen hmarkup hbody => exact .text hne hopen (hafter hmarkup) hbody

theorem isNameChar_of_isNameStart {c : Char} (h : isNameStart c = true) : isNameChar c = true := by
  simp [isNameChar, h]

/-- A reader that takes everything up to the first stop, if it is fit for that. -/
theorem delimited_eq_some_iff {stop cs after : List Char} (hne : stop ≠ []) {fit : List Char → Prop}
    [DecidablePred fit] {t t' : Token} :
    (match upTo? stop cs with
      | none => none
      | some (body, after) => if fit body then some (t, after) else none) = some (t', after) ↔
      ∃ body, FirstBehind stop body ∧ fit body ∧ t' = t ∧ cs = body ++ stop ++ after := by
  constructor
  · intro h
    split at h
    · cases h
    · rename_i body back hupTo
      obtain ⟨rfl, hfirst⟩ := (upTo?_eq_some_iff hne).1 hupTo
      split at h
      · rename_i hbody
        cases h
        exact ⟨body, hfirst, hbody, rfl, (List.append_assoc ..).symm⟩
      · cases h
  · rintro ⟨body, hfirst, hbody, rfl, rfl⟩
    rw [(upTo?_eq_some_iff hne).2 ⟨List.append_assoc .., hfirst⟩]
    exact if_pos hbody

theorem comment?_eq_some_iff {cs after : List Char} {t : Token} :
    comment? cs = some (t, after) ↔
      ∃ body, FirstBehind ['-', '-', '>'] body ∧
        (body.all isChar = true ∧ ¬ contains ['-', '-'] (body ++ ['-']) = true) ∧
        t = .aside ∧ cs = body ++ ['-', '-', '>'] ++ after :=
  delimited_eq_some_iff (List.cons_ne_nil _ _)

theorem section?_eq_some_iff {cs after : List Char} {t : Token} : section? cs = some (t, after) ↔
      ∃ body, FirstBehind [']', ']', '>'] body ∧ body.all isChar = true ∧ t = .text false ∧
        cs = body ++ [']', ']', '>'] ++ after :=
  delimited_eq_some_iff (List.cons_ne_nil _ _)

theorem stop?_eq_some_iff {cs after : List Char} {t : Token} :
    stop? cs = some (t, after) ↔
      ∃ name sp n, NameText name n ∧ Spaces sp ∧ t = .stop n ∧
        cs = name ++ (sp ++ ['>']) ++ after := by
  unfold stop?
  constructor
  · intro h
    split at h
    · cases h
    · rename_i n more hread
      obtain ⟨name, hname, rfl, -⟩ := name?_eq_some_iff.1 hread
      obtain ⟨sp, hsp, hmore, -⟩ := exists_spaces more
      split at h
      · rename_i back hskip
        cases h
        exact ⟨name, sp, n, hname, hsp, rfl, by rw [hmore, hskip]; simp⟩
      · cases h
  · rintro ⟨name, sp, n, hname, hsp, rfl, rfl⟩
    have hclose : ∀ p : Char → Bool, p '>' = false → ∀ c ∈ ('>' :: after).head?, p c = false := by
      rintro p hp c ⟨⟩
      exact hp
    rw [List.append_assoc, List.append_assoc, List.singleton_append,
      name?_eq_some_iff.2 ⟨name, hname, rfl, hsp.head_append (hclose _ (by decide))⟩]
    dsimp only
    rw [skipSpace_append hsp (hclose _ (by decide))]
    rfl

theorem start?_eq_some_iff {cs after : List Char} {t : Token} :
    start? cs = some (t, after) ↔
      ∃ name rest n as empty, NameText name n ∧ AttributesText rest as empty ∧
        t = .start n as empty ∧ cs = name ++ rest ++ after := by
  unfold start?
  constructor
  · intro h
    split at h
    · cases h
    · rename_i n more hread
      obtain ⟨name, hname, rfl, -⟩ := name?_eq_some_iff.1 hread
      obtain ⟨⟨as, empty, back⟩, hrest, he⟩ := Option.map_eq_some_iff.1 h
      cases he
      obtain ⟨rest, htext, rfl⟩ := attributes?_eq_some_iff.1 hrest
      exact ⟨name, rest, n, as, empty, hname, htext, rfl, by simp⟩
  · rintro ⟨name, rest, n, as, empty, hname, hrest, rfl, rfl⟩
    rw [List.append_assoc, name?_eq_some_iff.2 ⟨name, hname, rfl, hrest.head_append after⟩]
    dsimp only
    rw [attributes?_eq_some_iff.2 ⟨rest, hrest, rfl⟩]
    rfl

theorem text?_eq_some_iff {cs after : List Char} {t : Token} :
    text? cs = some (t, after) ↔
      ∃ body, '<' ∉ body ∧ AtMarkup after ∧
        (body.all isChar = true ∧ ¬ contains [']', ']', '>'] body = true ∧
          (decode? id body).isSome = true) ∧
        t = .text (body.all isSpace) ∧ cs = body ++ after := by
  unfold text?
  constructor
  · intro h
    dsimp only at h
    split at h
    · rename_i hbody
      cases h
      refine ⟨_, fun hmem => ?_, fun c hc => ?_, hbody, rfl,
        List.takeWhile_append_dropWhile.symm⟩
      · simpa using List.mem_takeWhile_imp hmem
      · simpa using not_of_head?_dropWhile hc
    · cases h
  · rintro ⟨body, hopen, hafter, hbody, rfl, rfl⟩
    obtain ⟨htake, hdrop⟩ := span_append (p := (· ≠ '<')) (all_ne_of_not_mem hopen)
      (r := after) fun c hc => by simpa using hafter c hc
    simp only [htake, hdrop]
    exact if_pos hbody

theorem startsName_append {target rest : List Char}
    (hrest : ∀ c ∈ rest.head?, isNameChar c = false) :
    startsName (target ++ rest) = startsName target := by
  cases target with
  | nil =>
      cases rest with
      | nil => rfl
      | cons c rest =>
          refine Bool.eq_false_iff.2 fun hstart => ?_
          cases (hrest c rfl).symm.trans (isNameChar_of_isNameStart hstart)
  | cons c target => rfl

theorem Instruction.undeclared_append {target sp body : List Char} (h : Instruction target sp body)
    (after : List Char) :
    ¬ ['x', 'm', 'l', ' '] <+: target ++ (sp ++ (body ++ ['?', '>'])) ++ after := by
  intro hlead
  rcases List.prefix_or_prefix_of_prefix hlead (List.prefix_append _ _) with hlong | hshort
  · exact h.undeclared hlong
  · have hmem := hshort.subset (show '?' ∈ _ by simp)
    exact absurd hmem (by decide)

theorem instruction?_eq_some_iff {cs after : List Char} {t : Token} :
    instruction? cs = some (t, after) ↔
      ∃ target sp body, Instruction target sp body ∧ t = .aside ∧
        cs = target ++ (sp ++ (body ++ ['?', '>'])) ++ after := by
  unfold instruction?
  constructor
  · intro h
    split at h
    · cases h
    · rename_i hplain
      split at h
      · cases h
      · rename_i hstart
        obtain ⟨body, hfirst, hchars, rfl, hskip⟩ :=
          (delimited_eq_some_iff (List.cons_ne_nil _ _)).1 h
        obtain ⟨target, rest, rfl, htarget, hrest⟩ := exists_span isNameChar cs
        rw [(span_append htarget hrest).2] at hskip
        obtain ⟨sp, hsp, he, hhead⟩ := exists_spaces rest
        rw [hskip] at he hhead
        rw [← List.append_assoc] at he
        subst he
        refine ⟨target, sp, body, ⟨htarget, ?_, hsp, ?_, ?_, hfirst, hchars, ?_⟩, rfl, by simp⟩
        · exact (startsName_append hrest).symm.trans (not_not.1 hstart)
        · rwa [List.head?_append_of_ne_nil _ (by simp)] at hrest
        · rwa [List.head?_append_of_ne_nil _ (by simp)] at hhead
        · intro hlead
          refine hplain (List.isPrefixOf_iff_prefix.2 ?_)
          rw [← List.append_assoc]
          exact hlead.trans (List.prefix_append _ _)
  · rintro ⟨target, sp, body, h, rfl, rfl⟩
    have hends : ∀ c ∈ (sp ++ (body ++ ['?', '>']) ++ after).head?, isNameChar c = false := by
      rw [List.head?_append_of_ne_nil _ (by simp)]
      exact h.target_ends
    have hskip : skipSpace (sp ++ (body ++ ['?', '>']) ++ after) = body ++ ['?', '>'] ++ after := by
      rw [List.append_assoc]
      refine skipSpace_append h.space ?_
      rw [List.head?_append_of_ne_nil _ (by simp)]
      exact h.space_ends
    rw [if_neg fun hp => h.undeclared_append after (List.isPrefixOf_iff_prefix.1 hp),
      List.append_assoc, if_neg (not_not.2 ((startsName_append hends).trans h.start)),
      (span_append h.names hends).2, hskip]
    exact (delimited_eq_some_iff (List.cons_ne_nil _ _)).2 ⟨body, h.first, h.chars, rfl, rfl⟩

theorem lexeme_of_token? {cs after : List Char} {t : Token} (hne : cs ≠ [])
    (h : token? cs = some (t, after)) : ∃ part, Lexeme after part t ∧ cs = part ++ after := by
  unfold token? at h
  split at h
  · obtain ⟨body, hfirst, hbody, rfl, rfl⟩ := comment?_eq_some_iff.1 h
    exact ⟨_, .comment hfirst hbody, rfl⟩
  · obtain ⟨body, hfirst, hbody, rfl, rfl⟩ := section?_eq_some_iff.1 h
    exact ⟨_, .cdata hfirst hbody, rfl⟩
  · cases h
  · obtain ⟨target, sp, body, hbody, rfl, rfl⟩ := instruction?_eq_some_iff.1 h
    exact ⟨_, .instruction hbody, rfl⟩
  · obtain ⟨name, sp, n, hname, hsp, rfl, rfl⟩ := stop?_eq_some_iff.1 h
    exact ⟨_, .stop hname hsp, rfl⟩
  · obtain ⟨name, rest, n, as, empty, hname, hrest, rfl, rfl⟩ := start?_eq_some_iff.1 h
    exact ⟨_, .start hname hrest, rfl⟩
  · rename_i hmarkup
    obtain ⟨body, hopen, hafter, hbody, rfl, rfl⟩ := text?_eq_some_iff.1 h
    refine ⟨body, .text ?_ hopen hafter hbody, rfl⟩
    rintro rfl
    obtain ⟨c, after, rfl⟩ := List.exists_cons_of_ne_nil hne
    obtain rfl := hafter c rfl
    exact hmarkup _ rfl

theorem token?_name {c : Char} (hc : isNameChar c = true) (rest : List Char) :
    token? ('<' :: c :: rest) = start? (c :: rest) := by
  have hne : ∀ d, isNameChar d = false → c ≠ d := by
    rintro d hd rfl
    exact absurd hc (by simp [hd])
  have hbang := hne '!' (by decide)
  have hquestion := hne '?' (by decide)
  have hslash := hne '/' (by decide)
  unfold token?
  split <;> simp_all

theorem token?_plain {c : Char} (hc : c ≠ '<') (rest : List Char) :
    token? (c :: rest) = text? (c :: rest) := by
  unfold token?
  split <;> simp_all

theorem Lexeme.token? {part after : List Char} {t : Token} (h : Lexeme after part t) :
    token? (part ++ after) = some (t, after) := by
  cases h with
  | comment hfirst hbody => exact comment?_eq_some_iff.2 ⟨_, hfirst, hbody, rfl, rfl⟩
  | cdata hfirst hbody => exact section?_eq_some_iff.2 ⟨_, hfirst, hbody, rfl, rfl⟩
  | instruction h => exact instruction?_eq_some_iff.2 ⟨_, _, _, h, rfl, rfl⟩
  | stop hname hsp => exact stop?_eq_some_iff.2 ⟨_, _, _, hname, hsp, rfl, rfl⟩
  | @start name rest n as empty hname hrest =>
      have hread : start? (name ++ rest ++ after) = some (.start n as empty, after) :=
        start?_eq_some_iff.2 ⟨name, rest, n, as, empty, hname, hrest, rfl, rfl⟩
      obtain ⟨c, name, rfl⟩ := List.exists_cons_of_ne_nil hname.ne_nil
      exact (token?_name (hname.chars c (List.mem_cons_self ..)) _).trans hread
  | text hne hopen hafter hbody =>
      have hread : text? (part ++ after) = some (.text (part.all isSpace), after) :=
        text?_eq_some_iff.2 ⟨part, hopen, hafter, hbody, rfl, rfl⟩
      obtain ⟨c, part, rfl⟩ := List.exists_cons_of_ne_nil hne
      exact (token?_plain (fun h => hopen (h ▸ List.mem_cons_self ..)) _).trans hread

theorem Lexeme.exists_start {part after cs : List Char} {t : Token} (h : Lexeme after part t)
    {c : Char} (hc : isNameChar c = true) (he : '<' :: c :: cs = part ++ after) :
    ∃ name rest n as empty, NameText name n ∧ AttributesText rest as empty ∧
      t = .start n as empty ∧ c :: cs = name ++ (rest ++ after) := by
  cases h with
  | comment | cdata | instruction | stop =>
      obtain ⟨rfl, -⟩ := List.cons.inj (List.cons.inj he).2
      exact absurd hc (by decide)
  | @start name rest n as empty hname hrest =>
      exact ⟨name, rest, n, as, empty, hname, hrest, rfl, by simpa using (List.cons.inj he).2⟩
  | text hne hopen =>
      obtain ⟨d, part, rfl⟩ := List.exists_cons_of_ne_nil hne
      obtain ⟨rfl, -⟩ := List.cons.inj he
      exact absurd (List.mem_cons_self ..) hopen

theorem Lexeme.ne_nil {part after : List Char} {t : Token} (h : Lexeme after part t) :
    part ≠ [] := by
  cases h with
  | text hne => exact hne
  | comment | cdata | instruction | stop | start => exact List.cons_ne_nil _ _

theorem tokens?_eq_bind {cs : List Char} (hne : cs ≠ []) :
    tokens? cs = (token? cs).bind fun r => (tokens? r.2).map (r.1 :: ·) := by
  rw [tokens?, dif_neg hne]
  split
  · rename_i hnone
    rw [hnone, Option.bind_none]
  · rename_i hsome
    rw [hsome, Option.bind_some]

theorem tokens?_of_lexeme {part after : List Char} {t : Token} (h : Lexeme after part t) :
    tokens? (part ++ after) = (tokens? after).map (t :: ·) := by
  rw [tokens?_eq_bind (List.append_ne_nil_of_left_ne_nil h.ne_nil after), h.token?]
  rfl

theorem tokens?_nil : tokens? [] = some [] := by
  rw [tokens?, dif_pos rfl]

theorem eq_nil_of_tokens? {cs : List Char} (h : tokens? cs = some []) : cs = [] := by
  by_contra hne
  rw [tokens?_eq_bind hne] at h
  obtain ⟨r, -, hr⟩ := Option.bind_eq_some_iff.1 h
  obtain ⟨ts, -, he⟩ := Option.map_eq_some_iff.1 hr
  cases he

theorem exists_lexeme_of_tokens? {cs : List Char} {t : Token} {ts : List Token}
    (h : tokens? cs = some (t :: ts)) :
    ∃ part after, Lexeme after part t ∧ cs = part ++ after ∧ tokens? after = some ts := by
  have hne : cs ≠ [] := by
    rintro rfl
    cases tokens?_nil.symm.trans h
  rw [tokens?_eq_bind hne] at h
  obtain ⟨⟨t', after⟩, hread, hr⟩ := Option.bind_eq_some_iff.1 h
  obtain ⟨ts', hafter, he⟩ := Option.map_eq_some_iff.1 hr
  cases he
  obtain ⟨part, hlexeme, rfl⟩ := lexeme_of_token? hne hread
  exact ⟨part, after, hlexeme, rfl, hafter⟩

end Orchestra.Xml
