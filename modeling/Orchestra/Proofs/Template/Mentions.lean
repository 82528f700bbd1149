import Orchestra.Proofs.Template.Shape

namespace Orchestra.Template

open Text Grammar

/-- The variable that a token reads, by itself or as the value of an argument. -/
def Grammar.Token.mention? : Token → Option String
  | .operand (.reference n) => some n
  | .argument _ (.reference n) => some n
  | .operand (.literal _) | .argument _ (.literal _) | .function .. => none

def Block.mention? (b : Block) : Option String :=
  b.token?.bind Token.mention?

def Block.inside : Block → List Block
  | .code _ tokens _ => tokens
  | _ => []

def mentions (ts : List Block) : List String :=
  ts.filterMap Block.mention?

theorem mentions_of_tokens {bs : List Block} {ts : List Token}
    (h : bs.map Block.token? = ts.map some) : mentions bs = ts.filterMap Token.mention? := by
  have hbind : Block.mention? = (·.bind Token.mention?) ∘ Block.token? := rfl
  rw [mentions, hbind, ← List.filterMap_map, h, List.filterMap_map]
  rfl

def mentioned (bs : List Block) : List String :=
  mentions (bs.flatMap Block.inside)

def reference (name : String) : List Char :=
  '$' :: name.toList

/-- The words stand in the text one behind the other. -/
inductive InOrder : List (List Char) → List Char → Prop
  | nil (cs : List Char) : InOrder [] cs
  | cons {w rest : List Char} {ws : List (List Char)} (before : List Char) (h : InOrder ws rest) :
      InOrder (w :: ws) (before ++ (w ++ rest))

namespace InOrder

variable {cs ds w : List Char} {ws vs : List (List Char)}

theorem skip (before : List Char) (h : InOrder ws cs) : InOrder ws (before ++ cs) := by
  cases h with
  | nil => exact .nil _
  | cons mid h =>
      rw [← List.append_assoc]
      exact .cons (before ++ mid) h

theorem append (h : InOrder ws cs) (k : InOrder vs ds) : InOrder (ws ++ vs) (cs ++ ds) := by
  induction h with
  | nil cs => exact k.skip cs
  | cons before _ ih =>
      rw [List.append_assoc, List.append_assoc]
      exact .cons before ih

theorem of_within (h : w <:+: cs) : InOrder [w] cs := by
  obtain ⟨before, after, rfl⟩ := h
  rw [List.append_assoc]
  exact .cons before (.nil after)

theorem within (h : InOrder ws cs) (hcs : cs <:+: ds) : InOrder ws ds := by
  obtain ⟨before, after, rfl⟩ := hcs
  have hwhole := (h.skip before).append (.nil after)
  rwa [List.append_nil] at hwhole

end InOrder

theorem Variable.reference_within {cs : List Char} {v : Variable}
    (h : Variable.ofText? (String.ofList cs) = .ok v) : reference v.name <:+: cs := by
  rw [ofText?, String.toList_ofList] at h
  split at h
  · rename_i name htrim
    cases h
    rw [reference, String.toList_ofList, ← htrim]
    exact trimList_within cs
  · cases h

namespace Argument

variable {cs : List Char} {a : Argument} {v : Variable}

theorem reference_within (h : Argument.ofText? (String.ofList cs) = .ok a)
    (hv : a.value = .variable v) : reference v.name <:+: cs := by
  rw [ofText?, String.toList_ofList] at h
  split at h
  · cases h
  · cases h
  · rename_i d c rest hdrop
    have hwithin : c :: rest <:+: cs := by
      have hsuffix := List.dropWhile_suffix (· ≠ '=') (l := trimList cs)
      rw [hdrop] at hsuffix
      exact ((List.suffix_cons d _).trans hsuffix).isInfix.trans (trimList_within cs)
    split at h
    · rename_i hc
      cases h
      cases hv
      rwa [reference, String.toList_ofList, ← hc]
    · split at h
      · cases h
        cases hv
      · cases h

theorem value_ne_variable {c q : Char} {label body : List Char}
    (hl : ∀ d ∈ label, isLabelChar d = true) (hq : Quote q)
    (h : Argument.ofText? (String.ofList (c :: label ++ '=' :: q :: (body ++ [q]))) = .ok a)
    (hf : a.fault? = none) : a.value ≠ .variable v := by
  have hlabel : '=' ∉ c :: label := by
    intro hm
    rcases List.mem_cons.1 hm with hc | hm
    · exact head_ne_of_ofText? h hf hc.symm
    · simpa [isLabelChar] using hl _ hm
  have hfront : (c :: label ++ '=' :: q :: (body ++ [q])).dropWhile isWhite =
      (c :: label).dropWhile isWhite ++ '=' :: q :: (body ++ [q]) := by
    rw [List.dropWhile_append]
    split
    · rename_i hempty
      rw [List.isEmpty_iff.1 hempty]
      rfl
    · rfl
  have htrim : trimList (c :: label ++ '=' :: q :: (body ++ [q])) =
      (c :: label).dropWhile isWhite ++ '=' :: q :: (body ++ [q]) := by
    rw [trimList, hfront]
    refine trimEnd_eq_self ?_
    rw [List.getLast?_append_of_ne_nil _ (by simp), ← List.cons_append, ← List.cons_append,
      List.getLast?_concat]
    simpa using hq.isWhite
  have hdrop : ((c :: label).dropWhile isWhite ++ '=' :: q :: (body ++ [q])).dropWhile (· ≠ '=') =
      '=' :: q :: (body ++ [q]) := by
    refine (span_append ?_ (by simp)).2
    exact all_ne_of_not_mem fun hm => hlabel (mem_of_dropWhile rfl _ hm)
  rw [ofText?, String.toList_ofList, htrim] at h
  simp only [hdrop] at h
  have hdollar : q ≠ '$' := hq.ne_dollar
  rw [if_neg hdollar, if_pos ((quote_iff q).2 hq)] at h
  cases h
  rintro ⟨⟩

theorem mention?_eq_some_iff {n : String} :
    (Block.argument a).mention? = some n ↔ a.value = .variable ⟨n⟩ := by
  obtain ⟨label, value⟩ := a
  cases value with
  | literal l => exact ⟨nofun, nofun⟩
  | «variable» v =>
      obtain ⟨m⟩ := v
      simp [Block.mention?, Block.token?, ArgumentValue.operand, Token.mention?]

end Argument

theorem reference_within_of_taken {w : List Char} {b : Block} {n : String} (h : Taken w b)
    (hf : b.fault? = none) (hn : b.mention? = some n) : reference n <:+: w := by
  cases h with
  | literal | function => cases hn
  | reference _ h =>
      cases hn
      exact Variable.reference_within h
  | toLiteral hl hq _ h =>
      exact absurd (Argument.mention?_eq_some_iff.1 hn) (Argument.value_ne_variable hl hq h hf)
  | toReference _ _ h => exact Argument.reference_within h (Argument.mention?_eq_some_iff.1 hn)
  | label _ h => exact Argument.reference_within h (Argument.mention?_eq_some_iff.1 hn)

theorem inOrder_of_taken {w : List Char} {b : Block} (h : Taken w b) (hf : b.fault? = none) :
    InOrder ((mentions [b]).map reference) w := by
  cases hn : b.mention? with
  | none => simpa [mentions, hn] using InOrder.nil w
  | some n => simpa [mentions, hn] using InOrder.of_within (reference_within_of_taken h hf hn)

theorem inOrder_of_tokensFrom {whole : String} {first : Bool} {cs : List Char} {ts : List Block}
    (h : tokensFrom whole first cs = .ok ts) (hf : ∀ t ∈ ts, t.fault? = none) :
    InOrder ((mentions ts).map reference) cs := by
  have hfront {cs rest w r : List Char} {c : Char} (hd : cs.dropWhile isBlank = c :: rest)
      (hw : c :: rest = w ++ r) : cs = cs.takeWhile isBlank ++ (w ++ r) := by
    rw [← hw, ← hd, List.takeWhile_append_dropWhile]
  fun_induction tokensFrom whole first cs generalizing ts with
  | case1 =>
      cases h
      exact .nil _
  | case2 => cases h
  | case3 first cs c rest hd b ht =>
      cases h
      obtain ⟨w, hw, htaken⟩ := taken_of_token? ht
      have hword := inOrder_of_taken htaken (hf b (List.mem_singleton_self b))
      rw [hfront hd hw, List.append_nil]
      exact hword.skip _
  | case4 first cs c rest hd b d after ht hblank ih =>
      obtain ⟨ts, hts, rfl⟩ := exists_of_map_eq_ok h
      obtain ⟨w, hw, htaken⟩ := taken_of_token? ht
      obtain ⟨hb, hrest⟩ := List.forall_mem_cons.1 hf
      have hwords := (inOrder_of_taken htaken hb).append ((ih hts hrest).skip [d])
      rw [← List.map_append, mentions, mentions, ← List.filterMap_append] at hwords
      rw [hfront hd hw]
      exact hwords.skip _
  | case5 => cases h

theorem inOrder_of_tokens? {inner : List Char} {ts : List Block}
    (h : tokens? (String.ofList inner) = .ok ts) (hf : ∀ t ∈ ts, t.fault? = none) :
    InOrder ((mentions ts).map reference) inner := by
  rcases tokens?_eq (String.ofList inner) with ⟨c, -, -, hlone⟩ | ⟨-, hfrom⟩
  · rw [h] at hlone
    cases hlone
    exact .nil _
  · rw [String.toList_ofList] at hfrom
    exact (inOrder_of_tokensFrom (hfrom.symm.trans h) hf).within (trimList_within inner)

/-- The variables of a template stand in its text in the order in which they are read. -/
theorem Covers.inOrder {bs : List Block} {cs : List Char} (h : Covers bs cs) (hbs : Faultless bs) :
    InOrder ((mentioned bs).map reference) cs := by
  induction h with
  | nil => exact .nil _
  | @text s bs cs hne hapart h ih => exact (ih (List.forall_mem_cons.1 hbs).2).skip s.toList
  | @code inner cs tokens bs hne htokens h ih =>
      obtain ⟨hb, hrest⟩ := List.forall_mem_cons.1 hbs
      have htokenFaults := tokenFault?_eq_none_iff.1 (Block.code_fault?_eq_none.1 hb).1
      have hcode := ((inOrder_of_tokens? htokens htokenFaults).skip Mark.opening.chars).append
        ((ih hrest).skip Mark.closing.chars)
      rw [← List.map_append, mentioned, mentions, mentions, ← List.filterMap_append,
        ← List.append_assoc] at hcode
      exact hcode
  | cut htokens => cases hbs _ (List.mem_singleton_self _)

theorem mem_mentioned_iff {bs : List Block} {n : String} :
    n ∈ mentioned bs ↔ ∃ source tokens closed, .code source tokens closed ∈ bs ∧
      (.variable ⟨n⟩ ∈ tokens ∨ ∃ label, .argument ⟨label, .variable ⟨n⟩⟩ ∈ tokens) := by
  have htoken (t : Block) : t.mention? = some n ↔
      t = .variable ⟨n⟩ ∨ ∃ label, t = .argument ⟨label, .variable ⟨n⟩⟩ := by
    cases t with
    | text | literal | function | code => exact ⟨nofun, nofun⟩
    | «variable» v =>
        obtain ⟨m⟩ := v
        simp [Block.mention?, Block.token?, Token.mention?]
    | argument a =>
        obtain ⟨label, value⟩ := a
        simp [Argument.mention?_eq_some_iff]
  rw [mentioned, mentions, List.mem_filterMap]
  simp only [htoken]
  constructor
  · rintro ⟨t, ht, hn⟩
    obtain ⟨b, hb, htb⟩ := List.mem_flatMap.1 ht
    cases b with
    | text | literal | «variable» | function | argument => cases htb
    | code source tokens closed =>
        refine ⟨source, tokens, closed, hb, ?_⟩
        rcases hn with rfl | ⟨label, rfl⟩
        · exact .inl htb
        · exact .inr ⟨label, htb⟩
  · rintro ⟨source, tokens, closed, hb, ht⟩
    have hinside {t : Block} (ht : t ∈ tokens) : t ∈ bs.flatMap Block.inside :=
      List.mem_flatMap.2 ⟨_, hb, ht⟩
    rcases ht with ht | ⟨label, ht⟩
    · exact ⟨_, hinside ht, .inl rfl⟩
    · exact ⟨_, hinside ht, .inr ⟨label, rfl⟩⟩

theorem name_of_mention? {t : Block} {n : String} (h : t.mention? = some n) (hf : t.fault? = none) :
    Name n := by
  cases t with
  | text | literal | function | code => cases h
  | «variable» v =>
      cases h
      exact Variable.fault?_eq_none.1 hf
  | argument a =>
      have hvalue := (Argument.fault?_eq_none.1 hf).2
      rw [Argument.mention?_eq_some_iff.1 h] at hvalue
      exact Variable.fault?_eq_none.1 hvalue

theorem name_of_mem_mentioned {bs : List Block} (h : Faultless bs) {n : String}
    (hn : n ∈ mentioned bs) : Name n := by
  obtain ⟨t, ht, hmention⟩ := List.mem_filterMap.1 hn
  obtain ⟨b, hb, htb⟩ := List.mem_flatMap.1 ht
  cases b with
  | text | literal | «variable» | function | argument => cases htb
  | code source tokens closed =>
      cases closed with
      | false => cases h _ hb
      | true =>
          have htokens := (Block.code_fault?_eq_none.1 (h _ hb)).1
          exact name_of_mention? hmention (tokenFault?_eq_none_iff.1 htokens t htb)

end Orchestra.Template
