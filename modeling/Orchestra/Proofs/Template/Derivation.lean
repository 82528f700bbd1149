import Orchestra.Proofs.Template.Token

namespace Orchestra.Template

open Text Grammar

namespace Grammar

inductive Item : List Char → Token → Prop
  | operand {cs : List Char} {o : Operand} (h : Term cs o) : Item cs (.operand o)
  | function {cs : List Char} {t : Token} (h : Function cs t) : Item cs t
  | named {cs : List Char} {t : Token} (h : Named cs t) : Item cs t

def Token.isFunction : Token → Bool
  | .function .. => true
  | _ => false

end Grammar

theorem FunctionId.function_of_ofText? {cs : List Char} (hw : ∀ c ∈ cs, isWhite c = false)
    {f : FunctionId} (h : FunctionId.ofText? (String.ofList cs) = .ok f) (hf : f.fault? = none) :
    Grammar.Function cs (.function f.plugin f.name) := by
  have hsplit := List.takeWhile_append_dropWhile (p := (· ≠ '.')) (l := cs)
  rw [ofText?, String.toList_ofList, trimList_of_not_white hw] at h
  split at h
  · rename_i hd
    cases h
    rw [hd, List.append_nil] at hsplit
    have hfun := Grammar.Function.bare (fault?_eq_none.1 hf).2
    rw [String.toList_ofList, hsplit] at hfun
    rwa [hsplit]
  · rename_i d back hd
    split at h
    · cases h
    · cases h
      obtain ⟨hp, hn⟩ := fault?_eq_none.1 hf
      have hdot : d = '.' := by simpa using not_of_dropWhile hd
      rw [hd, hdot] at hsplit
      have hfun := Grammar.Function.qualified (hp _ rfl) hn
      rwa [String.toList_ofList, String.toList_ofList, hsplit] at hfun

namespace Argument

theorem head_ne_of_ofText? {c : Char} {cs : List Char} {a : Argument}
    (h : Argument.ofText? (String.ofList (c :: cs)) = .ok a) (hf : a.fault? = none) : c ≠ '=' := by
  rintro rfl
  obtain ⟨r, hr⟩ := trimList_cons (c := '=') (by decide) cs
  have hlabel : a.label = "" := by
    rw [ofText?, String.toList_ofList, hr] at h
    split at h
    · cases h
    · cases h
    · split at h
      · cases h
        simp
      · split at h
        · cases h
          simp
        · cases h
  have hn := (fault?_eq_none.1 hf).1
  rw [name, hlabel] at hn
  exact hn.1 rfl

theorem ofText?_no_separator {cs : List Char} (hw : ∀ c ∈ cs, isWhite c = false)
    (hs : '=' ∉ cs) (a : Argument) : Argument.ofText? (String.ofList cs) ≠ .ok a := by
  have hall := List.dropWhile_eq_nil_iff.2 (all_ne_of_not_mem hs)
  rw [ofText?, String.toList_ofList, trimList_of_not_white hw, hall]
  intro h
  cases h

theorem split_of_ofText? {c p : Char} {cs tail : List Char} {a : Argument}
    (hw : ∀ d ∈ c :: cs, isWhite d = false) (hl : '=' ∉ cs)
    (ht : ∀ d ∈ (p :: tail).getLast?, isWhite d = false)
    (h : Argument.ofText? (String.ofList (c :: cs ++ '=' :: p :: tail)) = .ok a)
    (hf : a.fault? = none) :
    Name (String.ofList (c :: cs)) ∧ a.name = String.ofList (c :: cs) ∧ a.value.fault? = none ∧
      (p = '$' → a.value = .variable ⟨String.ofList tail⟩) ∧
      (isQuote p = true → a.value = .literal ⟨String.ofList (p :: tail)⟩) := by
  have hl : '=' ∉ c :: cs := by
    rintro (_ | ⟨_, hm⟩)
    · exact head_ne_of_ofText? h hf rfl
    · exact hl hm
  have htrim : trimList (c :: cs ++ '=' :: p :: tail) = c :: cs ++ '=' :: p :: tail := by
    apply trimList_eq_self
    · simpa using hw c (by simp)
    · rwa [List.getLast?_append_of_ne_nil _ (by simp), List.getLast?_cons_cons]
  have hname : trim (String.ofList (c :: cs)) = String.ofList (c :: cs) := by
    rw [trim, String.toList_ofList, trimList_of_not_white hw]
  obtain ⟨hn, hv⟩ := fault?_eq_none.1 hf
  rw [ofText?_split hl htrim] at h
  split at h
  · rename_i hp
    cases h
    exact ⟨hname ▸ hn, hname, hv, fun _ => rfl, fun hq => absurd (hp ▸ hq) (by decide)⟩
  · rename_i hp
    split at h
    · cases h
      exact ⟨hname ▸ hn, hname, hv, fun h => absurd h hp, fun _ => rfl⟩
    · cases h

theorem named_of_literal {c p : Char} {cs raw body : List Char} {a : Argument}
    (hw : ∀ d ∈ c :: cs, isWhite d = false) (hl : '=' ∉ cs) (hq : Quote p) (hbody : Body p raw body)
    (h : Argument.ofText? (String.ofList (c :: cs ++ '=' :: p :: (body ++ [p]))) = .ok a)
    (hf : a.fault? = none) :
    Named (c :: cs ++ '=' :: p :: (raw ++ [p])) (.argument a.name a.value.operand) := by
  have ht : ∀ d ∈ (p :: (body ++ [p])).getLast?, isWhite d = false := by
    rw [← List.cons_append, List.getLast?_concat]
    simpa using hq.isWhite
  obtain ⟨hn, hname, -, -, hval⟩ := split_of_ofText? hw hl ht h hf
  have hval : a.value = .literal (.quote p (String.ofList body)) := by
    simpa [Literal.quote] using hval ((quote_iff p).2 hq)
  have hterm := Term.literal (v := String.ofList body) hq (by simpa using hbody)
  have hnamed := Named.mk hn hterm
  rw [String.toList_ofList] at hnamed
  rwa [hname, hval, ArgumentValue.operand, Literal.value_quote hq]

theorem named_of_reference {c : Char} {cs tail : List Char} {a : Argument}
    (hw : ∀ d ∈ c :: cs, isWhite d = false) (hl : '=' ∉ cs)
    (ht : ∀ d ∈ '$' :: tail, isWhite d = false)
    (h : Argument.ofText? (String.ofList (c :: cs ++ '=' :: '$' :: tail)) = .ok a)
    (hf : a.fault? = none) :
    Named (c :: cs ++ '=' :: '$' :: tail) (.argument a.name a.value.operand) := by
  obtain ⟨hn, hname, hvf, hval, -⟩ :=
    split_of_ofText? hw hl (fun d hd => ht d (List.mem_of_getLast? hd)) h hf
  have hval := hval rfl
  rw [hval] at hvf
  have hnamed := Named.mk hn (Term.reference (Variable.fault?_eq_none.1 hvf))
  rw [String.toList_ofList, String.toList_ofList] at hnamed
  rwa [hname, hval]

end Argument

/-- The ways to take a block from the front of a text, with the text that it takes. -/
inductive Taken : List Char → Block → Prop
  | literal {q : Char} {raw body : List Char} (hq : Quote q) (h : Body q raw body) :
      Taken (q :: (raw ++ [q])) (.literal (.quote q (String.ofList body)))
  | reference {name : List Char} {v : Variable} (hn : ∀ d ∈ name, isBlank d = false)
      (h : Variable.ofText? (String.ofList ('$' :: name)) = .ok v) : Taken ('$' :: name) (.variable v)
  | toLiteral {c q : Char} {label raw body : List Char} {a : Argument}
      (hl : ∀ d ∈ label, isLabelChar d = true) (hq : Quote q) (hb : Body q raw body)
      (h : Argument.ofText? (String.ofList (c :: label ++ '=' :: q :: (body ++ [q]))) = .ok a) :
      Taken (c :: label ++ '=' :: q :: (raw ++ [q])) (.argument a)
  | toReference {c : Char} {label name : List Char} {a : Argument}
      (hl : ∀ d ∈ label, isLabelChar d = true) (hn : ∀ d ∈ name, isBlank d = false)
      (h : Argument.ofText? (String.ofList (c :: label ++ '=' :: '$' :: name)) = .ok a) :
      Taken (c :: label ++ '=' :: '$' :: name) (.argument a)
  | function {c : Char} {label : List Char} {f : FunctionId} (hl : ∀ d ∈ label, isLabelChar d = true)
      (h : FunctionId.ofText? (String.ofList (c :: label)) = .ok f) : Taken (c :: label) (.function f)
  | label {c : Char} {label : List Char} {a : Argument} (hl : ∀ d ∈ label, isLabelChar d = true)
      (h : Argument.ofText? (String.ofList (c :: label)) = .ok a) : Taken (c :: label) (.argument a)

theorem taken_of_word {whole : String} {first : Bool} {c : Char} {label after r : List Char}
    {b : Block} (hq : isQuote c = false) (hd : c ≠ '$') (hl : ∀ d ∈ label, isLabelChar d = true)
    (hstop : Stop after) (h : token? whole first c (label ++ after) = .ok (b, r)) :
    ∃ w, c :: (label ++ after) = w ++ r ∧ Taken w b := by
  rw [token?_word whole first hq hd hl hstop] at h
  cases first with
  | true =>
      obtain ⟨f, hf, heq⟩ := exists_of_map_eq_ok h
      cases heq
      exact ⟨c :: label, rfl, .function hl hf⟩
  | false =>
      obtain ⟨a, ha, heq⟩ := exists_of_map_eq_ok h
      cases heq
      exact ⟨c :: label, rfl, .label hl ha⟩

theorem taken_of_assign {whole : String} {first : Bool} {c p : Char} {label more r : List Char}
    {b : Block} (hq : isQuote c = false) (hd : c ≠ '$') (hl : ∀ d ∈ label, isLabelChar d = true)
    (h : token? whole first c (label ++ '=' :: p :: more) = .ok (b, r)) :
    ∃ w, c :: (label ++ '=' :: p :: more) = w ++ r ∧ Taken w b := by
  rw [token?_assign whole first hq hd hl] at h
  by_cases hp : isQuote p = true
  · rw [if_pos hp] at h
    have hp := (quote_iff p).1 hp
    cases hquoted : quoted p more with
    | mk body after =>
        rw [hquoted] at h
        cases after with
        | none => cases h
        | some after =>
            obtain ⟨a, ha, heq⟩ := exists_of_map_eq_ok h
            cases heq
            obtain ⟨raw, rfl, hbody⟩ := body_of_quoted hp hquoted
            exact ⟨_, by simp, .toLiteral hl hp hbody ha⟩
  · rw [if_neg hp] at h
    by_cases hdollar : p = '$'
    · subst p
      rw [if_pos rfl] at h
      obtain ⟨a, ha, heq⟩ := exists_of_map_eq_ok h
      cases heq
      exact ⟨_, by simp, .toReference hl (fun d hm => by simpa using List.mem_takeWhile_imp hm) ha⟩
    · rw [if_neg hdollar] at h
      cases h

theorem taken_of_token? {whole : String} {first : Bool} {c : Char} {rest r : List Char} {b : Block}
    (h : token? whole first c rest = .ok (b, r)) : ∃ w, c :: rest = w ++ r ∧ Taken w b := by
  by_cases hq : isQuote c = true
  · rw [token?, if_pos hq] at h
    have hq := (quote_iff c).1 hq
    cases hquoted : quoted c rest with
    | mk body after =>
        rw [hquoted] at h
        cases after with
        | none => cases h
        | some after =>
            cases h
            obtain ⟨raw, rfl, hbody⟩ := body_of_quoted hq hquoted
            refine ⟨c :: (raw ++ [c]), by simp, ?_⟩
            simpa [Literal.quote] using Taken.literal hq hbody
  · by_cases hd : c = '$'
    · subst c
      rw [token?, if_neg hq, if_pos rfl, bind_pure_eq_map] at h
      obtain ⟨v, hv, heq⟩ := exists_of_map_eq_ok h
      cases heq
      exact ⟨_, by simp, .reference (fun d hm => by simpa using List.mem_takeWhile_imp hm) hv⟩
    · have hq : isQuote c = false := by simpa using hq
      obtain ⟨label, tail, rfl, hl, hstop⟩ := exists_span isLabelChar rest
      -- A label ends at a blank, at the end, or at a sign of equality.
      cases tail with
      | nil => exact taken_of_word hq hd hl (by simp [Stop]) h
      | cons d tail =>
          by_cases heq : d = '='
          · subst d
            cases tail with
            | nil =>
                rw [token?_lone_assign whole first hq hd hl] at h
                cases h
            | cons p more => exact taken_of_assign hq hd hl h
          · apply taken_of_word hq hd hl _ h
            simpa [Stop, isLabelChar, heq] using hstop

theorem not_white_of_subset {cs w : List Char} (hw : ∀ c ∈ w, isWhite c = true → isBlank c = true)
    (hsub : cs ⊆ w) (hb : ∀ c ∈ cs, isBlank c = false) : ∀ c ∈ cs, isWhite c = false := by
  intro c hc
  by_contra hne
  have hblank := hw c (hsub hc) (by simpa using hne)
  rw [hb c hc] at hblank
  cases hblank

theorem not_blank_of_label {label : List Char} (hl : ∀ d ∈ label, isLabelChar d = true) :
    (∀ d ∈ label, isBlank d = false) ∧ '=' ∉ label := by
  have hchar : ∀ d ∈ label, isBlank d = false ∧ d ≠ '=' := by
    simpa [isLabelChar] using hl
  constructor
  · intro d hd
    exact (hchar d hd).1
  · intro hm
    exact (hchar _ hm).2 rfl

theorem Variable.term_of_ofText? {name : List Char} {v : Variable}
    (hw : ∀ c ∈ '$' :: name, isWhite c = false)
    (h : Variable.ofText? (String.ofList ('$' :: name)) = .ok v) (hf : v.fault? = none) :
    Term ('$' :: name) (.reference v.name) := by
  rw [ofText?, String.toList_ofList, trimList_of_not_white hw] at h
  cases h
  have hterm := Term.reference (fault?_eq_none.1 hf)
  rwa [String.toList_ofList] at hterm

/-- A block without a fault is a token of the grammar, derived from the text that it takes. -/
theorem item_of_taken {w : List Char} {b : Block} (hhead : ∀ c ∈ w.head?, isBlank c = false)
    (hw : ∀ c ∈ w, isWhite c = true → isBlank c = true) (h : Taken w b) (hf : b.fault? = none) :
    ∃ t, Item w t ∧ b.token? = some t := by
  have hword {c : Char} {label : List Char} (hl : ∀ d ∈ label, isLabelChar d = true)
      (hc : isBlank c = false) (hsub : c :: label ⊆ w) : ∀ d ∈ c :: label, isWhite d = false :=
    not_white_of_subset hw hsub (List.forall_mem_cons.2 ⟨hc, (not_blank_of_label hl).1⟩)
  have hvalue {name : List Char} (hn : ∀ d ∈ name, isBlank d = false) (hsub : '$' :: name ⊆ w) :
      ∀ d ∈ '$' :: name, isWhite d = false :=
    not_white_of_subset hw hsub (List.forall_mem_cons.2 ⟨rfl, hn⟩)
  cases h with
  | @literal q raw body hq hbody =>
      have hterm := Term.literal (v := String.ofList body) hq (by simpa using hbody)
      exact ⟨_, .operand hterm, (Literal.denotes hq _).1⟩
  | reference hn h =>
      have hterm := Variable.term_of_ofText? (hvalue hn (List.Subset.refl _)) h hf
      exact ⟨_, .operand hterm, rfl⟩
  | toLiteral hl hq hb h =>
      have hwhite := hword hl (hhead _ rfl) (List.subset_append_left _ _)
      have hnamed := Argument.named_of_literal hwhite (not_blank_of_label hl).2 hq hb h hf
      exact ⟨_, .named hnamed, rfl⟩
  | toReference hl hn h =>
      have hwhite := hword hl (hhead _ rfl) (List.subset_append_left _ _)
      have hname := hvalue hn fun d hd => List.mem_append_right _ (List.mem_cons_of_mem _ hd)
      have hnamed := Argument.named_of_reference hwhite (not_blank_of_label hl).2 hname h hf
      exact ⟨_, .named hnamed, rfl⟩
  | function hl h =>
      have hwhite := hword hl (hhead _ rfl) (List.Subset.refl _)
      exact ⟨_, .function (FunctionId.function_of_ofText? hwhite h hf), rfl⟩
  | @label c label a hl h =>
      have hwhite := hword hl (hhead _ rfl) (List.Subset.refl _)
      have hsep : '=' ∉ c :: label := by
        simp [(Argument.head_ne_of_ofText? h hf).symm, (not_blank_of_label hl).2]
      exact absurd h (Argument.ofText?_no_separator hwhite hsep a)

theorem item_of_token? {whole : String} {first : Bool} {c : Char} {cs rest r : List Char} {b : Block}
    (hd : cs.dropWhile isBlank = c :: rest) (hw : ∀ d ∈ cs, isWhite d = true → isBlank d = true)
    (h : token? whole first c rest = .ok (b, r)) (hf : b.fault? = none) :
    ∃ w t, cs.dropWhile isBlank = w ++ r ∧ Item w t ∧ b.token? = some t := by
  obtain ⟨w, heq, htaken⟩ := taken_of_token? h
  rw [heq] at hd
  have hhead : ∀ d ∈ w.head?, isBlank d = false := by
    intro d hm
    have hfirst : (cs.dropWhile isBlank).head? = some d := by
      rw [hd, List.head?_append, hm]
      rfl
    exact not_of_head?_dropWhile hfirst
  obtain ⟨t, hitem, htoken⟩ := item_of_taken hhead
    (fun d hm => hw d (mem_of_dropWhile hd d (List.mem_append_left r hm))) htaken hf
  exact ⟨w, t, hd, hitem, htoken⟩

end Orchestra.Template
