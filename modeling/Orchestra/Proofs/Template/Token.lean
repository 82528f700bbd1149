import Mathlib.Tactic.Tauto
import Orchestra.Proofs.Template.Grammar
import Orchestra.Proofs.Text.Trimming
import Orchestra.Template.Code

namespace Orchestra.Template

open Text Grammar

namespace Grammar

instance (c : Char) : Decidable (NameChar c) := by
  unfold NameChar
  infer_instance

theorem NameChar.ne {c d : Char} (h : NameChar c) (hd : ¬ NameChar d) : c ≠ d := by
  rintro rfl
  exact hd h

theorem NameChar.isBlank {c : Char} (h : NameChar c) : isBlank c = false := by
  simp [Template.isBlank, h.ne (d := ' ') (by decide), h.ne (d := '\t') (by decide),
    h.ne (d := '\r') (by decide), h.ne (d := '\n') (by decide)]

theorem NameChar.isQuote {c : Char} (h : NameChar c) : isQuote c = false := by
  simp [Template.isQuote, h.ne (d := '\x22') (by decide), h.ne (d := '\x27') (by decide)]

theorem NameChar.isWhite {c : Char} (h : NameChar c) : isWhite c = false := by
  have hn := h.toNat
  have hw : c.toNat < 0x80 := by omega
  have h1 : c.toNat ≠ 0x20 := by omega
  have h2 : 0x09 ≤ c.toNat → ¬ c.toNat ≤ 0x0D := by omega
  simpa [Text.isWhite, hw, h1] using h2

theorem NameChar.isLabelChar {c : Char} (h : NameChar c) : isLabelChar c = true := by
  simp [Template.isLabelChar, h.isBlank, h.ne (d := '=') (by decide)]

theorem Quote.isWhite {q : Char} (h : Quote q) : isWhite q = false := by
  rcases h with rfl | rfl <;> decide

theorem Quote.isBlank {q : Char} (h : Quote q) : isBlank q = false := by
  rcases h with rfl | rfl <;> decide

theorem Quote.ne_backslash {q : Char} (h : Quote q) : '\\' ≠ q := by
  rcases h with rfl | rfl <;> decide

theorem Quote.ne_dollar {q : Char} (h : Quote q) : q ≠ '$' := by
  rcases h with rfl | rfl <;> decide

theorem Name.exists_cons {n : String} (h : Name n) :
    ∃ c cs, n.toList = c :: cs ∧ ∀ d ∈ c :: cs, NameChar d := by
  obtain ⟨hne, hc⟩ := h
  cases hn : n.toList with
  | nil => exact absurd (String.toList_inj.1 (hn.trans rfl)) hne
  | cons c cs => exact ⟨c, cs, rfl, hn ▸ hc⟩

theorem Name.not_mem {n : String} (h : Name n) {c : Char} (hc : ¬ NameChar c) : c ∉ n.toList := by
  intro hm
  exact hc (h.2 c hm)

theorem Name.not_white {n : String} (h : Name n) : ∀ c ∈ n.toList, isWhite c = false := by
  intro c hc
  exact (h.2 c hc).isWhite

theorem Name.not_blank {n : String} (h : Name n) : ∀ c ∈ n.toList, (!isBlank c) = true := by
  intro c hc
  simp [(h.2 c hc).isBlank]

theorem quoted_close (q : Char) (after : List Char) : quoted q (q :: after) = ([], some after) := by
  rw [quoted.eq_def]
  exact if_pos rfl

theorem quoted_plain {q c : Char} (hq : c ≠ q) (hc : c ≠ '\\') (cs : List Char) :
    quoted q (c :: cs) = push c (quoted q cs) := by
  rw [quoted.eq_def]
  simp [hq, hc]

theorem quoted_of_body {q : Char} (hq : Quote q) {raw v : List Char} (h : Body q raw v)
    (after : List Char) : quoted q (raw ++ q :: after) = (v, some after) := by
  induction h with
  | nil => exact quoted_close q after
  | escape he h ih =>
      simp [quoted, hq.ne_backslash, (escapable_iff _).2 he, ih, push]
  | @backslash c _ _ hc h ih =>
      -- The character behind such a backslash is read as if the backslash were not there.
      have hc : isEscapable c = false := by simpa using mt (escapable_iff _).1 hc
      rw [List.cons_append] at ih
      simp [quoted, hq.ne_backslash, hc, ih, push]
  | plain hq hc h ih => rw [List.cons_append, quoted_plain hq hc, ih, push]

theorem body_of_quoted {q : Char} (hq : Quote q) {cs v after : List Char}
    (h : quoted q cs = (v, some after)) : ∃ raw, cs = raw ++ q :: after ∧ Body q raw v := by
  fun_induction quoted q cs generalizing v with
  | case1 => simp at h
  | case2 rest =>
      simp only [Prod.mk.injEq, Option.some.injEq] at h
      exact ⟨[], by simp [h.2], h.1 ▸ .nil⟩
  | case3 => simp at h
  | case4 e rest he _ ih =>
      simp only [push, Prod.mk.injEq] at h
      obtain ⟨raw, rfl, hb⟩ := ih (Prod.ext rfl h.2)
      exact ⟨'\\' :: e :: raw, rfl, h.1 ▸ .escape ((escapable_iff e).1 he) hb⟩
  | case5 e rest he _ ih =>
      simp only [push, Prod.mk.injEq] at h
      have he' : ¬ Escapable e := mt (escapable_iff e).2 he
      obtain ⟨raw, hr, hb⟩ := ih (Prod.ext rfl h.2)
      cases raw with
      | nil =>
          rw [List.nil_append, List.cons.injEq] at hr
          exact absurd (.inl (hr.1 ▸ hq)) he'
      | cons d raw =>
          rw [List.cons_append, List.cons.injEq] at hr
          obtain ⟨rfl, rfl⟩ := hr
          exact ⟨'\\' :: e :: raw, rfl, h.1 ▸ .backslash he' hb⟩
  | case6 c rest hq hc ih =>
      simp only [push, Prod.mk.injEq] at h
      obtain ⟨raw, rfl, hb⟩ := ih (Prod.ext rfl h.2)
      exact ⟨c :: raw, rfl, h.1 ▸ .plain hq hc hb⟩

end Grammar

def Literal.quote (q : Char) (v : String) : Literal :=
  ⟨String.ofList (q :: (v.toList ++ [q]))⟩

theorem Literal.value_quote {q : Char} (hq : Quote q) (v : String) : (quote q v).value = v := by
  have hq := (quote_iff q).2 hq
  rw [quote, value, String.toList_ofList]
  cases hv : v.toList ++ [q] with
  | nil => simp at hv
  | cons d rest =>
      have hl : (d :: rest).getLast? = some q := by simp [← hv]
      have hd : (d :: rest).dropLast = v.toList := by simp [← hv]
      simp [hq, hl, hd]

theorem Literal.fault?_quote {q : Char} (hq : Quote q) (v : String) :
    (quote q v).fault? = none := by
  have hq := (quote_iff q).2 hq
  rw [quote, fault?, String.toList_ofList]
  cases hv : v.toList ++ [q] with
  | nil => simp at hv
  | cons d rest =>
      have hl : (d :: rest).getLast? = some q := by simp [← hv]
      simp [hq, hl]

theorem Variable.fault?_eq_none {v : Variable} : v.fault? = none ↔ Name v.name := by
  rw [← name_iff, fault?]
  split
  · rename_i h
    simp [h, isName]
  · split <;> simp_all

theorem FunctionId.fault?_eq_none {f : FunctionId} :
    f.fault? = none ↔ (∀ p ∈ f.plugin, Name p) ∧ Name f.name := by
  cases hp : f.plugin <;> simp [fault?, hp, name_iff]

theorem Argument.fault?_eq_none {a : Argument} :
    a.fault? = none ↔ Name a.name ∧ a.value.fault? = none := by
  rw [← name_iff, fault?]
  split <;> simp_all

namespace Grammar

def Stop (cs : List Char) : Prop :=
  ∀ c ∈ cs.head?, isBlank c = true

theorem Stop.isLabelChar {r : List Char} (h : Stop r) : ∀ c ∈ r.head?, isLabelChar c = false := by
  intro c hc
  simp [Template.isLabelChar, h c hc]

theorem Stop.not_blank {r : List Char} (h : Stop r) : ∀ c ∈ r.head?, (!isBlank c) = false := by
  intro c hc
  simp [h c hc]

end Grammar

theorem bind_pure_eq_map {ε α β : Type} (f : α → β) (x : Except ε α) :
    (x >>= fun a => pure (f a)) = x.map f := by
  cases x <;> rfl

theorem exists_of_map_eq_ok {ε α β : Type} {f : α → β} {x : Except ε α} {b : β}
    (h : x.map f = .ok b) : ∃ a, x = .ok a ∧ f a = b := by
  cases x with
  | error e => cases h
  | ok a =>
      cases h
      exact ⟨a, rfl, rfl⟩

theorem Grammar.Name.trim {n : String} (h : Name n) : trim n = n := by
  rw [Text.trim, trimList_of_not_white h.not_white, String.ofList_toList]

theorem Variable.ofText?_name {n : String} (h : Name n) :
    Variable.ofText? (String.ofList ('$' :: n.toList)) = .ok ⟨n⟩ := by
  have hw : ∀ c ∈ '$' :: n.toList, isWhite c = false :=
    List.forall_mem_cons.2 ⟨rfl, h.not_white⟩
  rw [ofText?, String.toList_ofList, trimList_of_not_white hw]
  simp

theorem FunctionId.ofText?_function {cs : List Char} {t : Token} (h : Grammar.Function cs t) :
    ∃ f, FunctionId.ofText? (String.ofList cs) = .ok f ∧ (Block.function f).Denotes t := by
  cases h with
  | @bare n hn =>
      have hd : ∀ c ∈ n.toList, decide (c ≠ '.') = true :=
        all_ne_of_not_mem (hn.not_mem (by decide))
      refine ⟨⟨none, n⟩, ?_, rfl, FunctionId.fault?_eq_none.2 ⟨by simp, hn⟩⟩
      simp only [ofText?, trimList_of_not_white hn.not_white, List.takeWhile_eq_self_iff.2 hd,
        List.dropWhile_eq_nil_iff.2 hd, String.ofList_toList]
  | @qualified p n hp hn =>
      have hd : ∀ c ∈ p.toList, decide (c ≠ '.') = true :=
        all_ne_of_not_mem (hp.not_mem (by decide))
      have hw : ∀ c ∈ p.toList ++ '.' :: n.toList, isWhite c = false :=
        List.forall_mem_append.2 ⟨hp.not_white, List.forall_mem_cons.2 ⟨rfl, hn.not_white⟩⟩
      have hs := span_append hd (r := '.' :: n.toList) (by simp)
      have hm : '.' ∉ n.toList := hn.not_mem (by decide)
      refine ⟨⟨some p, n⟩, ?_, rfl, FunctionId.fault?_eq_none.2 ⟨by simpa using hp, hn⟩⟩
      simp only [ofText?, String.toList_ofList, trimList_of_not_white hw, hs.1, hs.2, hm, if_false,
        String.ofList_toList]

theorem Argument.ofText?_split {label rest : List Char} {c : Char} (hl : '=' ∉ label)
    (ht : trimList (label ++ '=' :: c :: rest) = label ++ '=' :: c :: rest) :
    Argument.ofText? (String.ofList (label ++ '=' :: c :: rest)) =
      if c = '$' then .ok ⟨String.ofList label, .variable ⟨String.ofList rest⟩⟩
      else if isQuote c then .ok ⟨String.ofList label, .literal ⟨String.ofList (c :: rest)⟩⟩
      else .error ⟨.argumentStart, String.ofList (label ++ '=' :: c :: rest)⟩ := by
  have hs := span_append (all_ne_of_not_mem hl) (r := '=' :: c :: rest) (by simp)
  simp only [ofText?, String.toList_ofList, ht, hs.1, hs.2]

theorem Argument.ofText?_literal {n v : String} (hn : Name n) {q : Char} (hq : Quote q) :
    Argument.ofText? (String.ofList (n.toList ++ '=' :: q :: (v.toList ++ [q]))) =
      .ok ⟨n, .literal (.quote q v)⟩ := by
  obtain ⟨c, cs, hc, hnc⟩ := hn.exists_cons
  have hl : '=' ∉ n.toList := hn.not_mem (by decide)
  have ht : trimList (n.toList ++ '=' :: q :: (v.toList ++ [q])) =
      n.toList ++ '=' :: q :: (v.toList ++ [q]) := by
    apply trimList_eq_self
    · simpa [hc] using (hnc c (by simp)).isWhite
    · have he : n.toList ++ '=' :: q :: (v.toList ++ [q]) =
          (n.toList ++ '=' :: q :: v.toList) ++ [q] := by
        simp
      rw [he, List.getLast?_concat]
      simpa using hq.isWhite
  rw [ofText?_split hl ht]
  simp [hq.ne_dollar, (quote_iff q).2 hq, Literal.quote]

theorem Argument.ofText?_variable {n m : String} (hn : Name n) (hm : Name m) :
    Argument.ofText? (String.ofList (n.toList ++ '=' :: '$' :: m.toList)) =
      .ok ⟨n, .variable ⟨m⟩⟩ := by
  have hl : '=' ∉ n.toList := hn.not_mem (by decide)
  have hvalue : ∀ c ∈ '=' :: '$' :: m.toList, isWhite c = false :=
    List.forall_mem_cons.2 ⟨rfl, List.forall_mem_cons.2 ⟨rfl, hm.not_white⟩⟩
  have hw : ∀ c ∈ n.toList ++ '=' :: '$' :: m.toList, isWhite c = false :=
    List.forall_mem_append.2 ⟨hn.not_white, hvalue⟩
  rw [ofText?_split hl (trimList_of_not_white hw)]
  simp

theorem Argument.denotes {n : String} (hn : Name n) (value : ArgumentValue)
    (hf : value.fault? = none) :
    (Block.argument ⟨n, value⟩).Denotes (.argument n value.operand) := by
  have hname : Argument.name ⟨n, value⟩ = n := hn.trim
  refine ⟨?_, Argument.fault?_eq_none.2 ⟨?_, hf⟩⟩
  · rw [Block.token?, hname]
  · rwa [hname]

/-- The text `w` is read as the token `t`, wherever it stands before a blank or the end. -/
def ReadAs (whole : String) (first : Bool) (w : List Char) (t : Token) : Prop :=
  ∃ c cs, w = c :: cs ∧ isBlank c = false ∧ ∀ after, Stop after →
    ∃ b, token? whole first c (cs ++ after) = .ok (b, after) ∧ b.Denotes t

theorem Literal.denotes {q : Char} (hq : Quote q) (v : String) :
    (Block.literal (.quote q v)).Denotes (.operand (.literal v)) :=
  ⟨by rw [Block.token?, value_quote hq], fault?_quote hq v⟩

theorem readAs_term (whole : String) (first : Bool) {w : List Char} {o : Operand}
    (h : Term w o) : ReadAs whole first w (.operand o) := by
  cases h with
  | @literal q raw v hq h =>
      refine ⟨q, raw ++ [q], rfl, hq.isBlank, fun after _ => ⟨_, ?_, Literal.denotes hq v⟩⟩
      simp [token?, (quote_iff q).2 hq, quoted_of_body hq h, Literal.quote]
  | @reference n hn =>
      refine ⟨'$', n.toList, rfl, by decide, fun after hr => ⟨.variable ⟨n⟩, ?_, ?_⟩⟩
      · have hs := span_append hn.not_blank hr.not_blank
        rw [token?, if_neg (by decide), if_pos rfl, hs.1, hs.2, Variable.ofText?_name hn]
        rfl
      · exact ⟨rfl, Variable.fault?_eq_none.2 hn⟩

theorem token?_word (whole : String) (first : Bool) {c : Char} {cs after : List Char}
    (hq : isQuote c = false) (hd : c ≠ '$') (hw : ∀ d ∈ cs, isLabelChar d = true)
    (hr : Stop after) :
    token? whole first c (cs ++ after) =
      if first then (FunctionId.ofText? (String.ofList (c :: cs))).map (.function ·, after)
      else (Argument.ofText? (String.ofList (c :: cs))).map (.argument ·, after) := by
  have hs := span_append hw hr.isLabelChar
  simp only [token?, hq, hd, if_false, hs.1, hs.2, Bool.false_eq_true]
  split
  · exact absurd (hr '=' rfl) (by decide)
  · exact absurd (hr '=' rfl) (by decide)
  · rw [bind_pure_eq_map, bind_pure_eq_map]

theorem token?_assign (whole : String) (first : Bool) {c p : Char} {cs more : List Char}
    (hq : isQuote c = false) (hd : c ≠ '$') (hw : ∀ d ∈ cs, isLabelChar d = true) :
    token? whole first c (cs ++ '=' :: p :: more) =
      if isQuote p then
        match quoted p more with
        | (body, some after) =>
            (Argument.ofText? (String.ofList (c :: cs ++ '=' :: p :: (body ++ [p])))).map
              (.argument ·, after)
        | (body, none) =>
            .error ⟨.unclosedQuote (String.ofList (c :: cs ++ '=' :: p :: body)), whole⟩
      else if p = '$' then
        (Argument.ofText? (String.ofList (c :: cs ++ '=' :: p :: more.takeWhile (!isBlank ·)))).map
          (.argument ·, more.dropWhile (!isBlank ·))
      else .error ⟨.argumentStart, whole⟩ := by
  have hs := span_append hw (r := '=' :: p :: more) (by simp [isLabelChar])
  simp only [token?, hq, hd, if_false, hs.1, hs.2, Bool.false_eq_true, bind_pure_eq_map]
  cases quoted p more with
  | mk body after => cases after <;> simp

theorem token?_lone_assign (whole : String) (first : Bool) {c : Char} {cs : List Char}
    (hq : isQuote c = false) (hd : c ≠ '$') (hw : ∀ d ∈ cs, isLabelChar d = true) :
    token? whole first c (cs ++ ['=']) = .error ⟨.argumentStart, whole⟩ := by
  have hs := span_append hw (r := ['=']) (by simp [isLabelChar])
  simp only [token?, hq, hd, if_false, hs.2, Bool.false_eq_true]

theorem readAs_function (whole : String) {w : List Char} {t : Token}
    (h : Grammar.Function w t) : ReadAs whole true w t := by
  obtain ⟨f, hf, hden⟩ := FunctionId.ofText?_function h
  have hw : ∀ c ∈ w, NameChar c ∨ c = '.' := by
    cases h with
    | bare hn => exact fun c hc => .inl (hn.2 c hc)
    | qualified hp hn =>
        intro c hc
        rcases List.mem_append.1 hc with hc | _ | ⟨_, hc⟩
        · exact .inl (hp.2 c hc)
        · exact .inr rfl
        · exact .inl (hn.2 c hc)
  have hlabel : ∀ c ∈ w, isLabelChar c = true := by
    intro c hc
    rcases hw c hc with h | rfl
    · exact h.isLabelChar
    · decide
  have hne : w ≠ [] := by
    cases h with
    | bare hn => obtain ⟨c, cs, hc, _⟩ := hn.exists_cons; simp [hc]
    | qualified => simp
  obtain ⟨c, cs, rfl⟩ := List.exists_cons_of_ne_nil hne
  have hc : isBlank c = false ∧ isQuote c = false ∧ c ≠ '$' := by
    rcases hw c (by simp) with h | rfl
    · exact ⟨h.isBlank, h.isQuote, h.ne (by decide)⟩
    · decide
  refine ⟨c, cs, rfl, hc.1, fun after hr => ⟨.function f, ?_, hden⟩⟩
  rw [token?_word whole true hc.2.1 hc.2.2 (fun d hd => hlabel d (by simp [hd])) hr, if_pos rfl, hf]
  rfl

theorem readAs_named (whole : String) (first : Bool) {w : List Char} {t : Token}
    (h : Named w t) : ReadAs whole first w t := by
  obtain @⟨n, cs, o, hn, ho⟩ := h
  obtain ⟨c, more, hc, hmore⟩ := hn.exists_cons
  have hhead := hmore c (by simp)
  refine ⟨c, more ++ '=' :: cs, by simp [hc], hhead.isBlank, fun after hr => ?_⟩
  have hlabel : ∀ d ∈ more, isLabelChar d = true := fun d hd => (hmore d (by simp [hd])).isLabelChar
  have hdollar : c ≠ '$' := hhead.ne (by decide)
  cases ho with
  | @literal q raw v hq hbody =>
      refine ⟨.argument ⟨n, .literal (.quote q v)⟩, ?_, ?_⟩
      · have he : more ++ '=' :: q :: (raw ++ [q]) ++ after =
            more ++ '=' :: q :: (raw ++ q :: after) := by
          simp
        rw [he, token?_assign whole first hhead.isQuote hdollar hlabel, if_pos ((quote_iff q).2 hq),
          quoted_of_body hq hbody]
        simp only [← hc, Argument.ofText?_literal hn hq]
        rfl
      · have hval := Argument.denotes hn (.literal (.quote q v)) (Literal.fault?_quote hq v)
        rwa [ArgumentValue.operand, Literal.value_quote hq] at hval
  | @reference m hm =>
      refine ⟨.argument ⟨n, .variable ⟨m⟩⟩, ?_, ?_⟩
      · have hs := span_append hm.not_blank hr.not_blank
        rw [List.append_assoc, List.cons_append, List.cons_append,
          token?_assign whole first hhead.isQuote hdollar hlabel, if_neg (by decide), if_pos rfl,
          hs.1, hs.2, ← hc, Argument.ofText?_variable hn hm]
        rfl
      · exact Argument.denotes hn (.variable ⟨m⟩) (Variable.fault?_eq_none.2 hm)

end Orchestra.Template
