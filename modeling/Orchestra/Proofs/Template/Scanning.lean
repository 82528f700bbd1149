import Orchestra.Proofs.Template.Printing
import Orchestra.Template.Piece

namespace Orchestra.Template

open Text Grammar

namespace Outline

def prepend (cs : List Char) (o : Outline) : Outline :=
  ⟨cs ++ o.before, o.after⟩

theorem push_prepend (c : Char) (cs : List Char) (o : Outline) :
    push c (prepend cs o) = prepend (c :: cs) o := rfl

theorem prepend_append (cs ds : List Char) (o : Outline) :
    prepend (cs ++ ds) o = prepend cs (prepend ds o) := by
  simp [prepend]

theorem scan_text_cons {c : Char} {cs : List Char} (h : ¬ (c = '{' ∧ cs.head? = some '{')) :
    scan .text (c :: cs) = push c (scan .text cs) := by
  cases cs with
  | nil => simp [scan]
  | cons d cs => simpa [scan] using fun hc hd => absurd ⟨hc, congrArg some hd⟩ h

def Plain (cs : List Char) : Prop :=
  ∀ c ∈ cs, c ≠ '{' ∧ c ≠ '}' ∧ isQuote c = false

theorem scan_code_cons {c : Char} (h : c ≠ '{' ∧ c ≠ '}' ∧ isQuote c = false) (cs : List Char) :
    scan .code (c :: cs) = push c (scan .code cs) := by
  cases cs <;> simp [scan, h]

theorem scan_plain {cs : List Char} (h : Plain cs) (r : List Char) :
    scan .code (cs ++ r) = prepend cs (scan .code r) := by
  induction cs with
  | nil => rfl
  | cons c cs ih =>
      obtain ⟨hc, hcs⟩ := List.forall_mem_cons.1 h
      rw [List.cons_append, scan_code_cons hc, ih hcs, push_prepend]

theorem scan_quoted_cons {q c : Char} (h : c ≠ '\\') (cs : List Char) :
    scan (.quoted q) (c :: cs) = push c (scan (if c = q then .code else .quoted q) cs) := by
  cases cs <;> simp [scan, h]

theorem scan_body {q : Char} (hq : Quote q) {raw v : List Char} (h : Body q raw v) (r : List Char) :
    scan (.quoted q) (raw ++ q :: r) = prepend (raw ++ [q]) (scan .code r) := by
  induction h with
  | nil =>
      rw [List.nil_append, scan_quoted_cons hq.ne_backslash.symm, if_pos rfl]
      rfl
  | @escape e cs v he h ih =>
      have he := (escapable_iff e).2 he
      simp only [List.cons_append, scan, he, and_self, if_true, ih, push_prepend]
  | @backslash c cs v hc h ih =>
      have hc : isEscapable c = false := by simpa using mt (escapable_iff c).1 hc
      simp only [List.cons_append] at ih ⊢
      simp only [scan, hc, Bool.false_eq_true, and_false, if_false, hq.ne_backslash, ih,
        push_prepend]
  | plain hne hc h ih =>
      rw [List.cons_append, scan_quoted_cons hc, if_neg hne, ih, push_prepend]
      rfl

theorem scan_quote {q : Char} (hq : Quote q) (cs : List Char) :
    scan .code (q :: cs) = push q (scan (.quoted q) cs) := by
  have hb : q ≠ '{' ∧ q ≠ '}' := by
    rcases hq with rfl | rfl <;> decide
  cases cs <;> simp [scan, hb, (quote_iff q).2 hq]

theorem plain_of_names {cs : List Char} (h : ∀ c ∈ cs, NameChar c) : Plain cs := by
  intro c hc
  exact ⟨(h c hc).ne (by decide), (h c hc).ne (by decide), (h c hc).isQuote⟩

theorem Plain.append {cs ds : List Char} (h : Plain cs) (k : Plain ds) : Plain (cs ++ ds) :=
  List.forall_mem_append.2 ⟨h, k⟩

theorem Plain.cons {c : Char} {cs : List Char} (h : c ≠ '{' ∧ c ≠ '}' ∧ isQuote c = false)
    (k : Plain cs) : Plain (c :: cs) :=
  List.forall_mem_cons.2 ⟨h, k⟩

theorem plain_of_blanks {cs : List Char} (h : ∀ c ∈ cs, BlankChar c) : Plain cs := by
  intro c hc
  rcases h c hc with rfl | rfl | rfl | rfl <;> decide

theorem scan_term {cs : List Char} {o : Operand} (h : Term cs o) (r : List Char) :
    scan .code (cs ++ r) = prepend cs (scan .code r) := by
  cases h with
  | @literal q raw v hq h =>
      rw [List.cons_append, List.append_assoc, List.singleton_append, scan_quote hq, scan_body hq h,
        push_prepend]
  | reference hn => exact scan_plain (.cons (by decide) (plain_of_names hn.2)) r

theorem scan_item {cs : List Char} {t : Token} (h : Item cs t) (r : List Char) :
    scan .code (cs ++ r) = prepend cs (scan .code r) := by
  cases h with
  | operand h => exact scan_term h r
  | function h =>
      cases h with
      | bare hn => exact scan_plain (plain_of_names hn.2) r
      | qualified hp hn =>
          exact scan_plain ((plain_of_names hp.2).append (.cons (by decide) (plain_of_names hn.2))) r
  | named h =>
      obtain @⟨n, cs, o, hn, ho⟩ := h
      have hlabel : Plain (n.toList ++ ['=']) :=
        (plain_of_names hn.2).append (.cons (by decide) nofun)
      have he : n.toList ++ '=' :: cs = (n.toList ++ ['=']) ++ cs := by simp
      rw [he, List.append_assoc, scan_plain hlabel, scan_term ho, ← prepend_append]

/-- Code that the grammar derives holds no mark, and leaves no quote open. -/
theorem scan_items {cs : List Char} {ts : List Token} (h : Items cs ts) (r : List Char) :
    scan .code (cs ++ r) = prepend cs (scan .code r) := by
  induction h generalizing r with
  | nil => rfl
  | last h => exact scan_item h r
  | cons h hw hr hne ih =>
      rw [List.append_assoc, List.append_assoc, scan_item h, scan_plain (plain_of_blanks hw.2), ih,
        prepend_append, prepend_append]

theorem scan_braced {lead cs trail : List Char} {ts : List Token} (hl : ∀ c ∈ lead, BlankChar c)
    (h : Items cs ts) (ht : ∀ c ∈ trail, BlankChar c) (r : List Char) :
    scan .text ('{' :: '{' :: (lead ++ (cs ++ trail) ++ '}' :: '}' :: r)) =
      mark .opening (prepend (lead ++ (cs ++ trail)) (mark .closing (scan .text r))) := by
  have hclose : scan .code ('}' :: '}' :: r) = mark .closing (scan .text r) := rfl
  calc scan .text ('{' :: '{' :: (lead ++ (cs ++ trail) ++ '}' :: '}' :: r))
      = mark .opening (scan .code (lead ++ (cs ++ trail) ++ '}' :: '}' :: r)) := rfl
    _ = mark .opening (scan .code (lead ++ (cs ++ (trail ++ '}' :: '}' :: r)))) := by
          simp only [List.append_assoc]
    _ = _ := by
          rw [scan_plain (plain_of_blanks hl), scan_items h, scan_plain (plain_of_blanks ht), hclose,
            prepend_append, prepend_append]

theorem scan_text {cs r : List Char} (h : ¬ ['{', '{'] <:+: cs)
    (hr : r.head? = some '{' → cs.getLast? ≠ some '{') :
    scan .text (cs ++ r) = prepend cs (scan .text r) := by
  induction cs with
  | nil => rfl
  | cons c cs ih =>
      have htail : ¬ ['{', '{'] <:+: cs := fun hi => h (hi.trans (List.suffix_cons c cs).isInfix)
      have hc : ¬ (c = '{' ∧ (cs ++ r).head? = some '{') := by
        rintro ⟨rfl, hd⟩
        cases cs with
        | nil => exact hr hd rfl
        | cons d cs =>
            obtain rfl : d = '{' := by simpa using hd
            exact h ⟨[], cs, rfl⟩
      rw [List.cons_append, scan_text_cons hc, ih htail, push_prepend]
      intro hd he
      exact hr hd (List.mem_getLast?_cons he)

end Outline

end Orchestra.Template
