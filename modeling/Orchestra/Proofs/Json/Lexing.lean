import Orchestra.Json.Printer
import Orchestra.Json.Reader
import Orchestra.Proofs.Text.Trimming

namespace Orchestra.Json

open Decimal

theorem stringBody?_simple {e c : Char} (he : simpleEscape? e = some c) (r : List Char) :
    stringBody? ('\\' :: e :: r) = (stringBody? r).map fun p => (.char c :: p.1, p.2) := by
  have hu : e ≠ 'u' := by
    rintro rfl
    cases he
  rw [stringBody?.eq_3 e r fun _ _ _ _ _ h _ => hu h, he]
  cases stringBody? r <;> rfl

theorem number?_hexDigits : ∀ n, n < 32 →
    Text.number? 16 ['0', '0', hexDigit (n / 16), hexDigit (n % 16)] = some n := by
  decide

theorem stringBody?_control {c : Char} (h : c.toNat < 0x20) (r : List Char) :
    stringBody? ('\\' :: 'u' :: '0' :: '0' :: hexDigit (c.toNat / 16) :: hexDigit (c.toNat % 16) :: r) =
      (stringBody? r).map fun p => (.char c :: p.1, p.2) := by
  have hunit : unit16 c.toNat = .char c := by
    rw [unit16, if_neg (by omega), Char.ofNat_toNat]
  rw [stringBody?.eq_2, number?_hexDigits c.toNat h]
  cases stringBody? r with
  | none => rfl
  | some p => simp [hunit]

theorem stringBody?_plain {c : Char} (hq : c ≠ '\x22') (hb : c ≠ '\\') (hc : ¬ c.toNat < 0x20)
    (r : List Char) :
    stringBody? (c :: r) = (stringBody? r).map fun p => (.char c :: p.1, p.2) := by
  rw [stringBody?.eq_4 c r (fun _ _ _ _ _ h _ => hb h) fun _ _ h _ => hb h, if_neg hq,
    if_neg (by simp [hb, hc])]
  cases stringBody? r <;> rfl

theorem escape_cases (c : Char) :
    (∃ e, simpleEscape? e = some c ∧ escape c = ['\\', e]) ∨
    (c.toNat < 0x20 ∧ escape c =
      ['\\', 'u', '0', '0', hexDigit (c.toNat / 16), hexDigit (c.toNat % 16)]) ∨
    (c ≠ '\x22' ∧ c ≠ '\\' ∧ ¬ c.toNat < 0x20) ∧ escape c = [c] := by
  unfold escape
  by_cases hnamed : c = '\x22' ∨ c = '\\' ∨ c = '\x08' ∨ c = '\t' ∨ c = '\n' ∨ c = '\x0c' ∨ c = '\r'
  · apply Or.inl
    rcases hnamed with rfl | rfl | rfl | rfl | rfl | rfl | rfl <;> exact ⟨_, by decide, rfl⟩
  · simp only [not_or] at hnamed
    simp only [hnamed, if_false]
    by_cases hc : c.toNat < 0x20
    · exact .inr (.inl ⟨hc, if_pos hc⟩)
    · exact .inr (.inr ⟨⟨hnamed.1, hnamed.2.1, hc⟩, if_neg hc⟩)

theorem stringBody?_escape (c : Char) (r : List Char) :
    stringBody? (escape c ++ r) = (stringBody? r).map fun p => (.char c :: p.1, p.2) := by
  rcases escape_cases c with ⟨e, he, heq⟩ | ⟨hc, heq⟩ | ⟨⟨hq, hb, hc⟩, heq⟩
  · rw [heq]
    exact stringBody?_simple he r
  · rw [heq]
    exact stringBody?_control hc r
  · rw [heq]
    exact stringBody?_plain hq hb hc r

theorem stringBody?_quote (cs r : List Char) :
    stringBody? (cs.flatMap escape ++ '\x22' :: r) = some (cs.map .char, r) := by
  induction cs with
  | nil =>
      rw [List.flatMap_nil, List.nil_append, stringBody?.eq_4 _ _ (by simp) (by simp), if_pos rfl]
      rfl
  | cons c cs ih =>
      rw [List.flatMap_cons, List.append_assoc, stringBody?_escape, ih]
      rfl

theorem joinUnits?_chars (cs : List Char) : joinUnits? (cs.map .char) = some cs := by
  induction cs with
  | nil => rfl
  | cons c cs ih =>
      rw [List.map_cons, joinUnits?, ih]
      rfl

def Stop (cs : List Char) : Prop :=
  ∀ c ∈ cs.head?, isNumeralChar c = false ∧ c.isAlpha = false

/-- The text is made of just these tokens, whatever comes behind a stop. -/
def Lexes (cs : List Char) (ts : List Token) : Prop :=
  ∀ r, Stop r → tokens? (cs ++ r) = (tokens? r).map (ts ++ ·)

theorem tokens?_space {c : Char} (h : isSpace c = true) (r : List Char) :
    tokens? (c :: r) = tokens? r := by
  rw [tokens?, if_pos h]

theorem tokens?_token {c : Char} {cs r : List Char} {t : Token} (hs : isSpace c = false)
    (ht : token? c cs = some (t, r)) : tokens? (c :: cs) = (tokens? r).map (t :: ·) := by
  rw [tokens?, if_neg (by simp [hs])]
  split
  · rename_i h
    rw [ht] at h
    cases h
  · rename_i h
    rw [ht] at h
    cases h
    rfl

theorem Lexes.append {a b : List Char} {ts us : List Token} (ha : Lexes a ts) (hb : Lexes b us)
    (hs : ∀ r, Stop (b ++ r)) : Lexes (a ++ b) (ts ++ us) := by
  intro r hr
  rw [List.append_assoc, ha _ (hs r), hb r hr]
  cases tokens? r with
  | none => rfl
  | some vs => simp

theorem lexes_nil : Lexes [] [] := by
  intro r _
  cases h : tokens? r <;> simp [h]

theorem Lexes.token {c : Char} {cs a : List Char} {t : Token} {ts : List Token}
    (hs : isSpace c = false) (ht : ∀ r, token? c (cs ++ r) = some (t, r)) (ha : Lexes a ts) :
    Lexes (c :: (cs ++ a)) (t :: ts) := by
  intro r hr
  have htoken := ht (a ++ r)
  rw [← List.append_assoc] at htoken
  rw [List.cons_append, tokens?_token hs htoken, ha r hr]
  cases tokens? r <;> rfl

theorem Lexes.mark {c : Char} {a : List Char} {t : Token} {ts : List Token}
    (h : punctuation? c = some t) (hs : isSpace c = false) (ha : Lexes a ts) :
    Lexes (c :: a) (t :: ts) := by
  have htoken : ∀ r, token? c ([] ++ r) = some (t, r) := by
    intro r
    rw [token?, h]
    rfl
  exact Lexes.token hs htoken ha

theorem Lexes.quote (s : String) {a : List Char} {ts : List Token} (ha : Lexes a ts) :
    Lexes (quote s ++ a) (.string (some s) :: ts) := by
  have htoken : ∀ r, token? '\x22' (s.toList.flatMap escape ++ ['\x22'] ++ r) =
      some (.string (some s), r) := by
    intro r
    have hp : punctuation? '\x22' = none := by decide
    simp [token?, hp, stringBody?_quote, joinUnits?_chars]
  exact Lexes.token (by decide) htoken ha

theorem Lexes.spaces {cs a : List Char} {ts : List Token} (h : ∀ c ∈ cs, isSpace c = true)
    (ha : Lexes a ts) : Lexes (cs ++ a) ts := by
  induction cs with
  | nil => exact ha
  | cons c cs ih =>
      obtain ⟨hc, hcs⟩ := List.forall_mem_cons.1 h
      intro r hr
      rw [List.cons_append, List.cons_append, tokens?_space hc]
      exact ih hcs r hr

theorem lexes_word {c : Char} {cs : List Char} {t : Token} (hw : word? (c :: cs) = some t)
    (ha : cs.all Char.isAlpha = true) (hp : punctuation? c = none) (hq : c ≠ '\x22')
    (hn : isDigit c = false ∧ c ≠ '-') (hs : isSpace c = false) : Lexes (c :: cs) [t] := by
  intro r hr
  obtain ⟨htake, hdrop⟩ := Text.span_append (List.all_eq_true.1 ha) fun d hd => (hr d hd).2
  have htoken : token? c (cs ++ r) = some (t, r) := by
    simp [token?, hp, hq, hn, htake, hdrop, hw]
  exact tokens?_token hs htoken

theorem lexes_null : Lexes ['n', 'u', 'l', 'l'] [.null] :=
  lexes_word rfl rfl rfl (by decide) (by decide) rfl

theorem lexes_true : Lexes ['t', 'r', 'u', 'e'] [.bool true] :=
  lexes_word rfl rfl rfl (by decide) (by decide) rfl

theorem lexes_false : Lexes ['f', 'a', 'l', 's', 'e'] [.bool false] :=
  lexes_word rfl rfl rfl (by decide) (by decide) rfl

def Number.Fits : Number → Prop
  | .whole n => -(Numeral.wordLimit / 2 : Nat) ≤ n ∧ n < Numeral.wordLimit
  | .float _ => False

theorem fits_ofNat {n : Nat} (h : n < UInt64.size) : (Number.whole n).Fits := by
  constructor
  · omega
  · exact Int.ofNat_lt.2 h

theorem unsigned?_digits (negative : Bool) (n : Nat) :
    Numeral.unsigned? negative (digits n) = some ⟨negative, digits n, [], none⟩ := by
  have hdigits : ∀ c ∈ digits n, isDigit c = true := fun c hc => isDigit_of_mem_digits hc
  have hlead : ¬ (1 < (digits n).length ∧ (digits n).head? = some '0') := by
    rintro ⟨hlength, hhead⟩
    rcases Nat.eq_zero_or_pos n with rfl | hn
    · simp [digits] at hlength
    · exact head_digits hn hhead
  simp only [Numeral.unsigned?, List.takeWhile_eq_self_iff.2 hdigits,
    List.dropWhile_eq_nil_iff.2 hdigits, digits_ne_nil, hlead, or_false, if_false]
  rfl

theorem ofChars?_signed (n : Int) :
    Numeral.ofChars? (signed n) = some ⟨decide (n < 0), digits n.natAbs, [], none⟩ := by
  by_cases h : n < 0
  · rw [signed, if_pos h, Numeral.ofChars?, unsigned?_digits, decide_eq_true h]
  · rw [signed, if_neg h, decide_eq_false h, ← unsigned?_digits]
    cases hd : digits n.natAbs with
    | nil => rfl
    | cons c cs =>
        have hc : isDigit c = true := isDigit_of_mem_digits (n := n.natAbs) (by simp [hd])
        have hminus : c ≠ '-' := by
          rintro rfl
          cases hc
        rw [Numeral.ofChars?]
        rintro _ ⟨⟩
        exact hminus rfl

theorem number?_signed {n : Int} (h : (Number.whole n).Fits) :
    (Numeral.mk (decide (n < 0)) (digits n.natAbs) [] none).number? = some (.whole n) := by
  obtain ⟨hlow, hhigh⟩ := h
  by_cases hn : n < 0
  · have hlimit : 0 < n.natAbs ∧ n.natAbs ≤ Numeral.wordLimit / 2 := by omega
    have hvalue : -(n.natAbs : Int) = n := by omega
    simp only [Numeral.number?, hn, decide_true, value_digits, if_true, true_and, if_pos hlimit, hvalue]
  · have hlimit : n.natAbs < Numeral.wordLimit := by omega
    have hvalue : (n.natAbs : Int) = n := by omega
    simp only [Numeral.number?, hn, decide_false, value_digits, Bool.false_eq_true, if_false, true_and,
      if_pos hlimit, hvalue]

theorem signed_cases (n : Int) :
    ∃ c cs, signed n = c :: cs ∧ (isDigit c = true ∨ c = '-') ∧ ∀ d ∈ cs, isDigit d = true := by
  by_cases h : n < 0
  · exact ⟨'-', digits n.natAbs, if_pos h, .inr rfl, fun d hd => isDigit_of_mem_digits hd⟩
  · have hall : ∀ d ∈ digits n.natAbs, isDigit d = true := fun d hd => isDigit_of_mem_digits hd
    cases hd : digits n.natAbs with
    | nil => exact absurd hd (digits_ne_nil _)
    | cons c cs =>
        rw [hd] at hall
        obtain ⟨hc, hcs⟩ := List.forall_mem_cons.1 hall
        exact ⟨c, cs, by rw [signed, if_neg h, hd], .inl hc, hcs⟩

theorem punctuation?_numeral {c : Char} (h : isDigit c = true ∨ c = '-') :
    punctuation? c = none ∧ c ≠ '\x22' ∧ isSpace c = false := by
  rcases h with h | rfl
  · have hne (d : Char) (hd : isDigit d = false) : c ≠ d := by
      rintro rfl
      rw [h] at hd
      cases hd
    simp [punctuation?, isSpace, hne '[' rfl, hne ']' rfl, hne '\x7b' rfl, hne '\x7d' rfl,
      hne ',' rfl, hne ':' rfl, hne '\x22' rfl, hne ' ' rfl, hne '\n' rfl, hne '\t' rfl, hne '\r' rfl]
  · decide

theorem lexes_number {n : Number} (h : n.Fits) : Lexes n.text [.number (some n)] := by
  cases n with
  | float => exact h.elim
  | whole n =>
      obtain ⟨c, cs, heq, hc, hcs⟩ := signed_cases n
      obtain ⟨hp, hq, hs⟩ := punctuation?_numeral hc
      intro r hr
      obtain ⟨htake, hdrop⟩ := Text.span_append (p := isNumeralChar) (w := cs)
        (fun d hd => by simp [isNumeralChar, hcs d hd]) fun d hd => (hr d hd).1
      have htoken : token? c (cs ++ r) = some (.number (some (.whole n)), r) := by
        simp [token?, hp, hq, hc, htake, hdrop, ← heq, ofChars?_signed, number?_signed h]
      rw [Number.text, heq, List.cons_append, tokens?_token hs htoken]
      rfl

end Orchestra.Json
