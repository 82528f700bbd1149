import Orchestra.Json.Numeral
import Orchestra.Text.Radix

namespace Orchestra.Json

inductive Token
  | openArray
  | closeArray
  | openObject
  | closeObject
  | comma
  | colon
  | null
  | bool (b : Bool)
  | number (n : Option Number)
  | string (s : Option String)

def isSpace (c : Char) : Bool :=
  c = ' ' || c = '\n' || c = '\t' || c = '\r'

def simpleEscape? (c : Char) : Option Char :=
  if c = '\x22' ∨ c = '\\' ∨ c = '/' then some c
  else if c = 'b' then some '\x08'
  else if c = 'f' then some '\x0c'
  else if c = 'n' then some '\n'
  else if c = 'r' then some '\r'
  else if c = 't' then some '\t'
  else none

/-- One place of a string: a character, or half of a pair that stands for one. -/
inductive Unit16
  | char (c : Char)
  | half (n : Nat)

def unit16 (n : Nat) : Unit16 :=
  if 0xD800 ≤ n ∧ n < 0xE000 then .half n else .char (Char.ofNat n)

def stringBody? : List Char → Option (List Unit16 × List Char)
  | [] => none
  | '\\' :: 'u' :: a :: b :: c :: d :: rest => do
      let n ← Text.number? 16 [a, b, c, d]
      let (us, rest) ← stringBody? rest
      return (unit16 n :: us, rest)
  | '\\' :: e :: rest => do
      let c ← simpleEscape? e
      let (us, rest) ← stringBody? rest
      return (.char c :: us, rest)
  | c :: rest =>
      if c = '\x22' then some ([], rest)
      else if c = '\\' ∨ c.toNat < 0x20 then none
      else do
        let (us, rest) ← stringBody? rest
        return (.char c :: us, rest)

/-- A high half has to be followed at once by a low one. -/
def joinUnits? : List Unit16 → Option (List Char)
  | [] => some []
  | .char c :: rest => (joinUnits? rest).map (c :: ·)
  | .half a :: .half b :: rest =>
      if a < 0xDC00 ∧ 0xDC00 ≤ b then
        (joinUnits? rest).map (Char.ofNat (0x10000 + (a - 0xD800) * 0x400 + (b - 0xDC00)) :: ·)
      else none
  | .half _ :: _ => none

def isNumeralChar (c : Char) : Bool :=
  Decimal.isDigit c || c = '-' || c = '+' || c = '.' || c = 'e' || c = 'E'

def punctuation? (c : Char) : Option Token :=
  if c = '[' then some .openArray
  else if c = ']' then some .closeArray
  else if c = '{' then some .openObject
  else if c = '}' then some .closeObject
  else if c = ',' then some .comma
  else if c = ':' then some .colon
  else none

def word? (cs : List Char) : Option Token :=
  if cs = ['n', 'u', 'l', 'l'] then some .null
  else if cs = ['t', 'r', 'u', 'e'] then some (.bool true)
  else if cs = ['f', 'a', 'l', 's', 'e'] then some (.bool false)
  else none

def token? (c : Char) (rest : List Char) : Option (Token × List Char) :=
  match punctuation? c with
  | some t => some (t, rest)
  | none =>
      if c = '\x22' then do
        let (us, rest) ← stringBody? rest
        return (.string ((joinUnits? us).map String.ofList), rest)
      else if Decimal.isDigit c ∨ c = '-' then do
        let n ← Numeral.ofChars? (c :: rest.takeWhile isNumeralChar)
        return (.number n.number?, rest.dropWhile isNumeralChar)
      else do
        let t ← word? (c :: rest.takeWhile Char.isAlpha)
        return (t, rest.dropWhile Char.isAlpha)

theorem stringBody?_length {cs rest : List Char} {us : List Unit16}
    (h : stringBody? cs = some (us, rest)) : rest.length < cs.length := by
  fun_induction stringBody? cs generalizing us rest with
  | case1 => simp at h
  | case2 a b c d r ih =>
      simp only [bind, Option.bind_eq_some_iff] at h
      obtain ⟨n, _, ⟨us', r'⟩, hr, h⟩ := h
      simp only [pure, Option.some.injEq, Prod.mk.injEq] at h
      have := ih hr
      simp only [← h.2, List.length_cons]
      omega
  | case3 e r _ ih =>
      simp only [bind, Option.bind_eq_some_iff] at h
      obtain ⟨c, _, ⟨us', r'⟩, hr, h⟩ := h
      simp only [pure, Option.some.injEq, Prod.mk.injEq] at h
      have := ih hr
      simp only [← h.2, List.length_cons]
      omega
  | case4 c r =>
      simp only [Option.some.injEq, Prod.mk.injEq] at h
      simp [← h.2]
  | case5 => simp at h
  | case6 c r _ _ _ _ ih =>
      simp only [bind, Option.bind_eq_some_iff] at h
      obtain ⟨⟨us', r'⟩, hr, h⟩ := h
      simp only [pure, Option.some.injEq, Prod.mk.injEq] at h
      have := ih hr
      simp only [← h.2, List.length_cons]
      omega

theorem token?_length {c : Char} {cs rest : List Char} {t : Token}
    (h : token? c cs = some (t, rest)) : rest.length ≤ cs.length := by
  unfold token? at h
  split at h
  · simp_all
  · split at h
    · simp only [bind, Option.bind_eq_some_iff] at h
      obtain ⟨⟨us, r⟩, hr, h⟩ := h
      simp only [pure, Option.some.injEq, Prod.mk.injEq] at h
      exact h.2 ▸ Nat.le_of_lt (stringBody?_length hr)
    · split at h
      · simp only [bind, Option.bind_eq_some_iff] at h
        obtain ⟨n, _, h⟩ := h
        simp only [pure, Option.some.injEq, Prod.mk.injEq] at h
        exact h.2 ▸ (List.dropWhile_sublist _).length_le
      · simp only [bind, Option.bind_eq_some_iff] at h
        obtain ⟨n, _, h⟩ := h
        simp only [pure, Option.some.injEq, Prod.mk.injEq] at h
        exact h.2 ▸ (List.dropWhile_sublist _).length_le

def tokens? (cs : List Char) : Option (List Token) :=
  match cs with
  | [] => some []
  | c :: rest =>
      if isSpace c then tokens? rest
      else match _ : token? c rest with
        | none => none
        | some (t, rest) => (tokens? rest).map (t :: ·)
termination_by cs.length
decreasing_by
  · simp
  · have := token?_length ‹_›
    simp only [List.length_cons]
    omega

end Orchestra.Json
