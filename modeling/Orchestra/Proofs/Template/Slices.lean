import Mathlib.Data.String.Basic
import Orchestra.Proofs.Template.Scanning

namespace Orchestra.Template

open String (utf8Len)

/-- The text between two byte offsets. There is none when they are out of order, out of bounds or
inside of a character. -/
def slice? (s : String) (first last : Nat) : Option String :=
  if first ≤ last ∧ String.Pos.Raw.isValid s ⟨first⟩ ∧ String.Pos.Raw.isValid s ⟨last⟩ then
    some (String.Pos.Raw.extract s ⟨first⟩ ⟨last⟩)
  else none

def offsets (n : Nat) : List Char → List (Nat × Char)
  | [] => []
  | c :: cs => (n, c) :: offsets (n + c.utf8Size) cs

def next? (cs : List (Nat × Char)) : Option Char :=
  cs.head?.map Prod.snd

theorem next?_offsets (n : Nat) (cs : List Char) : next? (offsets n cs) = cs.head? := by
  cases cs <;> rfl

theorem isValid_utf8Len (cs ds : List Char) :
    String.Pos.Raw.isValid (String.ofList (cs ++ ds)) ⟨utf8Len cs⟩ = true := by
  rw [String.Pos.Raw.isValid_eq_true_iff, String.Pos.Raw.isValid_iff_exists_append]
  refine ⟨String.ofList cs, String.ofList ds, String.ofList_append, ?_⟩
  rw [String.rawEndPos_ofList]

theorem slice?_eq {s : String} {n m : Nat} (cs : List Char) {ds : List Char} (es : List Char)
    (h : s.toList = cs ++ (ds ++ es)) (hn : n = utf8Len cs) (hm : m = n + utf8Len ds) :
    slice? s n m = some (String.ofList ds) := by
  subst n m
  obtain rfl : s = String.ofList (cs ++ (ds ++ es)) := by rw [← h, String.ofList_toList]
  have hfirst := isValid_utf8Len cs (ds ++ es)
  have hlast := isValid_utf8Len (cs ++ ds) es
  rw [List.append_assoc, String.utf8Len_append] at hlast
  rw [slice?, if_pos ⟨Nat.le_add_right .., hfirst, hlast⟩, ← List.append_assoc,
    String.extract_of_valid]

theorem slice?_end {s : String} {n : Nat} (cs : List Char) {ds : List Char} (h : s.toList = cs ++ ds)
    (hn : n = utf8Len cs) : slice? s n s.utf8ByteSize = some (String.ofList ds) := by
  refine slice?_eq cs [] (by rw [h, List.append_nil]) hn ?_
  rw [hn, ← String.utf8Len_append, ← h, ← String.utf8ByteSize_ofList, String.ofList_toList]

/-- What is cut out of a template: text, or code with its braces and without them. -/
inductive Cut
  | text (s : String)
  | code (raw inner : String) (closed : Bool)
deriving DecidableEq

def Piece.cut : Piece → Cut
  | .text cs => .text (String.ofList cs)
  | .code inner closed =>
      .code (String.ofList (Piece.chars (.code inner closed))) (String.ofList inner) closed

/-- Text begins at `textStart`, and code at `blockStart` when there is one. Nothing is cut before
the braces close, so code that is opened anew stays behind as text. -/
def sweep? (s : String) (textStart : Nat) (blockStart : Option Nat) (quote : Option Char) :
    List (Nat × Char) → Option (List Cut)
  | [] =>
      match blockStart with
      | none => do return [.text (← slice? s textStart s.utf8ByteSize)]
      | some start => do
          let text ← slice? s textStart start
          let raw ← slice? s start s.utf8ByteSize
          let inner ← slice? s (start + 2) s.utf8ByteSize
          return [.text text, .code raw inner false]
  | (pos, c) :: rest =>
      match quote with
      | some q =>
          if c = '\\' ∧ (next? rest).any isEscapable then
            sweep? s textStart blockStart quote rest.tail
          else sweep? s textStart blockStart (if c = q then none else quote) rest
      | none =>
          if c = '{' ∧ next? rest = some '{' then
            sweep? s textStart (some pos) none rest.tail
          else
            match blockStart with
            | none => sweep? s textStart none none rest
            | some start =>
                if isQuote c then sweep? s textStart blockStart (some c) rest
                else if c = '}' ∧ next? rest = some '}' then do
                  let text ← slice? s textStart start
                  let raw ← slice? s start (pos + 2)
                  let inner ← slice? s (start + 2) pos
                  let cuts ← sweep? s (pos + 2) none none rest.tail
                  return .text text :: .code raw inner true :: cuts
                else sweep? s textStart blockStart none rest
termination_by cs => cs.length
decreasing_by all_goals
  simp only [List.length_cons, List.length_tail]
  omega

/-- In front of `rest`, with nothing but text behind the last cut, the sweep cuts out the pieces of
that text and of the outline. -/
def SweepsText (s : String) (rest : List Char) (o : Outline) : Prop :=
  ∀ done text, s.toList = done ++ (text ++ rest) →
    sweep? s (utf8Len done) none none (offsets (utf8Len done + utf8Len text) rest) =
      some ((Piece.ofMarks (text ++ o.before) o.after).map Piece.cut)

def SweepsCode (s : String) (quote : Option Char) (rest : List Char) (o : Outline) : Prop :=
  ∀ done text inner, s.toList = done ++ (text ++ (Mark.opening.chars ++ (inner ++ rest))) →
    sweep? s (utf8Len done) (some (utf8Len done + utf8Len text)) quote
        (offsets (utf8Len done + utf8Len text + 2 + utf8Len inner) rest) =
      some ((Piece.ofMarks text ((.opening, inner ++ o.before) :: o.after)).map Piece.cut)

theorem utf8Len_mark (m : Mark) : utf8Len m.chars = 2 := by
  cases m <;> rfl

theorem SweepsText.nil (s : String) : SweepsText s [] ⟨[], []⟩ := by
  intro done text hs
  rw [List.append_nil] at hs
  simp [offsets, sweep?, slice?_end done hs, Piece.ofMarks, Piece.cut]

theorem slices_of_code {s : String} {done text inner rest : List Char}
    (hs : s.toList = done ++ (text ++ (Mark.opening.chars ++ (inner ++ rest)))) :
    slice? s (utf8Len done) (utf8Len done + utf8Len text) = some (String.ofList text) ∧
      slice? s (utf8Len done + utf8Len text + 2)
        (utf8Len done + utf8Len text + 2 + utf8Len inner) = some (String.ofList inner) := by
  refine ⟨slice?_eq done _ hs rfl rfl, ?_⟩
  have hopen : s.toList = (done ++ text ++ Mark.opening.chars) ++ (inner ++ rest) := by
    simp only [hs, List.append_assoc]
  refine slice?_eq _ rest hopen ?_ rfl
  simp only [String.utf8Len_append, utf8Len_mark]

theorem SweepsCode.nil (s : String) (quote : Option Char) : SweepsCode s quote [] ⟨[], []⟩ := by
  intro done text inner hs
  obtain ⟨htext, hinner⟩ := slices_of_code hs
  rw [List.append_nil] at hs
  have hend : s.utf8ByteSize = utf8Len done + utf8Len text + 2 + utf8Len inner := by
    rw [← String.ofList_toList (s := s), hs, String.utf8ByteSize_ofList]
    simp only [String.utf8Len_append, utf8Len_mark, Nat.add_assoc]
  have hraw : slice? s (utf8Len done + utf8Len text) s.utf8ByteSize =
      some (String.ofList (Mark.opening.chars ++ inner)) := by
    refine slice?_end (done ++ text) ?_ (String.utf8Len_append ..).symm
    rw [hs, List.append_assoc]
  rw [← hend] at hinner
  simp only [offsets, sweep?, htext, hraw, hinner, Option.bind_eq_bind, Option.bind_some,
    Option.pure_def, List.append_nil]
  rfl

theorem SweepsText.push {s : String} {c : Char} {rest : List Char} {o : Outline}
    (hc : ¬ (c = '{' ∧ rest.head? = some '{')) (h : SweepsText s rest o) :
    SweepsText s (c :: rest) (Outline.push c o) := by
  intro done text hs
  have hrest := h done (text ++ [c]) (by simpa using hs)
  rw [offsets, sweep?, next?_offsets, if_neg hc]
  simpa [Outline.push, Nat.add_assoc] using hrest

theorem SweepsText.opening {s : String} {rest : List Char} {o : Outline}
    (h : SweepsCode s none rest o) :
    SweepsText s ('{' :: '{' :: rest) (Outline.mark .opening o) := by
  intro done text hs
  have hrest := h done text [] hs
  rw [offsets, sweep?, next?_offsets, if_pos ⟨rfl, rfl⟩, Outline.mark, List.append_nil]
  exact hrest

theorem SweepsCode.prepend {s : String} {quote : Option Char} (quote' : Option Char) (cs : List Char)
    {rest : List Char} {o : Outline}
    (hstep : ∀ textStart start n, sweep? s textStart (some start) quote (offsets n (cs ++ rest)) =
      sweep? s textStart (some start) quote' (offsets (n + utf8Len cs) rest))
    (h : SweepsCode s quote' rest o) :
    SweepsCode s quote (cs ++ rest) (Outline.prepend cs o) := by
  intro done text inner hs
  have hrest := h done text (inner ++ cs) (by rw [hs, List.append_assoc])
  rw [hstep, Outline.prepend, ← List.append_assoc, ← hrest, String.utf8Len_append, Nat.add_assoc]

theorem SweepsCode.opening {s : String} {rest : List Char} {o : Outline}
    (h : SweepsCode s none rest o) :
    SweepsCode s none ('{' :: '{' :: rest) (Outline.mark .opening o) := by
  intro done text inner hs
  have hrest := h done (text ++ (Mark.opening.chars ++ inner)) []
    (by rw [hs]; simp only [List.append_assoc]; rfl)
  have hstart : utf8Len done + utf8Len (text ++ (Mark.opening.chars ++ inner)) =
      utf8Len done + utf8Len text + 2 + utf8Len inner := by
    simp only [String.utf8Len_append, utf8Len_mark, Nat.add_assoc]
  rw [hstart] at hrest
  rw [offsets, sweep?, next?_offsets, if_pos ⟨rfl, rfl⟩, Outline.mark, List.append_nil,
    Piece.ofMarks]
  exact hrest

theorem SweepsCode.closing {s : String} {rest : List Char} {o : Outline}
    (h : SweepsText s rest o) :
    SweepsCode s none ('}' :: '}' :: rest) (Outline.mark .closing o) := by
  intro done text inner hs
  obtain ⟨htext, hinner⟩ := slices_of_code hs
  have hraw : slice? s (utf8Len done + utf8Len text)
      (utf8Len done + utf8Len text + 2 + utf8Len inner + 2) =
      some (String.ofList (Mark.opening.chars ++ (inner ++ Mark.closing.chars))) := by
    refine slice?_eq (done ++ text) rest ?_ (String.utf8Len_append ..).symm ?_
    · simp only [hs, List.append_assoc]
      rfl
    · simp only [String.utf8Len_append, utf8Len_mark, Nat.add_assoc]
  have hrest := h (done ++ (text ++ (Mark.opening.chars ++ (inner ++ Mark.closing.chars)))) []
    (by rw [hs]; simp only [List.append_assoc]; rfl)
  have hstart : utf8Len (done ++ (text ++ (Mark.opening.chars ++ (inner ++ Mark.closing.chars)))) =
      utf8Len done + utf8Len text + 2 + utf8Len inner + 2 := by
    simp only [String.utf8Len_append, utf8Len_mark, Nat.add_assoc]
  rw [hstart] at hrest
  have htail (n : Nat) : (offsets (n + Char.utf8Size '}') ('}' :: rest)).tail =
      offsets (n + 2 + utf8Len []) rest := rfl
  rw [offsets, sweep?, next?_offsets, if_neg nofun]
  rw [if_neg (by decide), if_pos ⟨rfl, rfl⟩, htail, hrest, htext, hraw, hinner, Outline.mark,
    List.append_nil, Piece.ofMarks]
  rfl

def Sweeps (s : String) : Place → List Char → Outline → Prop
  | .text => SweepsText s
  | .code => SweepsCode s none
  | .quoted q => SweepsCode s (some q)

theorem Sweeps.quoted {s : String} {q c : Char} {rest : List Char} {o : Outline}
    (hc : ¬ (c = '\\' ∧ rest.head?.any isEscapable))
    (h : Sweeps s (if c = q then .code else .quoted q) rest o) :
    Sweeps s (.quoted q) (c :: rest) (Outline.push c o) := by
  refine SweepsCode.prepend (if c = q then none else some q) [c] ?_ ?_
  · intro textStart start n
    rw [List.singleton_append, offsets, sweep?, next?_offsets, if_neg hc]
    simp
  · by_cases hq : c = q
    · rw [if_pos hq] at h ⊢
      exact h
    · rw [if_neg hq] at h ⊢
      exact h

theorem Sweeps.code {s : String} {c : Char} {rest : List Char} {o : Outline}
    (hopen : ¬ (c = '{' ∧ rest.head? = some '{')) (hclose : ¬ (c = '}' ∧ rest.head? = some '}'))
    (h : Sweeps s (if isQuote c then .quoted c else .code) rest o) :
    Sweeps s .code (c :: rest) (Outline.push c o) := by
  refine SweepsCode.prepend (if isQuote c then some c else none) [c] ?_ ?_
  · intro textStart start n
    rw [List.singleton_append, offsets, sweep?, next?_offsets, if_neg hopen, if_neg hclose]
    split <;> simp
  · by_cases hq : isQuote c
    · rw [if_pos hq] at h ⊢
      exact h
    · rw [if_neg hq] at h ⊢
      exact h

theorem sweeps_scan (s : String) (p : Place) (cs : List Char) :
    Sweeps s p cs (Outline.scan p cs) := by
  fun_induction Outline.scan p cs with
  | case1 p =>
      cases p with
      | text => exact .nil s
      | code | quoted => exact SweepsCode.nil s _
  | case2 c q e after he ih =>
      refine SweepsCode.prepend (some q) [c, e] (fun textStart start n => ?_) ih
      have hnext : c = '\\' ∧ (next? (offsets (n + c.utf8Size) (e :: after))).any isEscapable := he
      rw [List.cons_append, List.singleton_append, offsets, sweep?, if_pos hnext]
      simp [offsets, Nat.add_comm, Nat.add_left_comm]
  | case3 c q e after he ih => exact .quoted he ih
  | case4 c q ih => exact .quoted (by simp) ih
  | case5 c d after hopen ih =>
      obtain ⟨rfl, rfl⟩ := hopen
      exact SweepsText.opening ih
  | case6 c d after hopen ih => exact SweepsText.push (by simpa using hopen) ih
  | case7 c ih => exact SweepsText.push (by simp) ih
  | case8 c d after hopen ih =>
      obtain ⟨rfl, rfl⟩ := hopen
      exact SweepsCode.opening ih
  | case9 c d after hopen hclose ih =>
      obtain ⟨rfl, rfl⟩ := hclose
      exact SweepsCode.closing ih
  | case10 c d after hopen hclose ih =>
      exact .code (by simpa using hopen) (by simpa using hclose) ih
  | case11 c ih => exact .code (by simp) (by simp) ih

theorem sweep?_eq (template : String) :
    sweep? template 0 none none (offsets 0 template.toList) =
      some ((Piece.ofTemplate template).map Piece.cut) :=
  sweeps_scan template .text template.toList [] [] rfl

end Orchestra.Template
