import Mathlib.Data.List.Forall2
import Orchestra.Proofs.Template.Scanning

namespace Orchestra.Template

open Text Grammar

theorem pushText_append (cs ds : List Char) (bs : List Block) :
    pushText (cs ++ ds) bs = pushText cs (pushText ds bs) := by
  by_cases hc : cs = []
  · subst cs
    simp [pushText]
  · by_cases hd : ds = []
    · subst ds
      simp [pushText]
    · cases bs with
      | nil => simp [pushText, hc, hd, String.ofList_append]
      | cons b bs =>
          cases b <;> simp [pushText, hc, hd, String.ofList_append, String.append_assoc]

theorem blocksOf?_text_append (cs ds : List Char) (ps : List Piece) :
    blocksOf? (.text (cs ++ ds) :: ps) = (blocksOf? (.text ds :: ps)).map (pushText cs) := by
  cases h : blocksOf? ps with
  | error e => simp [blocksOf?, h, Except.map]
  | ok bs => simp [blocksOf?, h, Except.map, pushText_append]

theorem blocksOf?_ofMarks_append (cs before : List Char) (ms : List (Mark × List Char)) :
    blocksOf? (Piece.ofMarks (cs ++ before) ms) =
      (blocksOf? (Piece.ofMarks before ms)).map (pushText cs) := by
  fun_induction Piece.ofMarks before ms with
  | case1 before => exact blocksOf?_text_append cs before _
  | case2 before inner => exact blocksOf?_text_append cs before _
  | case3 before inner run rest ih => exact blocksOf?_text_append cs before _
  | case4 before inner run rest ih => rw [Piece.ofMarks, List.append_assoc, ih]
  | case5 before run rest ih => rw [Piece.ofMarks, List.append_assoc, ih]

def blocksFrom? (cs : List Char) : Except Malformed (List Block) :=
  let o := Outline.scan .text cs
  blocksOf? (Piece.ofMarks o.before o.after)

theorem blocks?_eq (cs : List Char) : blocks? (String.ofList cs) = blocksFrom? cs := by
  simp [blocks?, blocksFrom?, Piece.ofTemplate]

theorem blocksFrom?_text {cs r : List Char} (h : ¬ ['{', '{'] <:+: cs)
    (hr : r.head? = some '{' → cs.getLast? ≠ some '{') :
    blocksFrom? (cs ++ r) = (blocksFrom? r).map (pushText cs) := by
  unfold blocksFrom?
  rw [Outline.scan_text h hr]
  exact blocksOf?_ofMarks_append cs _ _

theorem Grammar.Name.solid {n : String} (h : Name n) : Solid n.toList :=
  solid_of_not_white (by simpa using h.1) h.not_white

theorem Grammar.Term.solid {cs : List Char} {o : Operand} (h : Term cs o) : Solid cs := by
  cases h with
  | @literal q raw v hq h =>
      have hquote : Solid [q] := ⟨q, q, rfl, rfl, hq.isWhite, hq.isWhite⟩
      exact hquote.between hquote raw
  | reference hn =>
      have hdollar : Solid ['$'] := ⟨'$', '$', rfl, rfl, by decide, by decide⟩
      exact hdollar.between hn.solid []

theorem Grammar.Item.solid {cs : List Char} {t : Token} (h : Item cs t) : Solid cs := by
  cases h with
  | operand h => exact h.solid
  | function h =>
      cases h with
      | bare hn => exact hn.solid
      | qualified hp hn => exact hp.solid.between hn.solid ['.']
  | named h =>
      obtain ⟨hn, ho⟩ := h
      exact hn.solid.between ho.solid ['=']

theorem Grammar.Items.solid {cs : List Char} {ts : List Token} (h : Items cs ts) (hne : ts ≠ []) :
    Solid cs := by
  induction h with
  | nil => exact absurd rfl hne
  | last h => exact h.solid
  | cons h hw hr hts ih => exact h.solid.between (ih hts) _

theorem blocksOf?_code {inner : List Char} {b : Block} (hne : trimList inner ≠ [])
    (h : Block.codeOfText? (String.ofList inner) true = .ok b) (ps : List Piece) :
    blocksOf? (.text [] :: .code inner true :: ps) = (blocksOf? ps).map (b :: ·) := by
  have hcode : blocksOf? (.code inner true :: ps) = (blocksOf? ps).map (b :: ·) := by
    rw [blocksOf?, if_neg (by simpa using hne), h]
    cases blocksOf? ps <;> rfl
  rw [blocksOf?, hcode]
  cases blocksOf? ps <;> rfl

theorem blocksFrom?_code {e : Expression} (h : e.Proper) (style : Style) (r : List Char) :
    ∃ bs, (Block.code (String.ofList (style.write 0 e.tokens)) bs true).fault? = none ∧
      bs.map Block.token? = e.tokens.map some ∧
      blocksFrom? ((Segment.code e style).write ++ r) =
        (blocksFrom? r).map (.code (String.ofList (style.write 0 e.tokens)) bs true :: ·) := by
  have hcode := e.code_write h style
  have hitems := (code_iff_items.1 hcode).1
  have hsolid : Solid (style.write 0 e.tokens) :=
    hitems.solid (by cases e <;> simp [Expression.tokens])
  obtain ⟨inner, hinner⟩ : ∃ inner, inner = style.lead ++ (style.write 0 e.tokens ++ style.trail) :=
    ⟨_, rfl⟩
  have htrim : trimList inner = style.write 0 e.tokens := by
    rw [hinner]
    exact trimList_pad (fun c hc => (style.blank_lead c hc).isWhite)
      (fun c hc => (style.blank_trail c hc).isWhite) hsolid
  have hne : trimList inner ≠ [] := by
    rw [htrim]
    exact hsolid.ne_nil
  obtain ⟨bs, hread, hfault, htokens⟩ :=
    codeOfText?_of_code (s := String.ofList inner) (by simpa [htrim] using hcode)
  have hsource : trim (String.ofList inner) = String.ofList (style.write 0 e.tokens) := by
    simp [trim, htrim]
  rw [hsource] at hread hfault
  refine ⟨bs, hfault, htokens, ?_⟩
  have hwrite : (Segment.code e style).write ++ r = '{' :: '{' :: (inner ++ '}' :: '}' :: r) := by
    simp [Segment.write, hinner]
  rw [hwrite, hinner, blocksFrom?, Outline.scan_braced style.blank_lead hitems style.blank_trail,
    ← hinner]
  simp only [Outline.mark, Outline.prepend, List.append_nil, Piece.ofMarks]
  exact blocksOf?_code hne hread _

theorem pushText_of_readAs {s : String} {rest : List Segment} {bs : List Block} (hs : s ≠ "")
    (hrest : ∀ t more, rest ≠ .text t :: more) (h : List.Forall₂ Segment.ReadAs rest bs) :
    pushText s.toList bs = .text s :: bs := by
  have hne : s.toList ≠ [] := by simpa using hs
  cases h with
  | nil => simp [pushText, hne]
  | @cons segment b rest bs hb _ =>
      cases segment with
      | text t => exact absurd rfl (hrest t rest)
      | code e style =>
          obtain ⟨_, rfl, -⟩ := hb
          simp [pushText, hne]

theorem Grammar.Separate.text {s : String} {rest : List Segment} (h : Separate (.text s :: rest)) :
    s ≠ "" ∧ ¬ ['{', '{'] <:+: s.toList ∧
      ((rest.flatMap Segment.write).head? = some '{' → s.toList.getLast? ≠ some '{') ∧
      Separate rest ∧ ∀ t more, rest ≠ .text t :: more := by
  cases rest with
  | nil => exact ⟨h.1, h.2, nofun, trivial, nofun⟩
  | cons segment rest =>
      cases segment with
      | text => exact h.elim
      | code => exact ⟨h.1, h.2.1, fun _ => h.2.2.1, h.2.2.2, nofun⟩

/-- A template written from its parts is read back part by part: the same texts, and code with the
tokens that were written. -/
theorem blocks?_write_segments (segments : List Segment) (h : Separate segments) :
    ∃ bs, blocks? (String.ofList (segments.flatMap Segment.write)) = .ok bs ∧
      List.Forall₂ Segment.ReadAs segments bs := by
  rw [blocks?_eq]
  induction segments with
  | nil => exact ⟨[], rfl, .nil⟩
  | cons segment rest ih =>
      cases segment with
      | text s =>
          obtain ⟨hs, hbraces, hfollow, hrest, hne⟩ := h.text
          obtain ⟨bs, hread, hbs⟩ := ih hrest
          refine ⟨.text s :: bs, ?_, .cons rfl hbs⟩
          rw [List.flatMap_cons, Segment.write, blocksFrom?_text hbraces hfollow, hread, Except.map,
            pushText_of_readAs hs hne hbs]
      | code e style =>
          obtain ⟨he, hrest⟩ := h
          obtain ⟨bs, hread, hbs⟩ := ih hrest
          obtain ⟨tokens, hfault, htokens, hcode⟩ :=
            blocksFrom?_code he style (rest.flatMap Segment.write)
          refine ⟨_ :: bs, ?_, .cons ⟨tokens, rfl, hfault, htokens⟩ hbs⟩
          rw [List.flatMap_cons, hcode, hread]
          rfl

def Grammar.Style.varied : Style where
  quote i := if i % 2 = 0 then '\x22' else '\x27'
  blanks i := '\n' :: List.replicate i '\t'
  lead := [' ']
  trail := []
  isQuote_quote i := by
    by_cases h : i % 2 = 0 <;> simp [h, Quote]
  blanks_blanks i := by
    constructor
    · simp
    · intro c hc
      rcases List.mem_cons.1 hc with rfl | hc
      · exact .inr (.inr (.inr rfl))
      · exact .inr (.inl (List.eq_of_mem_replicate hc))
  blank_lead := by simp [BlankChar]
  blank_trail := by simp

def Grammar.bracesInQuotes : List Segment :=
  [.text "\x7d ",
    .code (.call (some "p") "f" (some (.literal "it's \x7d\x7d \\")) [("x", .literal "\x7b\x7b")])
      .varied,
    .text "!"]

theorem separate_bracesInQuotes : Separate bracesInQuotes := by
  refine ⟨by decide, by decide, by decide, ⟨?_, ?_, ?_, ?_⟩, by decide, by decide⟩
  · rintro s ⟨⟩
    exact (name_iff _).1 (by decide)
  · exact (name_iff _).1 (by decide)
  · rintro o ⟨⟩
    trivial
  · intro a ha
    obtain rfl := List.mem_singleton.1 ha
    exact ⟨(name_iff _).1 (by decide), trivial⟩

theorem blocks?_write_bracesInQuotes :
    Separate bracesInQuotes ∧
      ∃ bs, blocks? "\x7d \x7b\x7b p.f\n'it\\'s \x7d\x7d \\\\'\n\tx=\"\x7b\x7b\"\x7d\x7d!" = .ok bs ∧
        List.Forall₂ Segment.ReadAs bracesInQuotes bs := by
  obtain ⟨bs, hread, hbs⟩ := blocks?_write_segments _ separate_bracesInQuotes
  refine ⟨separate_bracesInQuotes, bs, ?_, hbs⟩
  rw [← hread]
  exact congrArg blocks? (by decide +kernel)

end Orchestra.Template
