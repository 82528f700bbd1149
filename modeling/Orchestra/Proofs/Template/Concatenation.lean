import Orchestra.Function
import Orchestra.Proofs.Calls
import Orchestra.Proofs.Template.RoundTrip
import Orchestra.Template.Render

namespace Orchestra.Template

namespace Outline

def joinFrom (before : List Char) : List (Mark × List Char) → Outline → Outline
  | [], o => prepend before o
  | (m, run) :: rest, o => prepend before (mark m (joinFrom run rest o))

def join (o o' : Outline) : Outline :=
  joinFrom o.before o.after o'

theorem joinFrom_append (cs before : List Char) (ms : List (Mark × List Char)) (o : Outline) :
    joinFrom (cs ++ before) ms o = prepend cs (joinFrom before ms o) := by
  cases ms <;> exact prepend_append cs before _

theorem push_join (c : Char) (o o' : Outline) : (push c o).join o' = push c (o.join o') := by
  obtain ⟨before, after⟩ := o
  cases after <;> rfl

theorem mark_join (m : Mark) (o o' : Outline) : (mark m o).join o' = mark m (o.join o') := rfl

/-- A scan that began at `p` and met these marks has come back to the text. -/
def Closed (p : Place) (ms : List (Mark × List Char)) : Prop :=
  match ms.getLast? with
  | none => p = .text
  | some m => m.1 = .closing

theorem Closed.change {p p' : Place} {ms : List (Mark × List Char)} (h : Closed p ms)
    (hp : p ≠ .text) : Closed p' ms := by
  unfold Closed at *
  cases hlast : ms.getLast? with
  | none =>
      rw [hlast] at h
      exact absurd h hp
  | some m => rwa [hlast] at h

theorem closed_cons {p : Place} {m : Mark} {run : List Char} {ms : List (Mark × List Char)} :
    Closed p ((m, run) :: ms) ↔ Closed (if m = .closing then .text else .code) ms := by
  unfold Closed
  rw [List.getLast?_cons]
  cases ms.getLast? <;> cases m <;> simp

/-- Nothing is carried over from a text that is scanned to its end outside of code, unless its last
brace and the first of the next text make a mark. -/
theorem scan_append {p : Place} {cs ds : List Char} (h : Closed p (scan p cs).after)
    (hseam : cs.getLast? = some '{' → ds.head? ≠ some '{') :
    scan p (cs ++ ds) = (scan p cs).join (scan .text ds) := by
  fun_induction scan p cs with
  | case1 p =>
      obtain rfl : p = .text := h
      rfl
  | case2 c q e after he ih =>
      have hrest := ih h
        fun hl => hseam (List.mem_getLast?_cons (List.mem_getLast?_cons hl))
      rw [push_join, push_join, ← hrest]
      simp [scan, he]
  | case3 c q e after he ih =>
      have hrest := ih (h.change (by simp)) fun hl => hseam (List.mem_getLast?_cons hl)
      rw [push_join, ← hrest]
      simp only [List.cons_append, scan, if_neg he]
  | case5 c d after hopen ih =>
      have hrest := ih (closed_cons.1 h)
        fun hl => hseam (List.mem_getLast?_cons (List.mem_getLast?_cons hl))
      rw [mark_join, ← hrest]
      simp only [List.cons_append, scan, if_pos hopen]
  | case6 c d after hopen ih =>
      have hrest := ih h fun hl => hseam (List.mem_getLast?_cons hl)
      rw [push_join, ← hrest]
      simp only [List.cons_append, scan, if_neg hopen]
  | case7 c ih =>
      have hbrace : ¬ (c = '{' ∧ ds.head? = some '{') := by
        rintro ⟨rfl, hd⟩
        exact hseam rfl hd
      rw [push_join, List.singleton_append, scan_text_cons hbrace]
      rfl
  | case8 c d after hopen ih =>
      have hrest := ih (closed_cons.1 h)
        fun hl => hseam (List.mem_getLast?_cons (List.mem_getLast?_cons hl))
      rw [mark_join, ← hrest]
      simp only [List.cons_append, scan, if_pos hopen]
  | case9 c d after hopen hclose ih =>
      have hrest := ih (closed_cons.1 h)
        fun hl => hseam (List.mem_getLast?_cons (List.mem_getLast?_cons hl))
      rw [mark_join, ← hrest]
      simp only [List.cons_append, scan, if_neg hopen, if_pos hclose]
  | case10 c d after hopen hclose ih =>
      have hrest := ih (h.change (by simp)) fun hl => hseam (List.mem_getLast?_cons hl)
      rw [push_join, ← hrest]
      simp only [List.cons_append, scan, if_neg hopen, if_neg hclose]
  | case4 | case11 =>
      -- The text would end inside of code.
      cases h

end Outline

/-- A text at the end and a text at the start of what follows are one text. -/
def joinBlocks : List Block → List Block → List Block
  | [], cs => cs
  | [.text s], .text t :: cs => .text (s ++ t) :: cs
  | b :: bs, cs => b :: joinBlocks bs cs

theorem joinBlocks_code (source : String) (tokens : List Block) (closed : Bool)
    (bs cs : List Block) :
    joinBlocks (.code source tokens closed :: bs) cs =
      .code source tokens closed :: joinBlocks bs cs := by
  rw [joinBlocks]
  exact nofun

theorem pushText_joinBlocks (text : List Char) (bs cs : List Block) :
    pushText text (joinBlocks bs cs) = joinBlocks (pushText text bs) cs := by
  by_cases htext : text = []
  · simp [pushText, htext]
  · cases bs with
    | nil =>
        cases cs with
        | nil => simp [pushText, htext, joinBlocks]
        | cons c cs => cases c <;> simp [pushText, htext, joinBlocks]
    | cons b bs =>
        cases b with
        | text s =>
            cases bs with
            | nil =>
                cases cs with
                | nil => simp [pushText, htext, joinBlocks]
                | cons c cs =>
                    cases c <;> simp [pushText, htext, joinBlocks, String.append_assoc]
            | cons b bs => simp [pushText, htext, joinBlocks]
        | _ => simp [pushText, htext, joinBlocks]

theorem blocksOf?_cons_cases (piece : Piece) :
    (∃ m, ∀ ps, blocksOf? (piece :: ps) = .error m) ∨
      (∃ cs, ∀ ps, blocksOf? (piece :: ps) = (blocksOf? ps).map (pushText cs)) ∨
      ∃ source tokens closed, ∀ ps,
        blocksOf? (piece :: ps) = (blocksOf? ps).map (.code source tokens closed :: ·) := by
  cases piece with
  | text cs => exact .inr (.inl ⟨cs, fun ps => rfl⟩)
  | code inner closed =>
      by_cases hblank : closed = true ∧ Text.trimList inner = []
      · refine .inr (.inl ⟨Piece.chars (.code inner closed), fun ps => ?_⟩)
        rw [blocksOf?, if_pos hblank]
      · cases htokens : tokens? (String.ofList inner) with
        | error m =>
            refine .inl ⟨m, fun ps => ?_⟩
            rw [blocksOf?, if_neg hblank, Block.codeOfText?, htokens]
            rfl
        | ok tokens =>
            refine .inr (.inr ⟨Text.trim (String.ofList inner), tokens, closed, fun ps => ?_⟩)
            rw [blocksOf?, if_neg hblank, Block.codeOfText?, htokens]
            change Except.bind (blocksOf? ps) _ = _
            cases blocksOf? ps <;> rfl

/-- Blocks of further pieces come behind those of the first ones. -/
def Continues (ps ps' : List Piece) (cs : List Block) : Prop :=
  ∀ bs, blocksOf? ps = .ok bs → blocksOf? ps' = .ok (joinBlocks bs cs)

theorem Continues.cons {ps ps' : List Piece} {cs : List Block} (h : Continues ps ps' cs)
    (piece : Piece) : Continues (piece :: ps) (piece :: ps') cs := by
  intro bs hbs
  rcases blocksOf?_cons_cases piece with ⟨m, hm⟩ | ⟨text, ht⟩ | ⟨source, tokens, closed, hc⟩
  · rw [hm] at hbs
    cases hbs
  · rw [ht] at hbs ⊢
    obtain ⟨bs₀, hbs₀, rfl⟩ := exists_of_map_eq_ok hbs
    rw [h bs₀ hbs₀, Except.map, pushText_joinBlocks]
  · rw [hc] at hbs ⊢
    obtain ⟨bs₀, hbs₀, rfl⟩ := exists_of_map_eq_ok hbs
    rw [h bs₀ hbs₀, Except.map, joinBlocks_code]

open Outline in
theorem continues_joinFrom {before : List Char} {ms : List (Mark × List Char)} {o : Outline}
    {cs : List Block} (h : Closed .text ms)
    (ho : blocksOf? (Piece.ofMarks o.before o.after) = .ok cs) :
    Continues (Piece.ofMarks before ms)
      (Piece.ofMarks (joinFrom before ms o).before (joinFrom before ms o).after) cs := by
  fun_induction Piece.ofMarks before ms with
  | case1 before =>
      rintro bs ⟨⟩
      rw [joinFrom, prepend, blocksOf?_ofMarks_append, ho, Except.map, ← pushText_joinBlocks]
      rfl
  | case2 before inner => cases h
  | case3 before inner run rest ih =>
      simp only [joinFrom, prepend, mark, List.append_nil, Piece.ofMarks]
      exact ((ih (closed_cons.1 (closed_cons.1 h))).cons _).cons _
  | case4 before inner run rest ih =>
      have hjoin := ih ((closed_cons.1 h).change (by simp))
      simp only [joinFrom, prepend, mark, List.append_nil, Piece.ofMarks] at hjoin ⊢
      exact hjoin
  | case5 before run rest ih =>
      have hrun : joinFrom (before ++ '}' :: '}' :: run) rest o =
          prepend (before ++ ['}', '}']) (joinFrom run rest o) := by
        rw [← joinFrom_append, List.append_assoc]
        rfl
      have hjoin := ih (closed_cons.1 h)
      simp only [hrun, prepend, List.append_assoc, List.cons_append, List.nil_append] at hjoin
      simp only [joinFrom, prepend, mark, List.append_nil, Piece.ofMarks]
      exact hjoin

def Faultless (bs : List Block) : Prop :=
  ∀ b ∈ bs, b.fault? = none

theorem check_eq_ok_iff (bs : List Block) : check bs = .ok () ↔ Faultless bs := by
  induction bs with
  | nil => simp [check, Faultless]
  | cons b bs ih =>
      rw [check, Faultless, List.forall_mem_cons, ← Faultless, ← ih]
      cases b.fault? with
      | none => simp
      | some fault => simp

theorem extract_eq_ok_iff {template : String} {bs : List Block} :
    extract template true = .ok bs ↔ blocks? template = .ok bs ∧ Faultless bs := by
  have hextract : extract template true =
      ((blocks? template).mapError .malformed).bind fun bs => (check bs).map fun _ => bs := by
    rw [extract]
    change Except.bind _ _ = _
    congr 1
  rw [hextract]
  cases blocks? template with
  | error m => simp [Except.mapError, Except.bind]
  | ok found =>
      rw [Except.mapError, Except.bind]
      constructor
      · intro h
        obtain ⟨_, hcheck, rfl⟩ := exists_of_map_eq_ok h
        exact ⟨rfl, (check_eq_ok_iff found).1 hcheck⟩
      · rintro ⟨⟨⟩, hfaultless⟩
        rw [(check_eq_ok_iff bs).2 hfaultless]
        rfl

theorem faultless_of_pushText {cs : List Char} {bs : List Block} (h : Faultless (pushText cs bs)) :
    Faultless bs := by
  unfold pushText at h
  split at h
  · exact h
  · split at h
    · exact List.forall_mem_cons.2 ⟨rfl, (List.forall_mem_cons.1 h).2⟩
    · exact (List.forall_mem_cons.1 h).2

theorem faultless_joinBlocks {bs cs : List Block} (hbs : Faultless bs) (hcs : Faultless cs) :
    Faultless (joinBlocks bs cs) := by
  fun_induction joinBlocks bs cs with
  | case1 cs => exact hcs
  | case2 s t cs => exact List.forall_mem_cons.2 ⟨rfl, (List.forall_mem_cons.1 hcs).2⟩
  | case3 b bs cs hne ih =>
      obtain ⟨hb, hrest⟩ := List.forall_mem_cons.1 hbs
      exact List.forall_mem_cons.2 ⟨hb, ih hrest hcs⟩

theorem exists_faultless_of_cons {piece : Piece} {ps : List Piece} {bs : List Block}
    (h : blocksOf? (piece :: ps) = .ok bs) (hbs : Faultless bs) :
    ∃ rest, blocksOf? ps = .ok rest ∧ Faultless rest := by
  rcases blocksOf?_cons_cases piece with ⟨m, hm⟩ | ⟨text, ht⟩ | ⟨source, tokens, closed, hc⟩
  · rw [hm] at h
    cases h
  · rw [ht] at h
    obtain ⟨rest, hrest, rfl⟩ := exists_of_map_eq_ok h
    exact ⟨rest, hrest, faultless_of_pushText hbs⟩
  · rw [hc] at h
    obtain ⟨rest, hrest, rfl⟩ := exists_of_map_eq_ok h
    exact ⟨rest, hrest, (List.forall_mem_cons.1 hbs).2⟩

theorem not_faultless_of_open {inner : List Char} {bs : List Block}
    (h : blocksOf? [.code inner false] = .ok bs) : ¬ Faultless bs := by
  rw [blocksOf?, if_neg (fun hc => Bool.noConfusion hc.1), Block.codeOfText?] at h
  cases htokens : tokens? (String.ofList inner) with
  | error m =>
      rw [htokens] at h
      cases h
  | ok tokens =>
      rw [htokens] at h
      cases h
      intro hbs
      have hfault := hbs _ (List.mem_singleton_self _)
      simp [Block.fault?] at hfault

/-- Blocks without a fault come from a text that does not end inside of code. -/
theorem closed_of_faultless {before : List Char} {ms : List (Mark × List Char)} {bs : List Block}
    (h : blocksOf? (Piece.ofMarks before ms) = .ok bs) (hbs : Faultless bs) :
    Outline.Closed .text ms := by
  fun_induction Piece.ofMarks before ms generalizing bs with
  | case1 before => rfl
  | case2 before inner =>
      obtain ⟨rest, hrest, hfaultless⟩ := exists_faultless_of_cons h hbs
      exact absurd hfaultless (not_faultless_of_open hrest)
  | case3 before inner run rest ih =>
      obtain ⟨bs₁, h₁, hbs₁⟩ := exists_faultless_of_cons h hbs
      obtain ⟨bs₂, h₂, hbs₂⟩ := exists_faultless_of_cons h₁ hbs₁
      exact Outline.closed_cons.2 (Outline.closed_cons.2 (ih h₂ hbs₂))
  | case4 before inner run rest ih =>
      exact Outline.closed_cons.2 (Outline.closed_cons.2 (Outline.closed_cons.1 (ih h hbs)))
  | case5 before run rest ih => exact Outline.closed_cons.2 (ih h hbs)

theorem blocks?_append {t₁ t₂ : String} {bs cs : List Block} (h₁ : blocks? t₁ = .ok bs)
    (hbs : Faultless bs) (h₂ : blocks? t₂ = .ok cs)
    (hseam : ¬ (t₁.toList.getLast? = some '{' ∧ t₂.toList.head? = some '{')) :
    blocks? (t₁ ++ t₂) = .ok (joinBlocks bs cs) := by
  have hclosed := closed_of_faultless h₁ hbs
  have hscan := Outline.scan_append hclosed fun hl hh => hseam ⟨hl, hh⟩
  rw [blocks?, Piece.ofTemplate, String.toList_append, hscan]
  exact continues_joinFrom hclosed h₂ bs h₁

theorem extract_append {t₁ t₂ : String} {bs cs : List Block} (h₁ : extract t₁ true = .ok bs)
    (h₂ : extract t₂ true = .ok cs)
    (hseam : ¬ (t₁.toList.getLast? = some '{' ∧ t₂.toList.head? = some '{')) :
    extract (t₁ ++ t₂) true = .ok (joinBlocks bs cs) := by
  obtain ⟨hread₁, hbs⟩ := extract_eq_ok_iff.1 h₁
  obtain ⟨hread₂, hcs⟩ := extract_eq_ok_iff.1 h₂
  exact extract_eq_ok_iff.2
    ⟨blocks?_append hread₁ hbs hread₂ hseam, faultless_joinBlocks hbs hcs⟩

section Rendering

variable {σ F : Type} [Described F]

theorem render_of_extract {invoke : Invoke σ F} {c : Context F} {template : String}
    {bs : List Block} (h : extract template true = .ok bs) :
    render invoke c template = renderBlocks invoke c bs := by
  rw [render, h]
  rfl

end Rendering

def twice : Invoke Nat (Function Unit) := fun _ c _ => do
  let calls ← get
  set (calls + 1)
  if calls < 2 then pure (c.withVariables (c.vars.setInput (if calls = 0 then "one" else "two")))
  else throw (.internal "third call")

def twiceContext : Context (Function Unit) :=
  ⟨.empty, Registry.empty.register (.ofText "t" "next" "" [] pure), defaultLocale⟩

def nextBlock : Block :=
  .code "t.next" [.function ⟨some "t", "next"⟩] true

theorem codeOfText?_next :
    Block.codeOfText? (String.ofList "t.next".toList) true = .ok nextBlock :=
  codeOfText?_word 't' ".next".toList rfl (by decide) rfl rfl true

theorem blocksOf?_next (rest : List Piece) :
    blocksOf? (.code "t.next".toList true :: rest) = (blocksOf? rest).map (nextBlock :: ·) := by
  rw [blocksOf?, if_neg (by decide), codeOfText?_next]
  rfl

end Orchestra.Template
