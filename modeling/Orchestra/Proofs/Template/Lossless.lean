import Orchestra.Proofs.Template.Concatenation
import Orchestra.Proofs.Template.Slices

namespace Orchestra.Template

open Text Grammar

/-- Blocks and the characters they were read from. No text is empty or stands before a text, and
code without its closing braces comes last. -/
inductive Covers : List Block → List Char → Prop
  | nil : Covers [] []
  | text {s : String} {bs : List Block} {cs : List Char} (hne : s ≠ "")
      (hapart : ∀ t, bs.head? ≠ some (.text t)) (h : Covers bs cs) :
      Covers (.text s :: bs) (s.toList ++ cs)
  | code {inner cs : List Char} {tokens bs : List Block} (hne : trimList inner ≠ [])
      (htokens : tokens? (String.ofList inner) = .ok tokens) (h : Covers bs cs) :
      Covers (.code (trim (String.ofList inner)) tokens true :: bs)
        (Mark.opening.chars ++ inner ++ Mark.closing.chars ++ cs)
  | cut {inner : List Char} {tokens : List Block}
      (htokens : tokens? (String.ofList inner) = .ok tokens) :
      Covers [.code (trim (String.ofList inner)) tokens false] (Mark.opening.chars ++ inner)

theorem Covers.cons_text {bs : List Block} {text cs : List Char} (h : Covers bs cs)
    (hne : text ≠ []) (hapart : ∀ t, bs.head? ≠ some (.text t)) :
    Covers (.text (String.ofList text) :: bs) (text ++ cs) := by
  have hcover := Covers.text (s := String.ofList text) (by simpa using hne) hapart h
  rwa [String.toList_ofList] at hcover

theorem Covers.pushText {bs : List Block} {cs : List Char} (h : Covers bs cs) (text : List Char) :
    Covers (pushText text bs) (text ++ cs) := by
  unfold Template.pushText
  split
  · rename_i hempty
    rwa [hempty]
  · rename_i hne
    split
    · rename_i s bs
      cases h with
      | text hs hapart h =>
          rw [← List.append_assoc, ← String.toList_ofList (l := text), ← String.toList_append,
            String.ofList_toList]
          exact .text (by simp [hne]) hapart h
    · rename_i hhead
      refine h.cons_text hne fun t ht => ?_
      obtain ⟨rest, hrest⟩ := List.head?_eq_some_iff.1 ht
      exact hhead t rest hrest

def Covered (ps : List Piece) : Prop :=
  ∀ bs, blocksOf? ps = .ok bs → Covers bs (ps.flatMap Piece.chars)

theorem Covered.nil : Covered [] := by
  rintro bs ⟨⟩
  exact .nil

theorem Covered.text {ps : List Piece} (h : Covered ps) (cs : List Char) :
    Covered (.text cs :: ps) := by
  intro bs hbs
  rw [blocksOf?] at hbs
  obtain ⟨rest, hrest, rfl⟩ := exists_of_map_eq_ok hbs
  exact (h rest hrest).pushText cs

theorem Covered.code {ps : List Piece} (h : Covered ps) (inner : List Char) :
    Covered (.code inner true :: ps) := by
  intro bs hbs
  rw [blocksOf?] at hbs
  split at hbs
  · obtain ⟨rest, hrest, rfl⟩ := exists_of_map_eq_ok hbs
    exact (h rest hrest).pushText _
  · rename_i hblank
    cases htokens : tokens? (String.ofList inner) with
    | error m =>
        rw [Block.codeOfText?, htokens] at hbs
        cases hbs
    | ok tokens =>
        rw [Block.codeOfText?, htokens] at hbs
        obtain ⟨rest, hrest, rfl⟩ := exists_of_map_eq_ok hbs
        exact .code (fun h => hblank ⟨rfl, h⟩) htokens (h rest hrest)

theorem Covered.cut (inner : List Char) : Covered [.code inner false] := by
  intro bs hbs
  cases htokens : tokens? (String.ofList inner) with
  | error m =>
      rw [blocksOf?, if_neg (by simp), Block.codeOfText?, htokens] at hbs
      cases hbs
  | ok tokens =>
      rw [blocksOf?, if_neg (by simp), Block.codeOfText?, htokens] at hbs
      cases hbs
      rw [List.flatMap_singleton]
      exact .cut htokens

theorem covered_ofMarks (before : List Char) (ms : List (Mark × List Char)) :
    Covered (Piece.ofMarks before ms) := by
  fun_induction Piece.ofMarks before ms with
  | case1 before => exact Covered.nil.text before
  | case2 before inner => exact (Covered.cut inner).text before
  | case3 before inner run rest ih => exact (ih.code inner).text before
  | case4 before inner run rest ih => exact ih
  | case5 before run rest ih => exact ih

theorem isSome_of_taken {w : List Char} {b : Block} (h : Taken w b) : b.token?.isSome := by
  cases h <;> rfl

theorem isSome_of_tokensFrom {whole : String} {first : Bool} {cs : List Char} {bs : List Block}
    (h : tokensFrom whole first cs = .ok bs) : ∀ b ∈ bs, b.token?.isSome := by
  fun_induction tokensFrom whole first cs generalizing bs with
  | case1 =>
      cases h
      exact List.forall_mem_nil _
  | case2 => cases h
  | case3 first cs c rest hd b ht =>
      cases h
      obtain ⟨w, -, htaken⟩ := taken_of_token? ht
      exact List.forall_mem_singleton.2 (isSome_of_taken htaken)
  | case4 first cs c rest hd b d after ht hblank ih =>
      obtain ⟨bs, hbs, rfl⟩ := exists_of_map_eq_ok h
      obtain ⟨w, -, htaken⟩ := taken_of_token? ht
      exact List.forall_mem_cons.2 ⟨isSome_of_taken htaken, ih hbs⟩
  | case5 => cases h

theorem isSome_of_tokens? {s : String} {bs : List Block} (h : tokens? s = .ok bs) :
    ∀ b ∈ bs, b.token?.isSome := by
  rcases tokens?_eq s with ⟨c, -, -, hlone⟩ | ⟨-, hfrom⟩
  · rw [h] at hlone
    cases hlone
    exact List.forall_mem_singleton.2 rfl
  · exact isSome_of_tokensFrom (hfrom.symm.trans h)

theorem fault?_ne_unclosed {b : Block} (h : b.token?.isSome) : b.fault? ≠ some .unclosed := by
  match b with
  | .text _ | .code .. => cases h
  | .literal l =>
      unfold Block.fault? Literal.fault?
      grind
  | .variable v =>
      unfold Block.fault? Variable.fault?
      grind
  | .function f =>
      unfold Block.fault? FunctionId.fault?
      grind
  | .argument a =>
      unfold Block.fault? Argument.fault?
      split <;> simp

theorem tokenFault?_ne_unclosed {bs : List Block} (h : ∀ b ∈ bs, b.token?.isSome) :
    tokenFault? bs ≠ some .unclosed := by
  induction bs with
  | nil => exact nofun
  | cons b bs ih =>
      obtain ⟨hb, hbs⟩ := List.forall_mem_cons.1 h
      intro hfault
      rw [tokenFault?, Option.or_eq_some_iff] at hfault
      rcases hfault with hfault | ⟨-, hfault⟩
      · exact fault?_ne_unclosed hb hfault
      · exact ih hbs hfault

theorem shapeFault?_ne_unclosed (bs : List Block) : shapeFault? bs ≠ some .unclosed := by
  unfold shapeFault?
  split
  · simp
  · simp
  · simp
  · split <;> simp
  · simp

theorem Covers.fault?_eq_unclosed_iff {bs : List Block} {cs : List Char} (h : Covers bs cs) :
    ∀ b ∈ bs, b.fault? = some .unclosed ↔ ∃ source tokens, b = .code source tokens false := by
  induction h with
  | nil => exact List.forall_mem_nil _
  | text hne hapart h ih => exact List.forall_mem_cons.2 ⟨by simp [Block.fault?], ih⟩
  | @code inner cs tokens bs hne htokens h ih =>
      refine List.forall_mem_cons.2 ⟨?_, ih⟩
      have hfault : (Block.code (trim (String.ofList inner)) tokens true).fault? ≠
          some .unclosed := by
        rw [Block.fault?, if_pos rfl]
        split
        · simp
        · intro hfault
          rcases Option.or_eq_some_iff.1 hfault with hfault | ⟨-, hfault⟩
          · exact tokenFault?_ne_unclosed (isSome_of_tokens? htokens) hfault
          · exact shapeFault?_ne_unclosed tokens hfault
      simp [hfault]
  | cut htokens => exact List.forall_mem_singleton.2 (by simp [Block.fault?])

section Rendering

variable {σ F : Type} [Described F]

theorem renderBlocks_text {bs : List Block} {cs : List Char} (h : Covers bs cs)
    (htext : ∀ b ∈ bs, ∃ s, b = .text s) (invoke : Invoke σ F) (c : Context F) :
    renderBlocks invoke c bs = pure (String.ofList cs) := by
  induction h with
  | nil => rfl
  | text hne hapart h ih =>
      rw [renderBlocks, ih (List.forall_mem_cons.1 htext).2, renderBlock_text, pure_bind, pure_bind]
      simp
  | code | cut =>
      obtain ⟨s, hs⟩ := (List.forall_mem_cons.1 htext).1
      cases hs

theorem faultless_of_text {bs : List Block} (htext : ∀ b ∈ bs, ∃ s, b = .text s) :
    Faultless bs := by
  intro b hb
  obtain ⟨s, rfl⟩ := htext b hb
  rfl

/-- Every slice of the one pass over a template is in bounds and between characters, and the pieces
that it cuts are those that the blocks are read from. The blocks that are read are the whole
template, in order; only code at the end can lack its braces, and that is its fault. Where there is
nothing but text, the template is what is rendered. -/
theorem blocks?_lossless (template : String) :
    sweep? template 0 none none (offsets 0 template.toList) =
        some ((Piece.ofTemplate template).map Piece.cut) ∧
      ∀ bs, blocks? template = .ok bs →
        Covers bs template.toList ∧
          (∀ b ∈ bs, b.fault? = some .unclosed ↔
            ∃ source tokens, b = .code source tokens false) ∧
          ((∀ b ∈ bs, ∃ s, b = .text s) →
            ∀ (invoke : Invoke σ F) (c : Context F) (w : σ),
              Run.exec (render invoke c template) w = (.ok template, w)) := by
  refine ⟨sweep?_eq template, fun bs hbs => ?_⟩
  have hcovers : Covers bs template.toList := by
    rw [← Piece.chars_ofTemplate template]
    exact covered_ofMarks _ _ bs hbs
  refine ⟨hcovers, hcovers.fault?_eq_unclosed_iff, fun htext invoke c w => ?_⟩
  have hextract := extract_eq_ok_iff.2 ⟨hbs, faultless_of_text htext⟩
  rw [render_of_extract hextract, renderBlocks_text hcovers htext, String.ofList_toList]
  rfl

end Rendering

def opened : String :=
  "é{{ }}\x7b\x7ba \x7b\x7b$x \x7d\x7dü\x7b\x7bf"

def cutOff : List Block :=
  [.text "é{{ }}\x7b\x7ba ", .code "$x" [.variable ⟨"x"⟩] true, .text "ü",
    .code "f" [.function ⟨none, "f"⟩] false]

theorem blocks?_opened : blocks? opened = .ok cutOff := by
  have hpieces : Piece.ofTemplate opened =
      [.text ['é'], .code [' '] true, .text "\x7b\x7ba ".toList, .code "$x ".toList true,
        .text ['ü'], .code ['f'] false] := by
    decide +kernel
  have hvariable : Block.codeOfText? (String.ofList "$x ".toList) true =
      .ok (.code "$x" [.variable ⟨"x"⟩] true) := by
    rw [String.ofList_toList, Block.codeOfText?, tokens?]
    change Except.map _ (tokensFrom "$x" true "$x".toList) = _
    rw [tokensFrom]
    rfl
  have hfunction : Block.codeOfText? (String.ofList ['f']) false =
      .ok (.code "f" [.function ⟨none, "f"⟩] false) :=
    codeOfText?_word 'f' [] rfl (by decide) rfl rfl false
  rw [blocks?, hpieces, blocksOf?, blocksOf?, if_pos ⟨rfl, by decide⟩, blocksOf?, blocksOf?,
    if_neg (by decide), hvariable, blocksOf?, blocksOf?, if_neg (by decide), hfunction]
  rfl

theorem blocks?_blank : blocks? "é {{ }}" = .ok [.text "é {{ }}"] := by
  have hpieces : Piece.ofTemplate "é {{ }}" = [.text "é ".toList, .code [' '] true, .text []] := by
    decide +kernel
  rw [blocks?, hpieces, blocksOf?, blocksOf?, if_pos ⟨rfl, by decide⟩]
  rfl

theorem blocks?_lossless_opened :
    blocks? opened = .ok cutOff ∧ Covers cutOff opened.toList ∧
      (Block.code "f" [.function ⟨none, "f"⟩] false).fault? = some .unclosed ∧
      blocks? "é {{ }}" = .ok [.text "é {{ }}"] ∧
      Run.exec (render twice twiceContext "é {{ }}") 0 = (.ok "é {{ }}", 0) := by
  obtain ⟨hcovers, hfault, -⟩ :=
    (blocks?_lossless (σ := Nat) (F := Function Unit) opened).2 cutOff blocks?_opened
  obtain ⟨-, -, hrender⟩ :=
    (blocks?_lossless (σ := Nat) (F := Function Unit) "é {{ }}").2 _ blocks?_blank
  refine ⟨blocks?_opened, hcovers, ?_, blocks?_blank, ?_⟩
  · exact (hfault _ (by simp [cutOff])).2 ⟨_, _, rfl⟩
  · exact hrender (List.forall_mem_singleton.2 ⟨_, rfl⟩) twice twiceContext 0

end Orchestra.Template
