import Orchestra.Proofs.Distinct
import Orchestra.Proofs.Prompt.Dependence
import Orchestra.Proofs.Template.Mentions

namespace Orchestra

open Template Text

namespace Prompt

theorem blocksVariables_of_tokens {ts : List Block} (h : ∀ t ∈ ts, t.token?.isSome) :
    blocksVariables ts = mentions ts := by
  have htoken {t : Block} (ht : t.token?.isSome) : blockVariables t = t.mention?.toList := by
    match t with
    | .text _ | .code .. => cases ht
    | .literal _ | .variable _ | .function _ | .argument ⟨_, .literal _⟩
    | .argument ⟨_, .variable _⟩ => rfl
  induction ts with
  | nil => rfl
  | cons t ts ih =>
      obtain ⟨ht, hts⟩ := List.forall_mem_cons.1 h
      rw [blocksVariables, htoken ht, ih hts, mentions, mentions, List.filterMap_cons]
      cases t.mention? <;> rfl

theorem blocksVariables_of_covers {bs : List Block} {cs : List Char} (h : Covers bs cs) :
    blocksVariables bs = mentioned bs := by
  have hcons {source : String} {tokens bs : List Block} {closed : Bool}
      (htokens : blocksVariables tokens = mentions tokens)
      (hbs : blocksVariables bs = mentioned bs) :
      blocksVariables (.code source tokens closed :: bs) =
        mentioned (.code source tokens closed :: bs) := by
    rw [blocksVariables, blockVariables, htokens, hbs, mentioned, mentions, mentions, mentioned,
      mentions, ← List.filterMap_append]
    rfl
  induction h with
  | nil => rfl
  | text hne hapart h ih => exact ih
  | code hne htokens h ih =>
      exact hcons (blocksVariables_of_tokens (isSome_of_tokens? htokens)) ih
  | cut htokens => exact hcons (blocksVariables_of_tokens (isSome_of_tokens? htokens)) rfl

theorem firstOfEach_congr {seen seen' : List String} (h : ∀ key, key ∈ seen ↔ key ∈ seen')
    (ps : List Parameter) : firstOfEach seen ps = firstOfEach seen' ps := by
  induction ps generalizing seen seen' with
  | nil => rfl
  | cons p ps ih =>
      have hcons (key : String) :
          key ∈ lowercase p.name :: seen ↔ key ∈ lowercase p.name :: seen' := by
        rw [List.mem_cons, List.mem_cons, h]
      simp only [firstOfEach, h, ih h, ih hcons]

theorem firstOfEach_append (seen : List String) (ps qs : List Parameter) :
    firstOfEach seen (ps ++ qs) =
      firstOfEach seen ps ++ firstOfEach (ps.map (lowercase ·.name) ++ seen) qs := by
  induction ps generalizing seen with
  | nil => rfl
  | cons p ps ih =>
      simp only [List.cons_append, firstOfEach, List.map_cons]
      split
      · rename_i hp
        rw [ih]
        congr 1
        refine firstOfEach_congr (fun key => ?_) qs
        simp only [List.mem_cons, List.mem_append]
        exact ⟨.inr, fun h => h.elim (fun he => .inr (he ▸ hp)) id⟩
      · rw [ih, List.cons_append]
        congr 2
        refine firstOfEach_congr (fun key => ?_) qs
        simp only [List.mem_cons, List.mem_append]
        exact or_left_comm

theorem firstOfEach_filter (seen seen' : List String) (ps : List Parameter) :
    firstOfEach (seen ++ seen') ps = firstOfEach seen' (ps.filter fun p => lowercase p.name ∉ seen) := by
  induction ps generalizing seen' with
  | nil => rfl
  | cons p ps ih =>
      by_cases hp : lowercase p.name ∈ seen
      · rw [firstOfEach, if_pos (List.mem_append_left seen' hp), ih,
          List.filter_cons_of_neg (by simpa using hp)]
      · have hmove (key : String) :
            key ∈ lowercase p.name :: (seen ++ seen') ↔ key ∈ seen ++ lowercase p.name :: seen' := by
          simp only [List.mem_cons, List.mem_append]
          exact or_left_comm
        rw [List.filter_cons_of_pos (by simpa using hp), firstOfEach, firstOfEach]
        simp only [List.mem_append, hp, false_or, ih, firstOfEach_congr hmove]

theorem keepsFirst_firstOfEach (ps : List Parameter) :
    KeepsFirst (lowercase ·.name) ps (firstOfEach [] ps) := by
  induction ps using List.reverseRecOn with
  | nil => exact .nil
  | append_singleton ps p ih =>
      have hlast : firstOfEach (ps.map (lowercase ·.name) ++ []) [p] =
          if lowercase p.name ∈ ps.map (lowercase ·.name) then [] else [p] := by
        rw [List.append_nil, firstOfEach]
        rfl
      rw [firstOfEach_append, hlast]
      exact ih.concat p

theorem declared_eq (configured : List Parameter) {bs : List Block} {cs : List Char}
    (h : Covers bs cs) (hbs : Faultless bs) :
    declared configured bs = firstOfEach [] configured ++ firstOfEach []
      (((mentioned bs).filter fun n => ∀ q ∈ configured, lowercase q.name ≠ lowercase n).map
        fun n => { name := n, description := "", default := "" }) := by
  have hnames : (mentioned bs).filter (· ≠ "") = mentioned bs := by
    refine List.filter_eq_self.2 fun n hn => ?_
    simpa using (name_of_mem_mentioned hbs hn).1
  rw [declared, blocksVariables_of_covers h, hnames, firstOfEach_append, firstOfEach_filter,
    List.filter_map]
  congr 3
  refine List.filter_congr fun n _ => ?_
  simp

variable {σ : Type}

/-- A template that validates makes a prompt, whose parameters are the configured ones and behind
them the variables that the code of the template reads, in the order in which they stand in its text.
Of parameters that differ in case alone the first is kept as it is. -/
theorem declared_complete {template : String} {bs : List Block} (h : extract template true = .ok bs)
    (plugin name : String) (config : PromptConfig) (complete : Completion σ) (limits : Limits) :
    ∃ p kept added, make? plugin name template config complete limits = .ok p ∧ p.blocks = bs ∧
      p.signature.parameters = kept ++ added ∧
      (p.signature.parameters.Pairwise fun q r => lowercase q.name ≠ lowercase r.name) ∧
      KeepsFirst (lowercase ·.name) config.parameters kept ∧
      KeepsFirst (lowercase ·.name)
        (((mentioned bs).filter fun n => ∀ q ∈ config.parameters, lowercase q.name ≠ lowercase n).map
          fun n => { name := n, description := "", default := "" }) added ∧
      (∀ n, n ∈ mentioned bs ↔ ∃ source tokens closed, .code source tokens closed ∈ bs ∧
        (.variable ⟨n⟩ ∈ tokens ∨ ∃ label, .argument ⟨label, .variable ⟨n⟩⟩ ∈ tokens)) ∧
      InOrder ((mentioned bs).map reference) template.toList := by
  obtain ⟨hread, hfaultless⟩ := extract_eq_ok_iff.1 h
  have hcovers := covers_of_blocks? hread
  obtain ⟨p, hmake⟩ : ∃ p, make? plugin name template config complete limits = .ok p := by
    rw [make?, h]
    exact ⟨_, rfl⟩
  obtain ⟨hblocks, hparameters⟩ := make?_eq_ok hmake
  obtain rfl : bs = p.blocks := Except.ok.inj (h.symm.trans hblocks)
  have hsplit := hparameters.trans (declared_eq config.parameters hcovers hfaultless)
  refine ⟨p, _, _, hmake, rfl, hsplit, ?_, keepsFirst_firstOfEach _, keepsFirst_firstOfEach _,
    fun n => mem_mentioned_iff, hcovers.inOrder hfaultless⟩
  rw [hparameters]
  exact (keepsFirst_firstOfEach _).keysDistinct

def voiced : String :=
  "\x7b\x7bf $tone v=$Voice\x7d\x7d\x7b\x7b$TONE\x7d\x7d"

def voicedConfig : PromptConfig :=
  { parameters := [{ name := "VOICE", default := "low" }, { name := "voice" }] }

def silent : Completion Nat :=
  fun _ _ => pure ""

theorem code_voiced_call : Grammar.Code "f $tone v=$Voice".toList
    [.function none "f", .operand (.reference "tone"), .argument "v" (.reference "Voice")] := by
  have hname (n : String) (h : isName n = true) : Grammar.Name n := (Grammar.name_iff n).1 h
  have hf : Grammar.Function "f".toList (.function none "f") := .bare (hname "f" (by decide))
  have hv : Grammar.First "$tone".toList (.operand (.reference "tone")) :=
    .operand (.reference (hname "tone" (by decide)))
  have ha : Grammar.Named "v=$Voice".toList (.argument "v" (.reference "Voice")) :=
    .mk (hname "v" (by decide)) (.reference (hname "Voice" (by decide)))
  have hs : Grammar.Blanks " ".toList := ⟨by decide, by simp [Grammar.BlankChar]⟩
  exact .callWith hf hs hv (.cons hs ha .nil)

theorem code_voiced_variable :
    Grammar.Code "$TONE".toList [.operand (.reference "TONE")] := by
  have hname : Grammar.Name "TONE" := (Grammar.name_iff "TONE").1 (by decide)
  exact .operand (.reference hname)

theorem extract_voiced :
    ∃ bs, extract voiced true = .ok bs ∧ mentioned bs = ["tone", "Voice", "TONE"] := by
  have htrim : trimList (String.ofList "f $tone v=$Voice".toList).toList =
      "f $tone v=$Voice".toList := by decide
  have htrim' : trimList (String.ofList "$TONE".toList).toList = "$TONE".toList := by decide
  obtain ⟨tokens, hread, hfault, htokens⟩ := codeOfText?_of_code (htrim ▸ code_voiced_call)
  obtain ⟨tokens', hread', hfault', htokens'⟩ :=
    codeOfText?_of_code (htrim' ▸ code_voiced_variable)
  generalize trim (String.ofList "f $tone v=$Voice".toList) = source at hread hfault
  generalize trim (String.ofList "$TONE".toList) = source' at hread' hfault'
  have hpieces : Piece.ofTemplate voiced =
      [.text [], .code "f $tone v=$Voice".toList true, .text [], .code "$TONE".toList true,
        .text []] := rfl
  have hblocks : blocks? voiced = .ok [.code source tokens true, .code source' tokens' true] := by
    rw [blocks?, hpieces, blocksOf?, blocksOf?, if_neg (by decide), hread, blocksOf?, blocksOf?,
      if_neg (by decide), hread']
    rfl
  refine ⟨_, extract_eq_ok_iff.2 ⟨hblocks, ?_⟩, ?_⟩
  · exact List.forall_mem_cons.2 ⟨hfault, List.forall_mem_singleton.2 hfault'⟩
  · have happend : mentioned [.code source tokens true, .code source' tokens' true] =
        mentions tokens ++ mentions tokens' := by
      simp [mentioned, mentions, Block.inside]
    rw [happend, mentions_of_tokens htokens, mentions_of_tokens htokens']
    rfl

theorem declared_complete_voiced :
    ∃ bs p, extract voiced true = .ok bs ∧
      make? "voice" "say" voiced voicedConfig silent {} = .ok p ∧
      p.signature.parameters =
        [{ name := "VOICE", default := "low" }, { name := "tone", description := "", default := "" }] ∧
      InOrder ["$tone".toList, "$Voice".toList, "$TONE".toList] voiced.toList := by
  obtain ⟨bs, hextract, hmentioned⟩ := extract_voiced
  obtain ⟨p, kept, added, hmake, -, hparameters, -, hkept, hadded, -, horder⟩ :=
    declared_complete hextract "voice" "say" voicedConfig silent {}
  rw [hmentioned] at hadded horder
  refine ⟨bs, p, hextract, hmake, ?_, horder⟩
  rw [hparameters, hkept.unique (keepsFirst_firstOfEach _),
    hadded.unique (keepsFirst_firstOfEach _)]
  decide +kernel

end Prompt

end Orchestra
