import Orchestra.Proofs.Template.Arrangement

namespace Orchestra.Template

open Text Grammar

theorem tokensFrom_eq (whole : String) (first : Bool) (cs : List Char) :
    tokensFrom whole first cs =
      match cs.dropWhile isBlank with
      | [] => .ok []
      | c :: rest =>
          match token? whole first c rest with
          | .error e => .error e
          | .ok (b, []) => .ok [b]
          | .ok (b, d :: after) =>
              if isBlank d then (tokensFrom whole false after).map (b :: ·)
              else .error ⟨.unseparated, whole⟩ := by
  rw [tokensFrom]
  split
  · rename_i hc
    rw [hc]
  · rename_i hc
    rw [hc]
    dsimp only
    split
    · rename_i ht
      rw [ht]
    · rename_i ht
      rw [ht]
    · rename_i ht
      rw [ht]

theorem tokensFrom_blanks (whole : String) (first : Bool) {ws : List Char}
    (h : ∀ c ∈ ws, BlankChar c) (cs : List Char) :
    tokensFrom whole first (ws ++ cs) = tokensFrom whole first cs := by
  have hd : (ws ++ cs).dropWhile isBlank = cs.dropWhile isBlank :=
    List.dropWhile_append_of_pos fun c hc => (blankChar_iff c).2 (h c hc)
  rw [tokensFrom_eq, hd, ← tokensFrom_eq]

theorem readAs_item (whole : String) (first : Bool) {w : List Char} {t : Token} (h : Item w t)
    (hf : t.isFunction = true → first = true) : ReadAs whole first w t := by
  cases h with
  | operand h => exact readAs_term whole first h
  | function h =>
      obtain ⟨_, _, rfl⟩ := h.exists_eq
      obtain rfl := hf rfl
      exact readAs_function whole h
  | named h => exact readAs_named whole first h

/-- Tokens that stand for `ts`, without faults. -/
def Reads (bs : List Block) (ts : List Token) : Prop :=
  bs.map Block.token? = ts.map some ∧ tokenFault? bs = none

theorem Reads.cons {b : Block} {bs : List Block} {t : Token} {ts : List Token}
    (hb : b.Denotes t) (h : Reads bs ts) : Reads (b :: bs) (t :: ts) :=
  ⟨by simp [hb.1, h.1], by simp [tokenFault?, hb.2, h.2]⟩

theorem tokensFrom_of_items (whole : String) (first : Bool) {cs : List Char} {ts : List Token}
    (h : Items cs ts) (hhead : ∀ t ∈ ts.head?, t.isFunction = true → first = true)
    (htail : ∀ t ∈ ts.tail, t.isFunction = false) :
    ∃ bs, tokensFrom whole first cs = .ok bs ∧ Reads bs ts := by
  induction h generalizing first with
  | nil => exact ⟨[], tokensFrom_eq whole first [], rfl, rfl⟩
  | last hi =>
      obtain ⟨c, cs, rfl, hc, hread⟩ := readAs_item whole first hi (hhead _ rfl)
      obtain ⟨b, hb, hden⟩ := hread [] (by simp [Stop])
      rw [List.append_nil] at hb
      refine ⟨[b], ?_, .cons hden ⟨rfl, rfl⟩⟩
      rw [tokensFrom_eq, List.dropWhile_cons_of_neg (by simp [hc])]
      simp only [hb]
  | @cons w ws rest t ts hi hw hr hne ih =>
      obtain ⟨c, cs, rfl, hc, hread⟩ := readAs_item whole first hi (hhead _ rfl)
      obtain ⟨hws, hblank⟩ := hw
      obtain ⟨d, ws, rfl⟩ := List.exists_cons_of_ne_nil hws
      have hd := (blankChar_iff d).2 (hblank d (by simp))
      obtain ⟨b, hb, hden⟩ := hread (d :: ws ++ rest) (by simpa [Stop] using hd)
      have hnot : ∀ t ∈ ts.head?, t.isFunction = true → false = true := by
        intro t ht hfun
        rw [htail t (List.mem_of_mem_head? ht)] at hfun
        exact hfun
      obtain ⟨bs, hbs, hreads⟩ := ih false hnot fun t ht => htail t (List.mem_of_mem_tail ht)
      refine ⟨b :: bs, ?_, .cons hden hreads⟩
      have hskip := tokensFrom_blanks whole false
        (fun c hc => hblank c (List.mem_cons_of_mem d hc)) rest
      rw [List.cons_append, tokensFrom_eq, List.dropWhile_cons_of_neg (by simp [hc])]
      simp only [List.cons_append] at hb ⊢
      simp only [hb, hd, if_true, hskip, hbs]
      rfl

theorem Grammar.Items.ne_nil {cs : List Char} {ts : List Token} (h : Items cs ts) (hne : cs ≠ []) :
    ts ≠ [] := by
  rintro rfl
  cases h
  exact hne rfl

theorem items_of_tokensFrom {whole : String} {first : Bool} {cs : List Char} {bs : List Block}
    (h : tokensFrom whole first cs = .ok bs)
    (hw : ∀ c ∈ cs, isWhite c = true → isBlank c = true)
    (hl : ∀ c ∈ cs.getLast?, isBlank c = false) (hf : tokenFault? bs = none) :
    ∃ ts, bs.map Block.token? = ts.map some ∧ Items (cs.dropWhile isBlank) ts := by
  -- What is left behind a token ends in no blank either, so it is never a row of blanks.
  fun_induction tokensFrom whole first cs generalizing bs with
  | case1 first cs hd =>
      cases h
      exact ⟨[], rfl, hd ▸ .nil⟩
  | case2 => cases h
  | case3 first cs c rest hd b ht =>
      cases h
      have hfb : b.fault? = none := by simpa [tokenFault?] using hf
      obtain ⟨w, t, hsplit, hitem, htok⟩ := item_of_token? hd hw ht hfb
      rw [hsplit, List.append_nil]
      exact ⟨[t], by simp [htok], .last hitem⟩
  | case4 first cs c rest hd b d after ht hblank ih =>
      obtain ⟨bs, hbs, rfl⟩ := exists_of_map_eq_ok h
      obtain ⟨hfb, hfbs⟩ : b.fault? = none ∧ tokenFault? bs = none := by
        simpa [tokenFault?] using hf
      obtain ⟨w, t, hsplit, hitem, htok⟩ := item_of_token? hd hw ht hfb
      have hlast : ∀ x ∈ (d :: after).getLast?, isBlank x = false := by
        rwa [← getLast?_dropWhile hsplit (List.cons_ne_nil d after)]
      have hne := dropWhile_ne_nil hblank hlast
      have hafter : ∀ x ∈ after, isWhite x = true → isBlank x = true := by
        intro x hx
        apply hw x (mem_of_dropWhile hsplit x _)
        exact List.mem_append_right w (List.mem_cons_of_mem d hx)
      have hend : ∀ x ∈ after.getLast?, isBlank x = false := by
        intro x hx
        exact hlast x (List.mem_getLast?_cons hx)
      obtain ⟨ts, htoks, hitems⟩ := ih hbs hafter hend hfbs
      refine ⟨t :: ts, by simp [htok, htoks], ?_⟩
      have hrest : after = after.takeWhile isBlank ++ after.dropWhile isBlank :=
        List.takeWhile_append_dropWhile.symm
      rw [hsplit, hrest, ← List.cons_append]
      refine .cons hitem ⟨by simp, ?_⟩ (by simpa using hitems) (hitems.ne_nil hne)
      rintro x (_ | ⟨_, hx⟩)
      · exact (blankChar_iff d).1 hblank
      · exact (blankChar_iff x).1 (List.mem_takeWhile_imp hx)
  | case5 => cases h

theorem Grammar.BlankChar.isWhite {c : Char} (h : BlankChar c) : Text.isWhite c = true := by
  rcases h with rfl | rfl | rfl | rfl <;> decide

theorem not_blank_of_not_white {c : Char} (h : isWhite c = false) : isBlank c = false := by
  cases hb : isBlank c with
  | false => rfl
  | true => rw [((blankChar_iff c).1 hb).isWhite] at h; cases h

theorem Block.code_fault?_eq_none {source : String} {bs : List Block} :
    (Block.code source bs true).fault? = none ↔ tokenFault? bs = none ∧ shapeFault? bs = none := by
  cases bs with
  | nil => simp [Block.fault?, shapeFault?]
  | cons => simp [Block.fault?]

theorem tokensFrom_lone_quote {whole : String} {first : Bool} {c : Char} (hq : isQuote c = true)
    (bs : List Block) : tokensFrom whole first [c] ≠ .ok bs := by
  have hb := ((quote_iff c).1 hq).isBlank
  rw [tokensFrom_eq, List.dropWhile_cons_of_neg (by simp [hb])]
  simp [token?, hq, quoted]

theorem tokens?_eq (s : String) :
    (∃ c, isQuote c = true ∧ trimList s.toList = [c] ∧
      tokens? s = .ok [.literal ⟨String.ofList [c]⟩]) ∨
    (∀ c, trimList s.toList = [c] → isQuote c = false) ∧
      tokens? s = tokensFrom (String.ofList (trimList s.toList)) true (trimList s.toList) := by
  dsimp only [tokens?]
  split
  · rename_i c hc
    split
    · rename_i hq
      exact .inl ⟨c, hq, hc, by rw [hc]⟩
    · rename_i hq
      exact .inr ⟨by simp [hc, hq], rfl⟩
  · rename_i hne
    exact .inr ⟨fun c hc => absurd hc (hne c), rfl⟩

theorem codeOfText?_word (c : Char) (label : List Char) {f : FunctionId} (hq : isQuote c = false)
    (hd : c ≠ '$') (hl : (c :: label).all fun d => isLabelChar d && !isWhite d)
    (hf : FunctionId.ofText? (String.ofList (c :: label)) = .ok f) (closed : Bool) :
    Block.codeOfText? (String.ofList (c :: label)) closed =
      .ok (.code (String.ofList (c :: label)) [.function f] closed) := by
  simp only [List.all_eq_true, Bool.and_eq_true, Bool.not_eq_true'] at hl
  have hw : ∀ d ∈ c :: label, isWhite d = false := fun d hd => (hl d hd).2
  have hlabel : ∀ d ∈ label, isLabelChar d = true :=
    fun d hd => (hl d (List.mem_cons_of_mem c hd)).1
  have htrim : trimList (String.ofList (c :: label)).toList = c :: label := by
    rw [String.toList_ofList, trimList_of_not_white hw]
  have hblank : isBlank c = false := not_blank_of_not_white (hw c (List.mem_cons_self ..))
  have htoken : token? (String.ofList (c :: label)) true c (label ++ []) = _ :=
    token?_word _ true hq hd hlabel nofun
  rw [List.append_nil, if_pos rfl, hf] at htoken
  rcases tokens?_eq (String.ofList (c :: label)) with ⟨d, hquote, hlone, -⟩ | ⟨-, htokens⟩
  · rw [htrim] at hlone
    cases hlone
    rw [hq] at hquote
    cases hquote
  · rw [htrim, tokensFrom_eq, List.dropWhile_cons_of_neg (by simp [hblank])] at htokens
    simp only [htoken, Except.map] at htokens
    rw [Block.codeOfText?, htokens, trim, htrim]
    rfl

theorem Grammar.Arranged.tail {t : Token} {ts : List Token} (h : Arranged (t :: ts)) :
    ∀ a ∈ ts, a.isFunction = false := by
  have hargument : ∀ a : Token, a.isArgument = true → a.isFunction = false := by
    rintro (_ | _ | _) h <;> first | rfl | cases h
  cases ts with
  | nil => simp
  | cons a rest =>
      cases t with
      | function =>
          obtain ⟨ha, hall⟩ := h
          exact List.forall_mem_cons.2 ⟨ha, fun b hb => hargument b (hall b hb)⟩
      | operand | argument => exact h.elim

theorem codeOfText?_of_code {s : String} {ts : List Token} (h : Code (trimList s.toList) ts) :
    ∃ bs, Block.codeOfText? s true = .ok (.code (trim s) bs true) ∧
      (Block.code (trim s) bs true).fault? = none ∧ bs.map Block.token? = ts.map some := by
  obtain ⟨hitems, harr⟩ := code_iff_items.1 h
  obtain ⟨bs, hbs, hmap, hfault⟩ := tokensFrom_of_items (String.ofList (trimList s.toList)) true
    hitems (fun _ _ _ => rfl) (by
      cases ts with
      | nil => simp
      | cons t ts => exact harr.tail)
  refine ⟨bs, ?_, Block.code_fault?_eq_none.2 ⟨hfault, (shapeFault?_eq_none_iff hmap).2 harr⟩, hmap⟩
  rcases tokens?_eq s with ⟨c, hq, hc, -⟩ | ⟨-, htokens⟩
  · rw [hc] at hbs
    exact absurd hbs (tokensFrom_lone_quote hq bs)
  · rw [Block.codeOfText?, htokens, hbs]
    rfl

theorem code_of_codeOfText? {s source : String} {bs : List Block} {closed : Bool}
    (hs : ∀ c ∈ s.toList, isWhite c = true → BlankChar c)
    (h : Block.codeOfText? s true = .ok (.code source bs closed))
    (hf : (Block.code source bs closed).fault? = none) :
    ∃ ts, Code (trimList s.toList) ts ∧ bs.map Block.token? = ts.map some := by
  obtain ⟨htokens, rfl⟩ : tokens? s = .ok bs ∧ true = closed := by
    obtain ⟨_, htokens, heq⟩ := exists_of_map_eq_ok h
    cases heq
    exact ⟨htokens, rfl⟩
  obtain ⟨hfault, hshape⟩ := Block.code_fault?_eq_none.1 hf
  rcases tokens?_eq s with ⟨c, -, -, hlone⟩ | ⟨-, hfrom⟩
  · rw [htokens] at hlone
    cases hlone
    simp [tokenFault?, Block.fault?, Literal.fault?] at hfault
  · rw [htokens] at hfrom
    obtain ⟨ts, hmap, hitems⟩ := items_of_tokensFrom hfrom.symm
      (fun c hc hw => (blankChar_iff c).2 (hs c (trimList_subset _ hc) hw))
      (fun c hc => not_blank_of_not_white (not_white_getLast?_trimList _ c hc)) hfault
    have hdrop : (trimList s.toList).dropWhile isBlank = trimList s.toList := by
      cases hcs : trimList s.toList with
      | nil => rfl
      | cons c r =>
          have hb := not_blank_of_not_white (not_white_head?_trimList s.toList c (by simp [hcs]))
          exact List.dropWhile_cons_of_neg (by simp [hb])
    rw [hdrop] at hitems
    exact ⟨ts, code_iff_items.2 ⟨hitems, (shapeFault?_eq_none_iff hmap).1 hshape⟩, hmap⟩

/-- Code is accepted exactly when the grammar derives it, and its tokens are then those of the
derivation. -/
theorem accepted_iff_code (s : String) (hs : ∀ c ∈ s.toList, isWhite c = true → BlankChar c) :
    ((∃ b, Block.codeOfText? s true = .ok b ∧ b.fault? = none) ↔
      ∃ ts, Code (trim s).toList ts) ∧
    ∀ source bs closed, Block.codeOfText? s true = .ok (.code source bs closed) →
      (Block.code source bs closed).fault? = none →
      ∀ ts, Code (trim s).toList ts ↔ bs.map Block.token? = ts.map some := by
  rw [trim_toList]
  refine ⟨⟨?_, ?_⟩, ?_⟩
  · rintro ⟨b, hb, hf⟩
    obtain ⟨bs, -, rfl⟩ := exists_of_map_eq_ok hb
    obtain ⟨ts, hts, -⟩ := code_of_codeOfText? hs hb hf
    exact ⟨ts, hts⟩
  · rintro ⟨ts, hts⟩
    obtain ⟨bs, hb, hf, -⟩ := codeOfText?_of_code hts
    exact ⟨_, hb, hf⟩
  · intro source bs closed hb hf ts
    constructor
    · intro hts
      obtain ⟨bs', hb', -, hmap⟩ := codeOfText?_of_code hts
      rw [hb] at hb'
      cases hb'
      exact hmap
    · intro hmap
      obtain ⟨ts', hts, hmap'⟩ := code_of_codeOfText? hs hb hf
      rw [hmap] at hmap'
      rwa [List.map_injective_iff.2 (fun _ _ h => Option.some.inj h) hmap']

theorem code_call_escaped : Code "p.f 'it\\'s' \ta=$b".toList
    [.function (some "p") "f", .operand (.literal "it's"), .argument "a" (.reference "b")] := by
  have hname (n : String) (h : isName n = true) : Name n := (name_iff n).1 h
  have hbody : Body '\x27' "it\\'s".toList "it's".toList :=
    .plain (by decide) (by decide) (.plain (by decide) (by decide)
      (.escape (.inl (.inr rfl)) (.plain (by decide) (by decide) .nil)))
  have hf : Function "p.f".toList (.function (some "p") "f") :=
    .qualified (hname "p" (by decide)) (hname "f" (by decide))
  have hv : First "'it\\'s'".toList (.operand (.literal "it's")) :=
    .operand (.literal (.inr rfl) hbody)
  have ha : Named "a=$b".toList (.argument "a" (.reference "b")) :=
    .mk (hname "a" (by decide)) (.reference (hname "b" (by decide)))
  have hs : Blanks " ".toList := ⟨by decide, by simp [BlankChar]⟩
  have ht : Blanks " \t".toList := ⟨by decide, by simp [BlankChar]⟩
  exact .callWith hf hs hv (.cons ht ha .nil)

theorem accepted_iff_code_escaped :
    (∀ c ∈ "\n p.f 'it\\'s' \ta=$b\r".toList, isWhite c = true → BlankChar c) ∧
      (∃ b, Block.codeOfText? "\n p.f 'it\\'s' \ta=$b\r" true = .ok b ∧ b.fault? = none) ∧
      ∀ source bs closed,
        Block.codeOfText? "\n p.f 'it\\'s' \ta=$b\r" true = .ok (.code source bs closed) →
        (Block.code source bs closed).fault? = none →
        bs.map Block.token? = [some (.function (some "p") "f"), some (.operand (.literal "it's")),
          some (.argument "a" (.reference "b"))] := by
  have hblank : ∀ c ∈ "\n p.f 'it\\'s' \ta=$b\r".toList, isWhite c = true → BlankChar c := by
    have hall : ("\n p.f 'it\\'s' \ta=$b\r".toList.all fun c => !isWhite c || isBlank c) = true := rfl
    intro c hc hw
    exact (blankChar_iff c).1 (by simpa [hw] using List.all_eq_true.1 hall c hc)
  have htrim : "p.f 'it\\'s' \ta=$b".toList = (trim "\n p.f 'it\\'s' \ta=$b\r").toList := by
    rw [trim_toList]
    decide
  have hcode := htrim ▸ code_call_escaped
  obtain ⟨hiff, htokens⟩ := accepted_iff_code _ hblank
  refine ⟨hblank, hiff.2 ⟨_, hcode⟩, ?_⟩
  intro source bs closed hread hfault
  exact (htokens source bs closed hread hfault _).1 hcode

end Orchestra.Template
