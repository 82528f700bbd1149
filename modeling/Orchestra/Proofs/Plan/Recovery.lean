import Orchestra.Function
import Orchestra.Proofs.Plan.Markup
import Orchestra.Proofs.Xml.Nesting

namespace Orchestra.Plan

open Xml

theorem fragment?_append {front : List Char} (hfront : '<' ∉ front) (cs : List Char) :
    fragment? (front ++ cs) = fragment? cs := by
  induction front with
  | nil => rfl
  | cons c front ih =>
      obtain ⟨hc, hrest⟩ := not_or.1 (mt List.mem_cons.2 hfront)
      have hnone : fragment?.fragmentAt? (c :: (front ++ cs)) = none :=
        if_neg fun h => hc (List.cons_prefix_cons.1 (List.isPrefixOf_iff_prefix.1 h.1)).1
      rw [List.cons_append, fragment?, hnone]
      exact ih hrest

theorem closing_of_fragmentAt? {cs part : List Char} (h : fragment?.fragmentAt? cs = some part) :
    fragment?.closing <:+: cs := by
  rw [fragment?.fragmentAt?] at h
  split at h
  · simp only [bind, Option.bind_eq_some_iff] at h
    obtain ⟨⟨attributes, rest⟩, hattributes, ⟨body, after⟩, hbody, -⟩ := h
    obtain ⟨hcs, -⟩ := (upTo?_eq_some_iff (List.cons_ne_nil _ _)).1 hattributes
    obtain ⟨rfl, -⟩ := (upTo?_eq_some_iff (List.cons_ne_nil _ _)).1 hbody
    have hrest : fragment?.closing <:+: cs.drop 5 :=
      ⟨attributes ++ ['>'] ++ body, after, by rw [hcs]; simp only [List.append_assoc]; rfl⟩
    exact hrest.trans (List.drop_suffix 5 cs).isInfix
  · cases h

theorem closing_of_fragment? {cs part : List Char} (h : fragment? cs = some part) :
    fragment?.closing <:+: cs := by
  induction cs with
  | nil => cases h
  | cons c cs ih =>
      rw [fragment?] at h
      split at h
      · rename_i hat
        exact closing_of_fragmentAt? hat
      · exact (ih h).trans (List.suffix_cons c cs).isInfix

theorem fragment?_closed {rest : List Char} (hword : rest.head?.any Text.isWord = false)
    (hmem : '>' ∈ rest) (hfirst : FirstBehind fragment?.closing rest) (after : List Char) :
    fragment? ('<' :: 'p' :: 'l' :: 'a' :: 'n' :: (rest ++ (fragment?.closing ++ after))) =
      some ('<' :: 'p' :: 'l' :: 'a' :: 'n' :: (rest ++ fragment?.closing)) := by
  obtain ⟨attributes, body, rfl, hattributes⟩ := List.eq_append_cons_of_mem hmem
  have hopen : upTo? ['>'] (attributes ++ '>' :: body ++ (fragment?.closing ++ after)) =
      some (attributes, body ++ (fragment?.closing ++ after)) :=
    (upTo?_eq_some_iff (List.cons_ne_nil _ _)).2 ⟨by simp, firstBehind_singleton hattributes⟩
  have hbody : FirstBehind fragment?.closing body :=
    FirstBehind.of_append (FirstBehind.of_append hfirst : FirstBehind _ (['>'] ++ body))
  have hclose : upTo? fragment?.closing (body ++ (fragment?.closing ++ after)) =
      some (body, after) :=
    (upTo?_eq_some_iff (List.cons_ne_nil _ _)).2 ⟨rfl, hbody⟩
  have hat : fragment?.fragmentAt?
      ('<' :: 'p' :: 'l' :: 'a' :: 'n' ::
        (attributes ++ '>' :: body ++ (fragment?.closing ++ after))) =
      some ('<' :: 'p' :: 'l' :: 'a' :: 'n' ::
        (attributes ++ '>' :: body ++ fragment?.closing)) := by
    rw [fragment?.fragmentAt?, if_pos ⟨rfl, by simpa using hword⟩]
    change (upTo? ['>'] (attributes ++ '>' :: body ++ (fragment?.closing ++ after))).bind _ = _
    rw [hopen, Option.bind_some]
    change (upTo? fragment?.closing (body ++ (fragment?.closing ++ after))).bind _ = _
    rw [hclose, Option.bind_some]
    simp
  rw [fragment?, hat]

theorem nameText_plan : NameText ['p', 'l', 'a', 'n'] ⟨"", planTag⟩ :=
  ⟨List.all_eq_true.1 rfl, rfl⟩

theorem lexeme_plan_stop (after : List Char) :
    Lexeme after fragment?.closing (.stop ⟨"", planTag⟩) :=
  .stop nameText_plan spaces_nil

theorem not_isWord_of_head {c : Char} (h : isSpace c = true ∨ c = '/' ∨ c = '>') :
    Text.isWord c = false := by
  simp only [isSpace, Bool.or_eq_true, beq_iff_eq] at h
  rcases h with (((rfl | rfl) | rfl) | rfl) | rfl | rfl <;> decide

/-- An element of its own, up to its end tag, which stands nowhere else. -/
structure PlanElement (opened : String) (root : Element) : Prop where
  wellFormed : parse? (opened ++ "</plan>") = some root
  opens : ∃ rest, opened = "<plan" ++ rest
  closedOnce : ∀ before after, opened ++ "</plan>" = before ++ "</plan>" ++ after → after = ""

theorem toList_surrounded (front opened back : String) :
    (front ++ (opened ++ "</plan>") ++ back).toList =
      front.toList ++ (opened.toList ++ (fragment?.closing ++ back.toList)) := by
  simp [fragment?.closing]

theorem firstBehind_closing_iff {opened : String} :
    FirstBehind fragment?.closing opened.toList ↔
      ∀ before after, opened ++ "</plan>" = before ++ "</plan>" ++ after → after = "" := by
  constructor
  · intro h before after he
    have hchars := congrArg String.toList he
    exact String.toList_eq_nil_iff.1
      (h before.toList after.toList (by simpa [fragment?.closing] using hchars))
  · intro h x y he
    have hstring : opened ++ "</plan>" = String.ofList x ++ "</plan>" ++ String.ofList y := by
      rw [← String.toList_inj]
      simpa [fragment?.closing] using he
    simpa using h _ _ hstring

namespace PlanElement

variable {opened : String} {root : Element} (h : PlanElement opened root)

include h

theorem exists_frame : ∃ ts f, tokens? opened.toList = some ts ∧
    Builder.run ⟨[], none⟩ ts = some ⟨[f], none⟩ ∧ f.tag = ⟨"", planTag⟩ ∧ f.element = root := by
  have hparse := h.wellFormed
  rw [parse?_eq, root?, String.toList_append] at hparse
  obtain ⟨ts₀, htokens, hrun⟩ := Option.bind_eq_some_iff.1 hparse
  obtain ⟨b, hb, hroot⟩ := Option.bind_eq_some_iff.1 hrun
  have hstop : tokens? fragment?.closing = some [.stop ⟨"", planTag⟩] := by
    have hread := tokens?_of_lexeme (lexeme_plan_stop [])
    rwa [tokens?_nil] at hread
  obtain ⟨ts, hopened, rfl⟩ :=
    tokens?_cut (show '>' ∉ ['/', 'p', 'l', 'a'] by decide)
      (show 'n' ∉ ['-', ']', '?', '>'] by decide) hstop htokens
  obtain ⟨f, hf, htag, helement⟩ := Builder.exists_open_root hb hroot
  exact ⟨ts, f, hopened, hf, htag, helement⟩

theorem exists_rest : ∃ rest, opened.toList = '<' :: 'p' :: 'l' :: 'a' :: 'n' :: rest ∧
    rest.head?.any Text.isWord = false ∧ '>' ∈ rest := by
  obtain ⟨rest, rfl⟩ := h.opens
  have hopened : ("<plan" ++ rest).toList = '<' :: 'p' :: 'l' :: 'a' :: 'n' :: rest.toList := by simp
  refine ⟨rest.toList, hopened, ?_⟩
  obtain ⟨ts, f, htokens, hrun, htag, -⟩ := h.exists_frame
  cases ts with
  | nil => simpa using eq_nil_of_tokens? htokens
  | cons t ts =>
      obtain ⟨part, after, hlexeme, he, -⟩ := exists_lexeme_of_tokens? htokens
      rw [hopened] at he
      obtain ⟨name, attributes, n, as, empty, hname, hattributes, rfl, hsplit⟩ :=
        hlexeme.exists_start (by decide) he
      -- The end tag says what the start tag is called.
      obtain rfl : n = ⟨"", planTag⟩ := (Builder.tag_of_run_start hrun).symm.trans htag
      rcases hname.eq_or_eq with rfl | rfl
      · have hrest : rest.toList = attributes ++ after := by simpa [planTag] using hsplit
        have hclose := hattributes.close_mem
        obtain ⟨c, attributes, rfl, hc⟩ := hattributes.head
        rw [hrest]
        exact ⟨not_isWord_of_head hc, List.mem_append_left after hclose⟩
      · cases hsplit

theorem firstBehind : FirstBehind fragment?.closing opened.toList :=
  firstBehind_closing_iff.2 h.closedOnce

theorem fragment?_closed (after : List Char) :
    fragment? (opened.toList ++ (fragment?.closing ++ after)) =
      some (opened ++ "</plan>").toList := by
  obtain ⟨rest, hopened, hword, hmem⟩ := h.exists_rest
  have hfirst : FirstBehind fragment?.closing (['<', 'p', 'l', 'a', 'n'] ++ rest) := by
    have hopen := h.firstBehind
    rwa [hopened] at hopen
  rw [String.toList_append, hopened]
  exact Plan.fragment?_closed hword hmem hfirst.of_append after

theorem fragment?_unclosed : fragment? opened.toList = none := by
  cases hfragment : fragment? opened.toList with
  | none => rfl
  | some part =>
      obtain ⟨x, y, he⟩ := closing_of_fragment? hfragment
      have hy := h.firstBehind x (y ++ fragment?.closing) (by simp [← he])
      exact absurd hy (by simp [fragment?.closing])

theorem recover?_closed {front : String} (hfront : '<' ∉ front.toList) (back : String) :
    recover? (front ++ (opened ++ "</plan>") ++ back) = some (opened ++ "</plan>") := by
  rw [recover?, toList_surrounded, fragment?_append hfront, h.fragment?_closed]
  simp

theorem recover?_unclosed {front : String} (hfront : '<' ∉ front.toList) :
    recover? (front ++ opened) = some (opened ++ "</plan>") := by
  have hclosed := h.fragment?_closed []
  rw [List.append_nil] at hclosed
  rw [recover?, String.toList_append, fragment?_append hfront, h.fragment?_unclosed,
    List.append_assoc, fragment?_append hfront, hclosed]
  simp

theorem atMarkup (cs : List Char) : AtMarkup (opened.toList ++ cs) := by
  obtain ⟨rest, hopened, -⟩ := h.exists_rest
  rw [hopened]
  exact atMarkup_cons _

end PlanElement

theorem planChildren_wrapped (root : Element) :
    planChildren ⟨"xml", [], [root]⟩ = planChildren root := by
  have hpreorder : Element.preorder ⟨"xml", [], [root]⟩ =
      ⟨"xml", [], [root]⟩ :: root.preorder := by
    simp [Element.preorder, preorderAll]
  have hname : ("xml" = planTag) ↔ False := by decide
  simp [planChildren, hpreorder, hname]

theorem parse?_wrapped (text : String) :
    parse? ("<xml>" ++ text ++ "</xml>") = root? (wrap text.toList) := by
  rw [parse?_eq]
  simp [wrap]

/-- Whether the text can be read as a whole or a part of it has to be cut out, the elements are the
same. -/
theorem exists_document_of_recover? {text fragment : String} {root : Element}
    (hrecover : recover? text = some fragment) (hfragment : parse? fragment = some root)
    (hwrapped : parse? ("<xml>" ++ text ++ "</xml>") = none ∨
      parse? ("<xml>" ++ text ++ "</xml>") = some ⟨"xml", [], [root]⟩) :
    ∃ found, document? text = .ok found ∧ planChildren found = planChildren root := by
  rcases hwrapped with hnone | hsome
  · exact ⟨root, by rw [document?, hnone, hrecover]; simp [hfragment], rfl⟩
  · exact ⟨_, by rw [document?, hsome], planChildren_wrapped root⟩

section Recovery

variable {opened : String} {root : Element} (h : PlanElement opened root) {front back : String}
  (hfront : '<' ∉ front.toList)

include h hfront

theorem exists_document_closed (hback : '<' ∉ back.toList) :
    ∃ found, document? (front ++ (opened ++ "</plan>") ++ back) = .ok found ∧
      planChildren found = planChildren root := by
  obtain ⟨ts, f, htokens, hrun, htag, rfl⟩ := h.exists_frame
  refine exists_document_of_recover? (h.recover?_closed hfront back) h.wellFormed ?_
  rw [parse?_wrapped, toList_surrounded]
  exact root?_wrap_closed htokens h.atMarkup hrun hfront
    (fun after => htag ▸ lexeme_plan_stop after) hback

theorem exists_document_unclosed :
    ∃ found, document? (front ++ opened) = .ok found ∧ planChildren found = planChildren root := by
  obtain ⟨ts, f, htokens, hrun, htag, -⟩ := h.exists_frame
  refine exists_document_of_recover? (h.recover?_unclosed hfront) h.wellFormed (.inl ?_)
  rw [parse?_wrapped, String.toList_append]
  exact root?_wrap_unclosed htokens h.atMarkup hrun hfront (by rw [htag]; decide)

variable {F : Type} [Described F]

/-- Text around a plan element, and the loss of its closing tag, make no difference to a parse. -/
theorem addMarkup?_recovered (hback : '<' ∉ back.toList) (p : Plan F) (r : Registry F)
    (missing : MissingFunctions) :
    p.addMarkup? r missing (opened ++ "</plan>") =
        (drafts? r missing (planChildren root)).map p.withDrafts ∧
      p.addMarkup? r missing (front ++ (opened ++ "</plan>") ++ back) =
        p.addMarkup? r missing (opened ++ "</plan>") ∧
      p.addMarkup? r missing (front ++ opened) = p.addMarkup? r missing (opened ++ "</plan>") := by
  have hempty : '<' ∉ "".toList := by decide
  obtain ⟨alone, halone, hchildren⟩ := exists_document_closed h hempty hempty
  rw [String.append_empty, String.empty_append] at halone
  obtain ⟨closed, hclosed, hchildren'⟩ := exists_document_closed h hfront hback
  obtain ⟨unclosed, hunclosed, hchildren''⟩ := exists_document_unclosed h hfront
  rw [addMarkup?_of_document? halone, addMarkup?_of_document? hclosed,
    addMarkup?_of_document? hunclosed, hchildren, hchildren', hchildren'']
  exact ⟨rfl, rfl, rfl⟩

end Recovery

def guarded : String :=
  "<plan goal='a > b'><!-- </xml> --><function.t.next input='x'/><![CDATA[</planet>]]>"

def guardedRoot : Element :=
  ⟨"plan", [("goal", "a > b")], [⟨"function.t.next", [("input", "x")], []⟩]⟩

theorem planElement_guarded : PlanElement guarded guardedRoot where
  wellFormed := by
    have htokens : tokens? (guarded ++ "</plan>").toList =
        some [.start ⟨"", "plan"⟩ [(⟨"", "goal"⟩, "a > b")] false, .aside,
          .start ⟨"", "function.t.next"⟩ [(⟨"", "input"⟩, "x")] true, .text false,
          .stop ⟨"", "plan"⟩] := by
      decide +kernel
    rw [parse?, htokens]
    rfl
  opens := ⟨" goal='a > b'><!-- </xml> --><function.t.next input='x'/><![CDATA[</planet>]]>", rfl⟩
  closedOnce := by
    have hfirst : upTo? fragment?.closing (guarded.toList ++ (fragment?.closing ++ [])) =
        some (guarded.toList, []) := by
      decide +kernel
    exact firstBehind_closing_iff.1 ((upTo?_eq_some_iff (List.cons_ne_nil _ _)).1 hfirst).2

def nextFunction : Function Unit :=
  .ofText "t" "next" "" [] pure

theorem addMarkup?_recovered_guarded :
    PlanElement guarded guardedRoot ∧
      '<' ∉ "Sure & done:\x00".toList ∧ '<' ∉ "]]> & so on".toList ∧
      ∀ text ∈ ["Sure & done:\x00" ++ (guarded ++ "</plan>") ++ "]]> & so on",
          "Sure & done:\x00" ++ guarded, guarded ++ "</plan>"],
        (forGoal "plan" "goal").addMarkup? (Registry.empty.register nextFunction) .fail text =
          .ok ((forGoal "plan" "goal").withDrafts
            [.ofElement nextFunction ⟨"function.t.next", [("input", "x")], []⟩]) := by
  have hfront : '<' ∉ "Sure & done:\x00".toList := by decide
  have hback : '<' ∉ "]]> & so on".toList := by decide
  refine ⟨planElement_guarded, hfront, hback, ?_⟩
  obtain ⟨halone, hclosed, hunclosed⟩ := addMarkup?_recovered planElement_guarded hfront hback
    (forGoal "plan" "goal") (Registry.empty.register nextFunction) .fail
  simp only [List.forall_mem_cons, hclosed, hunclosed, halone]
  exact ⟨rfl, rfl, rfl, nofun⟩

end Orchestra.Plan
