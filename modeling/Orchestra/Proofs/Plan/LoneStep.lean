import Orchestra.Proofs.Plan.Recovery

namespace Orchestra

open Xml

namespace Xml

theorem tokens?_empty {name : List Char} (hne : name ≠ [])
    (hname : ∀ c ∈ name, isNameChar c = true) (after : List Char) :
    tokens? ('<' :: (name ++ '/' :: '>' :: after)) =
      (Name.ofChars? name).bind fun n => (tokens? after).map (.start n [] true :: ·) := by
  cases hn : Name.ofChars? name with
  | some n =>
      have hlexeme : Lexeme after ('<' :: (name ++ ['/', '>'])) (.start n [] true) :=
        .start ⟨hname, hn⟩ (.closeEmpty spaces_nil)
      have hread := tokens?_of_lexeme hlexeme
      rwa [List.cons_append, List.append_assoc] at hread
  | none =>
      obtain ⟨c, name, rfl⟩ := List.exists_cons_of_ne_nil hne
      have hends : ∀ d ∈ ('/' :: '>' :: after).head?, isNameChar d = false := by
        rintro d ⟨⟩
        decide
      have hspan := Text.span_append hname hends
      have hread : name? (c :: name ++ '/' :: '>' :: after) = none := by
        rw [name?, hspan.1, hn]
        rfl
      rw [tokens?_eq_bind (List.cons_ne_nil _ _), List.cons_append,
        token?_name (hname c (List.mem_cons_self ..)), start?, ← List.cons_append, hread]
      rfl

theorem firstBehind_of_not_mem {c : Char} {cs : List Char} (h : c ∉ cs) (stop : List Char) :
    FirstBehind (c :: stop) cs := by
  induction cs with
  | nil => exact firstBehind_nil _
  | cons d cs ih =>
      obtain ⟨hc, hcs⟩ := not_or.1 (mt List.mem_cons.2 h)
      exact firstBehind_cons.2 ⟨fun hp => hc (List.cons_prefix_cons.1 hp).1, ih hcs⟩

theorem Name.ofChars?_plain {cs : List Char} (hstart : startsName cs = true) (hcolon : ':' ∉ cs) :
    Name.ofChars? cs = some ⟨"", String.ofList cs⟩ := by
  rw [ofChars?, List.dropWhile_eq_nil_iff.2 (Text.all_ne_of_not_mem hcolon)]
  exact if_pos hstart

theorem Name.space_ne {cs : List Char} {n : Name} (h : ofChars? cs = some n) (hcolon : ':' ∈ cs)
    (hhead : cs.head? ≠ some ':') : n.space ≠ "" := by
  rw [ofChars?] at h
  split at h
  · rename_i hd
    exact absurd hcolon fun hm => by simpa using List.dropWhile_eq_nil_iff.1 hd _ hm
  · split at h
    · cases h
      cases cs with
      | nil => cases hcolon
      | cons c cs =>
          have hc : c ≠ ':' := fun he => hhead (congrArg some he)
          simp [hc]
    · cases h

/-- A prefix that nothing declares is refused. -/
theorem Frame.ofTag?_undeclared {n : Name} (h : n.space ≠ "") (as : List (Name × String))
    (has : declared? as [] = some []) : ofTag? [] n as = none := by
  rw [ofTag?, has]
  simp [h]

end Xml

namespace Plan

def loneStep (qualified : String) : String :=
  "<plan><function." ++ qualified ++ "/></plan>"

def loneElement (qualified : String) : Element :=
  ⟨"function." ++ qualified, [], []⟩

section Reading

variable {qualified : String} (hname : ∀ c ∈ qualified.toList, isNameChar c = true)

theorem toList_loneStep (qualified : String) (after : List Char) :
    (loneStep qualified).toList ++ after =
      ['<', 'p', 'l', 'a', 'n', '>'] ++
        ('<' :: (("function." ++ qualified).toList ++ '/' :: '>' :: (fragment?.closing ++ after))) := by
  have hopen : "<plan><function.".toList =
      ['<', 'p', 'l', 'a', 'n', '>'] ++ '<' :: "function.".toList := rfl
  have hclose : "/></plan>".toList = '/' :: '>' :: fragment?.closing := rfl
  change ("<plan><function." ++ qualified ++ "/></plan>").toList ++ after = _
  rw [String.toList_append, String.toList_append, hopen, hclose, String.toList_append]
  simp only [List.append_assoc, List.cons_append, List.nil_append]

include hname

theorem nameChar_of_mem_function : ∀ c ∈ ("function." ++ qualified).toList, isNameChar c = true := by
  rw [String.toList_append]
  exact List.forall_mem_append.2 ⟨List.all_eq_true.1 (by decide), hname⟩

theorem tokens?_loneStep (after : List Char) :
    tokens? ((loneStep qualified).toList ++ after) =
      (Name.ofChars? ("function." ++ qualified).toList).bind fun n => (tokens? after).map fun ts =>
        .start ⟨"", planTag⟩ [] false :: .start n [] true :: .stop ⟨"", planTag⟩ :: ts := by
  have hopen : Lexeme ('<' :: (("function." ++ qualified).toList ++ '/' :: '>' ::
      (fragment?.closing ++ after))) ['<', 'p', 'l', 'a', 'n', '>']
      (.start ⟨"", planTag⟩ [] false) :=
    .start nameText_plan (.close spaces_nil)
  rw [toList_loneStep, tokens?_of_lexeme hopen,
    tokens?_empty (by simp) (nameChar_of_mem_function hname), tokens?_of_lexeme (lexeme_plan_stop _)]
  cases Name.ofChars? ("function." ++ qualified).toList <;> cases tokens? after <;> rfl

omit hname in
theorem run_loneStep {frames : List Frame} (hframes : frames.head?.elim [] Frame.bindings = [])
    (n : Name) (ts : List Token) :
    Builder.run ⟨frames, none⟩
        (.start ⟨"", planTag⟩ [] false :: .start n [] true :: .stop ⟨"", planTag⟩ :: ts) =
      if n.space = "" then
        (Builder.add ⟨planTag, [], [⟨n.base, [], []⟩]⟩ frames).run ts
      else none := by
  let plan : Frame := ⟨⟨"", planTag⟩, [], [], []⟩
  have hplan : Frame.ofTag? (frames.head?.elim [] Frame.bindings) plan.tag [] = some plan := by
    rw [hframes]
    rfl
  rw [Builder.run_of_steps (.opens hplan)]
  split
  · rename_i hspace
    have hempty : Frame.ofTag? [] n [] = some ⟨n, [], [], []⟩ := by
      rw [Frame.ofTag?]
      simp [hspace, declared?, expanded?]
    have hstep : Builder.Steps ⟨plan :: frames, none⟩ (.start n [] true)
        (Builder.add ⟨n.base, [], []⟩ (plan :: frames)) :=
      .empty (f := ⟨n, [], [], []⟩) hempty
    rw [Builder.run_of_steps hstep]
    exact Builder.run_of_steps (.closes { plan with children := [⟨n.base, [], []⟩] } frames none) ts
  · rename_i hspace
    rw [Builder.run_cons, Builder.step]
    simp [plan, Frame.ofTag?_undeclared hspace [] rfl]

theorem parse?_loneStep_wrapped (hcolon : ':' ∉ qualified.toList) :
    parse? ("<xml>" ++ loneStep qualified ++ "</xml>") =
      some ⟨"xml", [], [⟨planTag, [], [loneElement qualified]⟩]⟩ := by
  have hplain : Name.ofChars? ("function." ++ qualified).toList =
      some ⟨"", "function." ++ qualified⟩ := by
    have hstart : startsName ("function." ++ qualified).toList = true := by
      rw [String.toList_append]
      rfl
    have hread := Name.ofChars?_plain hstart (by simp [hcolon])
    rwa [String.ofList_toList] at hread
  rw [parse?_wrapped, root?_wrap, tokens?_loneStep hname, hplain, tokens?_wrapper_stop,
    Option.bind_some, Option.map_some, Option.bind_some, run_loneStep rfl, if_pos rfl]
  rfl

theorem parse?_loneStep_colon (hcolon : ':' ∈ qualified.toList) :
    parse? ("<xml>" ++ loneStep qualified ++ "</xml>") = none ∧
      parse? (loneStep qualified) = none := by
  have hnone (frames : List Frame) (hframes : frames.head?.elim [] Frame.bindings = [])
      (after : List Char) :
      ((tokens? ((loneStep qualified).toList ++ after)).bind fun ts =>
        (Builder.run ⟨frames, none⟩ ts).bind Builder.root) = none := by
    rw [tokens?_loneStep hname]
    cases hn : Name.ofChars? ("function." ++ qualified).toList with
    | none => rfl
    | some n =>
        have hspace := Name.space_ne hn (by simp [hcolon]) (by simp)
        cases tokens? after with
        | none => rfl
        | some ts =>
            change Option.bind (Builder.run ⟨frames, none⟩ _) _ = _
            rw [run_loneStep hframes, if_neg hspace]
            rfl
  constructor
  · rw [parse?_wrapped, root?_wrap]
    exact hnone [wrapper] rfl _
  · have hroot := hnone [] rfl []
    rwa [List.append_nil] at hroot

theorem recover?_loneStep : recover? (loneStep qualified) = some (loneStep qualified) := by
  -- No tag begins inside of the element, so the closing one is the first behind it.
  have hopen : '<' ∉ ("function." ++ qualified).toList ++ ['/', '>'] := by
    intro hm
    rcases List.mem_append.1 hm with hm | hm
    · exact absurd (nameChar_of_mem_function hname _ hm) (by decide)
    · exact absurd hm (by decide)
  have hfirst : FirstBehind fragment?.closing
      ('>' :: '<' :: (("function." ++ qualified).toList ++ ['/', '>'])) := by
    refine firstBehind_cons.2 ⟨?_, firstBehind_cons.2 ⟨?_, firstBehind_of_not_mem hopen _⟩⟩
    · simp [fragment?.closing, List.cons_prefix_cons]
    · simp [fragment?.closing, List.cons_prefix_cons]
  have hfragment := fragment?_closed rfl (List.mem_cons_self ..) hfirst []
  have hchars : '<' :: 'p' :: 'l' :: 'a' :: 'n' ::
      ('>' :: '<' :: (("function." ++ qualified).toList ++ ['/', '>']) ++ fragment?.closing) =
        (loneStep qualified).toList := by
    have hlist := toList_loneStep qualified []
    simp only [List.append_nil] at hlist
    simp [hlist]
  rw [List.append_nil, hchars] at hfragment
  rw [recover?, hfragment]
  simp

theorem document?_loneStep (hcolon : ':' ∉ qualified.toList) :
    document? (loneStep qualified) =
      .ok ⟨"xml", [], [⟨planTag, [], [loneElement qualified]⟩]⟩ := by
  rw [document?, parse?_loneStep_wrapped hname hcolon]

theorem document?_loneStep_colon (hcolon : ':' ∈ qualified.toList) :
    ∃ e, document? (loneStep qualified) = .error e := by
  obtain ⟨hwrapped, halone⟩ := parse?_loneStep_colon hname hcolon
  rw [document?, hwrapped, recover?_loneStep hname]
  simp only [halone]
  exact ⟨_, rfl⟩

end Reading

/-- Plugin and name as they are read from the name of an element. The first dot separates them. -/
def callName (qualified : String) : String × String :=
  match qualified.toList.dropWhile (· ≠ '.') with
  | [] => ("", qualified)
  | _ :: name => (String.ofList (qualified.toList.takeWhile (· ≠ '.')), String.ofList name)

theorem elementFunction?_function (qualified : String) (attributes : List (String × String))
    (children : List Element) :
    elementFunction? ⟨"function." ++ qualified, attributes, children⟩ =
      some (callName qualified) := by
  have hlead : "function.".toList.isPrefixOf ("function." ++ qualified).toList = true := by
    rw [String.toList_append]
    exact List.isPrefixOf_iff_prefix.2 (List.prefix_append _ _)
  have hdrop : ("function." ++ qualified).toList.drop "function.".toList.length =
      qualified.toList := by
    rw [String.toList_append, List.drop_left]
  rw [elementFunction?]
  simp only [hlead, if_true, hdrop, callName]
  cases qualified.toList.dropWhile (· ≠ '.') with
  | nil => rw [String.ofList_toList]
  | cons => rfl

variable {F : Type} [Described F]

/-- A plan of one element comes to one step, if the name is that of a function. -/
theorem addMarkup?_loneStep {qualified : String}
    (hname : ∀ c ∈ qualified.toList, isNameChar c = true) (hcolon : ':' ∉ qualified.toList)
    (p : Plan F) (r : Registry F) (missing : MissingFunctions) :
    p.addMarkup? r missing (loneStep qualified) =
      match r.resolve? (some (callName qualified).1) (callName qualified).2, missing with
      | some f, _ => .ok { p with steps := p.steps ++ [ofFunction f] }
      | none, .skip => .ok p
      | none, .fail =>
          .error (.functionNotFound (callName qualified).1 (callName qualified).2) := by
  have hchildren : planChildren ⟨"xml", [], [⟨planTag, [], [loneElement qualified]⟩]⟩ =
      [loneElement qualified] := by
    have hfunction : "function." ++ qualified ≠ planTag := by
      intro he
      have hhead := congrArg (fun s => s.toList.head?) he
      simp [planTag] at hhead
    rw [planChildren_wrapped]
    simp [planChildren, loneElement, Element.preorder, preorderAll, hfunction]
  rw [addMarkup?_of_document? (document?_loneStep hname hcolon), hchildren, drafts?, loneElement,
    elementFunction?_function]
  obtain ⟨plugin, name⟩ := callName qualified
  dsimp only
  cases r.resolve? (some plugin) name with
  | some f => simp [drafts?, Except.map, withDrafts, Draft.ofElement]
  | none =>
      cases missing with
      | skip =>
          cases p
          simp [drafts?, Except.map, withDrafts]
      | fail => rfl

end Plan

end Orchestra
