import Orchestra.Proofs.Xml.Tokens
import Orchestra.Xml.Element

namespace Orchestra.Xml

theorem Frame.tag_of_ofTag? {outer : List (String × String)} {tag : Name}
    {as : List (Name × String)} {f : Frame} (h : Frame.ofTag? outer tag as = some f) :
    f.tag = tag := by
  simp only [Frame.ofTag?, bind, Option.bind_eq_some_iff] at h
  obtain ⟨found, -, h⟩ := h
  split at h
  · cases h
  · obtain ⟨plain, -, he⟩ := Option.bind_eq_some_iff.1 h
    cases he
    rfl

namespace Builder

def run (b : Builder) (ts : List Token) : Option Builder :=
  ts.foldlM step b

theorem run_cons (b : Builder) (t : Token) (ts : List Token) :
    b.run (t :: ts) = (b.step t).bind fun b' => b'.run ts :=
  List.foldlM_cons

theorem run_append (b : Builder) (ts us : List Token) :
    b.run (ts ++ us) = (b.run ts).bind fun b' => b'.run us :=
  List.foldlM_append

theorem run_texts {b : Builder} (hb : b.frames ≠ []) {ts : List Token}
    (hts : ∀ t ∈ ts, ∃ blank, t = .text blank) : b.run ts = some b := by
  induction ts with
  | nil => rfl
  | cons t ts ih =>
      obtain ⟨⟨blank, rfl⟩, htexts⟩ := List.forall_mem_cons.1 hts
      have hstep : b.step (.text blank) = some b := by
        simp [step, hb]
      rw [run_cons, hstep, Option.bind_some, ih htexts]

/-- What a token does, where it is allowed. -/
inductive Steps : Builder → Token → Builder → Prop
  | aside (b : Builder) : Steps b .aside b
  | text {b : Builder} {blank : Bool} (h : b.frames = [] → blank = true) : Steps b (.text blank) b
  | opens {frames : List Frame} {tag : Name} {as : List (Name × String)} {f : Frame}
      (hf : Frame.ofTag? (frames.head?.elim [] Frame.bindings) tag as = some f) :
      Steps ⟨frames, none⟩ (.start tag as false) ⟨f :: frames, none⟩
  | empty {frames : List Frame} {tag : Name} {as : List (Name × String)} {f : Frame}
      (hf : Frame.ofTag? (frames.head?.elim [] Frame.bindings) tag as = some f) :
      Steps ⟨frames, none⟩ (.start tag as true) (add f.element frames)
  | closes (f : Frame) (frames : List Frame) (root : Option Element) :
      Steps ⟨f :: frames, root⟩ (.stop f.tag) (add f.element frames)

theorem step_eq_some_iff {b b' : Builder} {t : Token} : b.step t = some b' ↔ Steps b t b' := by
  constructor
  · intro h
    cases t with
    | aside =>
        cases h
        exact .aside b
    | text blank =>
        rw [step] at h
        split at h
        · cases h
        · rename_i hblank
          cases h
          exact .text fun hframes => by simpa [hframes] using hblank
    | start tag as empty =>
        obtain ⟨frames, root⟩ := b
        rw [step] at h
        split at h
        · cases h
        · rename_i hroot
          obtain rfl : root = none := by simpa using hroot
          obtain ⟨f, hf, rfl⟩ := Option.map_eq_some_iff.1 h
          cases empty with
          | true => exact .empty hf
          | false => exact .opens hf
    | stop tag =>
        obtain ⟨frames, root⟩ := b
        cases frames with
        | nil => cases h
        | cons f frames =>
            by_cases htag : f.tag = tag
            · subst tag
              cases (if_pos rfl).symm.trans h
              exact .closes f frames root
            · cases (if_neg htag).symm.trans h
  · intro h
    cases h with
    | aside => rfl
    | text h =>
        refine if_neg fun hc => ?_
        obtain ⟨hframes, hblank⟩ := Bool.and_eq_true_iff.1 hc
        simp [h (List.isEmpty_iff.1 hframes)] at hblank
    | opens hf => rw [step, hf]; rfl
    | empty hf => rw [step, hf]; rfl
    | closes f frames root => exact if_pos rfl

def Settled (b : Builder) : Prop :=
  b.frames = [] ∨ b.root = none

theorem settled_add (e : Element) (frames : List Frame) : (add e frames).Settled := by
  cases frames with
  | nil => exact .inl rfl
  | cons f frames => exact .inr rfl

theorem Steps.settled {b b' : Builder} {t : Token} (h : Steps b t b') (hb : b.Settled) :
    b'.Settled := by
  cases h with
  | aside | text => exact hb
  | opens => exact .inr rfl
  | empty | closes => exact settled_add ..

def within (outer : Frame) (b : Builder) : Builder :=
  match b.root with
  | none => ⟨b.frames ++ [outer], none⟩
  | some e => ⟨b.frames ++ [{ outer with children := e :: outer.children }], none⟩

theorem within_add (outer : Frame) (e : Element) (frames : List Frame) :
    (add e frames).within outer = add e (frames ++ [outer]) := by
  cases frames <;> rfl

theorem frames_within_ne_nil (outer : Frame) (b : Builder) : (b.within outer).frames ≠ [] := by
  unfold within
  cases b.root <;> simp

/-- Inside of an element that binds no prefix, a token does what it does outside of it. -/
theorem Steps.within {outer : Frame} (houter : outer.bindings = []) {b b' : Builder} {t : Token}
    (h : Steps b t b') (hb : b.Settled) : Steps (b.within outer) t (b'.within outer) := by
  have hbindings (frames : List Frame) : (frames ++ [outer]).head?.elim [] Frame.bindings =
      frames.head?.elim [] Frame.bindings := by
    cases frames with
    | nil => exact houter
    | cons f frames => rfl
  cases h with
  | aside => exact .aside _
  | text => exact .text fun hframes => absurd hframes (frames_within_ne_nil outer b)
  | @opens frames tag as f hf => exact .opens ((hbindings frames).symm ▸ hf)
  | @empty frames tag as f hf =>
      rw [within_add]
      exact .empty ((hbindings frames).symm ▸ hf)
  | closes f frames root =>
      obtain rfl : root = none := hb.resolve_left (List.cons_ne_nil f frames)
      rw [within_add]
      exact .closes f (frames ++ [outer]) none

def Under (tag : Name) (b : Builder) : Prop :=
  (b.frames = [] ∧ b.root ≠ none) ∨ (b.frames.getLast?.map Frame.tag = some tag ∧ b.root = none)

theorem getLast?_frames_cons {tag : Name} {f g : Frame} {frames : List Frame} :
    (f :: g :: frames).getLast?.map Frame.tag = some tag ↔
      (g :: frames).getLast?.map Frame.tag = some tag := by
  rw [List.getLast?_cons_cons]

theorem under_add {tag : Name} (e : Element) {frames : List Frame}
    (h : ∀ f rest, frames = f :: rest → frames.getLast?.map Frame.tag = some tag) :
    (add e frames).Under tag := by
  cases frames with
  | nil => exact .inl ⟨rfl, nofun⟩
  | cons f rest =>
      refine .inr ⟨?_, rfl⟩
      have hlast := h f rest rfl
      cases rest with
      | nil => exact hlast
      | cons g rest => exact getLast?_frames_cons.2 (getLast?_frames_cons.1 hlast)

theorem Steps.under {tag : Name} {b b' : Builder} {t : Token} (h : Steps b t b')
    (hb : b.Under tag) : b'.Under tag := by
  cases h with
  | aside | text => exact hb
  | @opens frames =>
      obtain ⟨-, hroot⟩ | ⟨htag, -⟩ := hb
      · exact absurd rfl hroot
      · cases frames with
        | nil => cases htag
        | cons g frames => exact .inr ⟨getLast?_frames_cons.2 htag, rfl⟩
  | empty =>
      obtain ⟨-, hroot⟩ | ⟨htag, -⟩ := hb
      · exact absurd rfl hroot
      · exact under_add _ fun _ _ _ => htag
  | closes f frames =>
      obtain ⟨hframes, -⟩ | ⟨htag, -⟩ := hb
      · cases hframes
      · refine under_add _ ?_
        rintro g rest rfl
        exact getLast?_frames_cons.1 htag

theorem exists_step_of_run {b b' : Builder} {t : Token} {ts : List Token}
    (h : b.run (t :: ts) = some b') : ∃ b₁, Steps b t b₁ ∧ b₁.run ts = some b' := by
  rw [run_cons] at h
  obtain ⟨b₁, hstep, hrun⟩ := Option.bind_eq_some_iff.1 h
  exact ⟨b₁, step_eq_some_iff.1 hstep, hrun⟩

theorem run_of_steps {b b₁ : Builder} {t : Token} (h : Steps b t b₁) (ts : List Token) :
    b.run (t :: ts) = b₁.run ts := by
  rw [run_cons, step_eq_some_iff.2 h, Option.bind_some]

/-- What every step with an allowed token preserves holds behind a run. -/
theorem invariant_run_of {P : Builder → Prop} {Q : Token → Prop}
    (hP : ∀ {b b' t}, Steps b t b' → Q t → P b → P b') {b b' : Builder} {ts : List Token}
    (hts : ∀ t ∈ ts, Q t) (hb : P b) (h : b.run ts = some b') : P b' := by
  induction ts generalizing b with
  | nil =>
      cases h
      exact hb
  | cons t ts ih =>
      obtain ⟨ht, hts⟩ := List.forall_mem_cons.1 hts
      obtain ⟨b₁, hstep, hrun⟩ := exists_step_of_run h
      exact ih hts (hP hstep ht hb) hrun

theorem invariant_run {P : Builder → Prop} (hP : ∀ {b b' t}, Steps b t b' → P b → P b')
    {b b' : Builder} {ts : List Token} (hb : P b) (h : b.run ts = some b') : P b' :=
  invariant_run_of (Q := fun _ => True) (fun hstep _ => hP hstep) (fun _ _ => trivial) hb h

theorem run_within {outer : Frame} (houter : outer.bindings = []) {b b' : Builder}
    {ts : List Token} (hb : b.Settled) (h : b.run ts = some b') :
    (b.within outer).run ts = some (b'.within outer) := by
  induction ts generalizing b with
  | nil =>
      cases h
      rfl
  | cons t ts ih =>
      obtain ⟨b₁, hstep, hrun⟩ := exists_step_of_run h
      rw [run_of_steps (hstep.within houter hb), ih (hstep.settled hb) hrun]

/-- In front of the end tag that completes the root, the root alone is open. -/
theorem exists_open_root {tag : Name} {ts : List Token} {b : Builder} {root : Element}
    (h : run ⟨[], none⟩ (ts ++ [.stop tag]) = some b) (hroot : b.root = some root) :
    ∃ f, run ⟨[], none⟩ ts = some ⟨[f], none⟩ ∧ f.tag = tag ∧ f.element = root := by
  rw [run_append] at h
  obtain ⟨b₁, hrun, hstop⟩ := Option.bind_eq_some_iff.1 h
  obtain ⟨b₂, hstep, hlast⟩ := exists_step_of_run hstop
  cases hlast
  have hsettled : b₁.Settled := invariant_run Steps.settled (.inl rfl) hrun
  cases hstep with
  | closes f frames root' =>
      obtain rfl : root' = none := hsettled.resolve_left (List.cons_ne_nil f frames)
      cases frames with
      | nil => exact ⟨f, hrun, rfl, Option.some.inj hroot⟩
      | cons g frames => cases hroot

theorem tag_of_run_start {n : Name} {as : List (Name × String)} {empty : Bool} {ts : List Token}
    {f : Frame} (h : run ⟨[], none⟩ (.start n as empty :: ts) = some ⟨[f], none⟩) : f.tag = n := by
  obtain ⟨b₁, hstep, hrun⟩ := exists_step_of_run h
  have hunder : b₁.Under n := by
    cases hstep with
    | opens hf => exact .inr ⟨congrArg some (Frame.tag_of_ofTag? hf), rfl⟩
    | empty hf => exact .inl ⟨rfl, nofun⟩
  obtain ⟨hframes, -⟩ | ⟨htag, -⟩ := invariant_run Steps.under hunder hrun
  · cases hframes
  · exact Option.some.inj htag

end Builder

def root? (cs : List Char) : Option Element :=
  (tokens? cs).bind fun ts => (Builder.run ⟨[], none⟩ ts).bind Builder.root

theorem parse?_eq (text : String) : parse? text = root? text.toList := rfl

def wrapper : Frame :=
  ⟨⟨"", "xml"⟩, [], [], []⟩

def wrap (cs : List Char) : List Char :=
  '<' :: 'x' :: 'm' :: 'l' :: '>' :: (cs ++ ['<', '/', 'x', 'm', 'l', '>'])

theorem spaces_nil : Spaces [] := nofun

theorem nameText_xml : NameText ['x', 'm', 'l'] wrapper.tag :=
  ⟨List.all_eq_true.1 rfl, rfl⟩

theorem lexeme_wrapper_start (after : List Char) :
    Lexeme after ['<', 'x', 'm', 'l', '>'] (.start wrapper.tag [] false) :=
  .start nameText_xml (.close spaces_nil)

theorem lexeme_wrapper_stop (after : List Char) :
    Lexeme after ['<', '/', 'x', 'm', 'l', '>'] (.stop wrapper.tag) :=
  .stop nameText_xml spaces_nil

theorem root?_wrap (cs : List Char) :
    root? (wrap cs) =
      (tokens? (cs ++ ['<', '/', 'x', 'm', 'l', '>'])).bind fun ts =>
        (Builder.run ⟨[wrapper], none⟩ ts).bind Builder.root := by
  rw [root?, show wrap cs = ['<', 'x', 'm', 'l', '>'] ++ (cs ++ ['<', '/', 'x', 'm', 'l', '>'])
    from rfl, tokens?_of_lexeme (lexeme_wrapper_start _)]
  cases tokens? (cs ++ ['<', '/', 'x', 'm', 'l', '>']) <;> rfl

theorem tokens?_wrapper_stop :
    tokens? ['<', '/', 'x', 'm', 'l', '>'] = some [.stop wrapper.tag] := by
  have hread := tokens?_of_lexeme (lexeme_wrapper_stop [])
  rwa [tokens?_nil] at hread

section Wrapped

variable {opened : List Char} {ts : List Token} {f : Frame}
  (hopened : tokens? opened = some ts) (hmark : ∀ cs, AtMarkup (opened ++ cs))
  (hrun : Builder.run ⟨[], none⟩ ts = some ⟨[f], none⟩)
  {front : List Char} (hfront : '<' ∉ front)

include hopened hmark hrun hfront

omit hopened hmark hfront in
theorem run_wrapped : Builder.run ⟨[wrapper], none⟩ ts = some ⟨[f, wrapper], none⟩ :=
  Builder.run_within rfl (.inl rfl) hrun

/-- Character data around an element is passed over, if it is accepted. -/
theorem root?_wrap_closed {stop : List Char} (hstop : ∀ after, Lexeme after stop (.stop f.tag))
    {back : List Char} (hback : '<' ∉ back) :
    root? (wrap (front ++ (opened ++ (stop ++ back)))) = none ∨
      root? (wrap (front ++ (opened ++ (stop ++ back)))) = some ⟨"xml", [], [f.element]⟩ := by
  have hread : tokens? (opened ++ (stop ++ (back ++ ['<', '/', 'x', 'm', 'l', '>']))) =
      ((tokens? (back ++ ['<', '/', 'x', 'm', 'l', '>'])).map (.stop f.tag :: ·)).map (ts ++ ·) := by
    rw [tokens?_append hopened (hstop []).atMarkup_append, tokens?_of_lexeme (hstop _)]
  simp only [root?_wrap, List.append_assoc]
  rcases tokens?_plain hfront with ⟨us, hus, hplain⟩ | hnone
  · rcases tokens?_plain hback with ⟨vs, hvs, hplain'⟩ | hnone'
    · right
      have htokens : tokens?
          (front ++ (opened ++ (stop ++ (back ++ ['<', '/', 'x', 'm', 'l', '>'])))) =
            some (us ++ (ts ++ (.stop f.tag :: (vs ++ [.stop wrapper.tag])))) := by
        rw [hplain _ (hmark _), hread, hplain' _ (atMarkup_cons _), tokens?_wrapper_stop]
        rfl
      have hroot : Builder.run ⟨[wrapper], none⟩
          (us ++ (ts ++ (.stop f.tag :: (vs ++ [.stop wrapper.tag])))) =
            some ⟨[], some ⟨"xml", [], [f.element]⟩⟩ := by
        rw [Builder.run_append, Builder.run_texts (List.cons_ne_nil _ _) hus, Option.bind_some,
          Builder.run_append, run_wrapped hrun, Option.bind_some,
          Builder.run_of_steps (.closes f [wrapper] none), Builder.run_append,
          Builder.run_texts (List.cons_ne_nil _ _) hvs, Option.bind_some]
        rfl
      rw [htokens, Option.bind_some, hroot, Option.bind_some]
    · left
      rw [hplain _ (hmark _), hread, hnone' _ (atMarkup_cons _)]
      rfl
  · left
    rw [hnone _ (hmark _), Option.bind_none]

theorem root?_wrap_unclosed (hne : f.tag ≠ wrapper.tag) :
    root? (wrap (front ++ opened)) = none := by
  rw [root?_wrap, List.append_assoc]
  rcases tokens?_plain hfront with ⟨us, hus, hplain⟩ | hnone
  · have htokens : tokens? (front ++ (opened ++ ['<', '/', 'x', 'm', 'l', '>'])) =
        some (us ++ (ts ++ [.stop wrapper.tag])) := by
      rw [hplain _ (hmark _), tokens?_append hopened (atMarkup_cons _), tokens?_wrapper_stop]
      rfl
    have hclose : Builder.run ⟨[f, wrapper], none⟩ [.stop wrapper.tag] = none := by
      rw [Builder.run_cons, Builder.step]
      simp only [if_neg hne, Option.bind_none]
    rw [htokens, Option.bind_some, Builder.run_append,
      Builder.run_texts (List.cons_ne_nil _ _) hus, Option.bind_some, Builder.run_append,
      run_wrapped hrun, Option.bind_some, hclose, Option.bind_none]
  · rw [hnone _ (hmark _), Option.bind_none]

end Wrapped

end Orchestra.Xml
