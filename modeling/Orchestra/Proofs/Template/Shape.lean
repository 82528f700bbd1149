import Orchestra.Proofs.Template.Failures

namespace Orchestra.Template

/-- The order of tokens that the grammar gives: a literal, a variable, or a function that is followed
by at most one token of any of the three kinds of argument and then by named arguments. -/
inductive Shaped : List Block → Prop
  | literal (l : Literal) : Shaped [.literal l]
  | variable (v : Variable) : Shaped [.variable v]
  | call (i : FunctionId) : Shaped [.function i]
  | callWith (i : FunctionId) {first : Block} (h : first.isPositional = true)
      (named : List Argument) : Shaped (.function i :: first :: named.map .argument)

/-- A lone token of a kind that belongs at the top of a template. -/
inductive Stray : List Block → Prop
  | text (s : String) : Stray [.text s]
  | code (source : String) (tokens : List Block) (closed : Bool) :
      Stray [.code source tokens closed]

theorem Stray.not_shaped {tokens : List Block} (h : Stray tokens) : ¬ Shaped tokens := by
  cases h with
  | text | code => exact nofun

theorem forall_isArgument_iff {ts : List Block} :
    (∀ t ∈ ts, t.isArgument = true) ↔ ∃ named : List Argument, ts = named.map .argument := by
  constructor
  · intro h
    induction ts with
    | nil => exact ⟨[], rfl⟩
    | cons t ts ih =>
        obtain ⟨ht, hts⟩ := List.forall_mem_cons.1 h
        obtain ⟨named, rfl⟩ := ih hts
        cases t with
        | argument a => exact ⟨a :: named, rfl⟩
        | text | literal | «variable» | function | code => cases ht
  · rintro ⟨named, rfl⟩ t ht
    obtain ⟨a, -, rfl⟩ := List.mem_map.1 ht
    rfl

theorem find?_isArgument_eq_none_iff {ts : List Block} :
    (ts.find? fun t => !t.isArgument) = none ↔ ∃ named : List Argument, ts = named.map .argument := by
  rw [← forall_isArgument_iff, List.find?_eq_none]
  simp

theorem shapeFault?_eq_none_iff_shaped {tokens : List Block} :
    shapeFault? tokens = none ↔ Shaped tokens ∨ Stray tokens := by
  constructor
  · intro h
    rcases tokens with _ | ⟨first, _ | ⟨second, rest⟩⟩
    · cases h
    · cases first with
      | text s => exact .inr (.text s)
      | literal l => exact .inl (.literal l)
      | «variable» v => exact .inl (.variable v)
      | function i => exact .inl (.call i)
      | argument a => cases h
      | code source tokens closed => exact .inr (.code source tokens closed)
    · cases first with
      | function i =>
          rw [shapeFault?] at h
          split at h
          · rename_i hpositional
            obtain ⟨named, rfl⟩ := find?_isArgument_eq_none_iff.1 (Option.map_eq_none_iff.1 h)
            exact .inl (.callWith i hpositional named)
          · cases h
      | text | literal | «variable» | argument | code => cases h
  · rintro (h | h)
    · cases h with
      | literal | «variable» | call => rfl
      | callWith i h named =>
          rw [shapeFault?, if_pos h, find?_isArgument_eq_none_iff.2 ⟨named, rfl⟩]
          rfl
    · cases h with
      | text | code => rfl

theorem tokenFault?_eq_none_iff {ts : List Block} :
    tokenFault? ts = none ↔ ∀ t ∈ ts, t.fault? = none := by
  induction ts with
  | nil => simp [tokenFault?]
  | cons t ts ih => rw [tokenFault?, Option.or_eq_none_iff, ih, List.forall_mem_cons]

variable {σ F : Type} [Described F]

theorem Stray.exec_startCode {tokens : List Block} (h : Stray tokens) (call : Invoke σ F)
    (c : Context F) (source : String) (w : σ) :
    ∃ fault, Run.exec ((startCode c source tokens).run call) w = (.error (.invalid fault source), w) := by
  cases h with
  | text s => exact ⟨_, rfl⟩
  | code inner tokens closed => exact ⟨_, rfl⟩

theorem Shaped.exec_startCode {tokens : List Block} (h : Shaped tokens) (call : Invoke σ F)
    (c : Context F) (source content : String) (fault : Fault) (w w' : σ) :
    Run.exec ((startCode c source tokens).run call) w ≠ (.error (.invalid fault content), w') := by
  have hcall {i : FunctionId} {args : List Block} (hshaped : Shaped (.function i :: args)) :
      Run.exec ((startCall c source i args).run call) w ≠ (.error (.invalid fault content), w') := by
    intro he
    have hargs : ∀ caller, ∃ v, bindArguments source caller args = .ok v :=
      exists_bindArguments (shapeFault?_eq_none_iff_shaped.2 (.inl hshaped))
    have hfails : CallFails call c (.code source (.function i :: args) true) w _ w' :=
      (exec_startCall_error_iff hargs).1 he
    cases hfails
  cases h with
  | literal | «variable» => exact nofun
  | call i => exact hcall (.call i)
  | callWith i h named => exact hcall (.callWith i h named)

/-- Code is accepted when its tokens are valid each and stand in an order of the grammar, and also
when it is a lone token of a kind that the grammar has at the top of a template only. Of what is
accepted just the latter is refused as invalid when it is rendered, in any context. -/
theorem code_accepted_iff (source : String) (tokens : List Block) :
    ((Block.code source tokens true).fault? = none ↔
      (∀ t ∈ tokens, t.fault? = none) ∧ (Shaped tokens ∨ Stray tokens)) ∧
    ¬ (Shaped tokens ∧ Stray tokens) ∧
    ((Block.code source tokens true).fault? = none →
      ∀ (call : Invoke σ F) (c : Context F) (w : σ),
        Stray tokens ↔ ∃ fault content w',
          Run.exec (renderBlock call c (.code source tokens true)) w =
            (.error (.invalid fault content), w')) := by
  have haccepted : (Block.code source tokens true).fault? = none ↔
      (∀ t ∈ tokens, t.fault? = none) ∧ (Shaped tokens ∨ Stray tokens) := by
    rw [Block.code_fault?_eq_none, tokenFault?_eq_none_iff, shapeFault?_eq_none_iff_shaped]
  refine ⟨haccepted, fun ⟨hshaped, hstray⟩ => hstray.not_shaped hshaped, fun h call c w => ?_⟩
  constructor
  · intro hstray
    obtain ⟨fault, he⟩ := hstray.exec_startCode call c source w
    exact ⟨fault, source, w, he⟩
  · rintro ⟨fault, content, w', he⟩
    rcases (haccepted.1 h).2 with hshaped | hstray
    · exact absurd he (hshaped.exec_startCode call c source content fault w w')
    · exact hstray

def repeating : List Block :=
  [.function ⟨some "t", "next"⟩, .variable ⟨"x"⟩, .argument ⟨"a", .literal ⟨"'1'"⟩⟩,
    .argument ⟨"A", .variable ⟨"y"⟩⟩]

theorem code_accepted_iff_repeating :
    (Block.code "t.next $x a='1' A=$y" repeating true).fault? = none ∧
      ∀ fault content w',
        Run.exec (renderBlock twice twiceContext (.code "t.next $x a='1' A=$y" repeating true)) 0 ≠
          (.error (.invalid fault content), w') := by
  obtain ⟨haccepted, hapart, hrendered⟩ := code_accepted_iff (σ := Nat) (F := Function Unit)
    "t.next $x a='1' A=$y" repeating
  have hshaped : Shaped repeating :=
    .callWith ⟨some "t", "next"⟩ rfl [⟨"a", .literal ⟨"'1'"⟩⟩, ⟨"A", .variable ⟨"y"⟩⟩]
  have hfault : (Block.code "t.next $x a='1' A=$y" repeating true).fault? = none :=
    haccepted.2 ⟨tokenFault?_eq_none_iff.1 (by decide), .inl hshaped⟩
  refine ⟨hfault, fun fault content w' he => ?_⟩
  exact hapart ⟨hshaped, (hrendered hfault twice twiceContext 0).2 ⟨fault, content, w', he⟩⟩

/-- Text alone is accepted as code, against the grammar, and rendering it says that it is invalid. -/
theorem lone_text_accepted :
    (Block.code "x" [.text "x"] true).fault? = none ∧ ¬ Shaped [.text "x"] ∧
      Run.exec (renderBlock twice twiceContext (.code "x" [.text "x"] true)) 0 =
        (.error (.invalid (.firstToken "x") "x"), 0) :=
  ⟨rfl, nofun, rfl⟩

end Orchestra.Template
