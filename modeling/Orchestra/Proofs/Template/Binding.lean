import Orchestra.Proofs.Template.Failures

namespace Orchestra.Template

open Text

def arguments : List Block → List Argument
  | [] => []
  | .argument a :: rest => a :: arguments rest
  | _ :: rest => arguments rest

/-- The value that a call is given without a name. -/
def given? : List Block → Option ArgumentValue
  | .literal l :: _ => some (.literal l)
  | .variable v :: _ => some (.variable v)
  | _ => none

/-- What a called function finds under a name: the last argument of that name, for the main value
else the value without a name, and else what the caller holds. All of them are the caller's. -/
def boundValue? (caller : Variables) (args : List Block) (name : String) : Option String :=
  (((arguments args).reverse.find? fun a => SameName a.name name).map
      (·.value.render caller)).or
    ((if SameName inputName name then (given? args).map (·.render caller) else none).or
      (caller.get? name))

theorem get?_bindNamed {source : String} {caller : Variables} {args : List Block}
    {v v' : Variables} (h : bindNamed source caller args v = .ok v') (name : String) :
    v'.get? name = (((arguments args).reverse.find? fun a => SameName a.name name).map
      (·.value.render caller)).or (v.get? name) := by
  induction args generalizing v with
  | nil =>
      cases h
      rfl
  | cons t args ih =>
      cases t with
      | argument a =>
          rw [ih h, Variables.get?_set, arguments, List.reverse_cons, List.find?_append,
            Option.map_or, Option.or_assoc]
          by_cases ha : SameName a.name name <;> simp [ha]
      | text | literal | «variable» | function | code => cases h

theorem get?_bindArguments {source : String} {caller : Variables} {args : List Block}
    {v : Variables} (h : bindArguments source caller args = .ok v) (name : String) :
    v.get? name = boundValue? caller args name := by
  have hset (value : String) : (caller.setInput value).get? name =
      (if SameName inputName name then some value else none).or (caller.get? name) := by
    rw [Variables.setInput, Variables.get?_set]
    by_cases hname : SameName inputName name <;> simp [hname]
  rw [boundValue?]
  cases args with
  | nil =>
      cases h
      simp [arguments, given?]
  | cons first rest =>
      cases first with
      | literal l => exact (get?_bindNamed h name).trans (by rw [hset]; rfl)
      | «variable» x => exact (get?_bindNamed h name).trans (by rw [hset]; rfl)
      | argument a => exact (get?_bindNamed h name).trans (by simp [given?])
      | text | function | code => cases h

section Calling

variable {σ F : Type} [Described F]

theorem renderBlocks_append (call : Invoke σ F) (c : Context F) (front back : List Block) :
    renderBlocks call c (front ++ back) = do
      let s ← renderBlocks call c front
      let t ← renderBlocks call c back
      return s ++ t := by
  induction front with
  | nil => simp only [List.nil_append, renderBlocks, pure_bind, String.empty_append, bind_pure]
  | cons b front ih =>
      simp only [List.cons_append, renderBlocks, ih, bind_assoc, pure_bind, String.append_assoc]

def noting (call : Invoke σ F) : Invoke (List (F × Context F × Settings) × σ) F := fun f c s => do
  modify fun h => (h.1 ++ [(f, c, s)], h.2)
  Run.beside (call f c s)

theorem exec_noting (call : Invoke σ F) (f : F) (c : Context F) (s : Settings)
    (log : List (F × Context F × Settings)) (w : σ) :
    Run.exec (noting call f c s) (log, w) =
      ((Run.exec (call f c s) w).1, (log ++ [(f, c, s)], (Run.exec (call f c s) w).2)) := rfl

theorem renderBlock_congr_result {call call' : Invoke σ F}
    (h : ∀ f c s, Context.result <$> call f c s = Context.result <$> call' f c s) (c : Context F)
    (b : Block) : renderBlock call c b = renderBlock call' c b := by
  rcases renderBlock_cases c b with ⟨r, hr⟩ | ⟨i, g, v, -, -, hmade⟩
  · rw [hr, hr]
  · rw [hmade, hmade, Run.map_mapError, h, Run.map_mapError]

theorem renderBlocks_congr_result {call call' : Invoke σ F}
    (h : ∀ f c s, Context.result <$> call f c s = Context.result <$> call' f c s) (c : Context F)
    (bs : List Block) : renderBlocks call c bs = renderBlocks call' c bs := by
  induction bs with
  | nil => rfl
  | cons b bs ih => rw [renderBlocks, renderBlocks, renderBlock_congr_result h, ih]

/-- A call that passed the check is made once, in the variables of the caller with the arguments of
the call bound on top, all of them at the same time. It gives the result that the function hands
back. The blocks around it are rendered in the context of the caller, so nothing else that the
function does to its variables comes to light. -/
theorem call_made_once {source : String} {i : FunctionId} {args : List Block}
    (h : (Block.code source (.function i :: args) true).fault? = none) {c : Context F} {g : F}
    (hg : c.registry.resolve? i.plugin i.name = some g) :
    (∃ v : Variables, (∀ name, v.get? name = boundValue? c.vars args name) ∧
      (∀ (call : Invoke σ F) (log : List (F × Context F × Settings)) (w : σ),
        Run.exec (renderBlock (noting call) c (.code source (.function i :: args) true)) (log, w) =
          let out := Run.exec (call g ⟨v, c.registry, c.locale⟩ {}) w
          ((out.1.mapError (TemplateError.functionFailed i.raw)).map Context.result,
            (log ++ [(g, ⟨v, c.registry, c.locale⟩, ({} : Settings))], out.2))) ∧
      ∀ (call : Invoke σ F) (front back : List Block),
        renderBlocks call c (front ++ .code source (.function i :: args) true :: back) = do
          let s ← renderBlocks call c front
          let out ← (call g ⟨v, c.registry, c.locale⟩ {}).mapError
            (TemplateError.functionFailed i.raw)
          let t ← renderBlocks call c back
          return s ++ (out.result ++ t)) ∧
    ∀ call call' : Invoke σ F,
      (∀ f c s, Context.result <$> call f c s = Context.result <$> call' f c s) →
        ∀ bs, renderBlocks call c bs = renderBlocks call' c bs := by
  obtain ⟨v, hv⟩ : ∃ v, bindArguments source c.vars args = .ok v :=
    exists_bindArguments (Block.code_fault?_eq_none.1 h).2 c.vars
  have hblock (τ : Type) (call : Invoke τ F) :
      renderBlock call c (.code source (.function i :: args) true) =
        Context.result <$> (call g ⟨v, c.registry, c.locale⟩ {}).mapError
          (TemplateError.functionFailed i.raw) := by
    rw [renderBlock, start, startCode, startCall_eq hg hv]
    rfl
  refine ⟨⟨v, get?_bindArguments hv, fun call log w => ?_, fun call front back => ?_⟩,
    fun call call' hresult => renderBlocks_congr_result hresult c⟩
  · rw [hblock, Run.exec_map, Run.exec_mapError, exec_noting]
  · rw [renderBlocks_append, renderBlocks, hblock]
    simp only [bind_assoc, pure_bind, bind_map_left]

end Calling

def swapping : List Block :=
  [.variable ⟨"a"⟩, .argument ⟨"a", .variable ⟨"b"⟩⟩, .argument ⟨"b", .variable ⟨"a"⟩⟩,
    .argument ⟨"B", .literal ⟨"'3'"⟩⟩]

def swapContext : Context (Function Unit) :=
  twiceContext.withVariables (.ofList [("a", "1"), ("b", "2")])

theorem call_made_once_swapping :
    ∃ v : Variables, v.get? "input" = some "1" ∧ v.get? "a" = some "2" ∧ v.get? "b" = some "3" ∧
      v.get? "c" = none ∧
      Run.exec (renderBlock (noting twice) swapContext
          (.code "t.next $a a=$b b=$a B='3'" (.function ⟨some "t", "next"⟩ :: swapping) true))
          ([], 0) =
        (.ok "one", ([(.ofText "t" "next" "" [] pure, ⟨v, twiceContext.registry, defaultLocale⟩,
          ({} : Settings))], 1)) := by
  have hfault : (Block.code "t.next $a a=$b b=$a B='3'"
      (.function ⟨some "t", "next"⟩ :: swapping) true).fault? = none :=
    Block.code_fault?_eq_none.2 ⟨by decide, by decide⟩
  obtain ⟨⟨v, hv, hcall, -⟩, -⟩ := call_made_once (σ := Nat) hfault (c := swapContext)
    (g := .ofText "t" "next" "" [] pure) rfl
  refine ⟨v, (hv _).trans ?_, (hv _).trans ?_, (hv _).trans ?_, (hv _).trans ?_,
    (hcall twice [] 0).trans ?_⟩
  · decide
  · decide
  · decide
  · decide
  · change (Except.ok (v.setInput "one").input, _) = _
    rw [Variables.input_setInput]
    rfl

end Orchestra.Template
