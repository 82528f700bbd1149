import Orchestra.Proofs.Json.Canonical
import Orchestra.Proofs.Json.Record
import Orchestra.Settings

namespace Orchestra.Settings

open Json (Everywhere Exact Fitting Sorted SortsTo)

theorem ofJson?_eq_some {j : Json} {s : Settings} (h : ofJson? j = some s) :
    ∃ members, j = .object members ∧
      SortsTo (.object (members.filter fun m => m.1 ∉ fieldNames)) (.object s.extra) := by
  cases j with
  | object members =>
      refine ⟨members, rfl, ?_⟩
      simp only [ofJson?, Option.bind_eq_bind, Option.bind_eq_some_iff] at h
      obtain ⟨r, -, _, -, _, -, _, -, _, -, _, -, _, -, ms, hms, h⟩ := h
      cases h
      rw [SortsTo, Json.sorted?, hms]
      rfl
  | _ => cases h

def fields (s : Settings) : Json.Record :=
  floatMember "temperature" s.temperature ++ floatMember "topP" s.topP ++
  floatMember "presencePenalty" s.presencePenalty ++
  floatMember "frequencyPenalty" s.frequencyPenalty ++
  s.maxTokens.toList.map (fun n => ("maxTokens", .ofNat n.toNat)) ++
  (if s.stopSequences.isEmpty then [] else [("stopSequences", .strings s.stopSequences)])

theorem toJson_eq (s : Settings) : s.toJson = .object (s.fields ++ s.extra) :=
  rfl

theorem names_fields_sublist (s : Settings) : (s.fields.map Prod.fst).Sublist fieldNames := by
  have hone {α : Type} (name : String) (x : Option α) (f : α → Json) :
      ((x.toList.map fun y => (name, f y)).map Prod.fst).Sublist [name] := by
    cases x <;> simp
  have hstop : ((if s.stopSequences.isEmpty then [] else
      [("stopSequences", Json.strings s.stopSequences)]).map Prod.fst).Sublist ["stopSequences"] := by
    split <;> simp
  simp only [fields, floatMember, List.map_append]
  exact (((((hone _ _ _).append (hone _ _ _)).append (hone _ _ _)).append (hone _ _ _)).append
    (hone _ _ _)).append hstop

theorem mem_fieldNames {s : Settings} {m : String × Json} (h : m ∈ s.fields) : m.1 ∈ fieldNames :=
  s.names_fields_sublist.subset (List.mem_map_of_mem h)

theorem record?_toJson {s : Settings} (h : ∀ m ∈ s.extra, m.1 ∉ fieldNames) :
    Json.record? fieldNames s.toJson = some s.fields :=
  Json.record?_append (fun _ => mem_fieldNames) h (s.names_fields_sublist.nodup (by decide))

theorem others_toJson {s : Settings} (h : ∀ m ∈ s.extra, m.1 ∉ fieldNames) :
    ((s.fields ++ s.extra).filter fun m => m.1 ∉ fieldNames) = s.extra := by
  rw [List.filter_append, List.filter_eq_nil_iff.2 fun m hm => by simpa using mem_fieldNames hm,
    List.filter_eq_self.2 fun m hm => decide_eq_true (h m hm), List.nil_append]

theorem nullable?_word32?_ofNat (n : UInt32) :
    Json.nullable? word32? (.ofNat n.toNat) = some (some n) := by
  have hread : word32? (.ofNat n.toNat) = some n := by
    rw [word32?, Json.natBelow?_ofNat n.toNat_lt, Option.map_some, UInt32.ofNat_toNat]
  exact congrArg (Option.map some) hread

theorem ofJson?_toJson (maxTokens : Option UInt32) (stopSequences : List String) {extra : Json.Record}
    (hnames : ∀ m ∈ extra, m.1 ∉ fieldNames) (hsorted : SortsTo (.object extra) (.object extra)) :
    ofJson? (toJson { maxTokens, stopSequences, extra }) =
      some { maxTokens, stopSequences, extra } := by
  have hrecord := record?_toJson (s := { maxTokens, stopSequences, extra }) hnames
  have hothers := others_toJson (s := { maxTokens, stopSequences, extra }) hnames
  obtain ⟨ms, hms, hextra⟩ := Option.map_eq_some_iff.1 hsorted
  rw [Json.object.injEq] at hextra
  rw [toJson_eq] at hrecord ⊢
  simp only [ofJson?, hrecord, hothers, hms]
  cases maxTokens <;> cases stopSequences <;>
    simp [fields, floatMember, Json.Record.optional?, List.lookup_cons, hextra,
      nullable?_word32?_ofNat, Json.list?_strings]

theorem plain_fields (maxTokens : Option UInt32) (stopSequences : List String) (extra : Json.Record) :
    ∀ m ∈ fields { maxTokens, stopSequences, extra }, m.2.Plain ∧ m.2.depth ≤ 1 := by
  have htokens (n : UInt32) : (Json.ofNat n.toNat).Plain ∧ (Json.ofNat n.toNat).depth ≤ 1 :=
    ⟨Json.fits_ofNat (n.toNat_lt.trans (by decide)), Nat.zero_le 1⟩
  have hstop (xs : List String) : (Json.strings xs).Plain ∧ (Json.strings xs).depth ≤ 1 :=
    ⟨Json.plain_strings xs, Json.depth_le_succ_iff.2 (List.forall_mem_map.2 fun _ _ => Nat.le_refl 0)⟩
  cases maxTokens <;> cases stopSequences <;> simp [fields, floatMember, htokens, hstop]

theorem parse?_text (maxTokens : Option UInt32) (stopSequences : List String) {extra : Json.Record}
    (hnames : ∀ m ∈ extra, m.1 ∉ fieldNames) (hsorted : (Json.object extra).Everywhere Sorted)
    (hexact : (Json.object extra).Everywhere Exact)
    (hdepth : (Json.object extra).depth ≤ Json.depthLimit) :
    Json.parse? (text { maxTokens, stopSequences, extra }) =
        some (toJson { maxTokens, stopSequences, extra }) ∧
      parse? (text { maxTokens, stopSequences, extra }) =
        some { maxTokens, stopSequences, extra } := by
  have hfields := plain_fields maxTokens stopSequences extra
  have hplain : (toJson { maxTokens, stopSequences, extra }).Plain := by
    have hextra := Json.plainMembers_iff.1 (Json.plain_of_sorted hsorted hexact)
    exact Json.plainMembers_iff.2 (List.forall_mem_append.2 ⟨fun m hm => (hfields m hm).1, hextra⟩)
  have hread : Json.parse? (text { maxTokens, stopSequences, extra }) =
      some (toJson { maxTokens, stopSequences, extra }) := by
    refine Json.parse?_compact hplain (Json.depth_le_succ_iff.2 ?_)
    rw [toJson_eq, Json.children, List.forall_mem_map, List.forall_mem_append]
    refine ⟨fun m hm => (hfields m hm).2.trans (by decide), ?_⟩
    exact List.forall_mem_map.1 (Json.depth_le_succ_iff.1 hdepth)
  refine ⟨hread, ?_⟩
  rw [parse?, hread, Option.bind_eq_bind, Option.bind_some]
  exact ofJson?_toJson maxTokens stopSequences hnames (Json.sortsTo_self hsorted)

theorem isDefault_iff (s : Settings) : s.isDefault = true ↔ s.text = "\x7b\x7d" := by
  have hempty : s.isDefault = true ↔ s.fields ++ s.extra = [] := by
    simp [isDefault, fields, floatMember, and_assoc]
  rw [hempty, text, toJson_eq, Json.compact_eq_empty_iff]

/-- A member that is no field is printed as it was read, all the way down. -/
theorem face_at?_toJson {s : Settings} {members : Json.Record}
    (hnames : ∀ m ∈ s.extra, m.1 ∉ fieldNames)
    (h : SortsTo (.object (members.filter fun m => m.1 ∉ fieldNames)) (.object s.extra))
    (name : String) (hname : name ∉ fieldNames) (path : List Json.Key) :
    (s.toJson.at? (.name name :: path)).map Json.face =
      ((Json.object members).at? (.name name :: path)).map Json.face := by
  have hother : decide (name ∉ fieldNames) = true := decide_eq_true hname
  have hwritten := Json.at?_filter (p := fun name => name ∉ fieldNames) hother (s.fields ++ s.extra) path
  have hread := Json.at?_filter (p := fun name => name ∉ fieldNames) hother members path
  rw [others_toJson hnames] at hwritten
  rw [toJson_eq, ← hwritten, ← hread, h.face_at?]

/-- The compact text of settings that were read and have no floats is read as the same settings, and so
it is printed again. Each member that is no field stands in it, all the way down, as it last stood in
the text before, and none of these takes the name of a field. The text is that of an empty object just
for the default settings. -/
theorem compact_form_canonical {text : String} {s : Settings} (h : parse? text = some s)
    (htemperature : s.temperature = none) (htopP : s.topP = none)
    (hpresence : s.presencePenalty = none) (hfrequency : s.frequencyPenalty = none)
    (hwhole : ∀ path x, (Json.object s.extra).at? path ≠ some (.number (.float x))) :
    parse? s.text = some s ∧
      (parse? s.text).map Settings.text = some s.text ∧
      (∃ j k, Json.parse? text = some j ∧ Json.parse? s.text = some k ∧
        ∀ name ∉ fieldNames, ∀ path,
          (k.at? (.name name :: path)).map Json.face = (j.at? (.name name :: path)).map Json.face) ∧
      (∀ m ∈ s.extra, m.1 ∉ fieldNames) ∧
      (s.isDefault = true ↔ s.text = "\x7b\x7d") := by
  obtain ⟨j, hj, hs⟩ := Option.bind_eq_some_iff.1 h
  obtain ⟨members, rfl, hsorts⟩ := ofJson?_eq_some hs
  have hbounded := Json.bounded_of_parse? hj
  have hnames : ∀ m ∈ s.extra, m.1 ∉ fieldNames := by
    intro m hm
    obtain ⟨n, hn, hsame⟩ := hsorts.exists_name m hm
    exact hsame ▸ of_decide_eq_true (List.mem_filter.1 hn).2
  have hfitting := Json.everywhere_filter (fun name => name ∉ fieldNames) hbounded.fitting trivial
  have hdepth := hsorts.depth_le.trans
    (Json.depth_filter_le (fun name => name ∉ fieldNames) hbounded.depth_le)
  obtain ⟨temperature, topP, presencePenalty, frequencyPenalty, maxTokens, stopSequences, extra⟩ := s
  subst htemperature htopP hpresence hfrequency
  obtain ⟨hread, hparse⟩ := parse?_text maxTokens stopSequences hnames hsorts.everywhere_sorted
    (hsorts.exact hfitting hwhole) hdepth
  exact ⟨hparse, by rw [hparse, Option.map_some], ⟨_, _, hj, hread, face_at?_toJson hnames hsorts⟩,
    hnames, isDefault_iff _⟩

def mixed : Json :=
  .object [("topP", .null),
    ("b", .object [("z", .ofNat 1), ("a", .array [.bool true, .null]), ("z", .number (.whole (-2)))]),
    ("maxTokens", .ofNat 8), ("a", .ofNat 0), ("stopSequences", .array []), ("a", .string "é\n")]

def mixedSettings : Settings where
  maxTokens := some 8
  extra := [("a", .string "é\n"),
    ("b", .object [("a", .array [.bool true, .null]), ("z", .number (.whole (-2)))])]

theorem compact_form_canonical_mixed :
    parse? mixed.compact = some mixedSettings ∧
      (∀ path x, (Json.object mixedSettings.extra).at? path ≠ some (.number (.float x))) ∧
      mixedSettings.text = "\x7b\x22maxTokens\x22:8,\x22a\x22:\x22é\\n\x22,\x22b\x22:" ++
        "\x7b\x22a\x22:[true,null],\x22z\x22:-2\x7d\x7d" ∧
      parse? mixedSettings.text = some mixedSettings ∧
      ∃ k, Json.parse? mixedSettings.text = some k ∧
        (k.at? [.name "b", .name "z"]).map Json.face = some (.number (.whole (-2))) := by
  have hmixed : mixed.Plain := by
    simp [mixed, Json.Plain, Json.PlainMembers, Json.PlainItems, Json.ofNat, Json.Number.Fits,
      Json.Numeral.wordLimit]
  have hextra : (Json.object mixedSettings.extra).Plain := by
    simp [mixedSettings, Json.Plain, Json.PlainMembers, Json.PlainItems, Json.Number.Fits,
      Json.Numeral.wordLimit]
  have hwhole : ∀ path x, (Json.object mixedSettings.extra).at? path ≠ some (.number (.float x)) :=
    fun path x hx => hextra.everywhere path _ hx
  have hread : Json.parse? mixed.compact = some mixed := Json.parse?_compact hmixed (by decide)
  have hparse : parse? mixed.compact = some mixedSettings := by
    rw [parse?, hread]
    rfl
  obtain ⟨hback, -, ⟨j, k, hj, hk, hface⟩, -⟩ :=
    compact_form_canonical hparse rfl rfl rfl rfl hwhole
  obtain rfl : mixed = j := Option.some.inj (hread.symm.trans hj)
  have hlast : (mixed.at? [.name "b", .name "z"]).map Json.face = some (.number (.whole (-2))) := by
    simp [mixed, Json.at?, Json.child?, Json.face, List.lookup_cons]
  exact ⟨hparse, hwhole, by decide +kernel, hback, k, hk, (hface "b" (by decide) [.name "z"]).trans hlast⟩

end Orchestra.Settings
