import Orchestra.Text.CasedTable
import Orchestra.Text.IgnorableTable
import Orchestra.Text.LowercaseTable

namespace Orchestra.Text

def inRanges (ranges : List (Nat × Nat)) (n : Nat) : Bool :=
  ranges.any fun r => r.1 ≤ n && n ≤ r.2

def CaseRun.covers (run : CaseRun) (n : Nat) : Bool :=
  run.first ≤ n && n ≤ run.last && (n - run.first) % run.stride == 0

/-- The full lowercase mapping of one character. Only the capital dotted I becomes two. -/
def lower (c : Char) : List Char :=
  if c.toNat < 0x80 then [c.toLower]
  else if c.toNat = 0x130 then ['i', '\u0307']
  else match lowercaseRuns.find? (·.covers c.toNat) with
    | some run => [Char.ofNat (c.toNat + run.shift).toNat]
    | none => [c]

def fold (s : String) : List Char :=
  s.toList.flatMap lower

def SameName (a b : String) : Prop :=
  fold a = fold b

instance (a b : String) : Decidable (SameName a b) :=
  inferInstanceAs (Decidable (fold a = fold b))

theorem SameName.refl (a : String) : SameName a a := rfl

theorem SameName.symm {a b : String} (h : SameName a b) : SameName b a := Eq.symm h

theorem SameName.trans {a b c : String} (h : SameName a b) (k : SameName b c) : SameName a c :=
  Eq.trans h k

def isCased (c : Char) : Bool :=
  if c.toNat < 0x80 then c.isAlpha else inRanges casedRanges c.toNat

def isIgnorable (c : Char) : Bool :=
  if c.toNat < 0x80 then
    c == '\x27' || c == '.' || c == ':' || c == '^' || c == '\x60'
  else inRanges ignorableRanges c.toNat

def besideCased (cs : List Char) : Bool :=
  match cs.dropWhile isIgnorable with
  | [] => false
  | c :: _ => isCased c

/-- Lowercase of a whole text. A capital sigma that ends a word takes its final form, so the
characters already passed are kept, nearest first. -/
def lowerAfter (before : List Char) : List Char → List Char
  | [] => []
  | c :: rest =>
      (if c = 'Σ' then
        (if besideCased before && !besideCased rest then ['ς'] else ['σ'])
      else lower c) ++ lowerAfter (c :: before) rest

def lowercase (s : String) : String :=
  String.ofList (lowerAfter [] s.toList)

def sameAscii (a b : String) : Bool :=
  a.toList.map Char.toLower == b.toList.map Char.toLower

theorem sameAscii_refl (a : String) : sameAscii a a = true := by
  simp [sameAscii]

theorem lower_toLower_ascii : ∀ n < 0x80, lower (Char.ofNat n).toLower = lower (Char.ofNat n) := by
  decide

theorem lower_toLower (c : Char) : lower c.toLower = lower c := by
  by_cases h : c.toNat < 0x80
  · have hascii := lower_toLower_ascii c.toNat h
    rwa [Char.ofNat_toNat] at hascii
  · have hupper : ¬ (c.val ≥ 'A'.val ∧ c.val ≤ 'Z'.val) := by
      rintro ⟨-, hz⟩
      exact h (Nat.lt_of_le_of_lt (UInt32.le_iff_toNat_le.1 hz) (by decide))
    exact congrArg lower (dif_neg hupper)

theorem sameName_of_sameAscii {a b : String} (h : sameAscii a b = true) : SameName a b := by
  have hfold (s : String) : fold s = (s.toList.map Char.toLower).flatMap lower := by
    simp only [fold, List.flatMap_map, lower_toLower]
  rw [SameName, hfold, hfold, eq_of_beq h]

end Orchestra.Text
