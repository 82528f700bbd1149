namespace Orchestra.Text

/-- The characters of the Unicode property `White_Space`. -/
def isWhite (c : Char) : Bool :=
  let n := c.toNat
  if n < 0x80 then n == 0x20 || (0x09 ≤ n && n ≤ 0x0D)
  else n == 0x85 || n == 0xA0 || n == 0x1680 || (0x2000 ≤ n && n ≤ 0x200A) || n == 0x2028 ||
    n == 0x2029 || n == 0x202F || n == 0x205F || n == 0x3000

def trimEnd (cs : List Char) : List Char :=
  (cs.reverse.dropWhile isWhite).reverse

def trimList (cs : List Char) : List Char :=
  trimEnd (cs.dropWhile isWhite)

def trim (s : String) : String :=
  String.ofList (trimList s.toList)

@[simp] theorem trim_toList (s : String) : (trim s).toList = trimList s.toList := by
  simp [trim]

theorem trimEnd_eq_self {cs : List Char} (h : ∀ c ∈ cs.getLast?, isWhite c = false) :
    trimEnd cs = cs := by
  rcases List.eq_nil_or_concat cs with rfl | ⟨xs, x, rfl⟩
  · rfl
  · simp [trimEnd, h x (by simp)]

theorem trimList_eq_self {cs : List Char} (hl : ∀ c ∈ cs.head?, isWhite c = false)
    (hr : ∀ c ∈ cs.getLast?, isWhite c = false) : trimList cs = cs := by
  cases cs with
  | nil => rfl
  | cons c r => simpa [trimList, hl c (by simp)] using trimEnd_eq_self hr

end Orchestra.Text
