namespace Orchestra.Text

/-- The value of a digit of a base up to sixteen. Above nine the letters count, in either case. -/
def digitValue? (base : Nat) (c : Char) : Option Nat :=
  let n :=
    if '0' ≤ c ∧ c ≤ '9' then c.toNat - 48
    else if 'a' ≤ c ∧ c ≤ 'f' then c.toNat - 87
    else if 'A' ≤ c ∧ c ≤ 'F' then c.toNat - 55
    else base
  if n < base then some n else none

def isDigitOf (base : Nat) (c : Char) : Bool :=
  (digitValue? base c).isSome

def number? (base : Nat) (cs : List Char) : Option Nat :=
  cs.foldlM (fun n c => (digitValue? base c).map (base * n + ·)) 0

end Orchestra.Text
