import Orchestra.Decimal.Digits

namespace Orchestra.Decimal

/-- The value `mantissa * 2 ^ exponent`. Below a power of two the next smaller value is only half
as far away as the next larger one. -/
structure Binary where
  mantissa : Nat
  exponent : Int
  narrow : Bool

def hiddenBit : Nat := 0x10000000000000

def Binary.ofBits (bits : UInt64) : Binary :=
  let field := (bits >>> 52).toNat % 2048
  let fraction := bits.toNat % hiddenBit
  if field = 0 then ⟨fraction, -1074, false⟩
  else ⟨fraction + hiddenBit, field - 1075, fraction == 0 && 1 < field⟩

def ratio (n : Nat) (e k : Int) : Nat × Nat :=
  (n * Nat.pow 2 e.toNat * Nat.pow 10 (-k).toNat, Nat.pow 2 (-e).toNat * Nat.pow 10 k.toNat)

/-- The multiple of `10 ^ k` nearest to the value among those that round to it. Of two equally
near the even one is taken. The ends of the interval round to the value when its mantissa is even. -/
def Binary.onGrid? (b : Binary) (k : Int) : Option Nat :=
  let (n, d) := ratio (4 * b.mantissa) (b.exponent - 2) k
  let (low, _) := ratio (4 * b.mantissa - if b.narrow then 1 else 2) (b.exponent - 2) k
  let (high, _) := ratio (4 * b.mantissa + 2) (b.exponent - 2) k
  let inside (x : Nat) : Bool :=
    if b.mantissa % 2 = 0 then low ≤ x * d && x * d ≤ high else low < x * d && x * d < high
  let below := n / d
  let above := below + 1
  match inside below, inside above with
  | true, true =>
      let gap := 2 * (n - below * d)
      if gap < d || (gap == d && below % 2 == 0) then some below else some above
  | true, false => some below
  | false, true => some above
  | false, false => none

def Binary.coarsest (b : Binary) : Nat → Int → Nat × Int
  | 0, k => (b.mantissa, k)
  | steps + 1, k =>
      match b.onGrid? k with
      | some x => (x, k)
      | none => b.coarsest steps (k - 1)

/-- Digits and power of ten of the shortest decimal that reads back as the value: the point found
on the coarsest decimal grid that has one. -/
def Binary.shortest (b : Binary) : Nat × Int :=
  b.coarsest 640 309

structure Layout where
  least : Int
  most : Int

def zeros (n : Int) : List Char :=
  List.replicate n.toNat '0'

def signed (n : Int) : List Char :=
  if n < 0 then '-' :: digits n.natAbs else digits n.natAbs

def Layout.write (layout : Layout) (mantissa : Nat) (exponent : Int) : List Char :=
  let ds := digits mantissa
  let point := ds.length + exponent
  if 0 ≤ exponent && point ≤ layout.most then ds ++ zeros exponent ++ ['.', '0']
  else if 0 < point && point ≤ layout.most then
    ds.take point.toNat ++ '.' :: ds.drop point.toNat
  else if layout.least < point && point ≤ 0 then '0' :: '.' :: zeros (-point) ++ ds
  else match ds with
    | [d] => d :: 'e' :: signed (point - 1)
    | d :: rest => d :: '.' :: rest ++ 'e' :: signed (point - 1)
    | [] => []

def Layout.writeFloat (layout : Layout) (x : Float) : List Char :=
  let b := Binary.ofBits x.toBits
  let sign := if x.toBits >>> 63 = 1 then ['-'] else []
  if b.mantissa = 0 then sign ++ ['0', '.', '0']
  else
    let (mantissa, exponent) := b.shortest
    sign ++ layout.write mantissa exponent

end Orchestra.Decimal
