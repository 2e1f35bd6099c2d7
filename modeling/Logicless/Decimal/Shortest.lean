namespace Logicless.Decimal

/-!
The fewest decimal digits that identify a binary64 number.

A finite number is decoded into `mantissa * 2 ^ exponent`. The decimals that round to it form an
interval, whose ends belong to it when the mantissa is even. The search goes through grids of
powers of ten, coarsest first, and tests the two grid points next to the number.
-/

structure Binary where
  mantissa : Nat
  exponent : Int
  narrowBelow : Bool
  deriving Repr, DecidableEq

def Binary.ofBits (bits : UInt64) : Binary :=
  let scale := ((bits >>> 52) &&& 0x7FF).toNat
  let fraction := (bits &&& 0xFFFFFFFFFFFFF).toNat
  if scale == 0 then ⟨fraction, -1074, false⟩
  else ⟨0x10000000000000 + fraction, (scale : Int) - 1075, fraction == 0 && scale > 1⟩

structure Dec where
  digits : Nat
  exponent : Int
  deriving Repr, DecidableEq

def compareScaled (a : Nat) (i : Int) (b : Nat) (j : Int) : Ordering :=
  compare (a * Nat.pow 10 i.toNat * Nat.pow 2 (-j).toNat)
    (b * Nat.pow 2 j.toNat * Nat.pow 10 (-i).toNat)

def Binary.readsBack (x : Binary) (d : Dec) : Bool :=
  let low := if x.narrowBelow then 4 * x.mantissa - 1 else 4 * x.mantissa - 2
  let high := 4 * x.mantissa + 2
  let endsBelong := x.mantissa % 2 == 0
  let toLow := compareScaled d.digits d.exponent low (x.exponent - 2)
  let toHigh := compareScaled d.digits d.exponent high (x.exponent - 2)
  (toLow == .gt || (endsBelong && toLow == .eq)) && (toHigh == .lt || (endsBelong && toHigh == .eq))

def Binary.floorAt (x : Binary) (scale : Int) : Nat :=
  (x.mantissa * Nat.pow 2 x.exponent.toNat * Nat.pow 10 (-scale).toNat) /
    (Nat.pow 2 (-x.exponent).toNat * Nat.pow 10 scale.toNat)

def Binary.leading (x : Binary) : Int :=
  let guess := ((x.mantissa.log2 : Int) + x.exponent) * 30103 / 100000 - 1
  let candidates := (List.range 5).map fun step : Nat => guess + Int.ofNat step
  (candidates.find? fun k => compareScaled 1 k x.mantissa x.exponent == .gt).getD (guess + 5)

/-- Of the two points of a grid next to the number, the one that reads back; of two that do, the
nearer, and the even one of two equally near. -/
def Binary.onGrid (x : Binary) (scale : Int) : Option Dec :=
  let below : Dec := ⟨x.floorAt scale, scale⟩
  let above : Dec := ⟨below.digits + 1, scale⟩
  match x.readsBack below, x.readsBack above with
  | false, false => none
  | true, false => some below
  | false, true => some above
  | true, true =>
      match compareScaled (2 * below.digits + 1) scale x.mantissa (x.exponent + 1) with
      | .gt => some below
      | .lt => some above
      | .eq => if below.digits % 2 == 0 then some below else some above

def Binary.exact (x : Binary) : Dec :=
  if x.exponent ≥ 0 then ⟨x.mantissa * Nat.pow 2 x.exponent.toNat, 0⟩
  else ⟨x.mantissa * Nat.pow 5 (-x.exponent).toNat, x.exponent⟩

/-- Moves factors of ten from the digits into the exponent, at most `fuel` of them. -/
def Dec.stripped : Nat → Dec → Dec
  | 0, d => d
  | fuel + 1, d =>
      if d.digits != 0 && d.digits % 10 == 0 then Dec.stripped fuel ⟨d.digits / 10, d.exponent + 1⟩
      else d

def Binary.shortest (x : Binary) : Dec :=
  let leading := x.leading
  let found := (List.range 17).findSome? fun count : Nat => x.onGrid (leading - 1 - Int.ofNat count)
  (found.getD x.exact).stripped 400

end Logicless.Decimal
