import DesignCompiler.Number.Binary
/-!
# Rounding to whole numbers and to words

The rules here act on the exact number `± m · 2 ^ q` in a float. `Float.round` and `Float32.round`
take a half away from zero and keep the sign of a result that is zero; `Float.truncate` cuts toward
zero. `Float.toIntSaturating` and its kin give an integer in a range: cut toward zero, stopped at
the ends of the range, and `0` for what is not a number.
-/

namespace DesignCompiler

/-- Half a unit is added before the cut, so a half goes up in size. -/
def BinaryParts.round : BinaryParts → BinaryParts
  | .finite negative m q =>
    if 0 ≤ q then .finite negative m q
    else
      let unit := Nat.pow 2 (-q).toNat
      .finite negative ((2 * m + unit) / (2 * unit)) 0
  | p => p

/-- The fraction is dropped. -/
def BinaryParts.truncate : BinaryParts → BinaryParts
  | .finite negative m q =>
    if 0 ≤ q then .finite negative m q else .finite negative (m / Nat.pow 2 (-q).toNat) 0
  | p => p

/-- The integer between `low` and `high` nearest to the number without its fraction. -/
def BinaryParts.toIntSaturating (low high : Int) : BinaryParts → Int
  | .nan => 0
  | .infinite negative => if negative then low else high
  | .finite negative m q =>
    let size : Int := if 0 ≤ q then m * Nat.pow 2 q.toNat else m / Nat.pow 2 (-q).toNat
    max low (min high (if negative then -size else size))

/-- The nearest whole number, a half away from zero. -/
def Float.round (x : Float) : Float := Float.ofParts (Float.parts x).round

/-- The nearest whole number, a half away from zero. -/
def Float32.round (x : Float32) : Float32 := Float32.ofParts (Float32.parts x).round

/-- The whole number next to `x` on the side of zero. -/
def Float.truncate (x : Float) : Float := Float.ofParts (Float.parts x).truncate

/-- The integer of `x` in the range `low … high`. -/
def Float.toIntSaturating (low high : Int) (x : Float) : Int :=
  (Float.parts x).toIntSaturating low high

/-- The natural number of `x` up to `high`. -/
def Float.toNatSaturating (high : Nat) (x : Float) : Nat :=
  (Float.toIntSaturating 0 high x).toNat

/-- The natural number of `x` up to `high`. -/
def Float32.toNatSaturating (high : Nat) (x : Float32) : Nat :=
  ((Float32.parts x).toIntSaturating 0 high).toNat

/-- The greater of two numbers; one that is not a number gives way to the other. -/
def Float.larger (x y : Float) : Float := if x < y || x.isNaN then y else x

/-- `x` stopped at the ends of `low … high`; what is not a number stays so. -/
def Float32.clamp (low high x : Float32) : Float32 :=
  if x < low then low else if high < x then high else x

end DesignCompiler
