/-!
Conversions between binary numbers of two widths and integers, on the exact value m · 2^q that a
number stands for. Narrowing and widening round to nearest with ties to even; an integer part is
taken toward zero and clamped to a range.
-/

namespace CallStudy.Binary

open Float.Model (UnpackedFloat Format)

/-- A value rounded to a format. -/
def rounded (format : Format) : UnpackedFloat → UnpackedFloat
  | .finite sign mantissa exponent _ => UnpackedFloat.round format sign mantissa exponent
  | x => x

def narrow (x : Float) : Float32 :=
  .ofModel (.pack (rounded .binary32 x.toModel.unpack))

def widen (x : Float32) : Float :=
  .ofModel (.pack (rounded .binary64 x.toModel.unpack))

/-- The integer part of m · 2^q. -/
def floor (mantissa : Nat) (exponent : Int) : Nat :=
  if 0 ≤ exponent then mantissa <<< exponent.toNat else mantissa >>> (-exponent).toNat

/-- The integer part toward zero, clamped to `low` and `high`. What is no number gives zero. -/
def truncated (low high : Int) : UnpackedFloat → Int
  | .notANumber => 0
  | .zero _ => 0
  | .infinity .negative => low
  | .infinity .positive => high
  | .finite sign mantissa exponent _ => max low (min high (sign.apply (floor mantissa exponent)))

def truncate (low high : Int) (x : Float) : Int := truncated low high x.toModel.unpack

end CallStudy.Binary
