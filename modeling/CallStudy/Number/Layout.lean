import CallStudy.Number.Decimal

/-!
How a binary number is written in decimal. A layout holds what formats differ in: which numbers
are written without an exponent, whether whole ones get a fraction, and the words for what has no
digits.
-/

namespace CallStudy

open Float.Model (UnpackedFloat Format)
open Float.Model.UnpackedFloat (Sign)

structure Layout where
  tie : Tie
  /-- The least and the greatest exponent of a leading digit that need no exponent. Without them
  no number is written with one. -/
  positional : Option (Int × Int)
  /-- Whether a whole number without an exponent ends in `.0`. -/
  fraction : Bool
  /-- Whether an exponent that is not negative has a sign. -/
  plus : Bool
  notANumber : String
  infinity : Sign → String

namespace Layout

/-- Numbers without any exponent; whole ones have no fraction. -/
def plain : Layout where
  tie := .up
  positional := none
  fraction := false
  plus := false
  notANumber := "NaN"
  infinity
    | .positive => "inf"
    | .negative => "-inf"

variable (l : Layout)

def isPositional (leading : Int) : Bool :=
  match l.positional with
  | some (least, greatest) => least ≤ leading ∧ leading ≤ greatest
  | none => true

/-- Digits with a point before the last `places` of them. -/
def pointed (digits : List Char) (places : Nat) : List Char :=
  if places < digits.length then
    digits.take (digits.length - places) ++ '.' :: digits.drop (digits.length - places)
  else
    '0' :: '.' :: List.replicate (places - digits.length) '0' ++ digits

def withoutExponent (digits : List Char) (exponent : Int) : List Char :=
  if 0 ≤ exponent then
    digits ++ List.replicate exponent.toNat '0' ++ if l.fraction then ['.', '0'] else []
  else
    pointed digits (-exponent).toNat

def withExponent (digits : List Char) (leading : Int) : List Char :=
  digits.take 1 ++ (if digits.length = 1 then [] else '.' :: digits.drop 1) ++ 'e' ::
    (if leading < 0 then ['-'] else if l.plus then ['+'] else []) ++ (Nat.repr leading.natAbs).toList

/-- The text of a decimal. -/
def decimal (d : Decimal) : List Char :=
  let digits := (Nat.repr d.digits).toList
  let leading := d.exponent + (digits.length - 1 : Nat)
  if l.isPositional leading then l.withoutExponent digits d.exponent
  else l.withExponent digits leading

def signed (sign : Sign) (text : List Char) : List Char :=
  match sign with
  | .positive => text
  | .negative => '-' :: text

/-- The text of a number of some format. -/
def write (format : Format) : UnpackedFloat → String
  | .notANumber => l.notANumber
  | .infinity sign => l.infinity sign
  | .zero sign => String.ofList (signed sign (l.withoutExponent ['0'] 0))
  | .finite sign mantissa exponent _ =>
    String.ofList (signed sign (l.decimal (.shortest format l.tie mantissa exponent)))

def double (x : Float) : String := l.write .binary64 x.toModel.unpack

def single (x : Float32) : String := l.write .binary32 x.toModel.unpack

end Layout
end CallStudy
