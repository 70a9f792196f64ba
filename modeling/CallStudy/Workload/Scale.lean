import CallStudy.Number.Binary
import CallStudy.Number.Layout

/-!
One scaling rule for several types of number: double, divide by three halves in double precision,
and convert back by the rules of the type.
-/

namespace CallStudy

/-- A type of number that can be scaled. -/
class Scalable (α : Type) extends LT α where
  typeName : String
  /-- Scaled values above it are large. -/
  threshold : α
  toReal : α → Float
  ofReal : Float → α
  display : α → String
  decidableLT : DecidableLT α

attribute [reducible, instance] Scalable.decidableLT

instance : Scalable Int8 where
  typeName := "i8"
  threshold := 100
  toReal n := .ofInt n.toInt
  ofReal x := .ofInt (Binary.truncate Int8.minValue.toInt Int8.maxValue.toInt x)
  display n := toString n.toInt
  decidableLT := inferInstance

instance : Scalable Int16 where
  typeName := "i16"
  threshold := 100
  toReal n := .ofInt n.toInt
  ofReal x := .ofInt (Binary.truncate Int16.minValue.toInt Int16.maxValue.toInt x)
  display n := toString n.toInt
  decidableLT := inferInstance

instance : Scalable Int32 where
  typeName := "i32"
  threshold := 100
  toReal n := .ofInt n.toInt
  ofReal x := .ofInt (Binary.truncate Int32.minValue.toInt Int32.maxValue.toInt x)
  display n := toString n.toInt
  decidableLT := inferInstance

instance : Scalable Int64 where
  typeName := "i64"
  threshold := 100
  toReal n := .ofInt n.toInt
  ofReal x := .ofInt (Binary.truncate Int64.minValue.toInt Int64.maxValue.toInt x)
  display n := toString n.toInt
  decidableLT := inferInstance

instance : Scalable Float32 where
  typeName := "f32"
  threshold := 100
  toReal := Binary.widen
  ofReal := Binary.narrow
  display := Layout.plain.single
  decidableLT := inferInstance

instance : Scalable Float where
  typeName := "f64"
  threshold := 100
  toReal := id
  ofReal := id
  display := Layout.plain.double
  decidableLT := inferInstance

/-- A value before and after scaling. -/
structure Scaled (α : Type) where
  unscaled : α
  processed : α

variable {α : Type} [Scalable α]

/-- Whether the scaled value exceeds the threshold in its own type. -/
def Scaled.isLarge (s : Scaled α) : Bool := Scalable.threshold < s.processed

def scaleValue (value : α) : Scaled α where
  unscaled := value
  processed := Scalable.ofReal (Scalable.toReal value * 2.0 / 1.5)

def standaloneText : String := "This is a standalone function."

end CallStudy
