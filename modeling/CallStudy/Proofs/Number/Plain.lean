import CallStudy.Proofs.Number.Numeral

/-!
Numbers in plain text read back. A whole number has no point in it, unlike in the layouts that a
document is written in, and the words for special values are read in any case.
-/

set_option autoImplicit false

namespace CallStudy.Layout

open Float.Model (Format UnpackedFloat)
open Float.Model.UnpackedFloat
open Numeral

end CallStudy.Layout
