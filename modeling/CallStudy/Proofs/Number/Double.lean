import CallStudy.Proofs.Number.Order

/-!
Arithmetic and conversions on exact values. A result is the exact one rounded: it keeps every bound
that its format has, and is infinite where the exact one reaches the first power of two above all
finite numbers.
-/

set_option autoImplicit false

namespace CallStudy.Binary

open Float.Model (Format totalExponent UnpackedFloat)
open Float.Model.UnpackedFloat

section Format

variable {format : Format} {m : Nat} {e : Int}

/-- The first power of two above all finite numbers of a format. -/
def limit (format : Format) : ℚ := 2 ^ (2 ^ (format.exponentBits - 1) : Int)

theorem limit_pos (format : Format) : 0 < limit format := by
  unfold limit
  positivity

theorem inRange_iff (wide : 2 ≤ format.exponentBits) (h : Canonical format m e) :
    InRange format e ↔ (m : ℚ) * 2 ^ e < limit format := by
  obtain ⟨bias, double⟩ := bias_add format
  have unit : (0 : ℚ) < 2 ^ e := by positivity
  have places : InRange format e ↔
      format.mantissaBits + e ≤ (2 : Int) ^ (format.exponentBits - 1) := by
    unfold InRange Format.mantissaBits
    push_cast
    omega
  rw [places]
  constructor
  · intro range
    have short : (m : ℚ) < (2 ^ format.mantissaBits : Nat) := by exact_mod_cast h.lt
    calc (m : ℚ) * 2 ^ e < (2 ^ format.mantissaBits : Nat) * 2 ^ e :=
          mul_lt_mul_of_pos_right short unit
      _ = 2 ^ (format.mantissaBits + e) := (two_zpow_add _ _).symm
      _ ≤ limit format := zpow_le_zpow_right₀ one_le_two range
  · intro small
    by_contra large
    have power : (2 : Int) ≤ 2 ^ (format.exponentBits - 1) := by
      calc (2 : Int) = 2 ^ 1 := rfl
        _ ≤ 2 ^ (format.exponentBits - 1) := pow_le_pow_right₀ one_le_two (by omega)
    have more : e ≠ format.minExponent := by
      unfold Format.minExponent
      omega
    have full : ((2 ^ format.mantissaBitsWithoutImplicit : Nat) : ℚ) ≤ m := by
      exact_mod_cast h.full.resolve_right more
    have reached : limit format ≤ m * 2 ^ e := by
      calc limit format ≤ 2 ^ (format.mantissaBitsWithoutImplicit + e) := by
            apply zpow_le_zpow_right₀ one_le_two
            unfold Format.mantissaBits at large
            omega
        _ = (2 ^ format.mantissaBitsWithoutImplicit : Nat) * 2 ^ e := two_zpow_add _ _
        _ ≤ m * 2 ^ e := mul_le_mul_of_nonneg_right full unit.le
    exact absurd small (not_lt.mpr reached)

theorem abs_signed (sign : Sign) {x : ℚ} (nonneg : 0 ≤ x) : |signed sign x| = x := by
  cases sign with
  | positive => exact abs_of_nonneg nonneg
  | negative => exact (abs_neg x).trans (abs_of_nonneg nonneg)

/-- A number too large for the format becomes infinite. -/
theorem unpack_pack_of_not_inRange {sign : Sign} {pos : 0 < m} (large : ¬ InRange format e) :
    UnpackedFloat.unpack format (UnpackedFloat.pack format (.finite sign m e pos)) =
      .infinity sign := by
  have above : 2 ^ format.exponentBits ≤
      (e + format.exponentBias + format.mantissaBitsWithoutImplicit).toNat + 1 := by
    have bound : ((2 ^ format.exponentBits : Nat) : Int) ≤
        e + format.exponentBias + format.mantissaBitsWithoutImplicit + 1 := by
      unfold InRange at large
      push_cast
      omega
    omega
  simp only [UnpackedFloat.pack]
  rw [if_pos above]
  exact unpack_packedInfinity sign

theorem isFinite_unpack_pack_iff (wide : 2 ≤ format.exponentBits) {v : UnpackedFloat}
    (h : IsRounded format v) :
    (UnpackedFloat.unpack format (UnpackedFloat.pack format v)).isFinite ↔
      |toRat v| < limit format := by
  rcases h.zero_or_finite with ⟨sign, rfl⟩ | ⟨sign, m, e, canonical, rfl⟩
  · have size : |toRat (.zero sign)| < limit format := by
      rw [toRat_zero, abs_zero]
      exact limit_pos format
    rw [unpack_pack_of (x := .zero sign) trivial]
    exact iff_of_true rfl size
  · rw [toRat_finite, abs_signed sign (by positivity), ← inRange_iff wide canonical]
    by_cases range : InRange format e
    · rw [unpack_pack_of (x := .finite sign m e canonical.pos) ⟨canonical, range⟩]
      exact iff_of_true rfl range
    · rw [unpack_pack_of_not_inRange range]
      simp only [UnpackedFloat.isFinite, Bool.false_eq_true, range]

theorem unpack_pack_of_isFinite {v : UnpackedFloat} (h : IsRounded format v)
    (finite : (UnpackedFloat.unpack format (UnpackedFloat.pack format v)).isFinite) :
    UnpackedFloat.unpack format (UnpackedFloat.pack format v) = v := by
  rcases h.zero_or_finite with ⟨sign, rfl⟩ | ⟨sign, m, e, canonical, rfl⟩
  · exact unpack_pack_of (x := .zero sign) trivial
  · by_cases range : InRange format e
    · exact unpack_pack_of (x := .finite sign m e canonical.pos) ⟨canonical, range⟩
    · rw [unpack_pack_of_not_inRange range] at finite
      cases finite

/-- A format has all numbers of at most as many digits as it has places for, from its least
exponent on. -/
theorem held_mul_pow (format : Format) {e : Int} {k : Nat} (short : k ≤ 2 ^ format.mantissaBits)
    (least : format.minExponent ≤ e) : Held format (k * 2 ^ e) := by
  rcases Nat.eq_zero_or_pos k with rfl | pos
  · rw [Nat.cast_zero, zero_mul]
    exact .zero
  by_cases full : k = 2 ^ format.mantissaBits
  · have carried : (k : ℚ) * 2 ^ e =
        (2 ^ format.mantissaBitsWithoutImplicit : Nat) * 2 ^ (e + 1) := by
      rw [full, Format.mantissaBits, zpow_add₀ two_ne_zero, zpow_one, pow_add]
      push_cast
      ring
    rw [carried]
    refine .finite .positive ⟨Nat.two_pow_pos _, ?_, by omega, .inl le_rfl⟩
    apply Nat.pow_lt_pow_right (by decide)
    unfold Format.mantissaBits
    omega
  · obtain ⟨m, f, canonical, -, value⟩ := exists_canonical_of_lt pos (by omega) least
    rw [value]
    exact .finite .positive canonical

theorem held_limit (format : Format) : Held format (limit format) := by
  have one : (1 : Nat) ≤ 2 ^ format.mantissaBits := Nat.one_le_two_pow
  have least : format.minExponent ≤ (2 ^ (format.exponentBits - 1) : Int) := by
    have power : (0 : Int) < 2 ^ (format.exponentBits - 1) := by positivity
    exact (minExponent_nonpos format).trans power.le
  simpa [limit] using held_mul_pow format one least

theorem Held.withSign {b : ℚ} (held : Held format b) (sign : Sign) :
    Held format (signed sign b) := by
  cases sign with
  | positive => exact held
  | negative => exact held.neg

theorem Held.two_mul {b : ℚ} (held : Held format b) : Held format (2 * b) := by
  cases held with
  | zero =>
    rw [mul_zero]
    exact .zero
  | @finite sign m e canonical =>
    have least := canonical.min_le
    have doubled : (2 : ℚ) * signed sign (m * 2 ^ e) = signed sign (m * 2 ^ (e + 1)) := by
      rw [zpow_add₀ two_ne_zero, zpow_one]
      cases sign <;> simp only [signed] <;> ring
    rw [doubled]
    exact (held_mul_pow format canonical.lt.le (by omega)).withSign sign

theorem Held.abs {b : ℚ} (held : Held format b) : Held format |b| := by
  rcases abs_choice b with same | opposite
  · rwa [same]
  · rw [opposite]
    exact held.neg

theorem IsRounded.held {v : UnpackedFloat} (h : IsRounded format v) : Held format (toRat v) := by
  rcases h.zero_or_finite with ⟨sign, rfl⟩ | ⟨sign, m, e, canonical, rfl⟩
  · exact .zero
  · exact .finite sign canonical

theorem IsRounded.abs_toRat_le_pred {v : UnpackedFloat} (h : IsRounded format v) {k : Nat} {t : Int}
    (full : 2 ^ format.mantissaBitsWithoutImplicit < k) (below : |toRat v| < k * 2 ^ t) :
    |toRat v| ≤ (k - 1 : Nat) * 2 ^ t := by
  rcases h.zero_or_finite with ⟨sign, rfl⟩ | ⟨sign, m, e, canonical, rfl⟩
  · rw [toRat_zero, abs_zero]
    positivity
  · rw [toRat_finite, abs_signed sign (by positivity)] at below ⊢
    exact canonical.le_pred full below

theorem IsRounded.succ_le_toRat {v : UnpackedFloat} (h : IsRounded format v) {k : Nat} {t : Int}
    (full : 2 ^ format.mantissaBitsWithoutImplicit ≤ k) (above : k * 2 ^ t < toRat v) :
    ((k + 1 : Nat) : ℚ) * 2 ^ t ≤ toRat v := by
  have nonneg : (0 : ℚ) ≤ k * 2 ^ t := by positivity
  rcases h.zero_or_finite with ⟨sign, rfl⟩ | ⟨sign, m, e, canonical, rfl⟩
  · exact absurd above (not_lt.mpr nonneg)
  · have size : (0 : ℚ) ≤ m * 2 ^ e := by positivity
    cases sign with
    | positive => exact canonical.succ_le full above
    | negative =>
      have below : (k : ℚ) * 2 ^ t < -(m * 2 ^ e) := above
      linarith

namespace Rounds

variable {q b : ℚ} {v : UnpackedFloat}

theorem abs_toRat_le (h : Rounds format q v) (held : Held format b) (bound : |q| ≤ b) :
    |toRat v| ≤ b := by
  obtain ⟨low, high⟩ := abs_le.mp bound
  exact abs_le.mpr ⟨h.ge held.neg low, h.le held high⟩

theorem le_abs_toRat (h : Rounds format q v) (held : Held format b) (bound : b ≤ |q|) :
    b ≤ |toRat v| := by
  rcases le_abs'.mp bound with negative | positive
  · exact le_abs'.mpr (.inl (h.le held.neg negative))
  · exact le_abs'.mpr (.inr (h.ge held positive))

end Rounds

/-- What is stored of `q` rounded to a format. -/
def IsResult (format : Format) (q : ℚ) (stored : UnpackedFloat) : Prop :=
  ∃ v, Rounds format q v ∧ stored = UnpackedFloat.unpack format (UnpackedFloat.pack format v)

namespace IsResult

variable {q a b : ℚ} {stored : UnpackedFloat} (wide : 2 ≤ format.exponentBits)

include wide in
theorem isFinite_of_between (h : IsResult format q stored) (low : Held format a)
    (high : Held format b) (above : -limit format < a) (below : b < limit format) (le : a ≤ q)
    (ge : q ≤ b) : stored.isFinite := by
  obtain ⟨v, rounds, rfl⟩ := h
  have size : |toRat v| < limit format :=
    abs_lt.mpr ⟨above.trans_le (rounds.ge low le), (rounds.le high ge).trans_lt below⟩
  exact (isFinite_unpack_pack_iff wide rounds.isRounded).mpr size

include wide in
theorem isFinite_of_le (h : IsResult format q stored) (held : Held format b)
    (small : b < limit format) (bound : |q| ≤ b) : stored.isFinite := by
  obtain ⟨low, high⟩ := abs_le.mp bound
  exact h.isFinite_of_between wide held.neg held (neg_lt_neg small) small low high

include wide in
theorem not_isFinite (h : IsResult format q stored) (large : limit format ≤ |q|) :
    ¬ stored.isFinite := by
  obtain ⟨v, rounds, rfl⟩ := h
  have size := rounds.le_abs_toRat (held_limit format) large
  intro finite
  have small := (isFinite_unpack_pack_iff wide rounds.isRounded).mp finite
  exact absurd small (not_lt.mpr size)

/-- A finite result stands for what the exact one is rounded to. -/
theorem rounds (h : IsResult format q stored) (finite : stored.isFinite) :
    Rounds format q stored := by
  obtain ⟨v, rounds, rfl⟩ := h
  have same := unpack_pack_of_isFinite rounds.isRounded finite
  rwa [same]

theorem abs_toRat_le (h : IsResult format q stored) (finite : stored.isFinite)
    (held : Held format b) (bound : |q| ≤ b) : |toRat stored| ≤ b :=
  (h.rounds finite).abs_toRat_le held bound

/-- A number that the format has is not rounded. -/
theorem toRat_eq (h : IsResult format q stored) (finite : stored.isFinite)
    (held : Held format q) : toRat stored = q :=
  le_antisymm ((h.rounds finite).le held le_rfl) ((h.rounds finite).ge held le_rfl)

end IsResult

end Format

/-- The number that a double stands for. -/
def value (x : Float) : ℚ := toRat x.toModel.unpack

/-- The number that a single stands for. -/
def valueSingle (x : Float32) : ℚ := toRat x.toModel.unpack

theorem isRounded_of_isOf {format : Format} {v : UnpackedFloat} (h : IsOf format v)
    (finite : v.isFinite) : IsRounded format v := by
  cases v with
  | notANumber => cases finite
  | infinity sign => cases finite
  | zero sign => trivial
  | finite sign m e pos => exact h.1

theorem isRounded_of_isFinite {x : Float} (finite : x.isFinite) :
    IsRounded .binary64 x.toModel.unpack := isRounded_of_isOf (isOf_toModel x) finite

theorem isRounded_of_isFinite_single {x : Float32} (finite : x.isFinite) :
    IsRounded .binary32 x.toModel.unpack := isRounded_of_isOf (isOf_toModel_single x) finite

theorem abs_value_lt {x : Float} (finite : x.isFinite) : |value x| < limit .binary64 := by
  have stored := isOf_toModel x
  have rounded := isRounded_of_isFinite finite
  have same := unpack_pack_of stored
  apply (isFinite_unpack_pack_iff (by decide) rounded).mp
  rwa [same]

theorem abs_valueSingle_lt {x : Float32} (finite : x.isFinite) : |valueSingle x| < 2 ^ 128 := by
  have stored := isOf_toModel_single x
  have rounded := isRounded_of_isFinite_single finite
  have same := unpack_pack_of stored
  apply (isFinite_unpack_pack_iff (by decide) rounded).mp
  rwa [same]

section Operations

variable {x y : Float} (hx : x.isFinite) (hy : y.isFinite)
include hx hy

theorem isResult_add : IsResult .binary64 (value x + value y) (x + y).toModel.unpack :=
  ⟨_, rounds_add (isRounded_of_isFinite hx) (isRounded_of_isFinite hy), rfl⟩

theorem isResult_sub : IsResult .binary64 (value x - value y) (x - y).toModel.unpack :=
  ⟨_, rounds_sub (isRounded_of_isFinite hx) (isRounded_of_isFinite hy), rfl⟩

theorem isResult_mul : IsResult .binary64 (value x * value y) (x * y).toModel.unpack :=
  ⟨_, rounds_mul (isRounded_of_isFinite hx) (isRounded_of_isFinite hy), rfl⟩

theorem isResult_div (some : value y ≠ 0) :
    IsResult .binary64 (value x / value y) (x / y).toModel.unpack :=
  ⟨_, rounds_div (isRounded_of_isFinite hx) (isRounded_of_isFinite hy) some, rfl⟩

end Operations

/-- What is not finite stays so when it is divided by a number. -/
theorem not_isFinite_div {x y : Float} (hx : ¬ x.isFinite) (hy : y.isFinite) :
    ¬ (x / y).isFinite := by
  have quotient (v : UnpackedFloat) (special : v = .notANumber ∨ ∃ sign, v = .infinity sign)
      (result : UnpackedFloat.div .binary64 x.toModel.unpack y.toModel.unpack = v) :
      ¬ (x / y).isFinite := by
    have stored : IsOf .binary64 v := by
      rcases special with rfl | ⟨sign, rfl⟩ <;> trivial
    have parts : (x / y).toModel.unpack = v := by
      rw [← unpack_ofModel_pack stored, ← result]
      rfl
    change ¬ (x / y).toModel.unpack.isFinite
    rw [parts]
    rcases special with rfl | ⟨sign, rfl⟩ <;> exact Bool.false_ne_true
  have known : ¬ x.toModel.unpack.isFinite := hx
  cases parts : x.toModel.unpack with
  | notANumber => exact quotient .notANumber (.inl rfl) (by rw [parts]; rfl)
  | infinity s =>
    rcases (isRounded_of_isFinite hy).zero_or_finite with ⟨t, divisor⟩ | ⟨t, n, f, g, divisor⟩
    · exact quotient (.infinity (s / t)) (.inr ⟨_, rfl⟩) (by rw [parts, divisor]; rfl)
    · exact quotient (.infinity (s / t)) (.inr ⟨_, rfl⟩) (by rw [parts, divisor]; rfl)
  | zero s =>
    rw [parts] at known
    exact absurd rfl known
  | finite s m e pos =>
    rw [parts] at known
    exact absurd rfl known

/-! Constants and integers. -/

theorem value_one : value 1.0 = 1 := by
  have parts : (1.0 : Float).toModel.unpack = .finite .positive (2 ^ 52) (-52) (by decide) := rfl
  rw [value, parts, toRat_finite, signed]
  norm_num

theorem value_three_halves : value 1.5 = 3 / 2 := by
  have parts : (1.5 : Float).toModel.unpack = .finite .positive (3 * 2 ^ 51) (-52) (by decide) :=
    rfl
  rw [value, parts, toRat_finite, signed]
  norm_num

theorem value_two : value 2.0 = 2 := by
  have parts : (2.0 : Float).toModel.unpack = .finite .positive (2 ^ 52) (-51) (by decide) := rfl
  rw [value, parts, toRat_finite, signed]
  norm_num

theorem held_natCast {n : Nat} (short : n ≤ 2 ^ 53) : Held .binary64 n := by
  have least : Format.minExponent .binary64 ≤ 0 := by decide
  simpa using held_mul_pow .binary64 short least

/-- An integer of at most 53 digits is converted exactly. -/
theorem ofNat_spec {n : Nat} (short : n < 2 ^ 53) :
    (Float.ofNat n).isFinite ∧ value (Float.ofNat n) = n := by
  have held := held_natCast short.le
  have size : (n : ℚ) < limit .binary64 := by
    have bound : (n : ℚ) < 2 ^ 53 := by exact_mod_cast short
    exact bound.trans_le (pow_le_pow_right₀ one_le_two (by decide : 53 ≤ 1024))
  have word : n.toUInt64.toNat = n := Nat.mod_eq_of_lt (by omega)
  have converted : IsResult .binary64 n n.toUInt64.toFloat.toModel.unpack := by
    have rounds := rounds_normalize .binary64 n.toUInt64.toNat 0 .positive
    rw [zpow_zero, mul_one, Int.cast_natCast, word] at rounds
    refine ⟨_, rounds, ?_⟩
    change UnpackedFloat.unpack _ (UnpackedFloat.pack _
      (UnpackedFloat.normalize .binary64 n.toUInt64.toNat 0 .positive)) = _
    rw [word]
  have finite : n.toUInt64.toFloat.isFinite :=
    converted.isFinite_of_le (by decide) held size (by simp)
  have same : Float.ofNat n = n.toUInt64.toFloat * 1.0 := by
    change Float.ofScientific n false 0 = _
    rw [Float.ofScientific, dif_pos ⟨short, by decide⟩]
    rfl
  have product := isResult_mul finite (y := 1.0) rfl
  have unchanged : value n.toUInt64.toFloat = n := converted.toRat_eq finite held
  rw [unchanged, value_one, mul_one, ← same] at product
  have finite := product.isFinite_of_le (by decide) held size (by simp)
  exact ⟨finite, product.toRat_eq finite held⟩

theorem unpack_neg (x : Float) : x.neg.toModel.unpack = x.toModel.unpack.neg := by
  have stored := isOf_toModel x
  have opposite : IsOf .binary64 x.toModel.unpack.neg := by
    cases parts : x.toModel.unpack with
    | notANumber => trivial
    | infinity sign => trivial
    | zero sign => trivial
    | finite sign m e pos =>
      rw [parts] at stored
      exact stored
  exact unpack_ofModel_pack opposite

theorem isFinite_neg {x : Float} (finite : x.isFinite) : x.neg.isFinite := by
  have number : x.toModel.unpack.isFinite := finite
  change x.neg.toModel.unpack.isFinite
  rw [unpack_neg]
  cases parts : x.toModel.unpack with
  | zero sign => rfl
  | finite sign m e pos => rfl
  | _ =>
    rw [parts] at number
    cases number

theorem isFinite_ofInt {n : Int} (short : n.natAbs < 2 ^ 53) : (Float.ofInt n).isFinite := by
  cases n with
  | ofNat n => exact (ofNat_spec short).1
  | negSucc n => exact isFinite_neg (ofNat_spec short).1

/-! Widening and narrowing. -/

theorem rounds_rounded {format other : Format} {v : UnpackedFloat} (h : IsRounded format v) :
    Rounds other (toRat v) (rounded other v) := by
  rcases h.zero_or_finite with ⟨sign, rfl⟩ | ⟨sign, m, e, canonical, rfl⟩
  · exact rounds_zero sign
  · exact rounds_round other sign canonical.pos e

theorem isResult_narrow {x : Float} (finite : x.isFinite) :
    IsResult .binary32 (value x) (narrow x).toModel.unpack :=
  ⟨_, rounds_rounded (isRounded_of_isFinite finite), rfl⟩

theorem unpack_widen (x : Float32) :
    (widen x).toModel.unpack = rounded .binary64 x.toModel.unpack :=
  unpack_ofModel_pack (rounded_rounded (isOf_toModel_single x)).1

theorem isFinite_rounded (format : Format) (v : UnpackedFloat) :
    (rounded format v).isFinite → v.isFinite := by
  cases v with
  | notANumber => exact id
  | infinity sign => exact id
  | zero sign => exact fun _ => rfl
  | finite sign m e pos => exact fun _ => rfl

theorem Held.double {b : ℚ} (held : Held .binary32 b) : Held .binary64 b := by
  cases held with
  | zero => exact .zero
  | @finite sign m e canonical =>
    have digits : m < 2 ^ 24 := canonical.lt
    have short : m ≤ 2 ^ Format.mantissaBits .binary64 := digits.le.trans (by decide)
    have single : -149 ≤ e := canonical.min_le
    have least : Format.minExponent .binary64 ≤ e := le_trans (by decide) single
    exact (held_mul_pow .binary64 short least).withSign sign

theorem widen_spec {x : Float32} (finite : x.isFinite) :
    (widen x).isFinite ∧ value (widen x) = valueSingle x := by
  have single := isRounded_of_isFinite_single finite
  have held : Held .binary64 (valueSingle x) := single.held.double
  have result : IsResult .binary64 (valueSingle x) (widen x).toModel.unpack :=
    ⟨_, rounds_rounded single, rfl⟩
  have small : |valueSingle x| < limit .binary64 := by
    apply (abs_valueSingle_lt finite).trans_le
    exact pow_le_pow_right₀ one_le_two (by decide : 128 ≤ 1024)
  have finite := result.isFinite_of_le (by decide) held.abs small le_rfl
  exact ⟨finite, result.toRat_eq finite held⟩

theorem isFinite_widen_iff (x : Float32) : (widen x).isFinite ↔ x.isFinite := by
  constructor
  · intro finite
    change (widen x).toModel.unpack.isFinite at finite
    rw [unpack_widen] at finite
    exact isFinite_rounded _ _ finite
  · exact fun finite => (widen_spec finite).1

end CallStudy.Binary
