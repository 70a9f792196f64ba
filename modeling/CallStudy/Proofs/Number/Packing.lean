import CallStudy.Proofs.Number.Decimal

/-!
The numbers that a format has. Packing keeps every number in canonical form whose exponent is in
range, and unpacking makes only such numbers; so no double precision number is lost by way of its
parts, and no single precision number by way of double precision.
-/

set_option autoImplicit false

namespace CallStudy.Binary

open Float.Model (Format totalExponent UnpackedFloat)
open Float.Model.UnpackedFloat

section Format

variable {format : Format}

theorem minExponent_eq (format : Format) :
    format.minExponent = 1 - (format.exponentBias : Int) - format.mantissaBitsWithoutImplicit := by
  have bias := (bias_add format).1
  unfold Format.minExponent Format.mantissaBits
  push_cast
  omega

theorem mantissaBits_eq (format : Format) :
    (2 : Nat) ^ format.mantissaBits = 2 * 2 ^ format.mantissaBitsWithoutImplicit := by
  rw [Format.mantissaBits, pow_add, pow_one]

theorem toNat_allOnes {n : Nat} (b : BitVec n) : b = -1#n ↔ b.toNat + 1 = 2 ^ n := by
  have positive := Nat.two_pow_pos n
  rw [← BitVec.toNat_inj, BitVec.neg_one_eq_allOnes, BitVec.toNat_allOnes]
  omega

theorem toNat_implicit {n : Nat} (b : BitVec n) : (1#1 ++ b).toNat = 2 ^ n + b.toNat := by
  rw [BitVec.toNat_append, ← Nat.shiftLeft_add_eq_or_of_lt b.isLt]
  simp [Nat.shiftLeft_eq]

theorem canonical_of_unpack (wide : 2 ≤ format.exponentBits) {b : BitVec format.numBits}
    {sign : Sign} {m : Nat} {e : Int} {pos : 0 < m}
    (h : UnpackedFloat.unpack format b = .finite sign m e pos) :
    Canonical format m e ∧ InRange format e := by
  have mantissa := (unpackMantissa b).isLt
  have exponent := (unpackExponent b).isLt
  have least := minExponent_eq format
  have digits := mantissaBits_eq format
  have capacity : (4 : Int) ≤ 2 ^ format.exponentBits := by
    exact_mod_cast Nat.pow_le_pow_right (n := 2) two_pos wide
  have size : ((2 ^ format.exponentBits : Nat) : Int) = 2 ^ format.exponentBits := by push_cast; rfl
  unfold UnpackedFloat.unpack at h
  simp only at h
  split at h
  · split at h <;> cases h
  · next notSpecial =>
    rw [toNat_allOnes] at notSpecial
    split at h
    · next zero =>
      split at h
      · cases h
      · cases h
        have none : (unpackExponent b).toNat = 0 := by simp [zero]
        unfold InRange
        rw [none]
        exact ⟨⟨pos, by omega, by omega, .inr (by omega)⟩, by omega⟩
    · next normal =>
      cases h
      have some : (unpackExponent b).toNat ≠ 0 := fun zero =>
        normal (BitVec.toNat_inj.mp (by simpa using zero))
      unfold InRange
      rw [toNat_implicit]
      exact ⟨⟨by omega, by omega, by omega, .inl (by omega)⟩, by omega⟩

/-- A mantissa in full length is stored without its first digit, at an exponent other than zero. -/
theorem unpack_pack_of_full {m : Nat} {e : Int} (sign : Sign) (h : Canonical format m e)
    (range : InRange format e) (full : 2 ^ format.mantissaBitsWithoutImplicit ≤ m) :
    UnpackedFloat.unpack format (UnpackedFloat.pack format (.finite sign m e h.pos)) =
      .finite sign m e h.pos := by
  have least := minExponent_eq format
  have min := h.min_le
  have digits := mantissaBits_eq format
  have size : ((2 ^ format.exponentBits : Nat) : Int) = 2 ^ format.exponentBits := by push_cast; rfl
  have short := h.lt
  unfold InRange at range
  obtain ⟨biased, hb⟩ : ∃ biased : Nat,
      (biased : Int) = e + format.exponentBias + format.mantissaBitsWithoutImplicit :=
    ⟨_, Int.toNat_of_nonneg (by omega)⟩
  have fits : biased + 1 < 2 ^ format.exponentBits := by omega
  have places : m.log2 + 1 = format.mantissaBits := by
    have low := (Nat.le_log2 h.pos.ne').mpr full
    have high := (Nat.log2_lt h.pos.ne').mpr h.lt
    unfold Format.mantissaBits at *
    omega
  have exponent : (BitVec.ofNat format.exponentBits biased).toNat = biased := by
    rw [BitVec.toNat_ofNat, Nat.mod_eq_of_lt (by omega)]
  have notSpecial : BitVec.ofNat format.exponentBits biased ≠ -1#_ := by
    rw [ne_eq, toNat_allOnes, exponent]
    omega
  have notZero : BitVec.ofNat format.exponentBits biased ≠ 0#_ := fun zero => by
    rw [zero, BitVec.toNat_ofNat, Nat.zero_mod] at exponent
    omega
  have mantissa : (1#1 ++ BitVec.ofNat format.mantissaBitsWithoutImplicit m).toNat = m := by
    rw [toNat_implicit, BitVec.toNat_ofNat, Nat.mod_eq_sub_mod full, Nat.mod_eq_of_lt (by omega)]
    omega
  rw [UnpackedFloat.pack, ← hb, Int.toNat_natCast, if_neg (by omega)]
  simp only [if_pos places, UnpackedFloat.unpack, unpackMantissa_packComponents,
    unpackExponent_packComponents, unpackSign_packComponents, Sign.ofBitVec_toBitVec,
    if_neg notSpecial, if_neg notZero, mantissa, exponent]
  congr 1
  omega

/-- A shorter mantissa only goes with the least exponent and is stored as it is, at zero. -/
theorem unpack_pack_of_short {m : Nat} {e : Int} (sign : Sign) (h : Canonical format m e)
    (range : InRange format e) (short : m < 2 ^ format.mantissaBitsWithoutImplicit) :
    UnpackedFloat.unpack format (UnpackedFloat.pack format (.finite sign m e h.pos)) =
      .finite sign m e h.pos := by
  have least := minExponent_eq format
  have lowest := h.full.resolve_left (Nat.not_le.mpr short)
  have size : ((2 ^ format.exponentBits : Nat) : Int) = 2 ^ format.exponentBits := by push_cast; rfl
  unfold InRange at range
  have places : m.log2 + 1 ≠ format.mantissaBits := by
    have high := (Nat.log2_lt h.pos.ne').mpr short
    unfold Format.mantissaBits
    omega
  have mantissa : (BitVec.ofNat format.mantissaBitsWithoutImplicit m).toNat = m := by
    rw [BitVec.toNat_ofNat, Nat.mod_eq_of_lt short]
  have some : BitVec.ofNat format.mantissaBitsWithoutImplicit m ≠ 0#_ := fun zero => by
    rw [zero, BitVec.toNat_ofNat, Nat.zero_mod] at mantissa
    exact h.pos.ne mantissa
  have notSpecial : BitVec.ofNat format.exponentBits 0 ≠ -1#_ := by
    rw [ne_eq, toNat_allOnes, BitVec.toNat_ofNat, Nat.zero_mod]
    omega
  rw [UnpackedFloat.pack, if_neg (by omega)]
  simp only [if_neg places, UnpackedFloat.unpack, unpackMantissa_packComponents,
    unpackExponent_packComponents, unpackSign_packComponents, Sign.ofBitVec_toBitVec,
    if_neg notSpecial, ↓reduceIte, dif_neg some, mantissa, BitVec.toNat_ofNat, Nat.zero_mod]
  congr 1
  omega

theorem unpack_pack {m : Nat} {e : Int} (sign : Sign) (h : Canonical format m e)
    (range : InRange format e) :
    UnpackedFloat.unpack format (UnpackedFloat.pack format (.finite sign m e h.pos)) =
      .finite sign m e h.pos := by
  by_cases full : 2 ^ format.mantissaBitsWithoutImplicit ≤ m
  · exact unpack_pack_of_full sign h range full
  · exact unpack_pack_of_short sign h range (Nat.not_le.mp full)

theorem unpack_packedInfinity (sign : Sign) :
    UnpackedFloat.unpack format (packedInfinity format sign) = .infinity sign := by
  simp [UnpackedFloat.unpack, packedInfinity]

/-- What a format has: special values, zeros, and finite numbers in canonical form and in range. -/
def IsOf (format : Format) : UnpackedFloat → Prop
  | .finite _ m e _ => Canonical format m e ∧ InRange format e
  | _ => True

theorem isOf_unpack (wide : 2 ≤ format.exponentBits) (b : BitVec format.numBits) :
    IsOf format (UnpackedFloat.unpack format b) := by
  cases h : UnpackedFloat.unpack format b with
  | finite sign m e pos => exact canonical_of_unpack wide h
  | notANumber => trivial
  | infinity _ => trivial
  | zero _ => trivial

theorem unpack_pack_of {x : UnpackedFloat} (h : IsOf format x) :
    UnpackedFloat.unpack format (UnpackedFloat.pack format x) = x := by
  cases x with
  | finite sign m e pos => exact unpack_pack sign h.1 h.2
  | notANumber => exact unpack_packedNaN
  | infinity sign => exact unpack_packedInfinity sign
  | zero sign => exact unpack_packedZero

end Format

/-! Doubles and singles by way of their parts. -/

theorem ofModel_pack_unpack (x : Float) : Float.ofModel (.pack x.toModel.unpack) = x :=
  Float.ofBits_toBits x

theorem ofModel_pack_unpack_single (x : Float32) : Float32.ofModel (.pack x.toModel.unpack) = x :=
  Float32.ofBits_toBits x

theorem isOf_toModel (x : Float) : IsOf .binary64 x.toModel.unpack := isOf_unpack (by decide) _

theorem isOf_toModel_single (x : Float32) : IsOf .binary32 x.toModel.unpack :=
  isOf_unpack (by decide) _

theorem unpack_ofModel_pack {x : UnpackedFloat} (h : IsOf .binary64 x) :
    (Float.ofModel (.pack x)).toModel.unpack = x := unpack_pack_of h

/-- A number of at most as many digits as a format has places for is canonical once its mantissa is
in full length or its exponent the least. -/
theorem exists_canonical_of_lt {format : Format} {k : Nat} {e : Int} (pos : 0 < k)
    (short : k < 2 ^ format.mantissaBits) (least : format.minExponent ≤ e) :
    ∃ m f, Canonical format m f ∧ f ≤ e ∧ (k : ℚ) * 2 ^ e = m * 2 ^ f := by
  have digits : k < 2 ^ (k.log2 + 1) := Nat.lt_log2_self
  have low := Nat.log2_self_le pos.ne'
  have places : k.log2 < format.mantissaBits := (Nat.log2_lt pos.ne').mpr short
  obtain ⟨j, room, down, filled⟩ : ∃ j : Nat, k.log2 + j < format.mantissaBits ∧
      format.minExponent ≤ e - j ∧
      (k.log2 + j = format.mantissaBitsWithoutImplicit ∨ e - j = format.minExponent) := by
    unfold Format.mantissaBits at places ⊢
    refine ⟨min (format.mantissaBitsWithoutImplicit - k.log2) (e - format.minExponent).toNat, ?_⟩
    omega
  refine ⟨k * 2 ^ j, e - j, ⟨Nat.mul_pos pos (Nat.two_pow_pos j), ?_, down, ?_⟩, by omega, ?_⟩
  · calc k * 2 ^ j < 2 ^ (k.log2 + 1) * 2 ^ j :=
          Nat.mul_lt_mul_of_pos_right digits (Nat.two_pow_pos j)
      _ = 2 ^ (k.log2 + 1 + j) := (pow_add _ _ _).symm
      _ ≤ 2 ^ format.mantissaBits := Nat.pow_le_pow_right two_pos (by omega)
  · refine filled.imp (fun full => ?_) id
    rw [← full, pow_add]
    exact Nat.mul_le_mul_right _ low
  · rw [zpow_sub₀ two_ne_zero, zpow_natCast]
    push_cast
    field_simp

/-- Double precision has every number of single precision. -/
theorem exists_double {m : Nat} {e : Int} (h : Canonical .binary32 m e)
    (range : InRange .binary32 e) :
    ∃ m' e', Canonical .binary64 m' e' ∧ InRange .binary64 e' ∧ (m : ℚ) * 2 ^ e = m' * 2 ^ e' := by
  have digits : m < 2 ^ 24 := h.lt
  have short : m < 2 ^ Format.mantissaBits .binary64 := digits.trans (by decide)
  have single : -149 ≤ e := h.min_le
  have least : Format.minExponent .binary64 ≤ e := le_trans (by decide) single
  obtain ⟨m', e', canonical, le, value⟩ := exists_canonical_of_lt h.pos short least
  refine ⟨m', e', canonical, ?_, value⟩
  have most : e + 127 + 23 + 1 < 256 := range
  change e' + 1023 + 52 + 1 < (2048 : Int)
  omega

theorem rounded_rounded {x : UnpackedFloat} (h : IsOf .binary32 x) :
    IsOf .binary64 (rounded .binary64 x) ∧ rounded .binary32 (rounded .binary64 x) = x := by
  cases x with
  | finite sign m e pos =>
    obtain ⟨m', e', canonical, range, value⟩ := exists_double h.1 h.2
    have wider : rounded .binary64 (.finite sign m e pos) = .finite sign m' e' canonical.pos :=
      round_eq_of_value canonical value
    rw [wider]
    exact ⟨⟨canonical, range⟩, round_eq_of_value h.1 value.symm⟩
  | notANumber => exact ⟨trivial, rfl⟩
  | infinity _ => exact ⟨trivial, rfl⟩
  | zero _ => exact ⟨trivial, rfl⟩

/-- Narrowing undoes widening. -/
theorem narrow_widen (x : Float32) : narrow (widen x) = x := by
  obtain ⟨isOf, back⟩ := rounded_rounded (isOf_toModel_single x)
  rw [narrow, widen, unpack_ofModel_pack isOf, back, ofModel_pack_unpack_single]

end CallStudy.Binary
