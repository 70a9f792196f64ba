import Mathlib.Data.String.Basic

/-!
The order of texts is the order of their bytes: a character that comes earlier has, in UTF-8, an
earlier byte where it first differs from a later one.
-/

set_option autoImplicit false

namespace CallStudy

/-- The bytes of a text. -/
def bytes (text : String) : List UInt8 := text.toUTF8.data.toList

theorem bytes_eq (text : String) : bytes text = text.toList.flatMap String.utf8EncodeChar := by
  rw [bytes, String.toUTF8, ← String.utf8Encode_toList, List.utf8Encode, List.data_toByteArray]

/-- The smaller of two numbers has the smaller digit to the base 64 where their digits differ. -/
theorem digits_lt {m n : Nat} (h : m < n) :
    m / 262144 < n / 262144 ∨ m / 262144 = n / 262144 ∧
      (m / 4096 % 64 < n / 4096 % 64 ∨ m / 4096 % 64 = n / 4096 % 64 ∧
        (m / 64 % 64 < n / 64 % 64 ∨ m / 64 % 64 = n / 64 % 64 ∧ m % 64 < n % 64)) := by
  omega

theorem toNat_lt (c : Char) : c.val.toNat < 0x110000 := by
  obtain ⟨code, surrogatesBelow | ⟨-, last⟩⟩ := c
  · exact Nat.lt_trans surrogatesBelow (by decide)
  · exact last

theorem utf8EncodeChar_append_lt {c d : Char} (h : c < d) (rest more : List UInt8) :
    String.utf8EncodeChar c ++ rest < String.utf8EncodeChar d ++ more := by
  have less : c.val.toNat < d.val.toNat := h
  have bound := toNat_lt d
  simp only [String.utf8EncodeChar]
  generalize c.val.toNat = m at less
  generalize d.val.toNat = n at less bound
  -- One case for each two lengths: the first byte tells longer characters from shorter ones.
  repeat' split
  all_goals simp only [List.cons_append, List.nil_append, List.cons_lt_cons_iff,
    UInt8.lt_iff_toNat_lt, ← UInt8.toNat_inj, UInt8.toNat_ofNat']
  case isFalse.isFalse.isFalse.isFalse.isFalse.isFalse =>
    have inByte (k : Nat) : (k % 64 + 128) % 256 = k % 64 + 128 := by omega
    simp only [inByte]
    obtain lead | ⟨lead, second | ⟨second, third | third⟩⟩ := digits_lt less <;> omega
  all_goals omega

theorem flatMap_utf8EncodeChar_lt {first second : List Char} (h : first < second) :
    first.flatMap String.utf8EncodeChar < second.flatMap String.utf8EncodeChar := by
  induction first generalizing second with
  | nil =>
    cases second with
    | nil => exact absurd h (List.lt_irrefl [])
    | cons d rest =>
      rw [List.flatMap_nil, List.flatMap_cons]
      have filled := String.utf8EncodeChar_ne_nil (c := d)
      obtain ⟨byte, more, same⟩ := List.exists_cons_of_ne_nil filled
      rw [same]
      exact List.nil_lt_cons _ _
  | cons c first ih =>
    cases second with
    | nil => exact absurd h (List.not_lt_nil _)
    | cons d second =>
      rw [List.flatMap_cons, List.flatMap_cons]
      obtain before | ⟨rfl, rest⟩ := List.cons_lt_cons_iff.mp h
      · exact utf8EncodeChar_append_lt before _ _
      · exact List.append_left_lt (ih rest)

theorem bytes_lt_of_lt {a b : String} (h : a < b) : bytes a < bytes b := by
  rw [bytes_eq, bytes_eq]
  exact flatMap_utf8EncodeChar_lt (String.lt_iff.mp h)

/-- Texts are ordered as their bytes are. -/
theorem bytes_le_iff {a b : String} : bytes a ≤ bytes b ↔ a ≤ b := by
  constructor
  · intro le
    apply String.not_lt.mp
    intro after
    exact absurd (bytes_lt_of_lt after) (List.not_lt.mpr le)
  · intro le
    apply List.not_lt.mp
    intro after
    obtain same | before := eq_or_lt_of_le le
    · exact absurd (same ▸ after) (List.lt_irrefl _)
    · exact absurd (List.lt_trans after (bytes_lt_of_lt before)) (List.lt_irrefl _)

end CallStudy
