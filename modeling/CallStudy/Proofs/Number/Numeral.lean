import CallStudy.Number.Layout
import CallStudy.Number.Numeral
import CallStudy.Proofs.Number.Packing

/-!
Numerals and the numbers they are read as.
-/

set_option autoImplicit false

namespace CallStudy

open Float.Model (Format UnpackedFloat)
open Float.Model.UnpackedFloat

namespace Numeral

/-- Characters that are all decimal digits. -/
def Digits (text : List Char) : Prop := ∀ c ∈ text, c.isDigit

theorem digits_append {a b : List Char} : Digits (a ++ b) ↔ Digits a ∧ Digits b := by
  simp only [Digits, List.forall_mem_append]

theorem digits_cons {c : Char} {text : List Char} :
    Digits (c :: text) ↔ c.isDigit ∧ Digits text := List.forall_mem_cons

theorem digits_toDigits (n : Nat) : Digits (Nat.toDigits 10 n) :=
  fun _ mem => Nat.isDigit_of_mem_toDigits (by decide) (by decide) mem

theorem digits_replicate (n : Nat) : Digits (List.replicate n '0') := by
  intro c mem
  rw [List.eq_of_mem_replicate mem]
  rfl

theorem ofDigits_toDigits (n : Nat) : ofDigits (Nat.toDigits 10 n) = n :=
  Nat.ofDigitChars_ten_toDigits

theorem ofDigits_append (a b : List Char) :
    ofDigits (a ++ b) = 10 ^ b.length * ofDigits a + ofDigits b := by
  have tail := @Nat.ofDigitChars_eq_ofDigitChars_zero b (ofDigits a)
  exact (Nat.ofDigitChars_append 0).trans tail

theorem ofDigits_replicate (n : Nat) : ofDigits (List.replicate n '0') = 0 :=
  Nat.ofDigitChars_replicate_zero.trans (Nat.mul_zero _)

/-- Digits as numbers are written with: zero alone, or digits that do not start with zero. -/
def Proper (text : List Char) : Prop :=
  Digits text ∧ (text = ['0'] ∨ ∃ c rest, text = c :: rest ∧ c ≠ '0')

theorem proper_toDigits (n : Nat) : Proper (Nat.toDigits 10 n) := by
  refine ⟨digits_toDigits n, ?_⟩
  induction n using Nat.strongRecOn with
  | ind n ih =>
    rw [Nat.toDigits_eq_if (by decide)]
    split
    · next small =>
      interval_cases n <;> simp [Nat.digitChar]
    · next large =>
      have pos : n / 10 ≠ 0 := by omega
      rcases ih (n / 10) (by omega) with zero | ⟨c, rest, text, first⟩
      · have value := ofDigits_toDigits (n / 10)
        rw [zero] at value
        exact absurd value.symm pos
      · exact .inr ⟨c, rest ++ [(n % 10).digitChar], by rw [text, List.cons_append], first⟩

/-- What follows characters of a kind without going on in them. -/
theorem span_append {kind : Char → Bool} {run rest : List Char} (all : ∀ c ∈ run, kind c)
    (stops : ∀ c ∈ rest.head?, ¬ kind c) : (run ++ rest).span kind = (run, rest) := by
  rw [List.span_eq_takeWhile_dropWhile, List.takeWhile_append_of_pos all,
    List.dropWhile_append_of_pos all]
  cases rest with
  | nil => simp
  | cons c rest => simp [stops c rfl]

theorem decimal?_whole {whole rest : List Char} (digits : Digits whole) (filled : whole ≠ [])
    (stops : ∀ c ∈ rest.head?, ¬ c.isDigit ∧ c ≠ '.') :
    decimal? (whole ++ rest) = (exponent? rest).map fun e => ⟨ofDigits whole, e⟩ := by
  have front := span_append digits fun c mem => (stops c mem).1
  have notEmpty : whole.isEmpty = false := by simpa using filled
  have noPoint (more : List Char) : rest ≠ '.' :: more := by
    rintro rfl
    exact (stops '.' rfl).2 rfl
  simp only [decimal?, front, notEmpty, Bool.false_and, Bool.false_eq_true, ↓reduceIte,
    List.append_nil, List.length_nil, Int.natCast_zero, Int.sub_zero]

/-- What is read of digits with a point between them, and perhaps an exponent. -/
theorem decimal?_pointed {whole fraction rest : List Char} (digits : Digits (whole ++ fraction))
    (filled : whole ≠ []) (stops : ∀ c ∈ rest.head?, ¬ c.isDigit) :
    decimal? (whole ++ '.' :: (fraction ++ rest)) =
      (exponent? rest).map fun e => ⟨ofDigits (whole ++ fraction), e - fraction.length⟩ := by
  obtain ⟨first, second⟩ := digits_append.mp digits
  have front : (whole ++ '.' :: (fraction ++ rest)).span Char.isDigit =
      (whole, '.' :: (fraction ++ rest)) := by
    apply span_append first
    rintro c ⟨⟩
    decide
  have back := span_append second stops
  have notEmpty : whole.isEmpty = false := by simpa using filled
  simp only [decimal?, front, back, notEmpty, Bool.false_and, Bool.false_eq_true, ↓reduceIte]

/-- Whole digits and digits behind the point that stand for `v`. -/
structure Spells (whole fraction : List Char) (v : ℚ) : Prop where
  proper : Proper whole
  digits : Digits fraction
  filled : fraction ≠ []
  value : (ofDigits (whole ++ fraction) : ℚ) * 10 ^ (-(fraction.length : Int)) = v

theorem Proper.ne_nil {text : List Char} (h : Proper text) : text ≠ [] := by
  rcases h.2 with rfl | ⟨c, rest, rfl, -⟩
  · exact List.cons_ne_nil _ _
  · exact List.cons_ne_nil _ _

/-- Digits start neither a sign nor a word. -/
theorem Proper.exists_cons {text : List Char} (h : Proper text) :
    ∃ c rest, text = c :: rest ∧ c.isDigit ∧ c ≠ '+' ∧ c ≠ '-' ∧ c ≠ 'i' ∧ c ≠ 'n' := by
  obtain ⟨c, rest, rfl⟩ := List.exists_cons_of_ne_nil h.ne_nil
  have digit := (digits_cons.mp h.1).1
  refine ⟨c, rest, rfl, digit, ?_, ?_, ?_, ?_⟩ <;>
    · rintro rfl
      cases digit

theorem toLower_of_isDigit {c : Char} (h : c.isDigit) : c.toLower = c := by
  apply Char.toLower_eq_of_not_isUpper
  simp only [Char.isDigit, Char.isUpper, Bool.and_eq_true, decide_eq_true_eq,
    UInt32.le_iff_toNat_le, ge_iff_le] at h ⊢
  change 48 ≤ c.val.toNat ∧ c.val.toNat ≤ 57 at h
  change ¬ (65 ≤ c.val.toNat ∧ c.val.toNat ≤ 90)
  omega

/-- A text that starts with a digit is none of the words. -/
theorem magnitude?_of_decimal? {c : Char} {rest : List Char} {d : Decimal} (format : Format)
    (digit : c.isDigit) (read : decimal? (c :: rest) = some d) :
    magnitude? format (c :: rest) = some (ofScientific format d.digits d.exponent) := by
  have notWord (first : Char) (name : List Char) (other : c ≠ first) :
      c :: rest.map Char.toLower ≠ first :: name := fun same => other (List.head_eq_of_cons_eq same)
  have notLetter (letter : Char) (no : letter.isDigit = false) : c ≠ letter := by
    rintro rfl
    exact absurd digit (by simp [no])
  rw [magnitude?]
  simp only [List.map_cons, toLower_of_isDigit digit]
  rw [if_neg, if_neg, read]
  · rfl
  · exact notWord 'n' _ (notLetter 'n' (by decide))
  · have other := notLetter 'i' (by decide)
    exact not_or.mpr ⟨notWord 'i' _ other, notWord 'i' _ other⟩

theorem real?_of_decimal? {c : Char} {rest : List Char} {d : Decimal} (format : Format)
    (sign : Sign) (digit : c.isDigit) (read : decimal? (c :: rest) = some d) :
    real? format (Layout.signed sign (c :: rest)) =
      match sign with
      | .positive => some (ofScientific format d.digits d.exponent)
      | .negative => some (ofScientific format d.digits d.exponent).neg := by
  have magnitude := magnitude?_of_decimal? format digit read
  cases sign with
  | positive =>
    rw [Layout.signed, real?]
    · exact magnitude
    · rintro digits same
      obtain rfl := List.head_eq_of_cons_eq same
      cases digit
    · rintro digits same
      obtain rfl := List.head_eq_of_cons_eq same
      cases digit
  | negative =>
    rw [Layout.signed, real?, magnitude]
    rfl

theorem Spells.decimal? {whole fraction : List Char} {v : ℚ} (h : Spells whole fraction v) :
    decimal? (whole ++ '.' :: fraction) =
      some ⟨ofDigits (whole ++ fraction), -(fraction.length : Int)⟩ := by
  have ends : ∀ c ∈ ([] : List Char).head?, ¬ c.isDigit := by simp
  have read := decimal?_pointed (digits_append.mpr ⟨h.proper.1, h.digits⟩) h.proper.ne_nil ends
  rw [List.append_nil] at read
  simp only [read, exponent?, Option.map_some, Int.zero_sub]

theorem real?_signed {whole fraction : List Char} {v : ℚ} (format : Format) (sign : Sign)
    (h : Spells whole fraction v) :
    real? format (Layout.signed sign (whole ++ '.' :: fraction)) =
      match sign with
      | .positive => some (ofScientific format (ofDigits (whole ++ fraction)) (-fraction.length))
      | .negative =>
        some (ofScientific format (ofDigits (whole ++ fraction)) (-fraction.length)).neg := by
  obtain ⟨c, rest, text, digit, -⟩ := h.proper.exists_cons
  have read := h.decimal?
  rw [text, List.cons_append] at read ⊢
  exact real?_of_decimal? format sign digit read

theorem double?_of_real? {x : Float} {text : List Char}
    (h : real? .binary64 text = some x.toModel.unpack) : double? text = some x := by
  rw [double?, h, Option.map_some, Binary.ofModel_pack_unpack]

/-! Integers. -/

def signOf : Int → Sign
  | .ofNat _ => .positive
  | .negSucc _ => .negative

theorem toList_toString (n : Int) :
    (toString n).toList = Layout.signed (signOf n) (Nat.toDigits 10 n.natAbs) := by
  cases n with
  | ofNat n => exact Nat.toList_repr
  | negSucc n =>
    change ("-" ++ Nat.repr (n + 1)).toList = _
    rw [String.toList_append, Nat.toList_repr]
    rfl

theorem natural?_toDigits (n : Nat) : natural? (Nat.toDigits 10 n) = some n := by
  have digits : (Nat.toDigits 10 n).all Char.isDigit :=
    List.all_eq_true.mpr (digits_toDigits n)
  rw [natural?, digits, ofDigits_toDigits]
  simp

theorem integer?_toDigits (n : Nat) : integer? (Nat.toDigits 10 n) = some (n : Int) := by
  have natural := natural?_toDigits n
  obtain ⟨c, rest, text, -, plus, minus, -, -⟩ := (proper_toDigits n).exists_cons
  rw [text] at natural ⊢
  rw [integer?]
  · rw [natural]
    rfl
  · rintro _ same
    exact plus (List.head_eq_of_cons_eq same)
  · rintro _ same
    exact minus (List.head_eq_of_cons_eq same)

theorem integer?_toString (n : Int) : integer? (toString n).toList = some n := by
  rw [toList_toString]
  cases n with
  | ofNat n => exact integer?_toDigits n
  | negSucc n =>
    rw [signOf, Layout.signed, integer?, natural?_toDigits]
    rfl

theorem spells_zero : Spells ['0'] ['0'] 0 where
  proper := ⟨digits_toDigits 0, .inl rfl⟩
  digits := digits_toDigits 0
  filled := List.cons_ne_nil _ _
  value := by simp [ofDigits, digitValue]

end Numeral

namespace Layout

open Numeral

variable {l : Layout}

theorem toDigits_eq_cons {n : Nat} (some : n ≠ 0) :
    ∃ c rest, Nat.toDigits 10 n = c :: rest ∧ c ≠ '0' := by
  refine (proper_toDigits n).2.resolve_left fun zero => some ?_
  rw [← ofDigits_toDigits n, zero]
  rfl

theorem spells_product {n : Nat} (some : n ≠ 0) (j : Nat) :
    Spells (Nat.toDigits 10 n ++ List.replicate j '0') ['0'] (n * 10 ^ (j : Int)) := by
  obtain ⟨c, rest, text, first⟩ := toDigits_eq_cons some
  have digits := digits_append.mpr ⟨digits_toDigits n, digits_replicate j⟩
  refine ⟨⟨digits, .inr ?_⟩, digits_replicate 1, List.cons_ne_nil _ _, ?_⟩
  · exact ⟨c, rest ++ List.replicate j '0', by rw [text, List.cons_append], first⟩
  · have zero : ofDigits ['0'] = 0 := rfl
    rw [ofDigits_append, ofDigits_append, ofDigits_toDigits, ofDigits_replicate,
      List.length_replicate, zero, List.length_singleton]
    push_cast
    rw [zpow_neg, zpow_natCast, zpow_one]
    ring

theorem spells_pointed {n p : Nat} (some : n ≠ 0) (places : 0 < p) :
    ∃ whole fraction, pointed (Nat.toDigits 10 n) p = whole ++ '.' :: fraction ∧
      Spells whole fraction (n * 10 ^ (-(p : Int))) := by
  obtain ⟨c, rest, text, first⟩ := toDigits_eq_cons some
  have digits := digits_toDigits n
  have value := ofDigits_toDigits n
  unfold pointed
  split
  · next inside =>
    have parts := List.take_append_drop ((Nat.toDigits 10 n).length - p) (Nat.toDigits 10 n)
    have length : ((Nat.toDigits 10 n).drop ((Nat.toDigits 10 n).length - p)).length = p := by
      rw [List.length_drop]
      omega
    refine ⟨_, _, rfl, ?_⟩
    rw [← parts, digits_append] at digits
    refine ⟨⟨digits.1, .inr ⟨c, rest.take ((Nat.toDigits 10 n).length - p - 1), ?_, first⟩⟩,
      digits.2, ?_, ?_⟩
    · obtain ⟨more, count⟩ : ∃ more, (Nat.toDigits 10 n).length - p = more + 1 :=
        ⟨(Nat.toDigits 10 n).length - p - 1, by omega⟩
      rw [count, text, List.take_succ_cons, Nat.add_sub_cancel]
    · apply List.ne_nil_of_length_pos
      omega
    · rw [parts, value, length]
  · next outside =>
    have length : (List.replicate (p - (Nat.toDigits 10 n).length) '0' ++
        Nat.toDigits 10 n).length = p := by
      rw [List.length_append, List.length_replicate]
      omega
    have zero : ofDigits ['0'] = 0 := rfl
    refine ⟨['0'], List.replicate (p - (Nat.toDigits 10 n).length) '0' ++ Nat.toDigits 10 n, rfl,
      spells_zero.proper, digits_append.mpr ⟨digits_replicate _, digits⟩,
      List.append_ne_nil_of_right_ne_nil _ Nat.toDigits_ne_nil, ?_⟩
    rw [length, ofDigits_append, ofDigits_append, ofDigits_replicate, value, zero, Nat.mul_zero,
      Nat.mul_zero, Nat.zero_add, Nat.zero_add]

theorem spells_withoutExponent (fraction : l.fraction = true) {n : Nat} (some : n ≠ 0) (k : Int) :
    ∃ whole digits, l.withoutExponent (Nat.toDigits 10 n) k = whole ++ '.' :: digits ∧
      Spells whole digits (n * 10 ^ k) := by
  simp only [withoutExponent, fraction, ↓reduceIte]
  split
  · next nonneg =>
    obtain ⟨j, rfl⟩ := Int.eq_ofNat_of_zero_le nonneg
    exact ⟨_, ['0'], by simp, spells_product some j⟩
  · next negative =>
    obtain ⟨p, rfl⟩ : ∃ p : Nat, k = -(p : Int) := ⟨(-k).toNat, by omega⟩
    rw [Int.neg_neg, Int.toNat_natCast]
    exact spells_pointed some (by omega)

/-- A number in a layout without exponents is written as digits that stand for it. -/
theorem spells_decimal (everywhere : l.positional = none) (fraction : l.fraction = true)
    {d : Decimal} (some : d.digits ≠ 0) :
    ∃ whole fraction, l.decimal d = whole ++ '.' :: fraction ∧ Spells whole fraction d.value := by
  simp only [Layout.decimal, isPositional, everywhere, ↓reduceIte, Nat.toList_repr]
  exact spells_withoutExponent fraction some d.exponent

/-- A written number, special values excepted, is a sign and digits with a point, and reads back as
itself. -/
structure ReadsBack (l : Layout) (format : Format) (x : UnpackedFloat) (sign : Sign)
    (whole fraction : List Char) : Prop where
  text : (l.write format x).toList = signed sign (whole ++ '.' :: fraction)
  proper : Proper whole
  digits : Digits fraction
  filled : fraction ≠ []
  read : real? format (signed sign (whole ++ '.' :: fraction)) = some x

theorem readsBack_zero (format : Format) (fraction : l.fraction = true) (sign : Sign) :
    ReadsBack l format (.zero sign) sign ['0'] ['0'] where
  text := by simp [write, withoutExponent, fraction]
  proper := spells_zero.proper
  digits := spells_zero.digits
  filled := spells_zero.filled
  read := by
    rw [real?_signed format sign spells_zero]
    have zero : ofDigits (['0'] ++ ['0']) = 0 := rfl
    rw [zero, ofScientific, dif_pos rfl]
    cases sign <;> rfl

theorem readsBack_finite {format : Format} (everywhere : l.positional = none)
    (fraction : l.fraction = true) (wide : format.mantissaBits ≤ 2 ^ (format.exponentBits - 1))
    {m : Nat} {e : Int} (h : Binary.Canonical format m e) (range : Binary.InRange format e)
    (sign : Sign) :
    ∃ whole digits, ReadsBack l format (.finite sign m e h.pos) sign whole digits := by
  have has := Decimal.has_shortest format l.tie e h.pos
  have some := Binary.digits_ne_zero_of_has h range has
  obtain ⟨whole, digits, text, spells⟩ := spells_decimal everywhere fraction some
  refine ⟨whole, digits, by simp [write, text], spells.proper, spells.digits, spells.filled, ?_⟩
  have value : (⟨ofDigits (whole ++ digits), -(digits.length : Int)⟩ : Decimal).value =
      (Decimal.shortest format l.tie m e).value := spells.value
  rw [← value] at has
  have read := Binary.ofScientific_eq_of_has h range wide has
  rw [real?_signed format sign spells]
  simp only at read
  rw [read]
  cases sign <;> rfl

end Layout

end CallStudy
