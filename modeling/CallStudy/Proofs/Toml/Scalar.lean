import CallStudy.Config.Written
import CallStudy.Proofs.Number.Numeral
import CallStudy.Toml.Scalar

/-!
Written numbers of a document read back. A numeral is no date, because neither a dash nor a colon
follows its first digits, and what follows a value takes no part in it.
-/

set_option autoImplicit false

namespace CallStudy.Toml

open Numeral (Digits Proper)
open Float.Model (UnpackedFloat)
open Float.Model.UnpackedFloat

/-- What follows a value where it is written: the end of its line, a comma or a bracket. -/
def Ends (rest : List Char) : Prop :=
  ∃ c more, rest = c :: more ∧ (c = '\n' ∨ c = ',' ∨ c = ']')

/-- A text that digits do not go on in. -/
def Stops (rest : List Char) : Prop :=
  ∀ c ∈ rest.head?, ¬ c.isDigit ∧ c ≠ '_' ∧ c ≠ '-' ∧ c ≠ ':'

theorem stops_cons {c : Char} {rest : List Char}
    (h : ¬ c.isDigit ∧ c ≠ '_' ∧ c ≠ '-' ∧ c ≠ ':') : Stops (c :: rest) := by
  intro d mem
  cases mem
  exact h

theorem Ends.stops {rest : List Char} (h : Ends rest) : Stops rest := by
  obtain ⟨c, more, rfl, rfl | rfl | rfl⟩ := h <;> exact stops_cons (by decide)

namespace Reader

theorem more_digits {found ds rest : List Char} (digits : Digits ds) (stops : Stops rest) :
    grouped.more Char.isDigit found (ds ++ rest) = (found.reverse ++ ds, rest) := by
  induction ds generalizing found with
  | nil =>
    cases rest with
    | nil => simp [grouped.more]
    | cons c rest =>
      obtain ⟨digit, underscore, -, -⟩ := stops c rfl
      rw [List.nil_append, grouped.more]
      · simp [digit]
      · rintro d text rfl
        contradiction
  | cons c ds ih =>
    obtain ⟨digit, rest_⟩ := Numeral.digits_cons.mp digits
    rw [List.cons_append, grouped.more]
    · rw [if_pos digit, ih rest_, List.reverse_cons, List.append_assoc, List.singleton_append]
    · rintro d text rfl
      cases digit

theorem grouped_digits {ds rest : List Char} (digits : Digits ds) (filled : ds ≠ [])
    (stops : Stops rest) : grouped Char.isDigit (ds ++ rest) = some (ds, rest) := by
  obtain ⟨c, more, rfl⟩ := List.exists_cons_of_ne_nil filled
  obtain ⟨digit, digits⟩ := Numeral.digits_cons.mp digits
  rw [List.cons_append, grouped, if_pos digit, more_digits digits stops]
  rfl

/-- The sign as it is written. -/
def signText : Sign → List Char
  | .positive => []
  | .negative => ['-']

theorem signed_eq (sign : Sign) (text : List Char) :
    Layout.signed sign text = signText sign ++ text := by
  cases sign <;> rfl

theorem sign_proper {text : List Char} (h : Proper text) (s : Sign) (rest : List Char) :
    Reader.sign (signText s ++ text ++ rest) = (signText s, text ++ rest) := by
  cases s with
  | negative => rfl
  | positive =>
    obtain ⟨c, more, rfl, -, plus, minus, -, -⟩ := h.exists_cons
    rw [signText, List.nil_append, List.cons_append, sign]
    · rintro _ same
      exact plus (List.head_eq_of_cons_eq same)
    · rintro _ same
      exact minus (List.head_eq_of_cons_eq same)

theorem decimal_proper {text rest : List Char} (h : Proper text) (s : Sign) (stops : Stops rest) :
    decimal (signText s ++ text ++ rest) = some (signText s ++ text, rest) := by
  rw [decimal, sign_proper h]
  simp only
  rcases h.2 with rfl | ⟨c, more, rfl, first⟩
  · rfl
  · split
    · next same => exact absurd (List.head_eq_of_cons_eq same) first
    · rw [grouped_digits h.1 (List.cons_ne_nil _ _) stops]
      rfl

theorem digits_rest {n : Nat} {ds rest a b : List Char} (digits : Digits ds) (stops : Stops rest)
    (h : Reader.digits n (ds ++ rest) = some (a, b)) : ∃ more, b = more ++ rest ∧ Digits more := by
  induction n generalizing ds a with
  | zero =>
    cases h
    exact ⟨ds, rfl, digits⟩
  | succ n ih =>
    cases ds with
    | nil =>
      cases rest with
      | nil => cases h
      | cons c rest =>
        rw [List.nil_append, Reader.digits, if_neg (stops c rfl).1] at h
        cases h
    | cons c ds =>
      obtain ⟨digit, digits⟩ := Numeral.digits_cons.mp digits
      rw [List.cons_append, Reader.digits, if_pos digit, Option.map_eq_some_iff] at h
      obtain ⟨⟨a', b'⟩, read, same⟩ := h
      cases same
      exact ih digits read

theorem word_digits {c : Char} {ds rest : List Char} (digits : Digits ds) (stops : Stops rest)
    (dash : c = '-' ∨ c = ':') : word [c] (ds ++ rest) = none := by
  cases ds with
  | nil =>
    cases rest with
    | nil => rfl
    | cons d rest =>
      obtain ⟨-, -, notDash, notColon⟩ := stops d rfl
      rw [List.nil_append, word, if_neg]
      rintro rfl
      exact dash.elim notDash notColon
  | cons d ds =>
    obtain ⟨digit, -⟩ := Numeral.digits_cons.mp digits
    rw [List.cons_append, word, if_neg]
    rintro rfl
    rcases dash with rfl | rfl <;> cases digit

/-- A numeral is no date and no time. -/
theorem datetime_digits {ds rest : List Char} (digits : Digits ds) (stops : Stops rest) :
    datetime (ds ++ rest) = none := by
  have noDate : date (ds ++ rest) = none := by
    unfold date
    cases h : Reader.digits 4 (ds ++ rest) with
    | none => rfl
    | some read =>
      obtain ⟨year, text⟩ := read
      obtain ⟨more, rfl, left⟩ := digits_rest digits stops h
      simp only [Option.bind_eq_bind, Option.bind_some, word_digits left stops (.inl rfl),
        Option.bind_none]
  have noTime : time (ds ++ rest) = none := by
    unfold time
    cases h : pair 0 23 (ds ++ rest) with
    | none => rfl
    | some read =>
      obtain ⟨hour, text⟩ := read
      rw [pair, Option.filter_eq_some_iff, Option.map_eq_some_iff] at h
      obtain ⟨⟨⟨a, b⟩, read, same⟩, -⟩ := h
      cases same
      obtain ⟨more, rfl, left⟩ := digits_rest digits stops read
      simp only [Option.bind_eq_bind, Option.bind_some, word_digits left stops (.inr rfl),
        Option.bind_none]
  rw [datetime, noDate, noTime]

theorem datetime_of_not_digit {c : Char} {rest : List Char} (h : ¬ c.isDigit) :
    datetime (c :: rest) = none := by
  simp [datetime, date, time, pair, digits, h]

theorem decimal_of_not_digit {c : Char} {rest : List Char} (s : Sign)
    (h : ¬ c.isDigit ∧ c ≠ '+' ∧ c ≠ '-') : decimal (signText s ++ c :: rest) = none := by
  have read : Reader.sign (signText s ++ c :: rest) = (signText s, c :: rest) := by
    cases s with
    | negative => rfl
    | positive =>
      rw [signText, List.nil_append, sign]
      · rintro _ same
        exact h.2.1 (List.head_eq_of_cons_eq same)
      · rintro _ same
        exact h.2.2 (List.head_eq_of_cons_eq same)
  rw [decimal, read]
  simp only
  split
  · next same =>
    cases List.head_eq_of_cons_eq same
    exact absurd rfl h.1
  · rw [grouped, if_neg h.1]
    rfl

theorem exponent_ends {rest : List Char} (ends : Ends rest) : exponent rest = none := by
  obtain ⟨c, more, rfl, rfl | rfl | rfl⟩ := ends <;> rfl

theorem fraction_digits {ds rest : List Char} (digits : Digits ds) (filled : ds ≠ [])
    (ends : Ends rest) : fraction ('.' :: ds ++ rest) = some ('.' :: ds, rest) := by
  rw [List.cons_append, fraction, grouped_digits digits filled ends.stops]
  simp only [Option.bind_eq_bind, Option.bind_some, exponent_ends ends]

theorem unpack_infinite : infinite.toModel.unpack = .infinity .positive :=
  Binary.unpack_ofModel_pack (x := .infinity .positive) trivial

theorem beq_infinite_of_ne {x : Float} (h : ∀ s, x.toModel.unpack ≠ .infinity s) :
    (x == infinite) = false := by
  rw [Bool.eq_false_iff]
  intro same
  have parts := (beq_iff_ne_notANumber_and_eq x.toModel.unpack infinite.toModel.unpack).mp same
  rw [unpack_infinite] at parts
  rcases parts.2.2 with equal | ⟨-, zero⟩ | ⟨-, zero⟩
  · exact h _ equal
  · cases zero
  · cases zero

theorem scalar_readsBack {x : Float} {s : Sign} {whole digits rest : List Char}
    (h : Layout.ReadsBack layout .binary64 x.toModel.unpack s whole digits)
    (finite : ∀ s, x.toModel.unpack ≠ .infinity s) (ends : Ends rest) :
    scalar (writeReal x ++ rest) = some (.real x, rest) := by
  have text : writeReal x ++ rest = signText s ++ whole ++ ('.' :: digits ++ rest) := by
    rw [writeReal, Layout.double, h.text, signed_eq]
    simp only [List.append_assoc, List.cons_append]
  have stops : Stops ('.' :: digits ++ rest) := stops_cons (by decide)
  have noDate : datetime (writeReal x ++ rest) = none := by
    rw [text]
    cases s with
    | positive => exact datetime_digits h.proper.1 stops
    | negative => exact datetime_of_not_digit (by decide)
  have read := h.read
  rw [signed_eq, ← List.append_assoc] at read
  have real : real (writeReal x ++ rest) = some (x, rest) := by
    rw [text, Reader.real, decimal_proper h.proper s stops]
    simp only [fraction_digits h.digits h.filled ends, Numeral.double?_of_real? read, Option.bind_some,
      beq_infinite_of_ne finite, Bool.false_eq_true, ↓reduceIte]
  rw [scalar, noDate]
  simp only [real]

theorem scalar_special {x : Float} {s : Sign} {word rest : List Char}
    (text : writeReal x = signText s ++ word)
    (known : word = ['i', 'n', 'f'] ∨ word = ['n', 'a', 'n'])
    (read : Numeral.real? .binary64 (signText s ++ word) = some x.toModel.unpack) :
    scalar (writeReal x ++ rest) = some (.real x, rest) := by
  have noDate : datetime (writeReal x ++ rest) = none := by
    rw [text]
    cases s <;> rcases known with rfl | rfl <;> exact datetime_of_not_digit (by decide)
  have noDigits : decimal (writeReal x ++ rest) = none := by
    rw [text, List.append_assoc]
    rcases known with rfl | rfl <;> exact decimal_of_not_digit s (by decide)
  have value := Numeral.double?_of_real? read
  have signed : Reader.sign (signText s ++ word ++ rest) = (signText s, word ++ rest) := by
    cases s <;> rcases known with rfl | rfl <;> rfl
  have special : special (writeReal x ++ rest) = some (x, rest) := by
    rw [text, Reader.special, signed]
    rcases known with rfl | rfl
    · change (Numeral.double? (signText s ++ ['i', 'n', 'f'])).map (·, rest) = _
      rw [value]
      rfl
    · change (Numeral.double? (signText s ++ ['n', 'a', 'n'])).map (·, rest) = _
      rw [value]
      rfl
  rw [scalar, noDate]
  simp only [real, noDigits, special]

/-- A real reads back as itself, to the last bit. -/
theorem scalar_writeReal (x : Float) {rest : List Char} (ends : Ends rest) :
    scalar (writeReal x ++ rest) = some (.real x, rest) := by
  have isOf := Binary.isOf_toModel x
  have text : writeReal x = (layout.write .binary64 x.toModel.unpack).toList := rfl
  cases parts : x.toModel.unpack with
  | notANumber =>
    rw [parts] at text
    exact scalar_special (s := .positive) text (.inr rfl) (by rw [parts]; rfl)
  | infinity s =>
    rw [parts] at text
    have name : writeReal x = signText s ++ ['i', 'n', 'f'] := by
      rw [text]
      cases s <;> rfl
    apply scalar_special name (.inl rfl)
    rw [parts]
    cases s <;> rfl
  | zero s =>
    have back := Layout.readsBack_zero (l := layout) .binary64 rfl s
    rw [← parts] at back
    exact scalar_readsBack back (by simp [parts]) ends
  | finite s m e pos =>
    rw [parts] at isOf
    obtain ⟨whole, digits, back⟩ :=
      Layout.readsBack_finite (l := layout) rfl rfl (by decide) isOf.1 isOf.2 s
    rw [← parts] at back
    exact scalar_readsBack back (by simp [parts]) ends

theorem writeInteger_eq (n : Int) :
    writeInteger n = signText (Numeral.signOf n) ++ Nat.toDigits 10 n.natAbs := by
  rw [← signed_eq]
  exact Numeral.toList_toString n

/-- A written integer does not look like one to another base. -/
theorem writeInteger_ne_based (n : Int) {rest : List Char} (ends : Ends rest) {b : Char}
    (base : b = 'x' ∨ b = 'o' ∨ b = 'b') (text : List Char) :
    writeInteger n ++ rest ≠ '0' :: b :: text := by
  intro same
  rw [writeInteger_eq] at same
  cases h : Numeral.signOf n with
  | negative =>
    rw [h] at same
    cases List.head_eq_of_cons_eq same
  | positive =>
    rw [h, signText, List.nil_append] at same
    rcases (Numeral.proper_toDigits n.natAbs).2 with zero | ⟨c, more, digits, first⟩
    · rw [zero, List.singleton_append] at same
      obtain ⟨c, more, rfl, stop⟩ := ends
      obtain rfl := List.head_eq_of_cons_eq (List.tail_eq_of_cons_eq same)
      rcases stop with rfl | rfl | rfl <;> simp at base
    · rw [digits] at same
      exact first (List.head_eq_of_cons_eq same)

theorem unbounded_writeInteger (n : Int) {rest : List Char} (ends : Ends rest) :
    unbounded (writeInteger n ++ rest) = some (n, rest) := by
  have digits : decimal (writeInteger n ++ rest) = some (writeInteger n, rest) := by
    rw [writeInteger_eq]
    exact decimal_proper (Numeral.proper_toDigits n.natAbs) _ ends.stops
  rw [unbounded]
  · rw [digits]
    exact congrArg (Option.map (·, rest)) (Numeral.integer?_toString n)
  · exact fun text => writeInteger_ne_based n ends (by simp) text
  · exact fun text => writeInteger_ne_based n ends (by simp) text
  · exact fun text => writeInteger_ne_based n ends (by simp) text

theorem special_digits {text rest : List Char} (h : Proper text) (s : Sign) :
    special (signText s ++ text ++ rest) = none := by
  obtain ⟨c, more, same, -, -, -, i, n⟩ := h.exists_cons
  rw [special, sign_proper h, same]
  simp only [List.cons_append]
  split
  · next equal => exact absurd (List.head_eq_of_cons_eq equal) i
  · next equal => exact absurd (List.head_eq_of_cons_eq equal) n
  · rfl

/-- An integer that fits in a word reads back. -/
theorem scalar_writeInteger {n : Int} (fits : (Word.ofInt? n).isSome) {rest : List Char}
    (ends : Ends rest) : scalar (writeInteger n ++ rest) = some (.integer n, rest) := by
  have proper := Numeral.proper_toDigits n.natAbs
  have noDate : datetime (writeInteger n ++ rest) = none := by
    rw [writeInteger_eq]
    cases Numeral.signOf n with
    | positive => exact datetime_digits proper.1 ends.stops
    | negative => exact datetime_of_not_digit (by decide)
  have noFraction : fraction rest = none := by
    have none := exponent_ends ends
    obtain ⟨c, more, rfl, rfl | rfl | rfl⟩ := ends <;> exact none
  have noReal : real (writeInteger n ++ rest) = none := by
    rw [writeInteger_eq, real, decimal_proper proper _ ends.stops]
    simp only [noFraction, special_digits proper]
  have integer : integer (writeInteger n ++ rest) = some (n, rest) := by
    rw [Reader.integer, unbounded_writeInteger n ends, Option.filter_some]
    exact if_pos fits
  rw [scalar, noDate]
  simp only [noReal, integer]

end Reader
end CallStudy.Toml
