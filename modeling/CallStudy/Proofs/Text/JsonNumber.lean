import CallStudy.Proofs.Number.Numeral
import CallStudy.Text.Json

/-!
Numbers in a JSON text, after RFC 8259: an optional minus, whole digits of which the first is zero
only if it is alone, and perhaps a fraction and an exponent. A numeral without these two is an
integer if 64 bits hold it. A real is rounded to the nearest, and must be finite.
-/

set_option autoImplicit false

namespace CallStudy.Json

open Float.Model (Format UnpackedFloat)
open Float.Model.UnpackedFloat
open Numeral (Digits Proper Spells digits_cons)

/-- What the part of a numeral that has been read ends in. -/
inductive Place where
  | start
  | minus
  /-- A zero in front, which no digit follows. -/
  | zero
  | whole
  | point
  | fraction
  | mark
  | sign
  | exponent
  deriving Repr, DecidableEq

namespace Place

/-- The place behind a digit. -/
def digit : Place → Char → Option Place
  | start, '0' | minus, '0' => some zero
  | start, _ | minus, _ | whole, _ => some whole
  | zero, _ => none
  | point, _ | fraction, _ => some fraction
  | mark, _ | sign, _ | exponent, _ => some exponent

def step (p : Place) (c : Char) : Option Place :=
  if c.isDigit then p.digit c
  else
    match p, c with
    | start, '-' => some minus
    | zero, '.' | whole, '.' => some point
    | zero, 'e' | zero, 'E' | whole, 'e' | whole, 'E' | fraction, 'e' | fraction, 'E' => some mark
    | mark, '+' | mark, '-' => some sign
    | _, _ => none

/-- The places that a numeral may end at. -/
def isEnd : Place → Bool
  | zero | whole | fraction | exponent => true
  | _ => false

end Place

/-- Whether a text is a numeral. -/
def isNumeral (text : List Char) : Bool :=
  (text.foldlM Place.step .start).any Place.isEnd

def integer? (text : List Char) : Option Int :=
  if text = ['-', '0'] then none else Numeral.integerIn? (-2 ^ 63) (2 ^ 64 - 1) text

/-- The number of a numeral. -/
def number? (text : List Char) : Option Json :=
  if isNumeral text then
    match integer? text with
    | some n => some (.integer n)
    | none => ((Numeral.double? text).filter Float.isFinite).map .real
  else none

namespace Place

theorem step_digit {c : Char} (digit : c.isDigit) (p : Place) : p.step c = p.digit c :=
  if_pos digit

/-- Digits do not leave the places that they go on in. -/
theorem foldlM_step_digits {ds : List Char} (digits : Digits ds) {p : Place}
    (stays : ∀ c, p.digit c = some p) : ds.foldlM step p = some p := by
  induction ds with
  | nil => rfl
  | cons c ds ih =>
    obtain ⟨first, others⟩ := digits_cons.mp digits
    rw [List.foldlM_cons, step_digit first, stays]
    exact ih others

/-- At least one digit, where every digit leads to the same place and goes on in it. -/
theorem foldlM_step_filled {ds : List Char} (digits : Digits ds) (filled : ds ≠ []) {p q : Place}
    (leads : ∀ c, p.digit c = some q) (stays : ∀ c, q.digit c = some q) :
    ds.foldlM step p = some q := by
  obtain ⟨c, rest, rfl⟩ := List.exists_cons_of_ne_nil filled
  obtain ⟨first, others⟩ := digits_cons.mp digits
  rw [List.foldlM_cons, step_digit first, leads]
  exact foldlM_step_digits others stays

/-- Whole digits in front, with or without a sign. -/
theorem foldlM_step_proper {text : List Char} (proper : Proper text) (sign : Sign) :
    ∃ p, (p = zero ∨ p = whole) ∧ (Layout.signed sign text).foldlM step start = some p := by
  have unsigned (p : Place) (first : p = start ∨ p = minus) :
      ∃ q, (q = zero ∨ q = whole) ∧ text.foldlM step p = some q := by
    rcases proper.2 with rfl | ⟨c, rest, rfl, nonzero⟩
    · refine ⟨zero, .inl rfl, ?_⟩
      rcases first with rfl | rfl <;> rfl
    · obtain ⟨digit, digits⟩ := digits_cons.mp proper.1
      have leads : p.digit c = some whole := by
        rcases first with rfl | rfl <;> simp [Place.digit]
      refine ⟨whole, .inr rfl, ?_⟩
      rw [List.foldlM_cons, step_digit digit, leads]
      exact foldlM_step_digits digits fun _ => rfl
  cases sign with
  | positive => exact unsigned start (.inl rfl)
  | negative =>
    rw [Layout.signed, List.foldlM_cons]
    exact unsigned minus (.inr rfl)

/-- A point and digits behind whole ones. -/
theorem foldlM_step_fraction {ds : List Char} (digits : Digits ds) (filled : ds ≠ []) {p : Place}
    (before : p = zero ∨ p = whole) : ('.' :: ds).foldlM step p = some fraction := by
  have point : p.step '.' = some point := by
    rcases before with rfl | rfl <;> rfl
  rw [List.foldlM_cons, point]
  exact foldlM_step_filled digits filled (fun _ => rfl) fun _ => rfl

/-- An exponent with or without a sign behind a number without one. -/
theorem foldlM_step_exponent {ds signs : List Char} (digits : Digits ds) (filled : ds ≠ [])
    (signed : signs = [] ∨ signs = ['+'] ∨ signs = ['-']) {p : Place}
    (before : p = zero ∨ p = whole ∨ p = fraction) :
    ('e' :: (signs ++ ds)).foldlM step p = some exponent := by
  have mark : p.step 'e' = some mark := by
    rcases before with rfl | rfl | rfl <;> rfl
  rw [List.foldlM_cons, mark, Option.bind_eq_bind, Option.bind_some, List.foldlM_append]
  rcases signed with rfl | rfl | rfl
  all_goals exact foldlM_step_filled digits filled (fun _ => rfl) fun _ => rfl

end Place

/-- The characters of numerals and of the words of JSON. -/
def isPart (c : Char) : Bool := c.isAlphanum || c = '+' || c = '-' || c = '.'

theorem isPart_of_step {p q : Place} {c : Char} (h : p.step c = some q) : isPart c := by
  unfold Place.step at h
  split at h
  · next digit => simp [isPart, Char.isAlphanum, digit]
  · split at h <;> first | rfl | cases h

theorem isPart_of_isNumeral {text : List Char} (h : isNumeral text) : ∀ c ∈ text, isPart c := by
  have step (p : Place) (q : Place) (reaches : text.foldlM Place.step p = some q) :
      ∀ c ∈ text, isPart c := by
    clear h
    induction text generalizing p with
    | nil => simp
    | cons c rest ih =>
      rw [List.foldlM_cons, Option.bind_eq_bind, Option.bind_eq_some_iff] at reaches
      obtain ⟨next, first, others⟩ := reaches
      exact List.forall_mem_cons.mpr ⟨isPart_of_step first, ih next others⟩
  obtain ⟨q, reaches, -⟩ := (Option.any_eq_true _ _).mp h
  exact step _ q reaches

/-! Reals. -/

/-- A numeral without a sign that stands for a number, and is not an integer. -/
structure Stands (text : List Char) (v : ℚ) : Prop where
  digit : ∃ c rest, text = c :: rest ∧ c.isDigit
  shape (sign : Sign) : isNumeral (Layout.signed sign text)
  read : ∃ d, Numeral.decimal? text = some d ∧ d.value = v
  real : ∃ c ∈ text, ¬ c.isDigit

/-- The exponent that a numeral ends in. -/
structure Ending (text : List Char) (k : Int) : Prop where
  read : Numeral.exponent? text = some k
  shape {p : Place} (before : p = .zero ∨ p = .whole ∨ p = .fraction) :
    text.foldlM Place.step p = some .exponent
  head : text.head? = some 'e'

theorem signed_append (sign : Sign) (a b : List Char) :
    Layout.signed sign (a ++ b) = Layout.signed sign a ++ b := by
  cases sign <;> rfl

theorem isNumeral_of_reaches {text : List Char} {p : Place}
    (reaches : text.foldlM Place.step .start = some p) (ends : p.isEnd) : isNumeral text := by
  rw [isNumeral, reaches]
  exact ends

theorem stands_of_spells {whole fraction : List Char} {v : ℚ} (h : Spells whole fraction v) :
    Stands (whole ++ '.' :: fraction) v where
  digit := by
    obtain ⟨c, rest, rfl, digit, -⟩ := h.proper.exists_cons
    exact ⟨c, rest ++ '.' :: fraction, rfl, digit⟩
  shape sign := by
    obtain ⟨p, before, reaches⟩ := Place.foldlM_step_proper h.proper sign
    refine isNumeral_of_reaches (p := .fraction) ?_ rfl
    rw [signed_append, List.foldlM_append, reaches]
    exact Place.foldlM_step_fraction h.digits h.filled before
  read := ⟨_, h.decimal?, h.value⟩
  real := ⟨'.', by simp, by decide⟩

theorem Ending.stops {text : List Char} {k : Int} (h : Ending text k) :
    ∀ c ∈ text.head?, ¬ c.isDigit ∧ c ≠ '.' := by
  rw [h.head]
  rintro c ⟨⟩
  decide

theorem Ending.mem {text : List Char} {k : Int} (h : Ending text k) : 'e' ∈ text :=
  List.mem_of_mem_head? h.head

/-- Whole digits with an exponent. -/
theorem Ending.stands_whole {whole text : List Char} {k : Int} (h : Ending text k)
    (proper : Proper whole) : Stands (whole ++ text) (Numeral.ofDigits whole * 10 ^ k) where
  digit := by
    obtain ⟨c, rest, rfl, digit, -⟩ := proper.exists_cons
    exact ⟨c, rest ++ text, rfl, digit⟩
  shape sign := by
    obtain ⟨p, before, reaches⟩ := Place.foldlM_step_proper proper sign
    refine isNumeral_of_reaches (p := .exponent) ?_ rfl
    rw [signed_append, List.foldlM_append, reaches]
    exact h.shape (by tauto)
  read := by
    refine ⟨⟨Numeral.ofDigits whole, k⟩, ?_, rfl⟩
    rw [Numeral.decimal?_whole proper.1 proper.ne_nil h.stops, h.read]
    rfl
  real := ⟨'e', List.mem_append_right _ h.mem, by decide⟩

/-- Digits with a point between them and an exponent. -/
theorem Ending.stands_pointed {whole fraction text : List Char} {k : Int} {v : ℚ}
    (h : Ending text k) (spells : Spells whole fraction v) :
    Stands (whole ++ '.' :: (fraction ++ text)) (v * 10 ^ k) where
  digit := by
    obtain ⟨c, rest, rfl, digit, -⟩ := spells.proper.exists_cons
    exact ⟨c, rest ++ '.' :: (fraction ++ text), rfl, digit⟩
  shape sign := by
    obtain ⟨p, before, reaches⟩ := Place.foldlM_step_proper spells.proper sign
    have pointed := Place.foldlM_step_fraction spells.digits spells.filled before
    refine isNumeral_of_reaches (p := .exponent) ?_ rfl
    rw [signed_append, List.foldlM_append, reaches, Option.bind_eq_bind, Option.bind_some,
      ← List.cons_append, List.foldlM_append, pointed]
    exact h.shape (by tauto)
  read := by
    have digits := Numeral.digits_append.mpr ⟨spells.proper.1, spells.digits⟩
    refine ⟨⟨Numeral.ofDigits (whole ++ fraction), k - fraction.length⟩, ?_, ?_⟩
    · rw [Numeral.decimal?_pointed digits spells.proper.ne_nil fun c mem => (h.stops c mem).1,
        h.read]
      rfl
    · rw [← spells.value, Decimal.value, mul_assoc, ← zpow_add₀ (by norm_num), neg_add_eq_sub]
  real := ⟨'.', by simp, by decide⟩

theorem ending_written (plus : Bool) (k : Int) :
    Ending ('e' :: ((if k < 0 then ['-'] else if plus then ['+'] else []) ++
      Nat.toDigits 10 k.natAbs)) k where
  read := by
    have digits := Numeral.natural?_toDigits k.natAbs
    rw [Numeral.exponent?, if_pos (.inl rfl)]
    split
    · next negative =>
      have size : -(k.natAbs : Int) = k := by omega
      rw [List.singleton_append, Numeral.integer?, digits]
      exact congrArg some size
    · next nonneg =>
      have size : (k.natAbs : Int) = k := by omega
      cases plus with
      | true =>
        rw [if_pos rfl, List.singleton_append, Numeral.integer?, digits, Option.map_some]
        exact congrArg some size
      | false => rw [if_neg (by decide), List.nil_append, Numeral.integer?_toDigits, size]
  shape before := by
    apply Place.foldlM_step_exponent (Numeral.digits_toDigits _) Nat.toDigits_ne_nil _ before
    split
    · exact .inr (.inr rfl)
    · cases plus with
      | true => exact .inr (.inl rfl)
      | false => exact .inl rfl
  head := rfl

/-- The first of some digits, a point and the others if there are any, and an exponent. -/
theorem stands_withExponent (l : Layout) {n : Nat} (some : n ≠ 0) (k : Int) :
    Stands (l.withExponent (Nat.toDigits 10 n) (k + ((Nat.toDigits 10 n).length - 1 : Nat)))
      (n * 10 ^ k) := by
  obtain ⟨c, rest, text, first⟩ := Layout.toDigits_eq_cons some
  have digits := Numeral.digits_toDigits n
  have value := Numeral.ofDigits_toDigits n
  have ends := ending_written l.plus (k + ((Nat.toDigits 10 n).length - 1 : Nat))
  rw [text] at digits value ends ⊢
  obtain ⟨digit, others⟩ := digits_cons.mp digits
  have proper : Proper [c] := ⟨by simpa [Digits] using digit, .inr ⟨c, [], rfl, first⟩⟩
  cases rest with
  | nil =>
    have stands := ends.stands_whole proper
    rw [value] at stands
    simpa [Layout.withExponent, Nat.toList_repr] using stands
  | cons d rest =>
    have spells : Spells [c] (d :: rest) (n * 10 ^ (-((d :: rest).length : Int))) :=
      ⟨proper, others, List.cons_ne_nil _ _, by rw [List.singleton_append, value]⟩
    have stands := ends.stands_pointed spells
    have shift : -((d :: rest).length : Int) + (k + ((c :: d :: rest).length - 1 : Nat)) = k := by
      simp only [List.length_cons]
      omega
    rw [mul_assoc, ← zpow_add₀ (by norm_num), shift] at stands
    simpa [Layout.withExponent, Nat.toList_repr] using stands

theorem stands_decimal {l : Layout} (fraction : l.fraction = true) {d : Decimal}
    (some : d.digits ≠ 0) : Stands (l.decimal d) d.value := by
  simp only [Layout.decimal, Nat.toList_repr]
  split
  · obtain ⟨whole, digits, written, spells⟩ :=
      Layout.spells_withoutExponent fraction some d.exponent
    rw [written]
    exact stands_of_spells spells
  · exact stands_withExponent l some d.exponent

theorem integer?_signed {c d : Char} {rest : List Char} (sign : Sign) (digit : c.isDigit)
    (mem : d ∈ c :: rest) (other : ¬ d.isDigit) :
    integer? (Layout.signed sign (c :: rest)) = none := by
  have unread : Numeral.natural? (c :: rest) = none := by
    have mixed : (c :: rest).all Char.isDigit = false := List.all_eq_false.mpr ⟨d, mem, other⟩
    rw [Numeral.natural?, mixed]
    rfl
  have none : Numeral.integer? (Layout.signed sign (c :: rest)) = none := by
    cases sign with
    | negative =>
      rw [Layout.signed, Numeral.integer?, unread]
      rfl
    | positive =>
      rw [Layout.signed, Numeral.integer?, unread]
      · rfl
      · rintro _ same
        obtain rfl := List.head_eq_of_cons_eq same
        cases digit
      · rintro _ same
        obtain rfl := List.head_eq_of_cons_eq same
        cases digit
  rw [integer?, Numeral.integerIn?, none]
  split <;> rfl

theorem Stands.number? {text : List Char} {v : ℚ} (h : Stands text v) {x : Float} {sign : Sign}
    (finite : x.isFinite)
    (read : Numeral.real? .binary64 (Layout.signed sign text) = some x.toModel.unpack) :
    number? (Layout.signed sign text) = some (.real x) := by
  obtain ⟨c, rest, rfl, digit⟩ := h.digit
  obtain ⟨d, mem, other⟩ := h.real
  rw [Json.number?, if_pos (h.shape sign), integer?_signed sign digit mem other,
    Numeral.double?_of_real? read, Option.filter_some, if_pos finite]
  rfl

/-- A finite number reads back as itself, to the last bit. -/
theorem number?_double {x : Float} (finite : x.isFinite) :
    number? (layout.double x).toList = some (.real x) := by
  have isOf := Binary.isOf_toModel x
  have text : layout.double x = layout.write .binary64 x.toModel.unpack := rfl
  have known : x.toModel.unpack.isFinite := finite
  cases parts : x.toModel.unpack with
  | notANumber =>
    rw [parts] at known
    cases known
  | infinity sign =>
    rw [parts] at known
    cases known
  | zero sign =>
    have written : (layout.double x).toList = Layout.signed sign ['0', '.', '0'] := by
      rw [text, parts, Layout.write, String.toList_ofList]
      rfl
    rw [written]
    apply (stands_of_spells Numeral.spells_zero).number? finite
    rw [parts, Numeral.real?_signed .binary64 sign Numeral.spells_zero]
    cases sign <;> rfl
  | finite sign m e pos =>
    rw [parts] at isOf
    obtain ⟨canonical, range⟩ := isOf
    have has := Decimal.has_shortest .binary64 layout.tie e pos
    have stands := stands_decimal (l := layout) rfl
      (Binary.digits_ne_zero_of_has canonical range has)
    have written : (layout.double x).toList =
        Layout.signed sign (layout.decimal (.shortest .binary64 layout.tie m e)) := by
      rw [text, parts, Layout.write, String.toList_ofList]
    rw [written]
    apply stands.number? finite
    obtain ⟨c, rest, same, digit⟩ := stands.digit
    obtain ⟨d, read, value⟩ := stands.read
    rw [← value] at has
    have rounded := Binary.ofScientific_eq_of_has canonical range (by decide) has
    rw [same] at read ⊢
    rw [Numeral.real?_of_decimal? .binary64 sign digit read, rounded, parts]
    cases sign <;> rfl

/-- An integer that 64 bits hold, with or without a sign, reads back. -/
theorem number?_integer {n : Int} (low : -2 ^ 63 ≤ n) (high : n < 2 ^ 64) :
    number? (toString n).toList = some (.integer n) := by
  have proper := Numeral.proper_toDigits n.natAbs
  have text := Numeral.toList_toString n
  have read := Numeral.integer?_toString n
  have numeral : isNumeral (toString n).toList := by
    obtain ⟨p, ends, reaches⟩ := Place.foldlM_step_proper proper (Numeral.signOf n)
    rw [← text] at reaches
    refine isNumeral_of_reaches reaches ?_
    rcases ends with rfl | rfl <;> rfl
  have positive : (toString n).toList ≠ ['-', '0'] := by
    intro same
    rw [same] at read
    obtain rfl : 0 = n := Option.some_inj.mp read
    cases same
  have fits : Json.integer? (toString n).toList = some n := by
    rw [Json.integer?, if_neg positive, Numeral.integerIn?, read, Option.filter_some, if_pos]
    simp only [decide_eq_true_eq]
    omega
  rw [number?, if_pos numeral, fits]

end CallStudy.Json
