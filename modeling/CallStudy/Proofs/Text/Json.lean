import CallStudy.Proofs.Text.JsonNumber
import CallStudy.Toml.Quoted

/-!
A reader of JSON texts, after RFC 8259. Blanks may stand around every value and mark, brackets nest
to a bounded depth, an object keeps all its fields, and halves of a pair of codes are refused where
they stand alone. Reading undoes both written forms.
-/

set_option autoImplicit false

namespace CallStudy.Json

/-- Takes a value off the front of a text. -/
abbrev Reader (α : Type) := List Char → Option (α × List Char)

def isBlank (c : Char) : Bool := c = ' ' || c = '\n' || c = '\t' || c = '\r'

def skip (text : List Char) : List Char := text.dropWhile isBlank

namespace Reader

/-- The character that a letter behind a backslash stands for. -/
def unescaped : Char → Option Char
  | '"' => some '"'
  | '\\' => some '\\'
  | '/' => some '/'
  | 'b' => some '\x08'
  | 'f' => some '\x0c'
  | 'n' => some '\n'
  | 'r' => some '\r'
  | 't' => some '\t'
  | _ => none

/-- The character that two codes stand for together, the halves of a pair. -/
def ofPair (first second : List Char) : Option Char :=
  let high := Toml.Reader.ofDigits 16 first
  let low := Toml.Reader.ofDigits 16 second
  if (first ++ second).all Toml.Reader.isHexadecimal && 0xd800 ≤ high && high < 0xdc00 &&
      0xdc00 ≤ low && low < 0xe000 then
    some (.ofNat (0x10000 + 0x400 * (high - 0xd800) + (low - 0xdc00)))
  else none

/-- A text up to its closing quote. -/
def body : Reader (List Char)
  | [] => none
  | '"' :: rest => some ([], rest)
  | '\\' :: 'u' :: a :: b :: c :: d :: '\\' :: 'u' :: e :: f :: g :: h :: rest =>
    match ofPair [a, b, c, d] [e, f, g, h] with
    | some x => Toml.Reader.cons x (body rest)
    | none =>
      (Toml.Reader.ofCode [a, b, c, d]).bind fun x =>
        Toml.Reader.cons x (body ('\\' :: 'u' :: e :: f :: g :: h :: rest))
  | '\\' :: 'u' :: a :: b :: c :: d :: rest =>
    (Toml.Reader.ofCode [a, b, c, d]).bind fun x => Toml.Reader.cons x (body rest)
  | '\\' :: c :: rest => (unescaped c).bind fun x => Toml.Reader.cons x (body rest)
  | c :: rest => if c.toNat < 32 then none else Toml.Reader.cons c (body rest)

/-- A number or a word. -/
def scalar : Reader Json := fun chars =>
  let (word, rest) := chars.span isPart
  let value :=
    if word = "null".toList then some .null
    else if word = "true".toList then some (.bool true)
    else if word = "false".toList then some (.bool false)
    else number? word
  value.map (·, rest)

section Entries

variable {α : Type} (entry : Reader α) (closing : Char)

/-- At least one entry, with commas between them, up to a closing bracket. -/
def more : Nat → Reader (List α)
  | 0, _ => none
  | fuel + 1, chars => do
    let (first, rest) ← entry (skip chars)
    match skip rest with
    | ',' :: rest => (more fuel rest).map fun (others, rest) => (first :: others, rest)
    | c :: rest => if c = closing then some ([first], rest) else none
    | [] => none

/-- The entries behind an opening bracket. -/
def entries : Reader (List α) := fun chars =>
  match skip chars with
  | c :: rest => if c = closing then some ([], rest) else more entry closing chars.length chars
  | [] => none

end Entries

/-- A name and its value. -/
def field (value : Reader Json) : Reader (String × Json)
  | '"' :: rest => do
    let (name, rest) ← body rest
    match skip rest with
    | ':' :: rest => (value (skip rest)).map fun (v, rest) => ((.ofList name, v), rest)
    | _ => none
  | _ => none

/-- A value with at most `room` brackets around one another. -/
def value (room : Nat) : Reader Json := fun chars =>
  match chars, room with
  | '"' :: rest, _ => (body rest).map fun (cs, rest) => (.text (.ofList cs), rest)
  | '[' :: rest, room + 1 =>
    (entries (value room) ']' rest).map fun (items, rest) => (.array items, rest)
  | '\x7b' :: rest, room + 1 =>
    (entries (field (value room)) '\x7d' rest).map fun (fields, rest) => (.object fields, rest)
  | chars, _ => scalar chars

end Reader

/-- Brackets nest at most this deep. -/
def depthLimit : Nat := 127

/-- The value of a text. -/
def read? (text : String) : Option Json :=
  match Reader.value depthLimit (skip text.toList) with
  | some (value, rest) => if (skip rest).isEmpty then some value else none
  | none => none

/-- Values that a text can hold, with at most `room` brackets around one another. -/
inductive Readable : Nat → Json → Prop where
  | null {room : Nat} : Readable room .null
  | bool {room : Nat} (b : Bool) : Readable room (.bool b)
  | integer {room : Nat} {n : Int} (low : -2 ^ 63 ≤ n) (high : n < 2 ^ 64) :
    Readable room (.integer n)
  | real {room : Nat} {x : Float} (finite : x.isFinite) : Readable room (.real x)
  | text {room : Nat} (s : String) : Readable room (.text s)
  | array {room : Nat} {items : List Json} (each : ∀ item ∈ items, Readable room item) :
    Readable (room + 1) (.array items)
  | object {room : Nat} {fields : List (String × Json)}
    (each : ∀ field ∈ fields, Readable room field.2) : Readable (room + 1) (.object fields)

namespace Reader

/-! Texts. -/

theorem ofCode_control : ∀ n < 32, Toml.Reader.ofCode ['0', '0', hexDigit (n / 16),
    hexDigit (n % 16)] = some (Char.ofNat n) := by
  decide +kernel

theorem ofDigits_control : ∀ n < 32, Toml.Reader.ofDigits 16 ['0', '0', hexDigit (n / 16),
    hexDigit (n % 16)] = n := by
  decide +kernel

/-- A character is written as itself, behind a backslash, or by a code that is no half of a
pair. -/
theorem escape_cases (c : Char) :
    (escape c = [c] ∧ ¬ c.toNat < 32 ∧ c ≠ '"' ∧ c ≠ '\\') ∨
      (∃ letter, escape c = ['\\', letter] ∧ unescaped letter = some c) ∨
      ∃ a b, escape c = ['\\', 'u', '0', '0', a, b] ∧
        Toml.Reader.ofCode ['0', '0', a, b] = some c ∧
        ∀ second, ofPair ['0', '0', a, b] second = none := by
  unfold escape
  split
  · next same => exact .inr (.inl ⟨'"', rfl, by rw [same]; rfl⟩)
  split
  · next same => exact .inr (.inl ⟨'\\', rfl, by rw [same]; rfl⟩)
  split
  · next same => exact .inr (.inl ⟨'n', rfl, by rw [same]; rfl⟩)
  split
  · next same => exact .inr (.inl ⟨'r', rfl, by rw [same]; rfl⟩)
  split
  · next same => exact .inr (.inl ⟨'t', rfl, by rw [same]; rfl⟩)
  split
  · next code =>
    obtain rfl : c = '\x08' := Char.toNat_inj.mp code
    exact .inr (.inl ⟨'b', rfl, rfl⟩)
  split
  · next code =>
    obtain rfl : c = '\x0c' := Char.toNat_inj.mp code
    exact .inr (.inl ⟨'f', rfl, rfl⟩)
  split
  · next control =>
    have code := ofCode_control c.toNat control
    rw [Char.ofNat_toNat] at code
    refine .inr (.inr ⟨_, _, rfl, code, fun second => ?_⟩)
    have low : ¬ 0xd800 ≤ c.toNat := by omega
    simp [ofPair, ofDigits_control c.toNat control, low]
  · next quote backslash _ _ _ _ _ control => exact .inl ⟨rfl, control, quote, backslash⟩

theorem body_plain {c : Char} (plain : ¬ c.toNat < 32) (quote : c ≠ '"') (backslash : c ≠ '\\')
    (rest : List Char) : body (c :: rest) = Toml.Reader.cons c (body rest) := by
  rw [body.eq_def]
  split <;> simp_all

theorem body_code {a b c d x : Char} (code : Toml.Reader.ofCode [a, b, c, d] = some x)
    (single : ∀ second, ofPair [a, b, c, d] second = none) (rest : List Char) :
    body ('\\' :: 'u' :: a :: b :: c :: d :: rest) = Toml.Reader.cons x (body rest) := by
  rw [body.eq_def]
  split <;> simp_all
  · next other same =>
    obtain ⟨rfl, rfl⟩ := same
    exact absurd rfl (other a b c d rest rfl)
  · next other same =>
    obtain ⟨rfl, rfl⟩ := same
    exact absurd rfl (other 'u' _ rfl)

theorem body_escape (c : Char) (rest : List Char) :
    body (escape c ++ rest) = Toml.Reader.cons c (body rest) := by
  rcases escape_cases c with ⟨itself, plain, quote, backslash⟩ | ⟨letter, written, read⟩ |
    ⟨a, b, written, read, single⟩
  · rw [itself]
    exact body_plain plain quote backslash rest
  · rw [written]
    unfold unescaped at read
    split at read <;> cases read <;> rfl
  · rw [written]
    exact body_code read single rest

theorem body_escaped (text rest : List Char) :
    body (text.flatMap escape ++ '"' :: rest) = some (text, rest) := by
  induction text with
  | nil => rfl
  | cons c text ih =>
    rw [List.flatMap_cons, List.append_assoc, body_escape, ih]
    rfl

/-! Values. -/

/-- What does not go on in a number or a word. -/
def Stops (rest : List Char) : Prop := ∀ c ∈ rest.head?, ¬ isPart c

/-- How an entry may begin. -/
def Begins (chars : List Char) : Prop :=
  ∃ c rest, chars = c :: rest ∧ isBlank c = false ∧ c ≠ ']' ∧ c ≠ '\x7d'

/-- A text that is taken as a value where nothing goes on in it. -/
structure Takes {α : Type} (read : Reader α) (chars : List Char) (a : α) : Prop where
  begins : Begins chars
  read {rest : List Char} (stops : Stops rest) : read (chars ++ rest) = some (a, rest)

theorem Begins.append {chars : List Char} (h : Begins chars) (rest : List Char) :
    Begins (chars ++ rest) := by
  obtain ⟨c, more, rfl, ok⟩ := h
  exact ⟨c, more ++ rest, rfl, ok⟩

theorem skip_append {gap : List Char} (blank : ∀ c ∈ gap, isBlank c) (rest : List Char) :
    skip (gap ++ rest) = skip rest := List.dropWhile_append_of_pos blank

theorem skip_begins {chars : List Char} (h : Begins chars) : skip chars = chars := by
  obtain ⟨c, rest, rfl, blank, -, -⟩ := h
  simp [skip, blank]

theorem isPart_of_isBlank {c : Char} (h : isBlank c) : ¬ isPart c := by
  simp only [isBlank, Bool.or_eq_true, decide_eq_true_eq] at h
  rcases h with ((rfl | rfl) | rfl) | rfl <;> decide

theorem stops_cons {c : Char} {rest : List Char} (h : ¬ isPart c) : Stops (c :: rest) := by
  rintro d ⟨⟩
  exact h

theorem stops_append {gap rest : List Char} (blank : ∀ c ∈ gap, isBlank c) (stops : Stops rest) :
    Stops (gap ++ rest) := by
  cases gap with
  | nil => exact stops
  | cons c gap => exact stops_cons (isPart_of_isBlank (blank c List.mem_cons_self))

theorem stops_nil : Stops [] := by
  rintro c ⟨⟩

/-- Numbers and words begin with none of the marks. -/
theorem value_part {c : Char} (part : isPart c) (room : Nat) (rest : List Char) :
    value room (c :: rest) = scalar (c :: rest) := by
  rw [value.eq_def]
  split
  · next same =>
    obtain rfl := List.head_eq_of_cons_eq same
    cases part
  · next same =>
    obtain rfl := List.head_eq_of_cons_eq same
    cases part
  · next same =>
    obtain rfl := List.head_eq_of_cons_eq same
    cases part
  · rfl

theorem begins_part {c : Char} (part : isPart c) (rest : List Char) : Begins (c :: rest) := by
  refine ⟨c, rest, rfl, ?_, ?_, ?_⟩
  · by_contra blank
    exact isPart_of_isBlank (by simpa using blank) part
  · rintro rfl
    cases part
  · rintro rfl
    cases part

theorem takes_word {word : List Char} (filled : word ≠ []) (parts : ∀ c ∈ word, isPart c)
    {j : Json} (read : scalar word = some (j, [])) (room : Nat) : Takes (value room) word j := by
  obtain ⟨c, others, rfl⟩ := List.exists_cons_of_ne_nil filled
  have part := parts c List.mem_cons_self
  refine ⟨begins_part part others, fun {rest} stops => ?_⟩
  have alone := Numeral.span_append parts stops_nil
  rw [List.append_nil] at alone
  rw [List.cons_append, value_part part, ← List.cons_append, scalar,
    Numeral.span_append parts stops]
  rw [scalar, alone] at read
  obtain ⟨v, value, same⟩ := Option.map_eq_some_iff.mp read
  cases same
  exact Option.map_eq_some_iff.mpr ⟨_, value, rfl⟩

theorem takes_number {word : List Char} {j : Json} (read : number? word = some j) (room : Nat) :
    Takes (value room) word j := by
  have numeral : isNumeral word := by
    rw [number?] at read
    split at read
    · assumption
    · cases read
  have parts := isPart_of_isNumeral numeral
  have filled : word ≠ [] := by
    rintro rfl
    cases read
  have other (name : List Char) (unread : number? name = none) : word ≠ name := by
    rintro rfl
    rw [unread] at read
    cases read
  have alone := Numeral.span_append parts stops_nil
  rw [List.append_nil] at alone
  apply takes_word filled parts _ room
  simp only [scalar, alone]
  rw [if_neg (other _ (by decide)), if_neg (other _ (by decide)), if_neg (other _ (by decide)),
    read]
  rfl

theorem takes_quoted (s : String) (room : Nat) : Takes (value room) (quoted s).toList (.text s) := by
  have written : (quoted s).toList = '"' :: s.toList.flatMap escape ++ ['"'] :=
    String.toList_ofList
  rw [written]
  refine ⟨⟨'"', _, rfl, by decide⟩, fun {rest} _ => ?_⟩
  have read := body_escaped s.toList rest
  simp only [List.cons_append, List.append_assoc, List.nil_append, value, read, Option.map_some,
    String.ofList_toList]

/-- A name and a value, with blanks between them or without. -/
theorem takes_field {room : Nat} {name : String} {gap chars : List Char} {v : Json}
    (blank : ∀ c ∈ gap, isBlank c) (takes : Takes (value room) chars v) :
    Takes (field (value room)) ((quoted name).toList ++ ':' :: (gap ++ chars)) (name, v) := by
  have written : (quoted name).toList = '"' :: name.toList.flatMap escape ++ ['"'] :=
    String.toList_ofList
  rw [written]
  refine ⟨⟨'"', _, rfl, by decide⟩, fun {rest} stops => ?_⟩
  have read := body_escaped name.toList (':' :: (gap ++ chars ++ rest))
  have colon : skip (':' :: (gap ++ chars ++ rest)) = ':' :: (gap ++ chars ++ rest) := rfl
  have start : skip (gap ++ chars ++ rest) = chars ++ rest := by
    rw [List.append_assoc, skip_append blank, skip_begins (takes.begins.append rest)]
  simp only [List.cons_append, List.append_assoc, List.nil_append] at read colon start ⊢
  simp only [field, read, Option.bind_eq_bind, Option.bind_some, colon, start, takes.read stops,
    Option.map_some, String.ofList_toList]

section Entries

variable {α : Type} {entry : Reader α} {closing : Char} {gap last : List Char}

/-- Entries behind gaps, with commas between them. -/
def between (gap last : List Char) (texts : List (List Char)) : List Char :=
  if texts = [] then [] else gap ++ (',' :: gap).intercalate texts ++ last

theorem length_le_intercalate (sep : List Char) {texts : List (List Char)} {values : List α}
    (each : List.Forall₂ (Takes entry) texts values) :
    texts.length ≤ (sep.intercalate texts).length := by
  induction each with
  | nil => exact Nat.zero_le _
  | @cons text v texts values first others ih =>
    obtain ⟨c, more, rfl, -⟩ := first.begins
    cases texts with
    | nil => simp
    | cons second texts =>
      simp only [List.intercalate_cons_cons, List.length_append, List.length_cons] at ih ⊢
      omega

theorem more_intercalate (blank : ∀ c ∈ gap, isBlank c) (blankLast : ∀ c ∈ last, isBlank c)
    (closes : closing = ']' ∨ closing = '\x7d') {texts : List (List Char)} {values : List α}
    (each : List.Forall₂ (Takes entry) texts values) (filled : texts ≠ []) {fuel : Nat}
    (enough : texts.length ≤ fuel) (rest : List Char) :
    more entry closing fuel (gap ++ ((',' :: gap).intercalate texts ++ (last ++ closing :: rest))) =
      some (values, rest) := by
  have notComma : closing ≠ ',' := by rcases closes with rfl | rfl <;> decide
  have ends : Stops (last ++ closing :: rest) := by
    apply stops_append blankLast
    apply stops_cons
    rcases closes with rfl | rfl <;> decide
  have bracket : skip (last ++ closing :: rest) = closing :: rest := by
    rw [skip_append blankLast]
    rcases closes with rfl | rfl <;> rfl
  induction each generalizing fuel with
  | nil => contradiction
  | @cons text v texts values first others ih =>
    obtain ⟨fuel, rfl⟩ := Nat.exists_eq_succ_of_ne_zero
      (Nat.ne_zero_of_lt (Nat.lt_of_lt_of_le (Nat.succ_pos _) enough))
    cases others with
    | nil =>
      have start : skip (gap ++ (text ++ (last ++ closing :: rest))) =
          text ++ (last ++ closing :: rest) := by
        rw [skip_append blank, skip_begins (first.begins.append _)]
      rw [List.intercalate_singleton, more, start, first.read ends]
      simp only [Option.bind_eq_bind, Option.bind_some, bracket, ↓reduceIte]
    | @cons second w texts values next others =>
      have remaining := ih (List.cons_ne_nil _ _) (Nat.le_of_succ_le_succ enough)
      have written : (',' :: gap).intercalate (text :: second :: texts) ++
          (last ++ closing :: rest) = text ++ ',' :: (gap ++
            ((',' :: gap).intercalate (second :: texts) ++ (last ++ closing :: rest))) := by
        simp [List.intercalate_cons_cons]
      have start (after : List Char) : skip (gap ++ (text ++ after)) = text ++ after := by
        rw [skip_append blank, skip_begins (first.begins.append _)]
      have comma (after : List Char) : skip (',' :: after) = ',' :: after := rfl
      rw [written, more, start, first.read (stops_cons (by decide))]
      simp only [Option.bind_eq_bind, Option.bind_some, comma, remaining, Option.map_some]

theorem entries_between (blank : ∀ c ∈ gap, isBlank c) (blankLast : ∀ c ∈ last, isBlank c)
    (closes : closing = ']' ∨ closing = '\x7d') {texts : List (List Char)} {values : List α}
    (each : List.Forall₂ (Takes entry) texts values) (rest : List Char) :
    entries entry closing (between gap last texts ++ closing :: rest) = some (values, rest) := by
  unfold between entries
  cases each with
  | nil =>
    have bracket : skip (closing :: rest) = closing :: rest := by
      rcases closes with rfl | rfl <;> rfl
    rw [if_pos rfl, List.nil_append, bracket]
    exact if_pos rfl
  | @cons text v texts values first others =>
    have each := List.Forall₂.cons first others
    have count := length_le_intercalate (',' :: gap) each
    rw [if_neg (List.cons_ne_nil _ _)]
    set joined := (',' :: gap).intercalate (text :: texts) with joinedText
    obtain ⟨c, tail, begun, blankness, bracket, brace⟩ : Begins joined := by
      cases texts with
      | nil =>
        rw [joinedText, List.intercalate_singleton]
        exact first.begins
      | cons second texts =>
        rw [joinedText, List.intercalate_cons_cons, List.append_assoc]
        exact first.begins.append _
    have other : c ≠ closing := by rcases closes with rfl | rfl <;> assumption
    have start : skip (gap ++ joined ++ last ++ closing :: rest) =
        c :: (tail ++ last ++ closing :: rest) := by
      rw [List.append_assoc, List.append_assoc, skip_append blank, begun]
      simp [skip, blankness]
    have enough : (text :: texts).length ≤ (gap ++ joined ++ last ++ closing :: rest).length := by
      simp only [List.length_append]
      omega
    have read := more_intercalate blank blankLast closes each (List.cons_ne_nil _ _) enough rest
    rw [start]
    simp only [if_neg other]
    rw [← read]
    simp only [List.append_assoc, joinedText]

end Entries

theorem forall₂_map {α β : Type} {r : β → α → Prop} {f : α → β} {as : List α}
    (each : ∀ a ∈ as, r (f a) a) : List.Forall₂ r (as.map f) as := by
  rw [List.forall₂_map_left_iff, List.forall₂_same]
  exact each

/-- Written items between brackets are an array. -/
theorem takes_array {room : Nat} {gap last : List Char} (blank : ∀ c ∈ gap, isBlank c)
    (blankLast : ∀ c ∈ last, isBlank c) {write : Json → List Char} {items : List Json}
    (each : ∀ item ∈ items, Takes (value room) (write item) item) :
    Takes (value (room + 1)) ('[' :: (between gap last (items.map write) ++ [']']))
      (.array items) := by
  refine ⟨⟨'[', _, rfl, by decide⟩, fun {rest} _ => ?_⟩
  rw [List.cons_append, List.append_assoc, value, List.singleton_append,
    entries_between blank blankLast (.inl rfl) (forall₂_map each)]
  rfl

/-- A field: its name, a colon, blanks or none, and its value. -/
def writeField (gap : List Char) (write : Json → List Char) (f : String × Json) : List Char :=
  (quoted f.1).toList ++ ':' :: (gap ++ write f.2)

theorem takes_object {room : Nat} {gap last space : List Char} (blank : ∀ c ∈ gap, isBlank c)
    (blankLast : ∀ c ∈ last, isBlank c) (blankSpace : ∀ c ∈ space, isBlank c)
    {write : Json → List Char} {fields : List (String × Json)}
    (each : ∀ f ∈ fields, Takes (value room) (write f.2) f.2) :
    Takes (value (room + 1))
      ('\x7b' :: (between gap last (fields.map (writeField space write)) ++ ['\x7d']))
      (.object fields) := by
  have entries : ∀ f ∈ fields, Takes (field (value room)) (writeField space write f) f :=
    fun f mem => takes_field blankSpace (each f mem)
  refine ⟨⟨'\x7b', _, rfl, by decide⟩, fun {rest} _ => ?_⟩
  rw [List.cons_append, List.append_assoc, value, List.singleton_append,
    entries_between blank blankLast (.inr rfl) (forall₂_map entries)]
  rfl

theorem takes_null (room : Nat) : Takes (value room) "null".toList .null :=
  takes_word (by decide) (List.all_eq_true.mp (by decide)) rfl room

theorem takes_bool (b : Bool) (room : Nat) :
    Takes (value room) (if b then "true" else "false").toList (.bool b) := by
  cases b <;> exact takes_word (by decide) (List.all_eq_true.mp (by decide)) rfl room

end Reader

/-! The written forms. -/

open Reader

theorem compactItems_eq (items : List Json) : compactItems items = items.map compact := by
  induction items with
  | nil => rfl
  | cons item rest ih => rw [compactItems, ih, List.map_cons]

theorem compactFields_eq (fields : List (String × Json)) :
    compactFields fields = fields.map fun f => quoted f.1 ++ ":" ++ f.2.compact := by
  induction fields with
  | nil => rfl
  | cons f rest ih => rw [compactFields, ih, List.map_cons]

theorem indentedItems_eq (depth : Nat) (items : List Json) :
    indentedItems depth items = items.map (indented depth) := by
  induction items with
  | nil => rfl
  | cons item rest ih => rw [indentedItems, ih, List.map_cons]

theorem indentedFields_eq (depth : Nat) (fields : List (String × Json)) :
    indentedFields depth fields =
      fields.map fun f => quoted f.1 ++ ": " ++ f.2.indented depth := by
  induction fields with
  | nil => rfl
  | cons f rest ih => rw [indentedFields, ih, List.map_cons]

theorem toList_intercalate_comma (texts : List String) :
    (",".intercalate texts).toList = between [] [] (texts.map String.toList) := by
  cases texts <;> simp [between]

theorem toList_block (opening closing : Char) (depth : Nat) (entries : List String) :
    (block (String.singleton opening) (String.singleton closing) depth entries).toList =
      opening :: (between (lineBreak (depth + 1)).toList (lineBreak depth).toList
        (entries.map String.toList) ++ [closing]) := by
  cases entries <;> simp [block, between]

theorem isBlank_lineBreak (depth : Nat) : ∀ c ∈ (lineBreak depth).toList, isBlank c := by
  intro c mem
  simp only [lineBreak, String.toList_append, String.toList_ofList, List.mem_append] at mem
  rcases mem with line | blank
  · obtain rfl : c = '\n' := by simpa using line
    rfl
  · rw [List.eq_of_mem_replicate blank]
    rfl

theorem toList_compact_array (items : List Json) :
    (compact (.array items)).toList =
      '[' :: (between [] [] (items.map fun item => item.compact.toList) ++ [']']) := by
  rw [compact, compactItems_eq, String.toList_append, String.toList_append,
    toList_intercalate_comma, List.map_map]
  rfl

theorem toList_compact_object (fields : List (String × Json)) :
    (compact (.object fields)).toList = '\x7b' :: (between [] []
      (fields.map (writeField [] fun v => v.compact.toList)) ++ ['\x7d']) := by
  have each : (fun f : String × Json => (quoted f.1 ++ ":" ++ f.2.compact).toList) =
      writeField [] fun v => v.compact.toList := by
    funext f
    simp [writeField]
  rw [compact, compactFields_eq, String.toList_append, String.toList_append,
    toList_intercalate_comma, List.map_map, ← each]
  rfl

theorem toList_indented_array (depth : Nat) (items : List Json) :
    (indented depth (.array items)).toList =
      '[' :: (between (lineBreak (depth + 1)).toList (lineBreak depth).toList
        (items.map fun item => (item.indented (depth + 1)).toList) ++ [']']) := by
  rw [indented, indentedItems_eq]
  exact (toList_block '[' ']' depth _).trans (by rw [List.map_map]; rfl)

theorem toList_indented_object (depth : Nat) (fields : List (String × Json)) :
    (indented depth (.object fields)).toList =
      '\x7b' :: (between (lineBreak (depth + 1)).toList (lineBreak depth).toList
        (fields.map (writeField [' '] fun v => (v.indented (depth + 1)).toList)) ++
          ['\x7d']) := by
  have each : (fun f : String × Json => (quoted f.1 ++ ": " ++ f.2.indented (depth + 1)).toList) =
      writeField [' '] fun v => (v.indented (depth + 1)).toList := by
    funext f
    simp [writeField]
  rw [indented, indentedFields_eq, ← each]
  exact (toList_block '\x7b' '\x7d' depth _).trans (by rw [List.map_map]; rfl)

theorem takes_compact {room : Nat} {j : Json} (readable : Readable room j) :
    Takes (value room) j.compact.toList j := by
  induction readable with
  | null => exact takes_null _
  | bool b => exact takes_bool b _
  | integer low high => exact takes_number (number?_integer low high) _
  | real finite => exact takes_number (number?_double finite) _
  | text s => exact takes_quoted s _
  | array _ ih =>
    rw [toList_compact_array]
    exact takes_array (by simp) (by simp) ih
  | object _ ih =>
    rw [toList_compact_object]
    exact takes_object (by simp) (by simp) (by simp) ih

theorem takes_indented {room : Nat} {j : Json} (readable : Readable room j) (depth : Nat) :
    Takes (value room) (j.indented depth).toList j := by
  induction readable generalizing depth with
  | null => exact takes_null _
  | bool b => exact takes_bool b _
  | integer low high => exact takes_number (number?_integer low high) _
  | real finite => exact takes_number (number?_double finite) _
  | text s => exact takes_quoted s _
  | array _ ih =>
    rw [toList_indented_array]
    exact takes_array (isBlank_lineBreak _) (isBlank_lineBreak _) fun item mem => ih item mem _
  | object _ ih =>
    rw [toList_indented_object]
    exact takes_object (isBlank_lineBreak _) (isBlank_lineBreak _) (by simp [isBlank])
      fun f mem => ih f mem _

theorem read?_of_takes {s : String} {j : Json}
    (takes : Takes (value depthLimit) s.toList j) : read? s = some j := by
  have read := takes.read stops_nil
  rw [List.append_nil] at read
  rw [read?, skip_begins takes.begins, read]
  rfl

/-- Reading undoes writing on one line. -/
theorem read?_compact {j : Json} (readable : Readable depthLimit j) : read? j.compact = some j :=
  read?_of_takes (takes_compact readable)

/-- Reading undoes indented writing. -/
theorem read?_indented {j : Json} (readable : Readable depthLimit j) (depth : Nat) :
    read? (j.indented depth) = some j :=
  read?_of_takes (takes_indented readable depth)

/-! Line breaks. -/

theorem not_mem_intercalate {c : Char} {sep : List Char} (outside : c ∉ sep)
    {texts : List (List Char)} (inside : ∀ chars ∈ texts, c ∉ chars) :
    c ∉ sep.intercalate texts := by
  induction texts with
  | nil => simp
  | cons first rest ih =>
    obtain ⟨head, tail⟩ := List.forall_mem_cons.mp inside
    cases rest with
    | nil => simpa using head
    | cons second rest =>
      rw [List.intercalate_cons_cons, List.mem_append, List.mem_append, not_or, not_or]
      exact ⟨⟨head, outside⟩, ih tail⟩

theorem not_mem_between {c : Char} (comma : c ≠ ',') {texts : List (List Char)}
    (inside : ∀ chars ∈ texts, c ∉ chars) : c ∉ between [] [] texts := by
  unfold between
  split
  · exact List.not_mem_nil
  · rw [List.nil_append, List.append_nil]
    exact not_mem_intercalate (by simpa using comma) inside

theorem not_mem_escape (c : Char) : '\n' ∉ escape c := by
  intro mem
  rcases escape_cases c with ⟨itself, plain, -⟩ | ⟨letter, written, read⟩ |
    ⟨a, b, written, code, -⟩
  · rw [itself, List.mem_singleton] at mem
    subst mem
    exact plain (by decide)
  · rw [written] at mem
    obtain rfl : '\n' = letter := by simpa using mem
    cases read
  · rw [written] at mem
    have digits : [a, b].all Toml.Reader.isHexadecimal := by
      rw [Toml.Reader.ofCode] at code
      split at code
      · next known =>
        simp only [List.all_cons, Bool.and_eq_true] at known ⊢
        tauto
      · cases code
    have same : '\n' = a ∨ '\n' = b := by simpa using mem
    simp only [List.all_cons, Bool.and_eq_true] at digits
    rcases same with rfl | rfl
    · cases digits.1
    · cases digits.2.1

theorem not_mem_quoted (s : String) : '\n' ∉ (quoted s).toList := by
  rw [quoted, String.toList_ofList]
  simp [not_mem_escape]

theorem not_mem_of_number? {word : List Char} {j : Json} (read : number? word = some j) :
    '\n' ∉ word := by
  intro mem
  have numeral : isNumeral word := by
    rw [number?] at read
    split at read
    · assumption
    · cases read
  cases isPart_of_isNumeral numeral _ mem

/-- A value on one line. -/
theorem not_mem_compact {room : Nat} {j : Json} (readable : Readable room j) :
    '\n' ∉ j.compact.toList := by
  induction readable with
  | null => decide
  | bool b => cases b <;> decide
  | integer low high => exact not_mem_of_number? (number?_integer low high)
  | real finite => exact not_mem_of_number? (number?_double finite)
  | text s => exact not_mem_quoted s
  | @array room items _ ih =>
    have each : ∀ item ∈ items, '\n' ∉ item.compact.toList := ih
    have inside := not_mem_between (c := '\n') (by decide) (List.forall_mem_map.mpr each)
    rw [toList_compact_array]
    simpa using inside
  | @object room fields _ ih =>
    have each : ∀ f ∈ fields, '\n' ∉ writeField [] (fun v => v.compact.toList) f := by
      intro f mem
      simpa [writeField] using ⟨not_mem_quoted f.1, ih f mem⟩
    have inside := not_mem_between (c := '\n') (by decide) (List.forall_mem_map.mpr each)
    rw [toList_compact_object]
    simpa using inside

/-! Structures. -/

/-- The only item of a list. -/
def only? : List Json → Option Json
  | [v] => some v
  | _ => none

/-- The values of a structure with some fields: those of an object that has each of them once,
perhaps among others, or as many items of an array. -/
def members? (names : List String) : Json → Option (List Json)
  | .array items => if items.length = names.length then some items else none
  | .object fields => names.mapM fun name => only? ((fields.filter (·.1 = name)).map (·.2))
  | _ => none

theorem mapM_map_eq_some {α β γ : Type} {f : β → Option γ} {g : α → β} {h : α → γ} {as : List α}
    (each : ∀ a ∈ as, f (g a) = some (h a)) : (as.map g).mapM f = some (as.map h) := by
  induction as with
  | nil => rfl
  | cons a as ih =>
    obtain ⟨first, others⟩ := List.forall_mem_cons.mp each
    rw [List.map_cons, List.mapM_cons, first, ih others]
    rfl

theorem filter_eq_singleton {fields : List (String × Json)} (distinct : (fields.map (·.1)).Nodup)
    {f : String × Json} (mem : f ∈ fields) : fields.filter (·.1 = f.1) = [f] := by
  induction fields with
  | nil => cases mem
  | cons first rest ih =>
    obtain ⟨fresh, distinct⟩ := List.nodup_cons.mp distinct
    rcases List.mem_cons.mp mem with rfl | mem
    · have none : rest.filter (·.1 = f.1) = [] := by
        rw [List.filter_eq_nil_iff]
        intro g other same
        have name : g.1 = f.1 := by simpa using same
        exact fresh (List.mem_map.mpr ⟨g, other, name⟩)
      rw [List.filter_cons_of_pos (by simp), none]
    · have other : first.1 ≠ f.1 := fun same => fresh (List.mem_map.mpr ⟨f, mem, same.symm⟩)
      rw [List.filter_cons_of_neg (by simpa using other), ih distinct mem]

/-- The members of an object are the values of its fields, if no name comes twice. -/
theorem members?_object {fields : List (String × Json)} (distinct : (fields.map (·.1)).Nodup) :
    members? (fields.map (·.1)) (.object fields) = some (fields.map (·.2)) := by
  rw [members?]
  apply mapM_map_eq_some
  intro f mem
  rw [filter_eq_singleton distinct mem]
  rfl

theorem members?_eq {names : List String} {values : List Json} {j : Json}
    (object : j = .object (names.zip values)) (distinct : names.Nodup)
    (count : names.length = values.length) : members? names j = some values := by
  have first : (names.zip values).map (·.1) = names := List.map_fst_zip count.le
  have second : (names.zip values).map (·.2) = values := List.map_snd_zip count.ge
  have fresh : ((names.zip values).map (·.1)).Nodup := by rwa [first]
  have members := members?_object fresh
  rw [first, second] at members
  rw [object, members]

/-! Reals that are not finite. -/

theorem double_of_not_isFinite {x : Float} (special : ¬ x.isFinite) : layout.double x = "null" := by
  have known : ¬ x.toModel.unpack.isFinite := special
  have text : layout.double x = layout.write .binary64 x.toModel.unpack := rfl
  rw [text]
  cases parts : x.toModel.unpack with
  | notANumber => rfl
  | infinity sign => rfl
  | zero sign =>
    rw [parts] at known
    exact absurd rfl known
  | finite sign m e pos =>
    rw [parts] at known
    exact absurd rfl known

/-- A real is written as a number exactly when it is finite. -/
theorem isNumeral_double_iff (x : Float) : isNumeral (layout.double x).toList ↔ x.isFinite := by
  by_cases finite : x.isFinite
  · have read := number?_double finite
    by_cases numeral : isNumeral (layout.double x).toList
    · exact iff_of_true numeral finite
    · rw [number?, if_neg numeral] at read
      cases read
  · rw [double_of_not_isFinite finite]
    exact iff_of_false (by decide) finite

mutual
/-- A value with null for every real that is not finite. -/
def nulled : Json → Json
  | null => null
  | bool b => bool b
  | integer n => integer n
  | real x => if x.isFinite then real x else null
  | text s => text s
  | array items => array (nulledItems items)
  | object fields => object (nulledFields fields)

def nulledItems : List Json → List Json
  | [] => []
  | item :: rest => item.nulled :: nulledItems rest

def nulledFields : List (String × Json) → List (String × Json)
  | [] => []
  | (name, value) :: rest => (name, value.nulled) :: nulledFields rest
end

theorem nulledItems_eq (items : List Json) : nulledItems items = items.map nulled := by
  induction items with
  | nil => rfl
  | cons item rest ih => rw [nulledItems, ih, List.map_cons]

mutual
theorem compact_nulled : (j : Json) → j.nulled.compact = j.compact
  | null => rfl
  | bool _ => rfl
  | integer _ => rfl
  | text _ => rfl
  | real x => by
    rw [nulled]
    split
    · rfl
    · next special => exact (double_of_not_isFinite special).symm
  | array items => by rw [nulled, compact, compact, compactItems_nulled items]
  | object fields => by rw [nulled, compact, compact, compactFields_nulled fields]

theorem compactItems_nulled : (items : List Json) →
    compactItems (nulledItems items) = compactItems items
  | [] => rfl
  | item :: rest => by
    rw [nulledItems, compactItems, compactItems, compact_nulled item, compactItems_nulled rest]

theorem compactFields_nulled : (fields : List (String × Json)) →
    compactFields (nulledFields fields) = compactFields fields
  | [] => rfl
  | (name, value) :: rest => by
    rw [nulledFields, compactFields, compactFields, compact_nulled value, compactFields_nulled rest]
end

mutual
theorem indented_nulled : (j : Json) → (depth : Nat) → j.nulled.indented depth = j.indented depth
  | null, _ => rfl
  | bool _, _ => rfl
  | integer _, _ => rfl
  | text _, _ => rfl
  | real x, _ => by
    rw [nulled]
    split
    · rfl
    · next special => exact (double_of_not_isFinite special).symm
  | array items, depth => by rw [nulled, indented, indented, indentedItems_nulled items]
  | object fields, depth => by rw [nulled, indented, indented, indentedFields_nulled fields]

theorem indentedItems_nulled : (items : List Json) → (depth : Nat) →
    indentedItems depth (nulledItems items) = indentedItems depth items
  | [], _ => rfl
  | item :: rest, depth => by
    rw [nulledItems, indentedItems, indentedItems, indented_nulled item,
      indentedItems_nulled rest]

theorem indentedFields_nulled : (fields : List (String × Json)) → (depth : Nat) →
    indentedFields depth (nulledFields fields) = indentedFields depth fields
  | [], _ => rfl
  | (name, value) :: rest, depth => by
    rw [nulledFields, indentedFields, indentedFields, indented_nulled value,
      indentedFields_nulled rest]
end

end CallStudy.Json
