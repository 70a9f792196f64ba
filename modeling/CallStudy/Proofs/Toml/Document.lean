import CallStudy.Proofs.Toml.Quoted
import CallStudy.Toml.Document

/-!
Written documents read back: values, arrays with each item on a line of its own, entries under
headings. Every line takes a character at least, so the length of the text bounds their number.
-/

set_option autoImplicit false

namespace CallStudy.Toml

namespace Reader

/-- What begins with another character is no number, date or truth value. -/
theorem scalar_eq_none {c : Char} (text : List Char)
    (h : ¬ c.isDigit ∧ c ≠ '+' ∧ c ≠ '-' ∧ c ≠ 'i' ∧ c ≠ 'n' ∧ c ≠ 't' ∧ c ≠ 'f') :
    scalar (c :: text) = none := by
  obtain ⟨digit, plus, minus, i, n, t, f⟩ := h
  have noDigits : decimal (c :: text) = none := decimal_of_not_digit .positive ⟨digit, plus, minus⟩
  have noSign : sign (c :: text) = ([], c :: text) := by
    rw [sign]
    · rintro _ same
      exact plus (List.head_eq_of_cons_eq same)
    · rintro _ same
      exact minus (List.head_eq_of_cons_eq same)
  have noSpecial : special (c :: text) = none := by
    rw [special, noSign]
    simp only
    split
    · next same => exact absurd (List.head_eq_of_cons_eq same) i
    · next same => exact absurd (List.head_eq_of_cons_eq same) n
    · rfl
  have noInteger : unbounded (c :: text) = none := by
    rw [unbounded.eq_def]
    split
    · next same => exact absurd (by rw [List.head_eq_of_cons_eq same]; rfl) digit
    · next same => exact absurd (by rw [List.head_eq_of_cons_eq same]; rfl) digit
    · next same => exact absurd (by rw [List.head_eq_of_cons_eq same]; rfl) digit
    · rw [noDigits]
      rfl
  have noTruth : boolean (c :: text) = none := by
    rw [boolean.eq_def]
    split
    · next same => exact absurd (List.head_eq_of_cons_eq same) t
    · next same => exact absurd (List.head_eq_of_cons_eq same) f
    · rfl
  rw [scalar, datetime_of_not_digit digit]
  simp only [real, noDigits, noSpecial, integer, noInteger, noTruth, Option.filter_none,
    Option.map_none]

/-- How a value may begin where it is written. -/
def Begins (text : List Char) : Prop :=
  ∃ c more, text = c :: more ∧ isBlank c = false ∧ c ≠ '\n' ∧ c ≠ '\r' ∧ c ≠ '#' ∧ c ≠ ']'

theorem Begins.append {text : List Char} (h : Begins text) (rest : List Char) :
    Begins (text ++ rest) := by
  obtain ⟨c, more, rfl, ok⟩ := h
  exact ⟨c, more ++ rest, rfl, ok⟩

theorem Begins.skip {text : List Char} (h : Begins text) : skip false text = some text := by
  obtain ⟨c, more, rfl, blank, line, carriage, comment, -⟩ := h
  rw [Reader.skip]
  · simp [comment, blank]
  · rintro text rfl
    contradiction
  · rintro rfl
    contradiction

theorem Begins.dropWhile {text : List Char} (h : Begins text) : text.dropWhile isBlank = text := by
  obtain ⟨c, more, rfl, blank, -⟩ := h
  simp [blank]

theorem exists_cons_of_scalar {text : List Char} {r : Value × List Char}
    (h : scalar text = some r) :
    ∃ c more, text = c :: more ∧
      (c.isDigit ∨ c = '+' ∨ c = '-' ∨ c = 'i' ∨ c = 'n' ∨ c = 't' ∨ c = 'f') := by
  cases text with
  | nil => cases (show scalar [] = none from rfl).symm.trans h
  | cons c more =>
    refine ⟨c, more, rfl, ?_⟩
    by_contra other
    simp only [not_or] at other
    rw [scalar_eq_none more other] at h
    cases h

theorem begins_of_scalar {text : List Char} {r : Value × List Char} (h : scalar text = some r) :
    Begins text := by
  obtain ⟨c, more, rfl, known⟩ := exists_cons_of_scalar h
  refine ⟨c, more, rfl, ?_, ?_, ?_, ?_, ?_⟩
  · by_contra blank
    simp only [isBlank, Bool.not_eq_false, Bool.or_eq_true, decide_eq_true_eq] at blank
    rcases blank with rfl | rfl <;> simp at known
  all_goals
    rintro rfl
    simp at known

theorem value_of_scalar {text : List Char} {r : Value × List Char} (h : scalar text = some r)
    (depth : Nat) : value depth text = some r := by
  obtain ⟨c, more, rfl, known⟩ := exists_cons_of_scalar h
  have head (other : Char) (no : ¬ (other.isDigit ∨ other = '+' ∨ other = '-' ∨ other = 'i' ∨
      other = 'n' ∨ other = 't' ∨ other = 'f')) : c ≠ other := by
    rintro rfl
    exact no known
  have noQuote : quoted (c :: more) = none := by
    rw [quoted.eq_def]
    split
    · next same => exact absurd (List.head_eq_of_cons_eq same) (head '"' (by decide))
    · next same => exact absurd (List.head_eq_of_cons_eq same) (head '"' (by decide))
    · next same => exact absurd (List.head_eq_of_cons_eq same) (head '\'' (by decide))
    · next same => exact absurd (List.head_eq_of_cons_eq same) (head '\'' (by decide))
    · rfl
  rw [value.eq_def]
  split
  · next same => exact absurd (List.head_eq_of_cons_eq same) (head '[' (by decide))
  · next same => exact absurd (List.head_eq_of_cons_eq same) (head '\x7b' (by decide))
  · rw [noQuote]
    exact h

theorem exists_cons_quote (text : List Char) :
    ∃ c more, quote text = c :: more ∧ (c = '"' ∨ c = '\'') := by
  unfold quote
  cases choose : Style.choose text
  · exact ⟨_, _, rfl, .inl rfl⟩
  · exact ⟨_, _, rfl, .inr rfl⟩
  · exact ⟨_, _, rfl, .inl rfl⟩
  · exact ⟨_, _, rfl, .inr rfl⟩

theorem begins_quote (text : List Char) : Begins (quote text) := by
  obtain ⟨c, more, written, rfl | rfl⟩ := exists_cons_quote text
  · exact ⟨_, _, written, by decide⟩
  · exact ⟨_, _, written, by decide⟩

theorem value_quote (text : List Char) {rest : List Char} (ends : Ends rest) (depth : Nat) :
    value depth (quote text ++ rest) = some (.text (.ofList text), rest) := by
  have read := quoted_quote text ends
  obtain ⟨c, more, written, isQuote⟩ := exists_cons_quote text
  rw [written, List.cons_append] at read ⊢
  rw [value.eq_def]
  split
  · next same =>
    obtain rfl := List.head_eq_of_cons_eq same
    simp at isQuote
  · next same =>
    obtain rfl := List.head_eq_of_cons_eq same
    simp at isQuote
  · rw [read]

/-- What is written is read as a value wherever at most `room` brackets fewer than allowed are
around it. -/
structure Reads (room : Nat) (text : List Char) (v : Value) : Prop where
  begins : Begins text
  read : ∀ (depth : Nat) (rest : List Char), Ends rest →
    value (depth + room) (text ++ rest) = some (v, rest)

theorem reads_of_scalar {text : List Char} {v : Value} (room : Nat)
    (read : ∀ rest, Ends rest → scalar (text ++ rest) = some (v, rest)) (filled : text ≠ []) :
    Reads room text v where
  begins := by
    obtain ⟨c, more, rfl⟩ := List.exists_cons_of_ne_nil filled
    obtain ⟨d, after, same, ok⟩ := begins_of_scalar (read ['\n'] ⟨'\n', [], rfl, .inl rfl⟩)
    obtain rfl := List.head_eq_of_cons_eq same
    exact ⟨c, more, rfl, ok⟩
  read depth rest ends := value_of_scalar (read rest ends) _

theorem reads_writeReal (room : Nat) (x : Float) : Reads room (writeReal x) (.real x) := by
  apply reads_of_scalar room (fun rest ends => scalar_writeReal x ends)
  intro empty
  have read := scalar_writeReal x (show Ends ['\n'] from ⟨'\n', [], rfl, .inl rfl⟩)
  rw [empty] at read
  cases read

theorem reads_writeInteger (room : Nat) {n : Int} (fits : (Word.ofInt? n).isSome) :
    Reads room (writeInteger n) (.integer n) := by
  apply reads_of_scalar room (fun rest ends => scalar_writeInteger fits ends)
  intro empty
  rw [writeInteger_eq] at empty
  exact Nat.toDigits_ne_nil (List.append_eq_nil_iff.mp empty).2

theorem reads_quote (room : Nat) (text : List Char) :
    Reads room (quote text) (.text (.ofList text)) :=
  ⟨begins_quote text, fun _ _ ends => value_quote text ends _⟩

/-! Arrays. -/

theorem skip_item {text : List Char} (h : Begins text) :
    skip false (' ' :: ' ' :: ' ' :: ' ' :: text) = some text := by
  have blank (text : List Char) : skip false (' ' :: text) = skip false text := rfl
  rw [blank, blank, blank, blank, h.skip]

theorem items_item {item : Reader Value} {fuel : Nat} {text rest : List Char} {v : Value}
    {rest' : List Char} (begins : Begins text) (start : skip false rest = some text)
    (read : item text = some (v, ',' :: rest')) :
    items item (fuel + 1) rest =
      (items item fuel rest').map fun (values, text) => (v :: values, text) := by
  obtain ⟨c, more, rfl, -, -, -, -, bracket⟩ := begins
  rw [items, start]
  simp only [Option.bind_eq_bind, Option.bind_some]
  split
  · next same => exact absurd (List.head_eq_of_cons_eq same) bracket
  · rw [read]
    rfl

theorem items_last {item : Reader Value} {fuel : Nat} {text rest : List Char} {v : Value}
    {rest' : List Char} (begins : Begins text) (start : skip false rest = some text)
    (read : item text = some (v, ']' :: rest')) :
    items item (fuel + 1) rest = some ([v], rest') := by
  obtain ⟨c, more, rfl, -, -, -, -, bracket⟩ := begins
  rw [items, start]
  simp only [Option.bind_eq_bind, Option.bind_some]
  split
  · next same => exact absurd (List.head_eq_of_cons_eq same) bracket
  · rw [read]
    rfl

theorem items_flatMap {room depth fuel : Nat} {texts : List (List Char)} {values : List Value}
    (each : List.Forall₂ (Reads room) texts values) (rest : List Char)
    (enough : texts.length < fuel) :
    items (value (depth + room)) fuel ('\n' :: texts.flatMap writeItem ++ ']' :: rest) =
      some (values, rest) := by
  induction each generalizing fuel with
  | nil =>
    obtain ⟨fuel, rfl⟩ := Nat.exists_eq_succ_of_ne_zero (Nat.ne_zero_of_lt enough)
    rw [items]
    rfl
  | @cons text v texts values first _ ih =>
    obtain ⟨fuel, rfl⟩ := Nat.exists_eq_succ_of_ne_zero (Nat.ne_zero_of_lt enough)
    let after := '\n' :: texts.flatMap writeItem ++ ']' :: rest
    have written : '\n' :: (text :: texts).flatMap writeItem ++ ']' :: rest =
        '\n' :: ' ' :: ' ' :: ' ' :: ' ' :: (text ++ ',' :: after) := by
      simp [writeItem, after]
    have start : skip false ('\n' :: ' ' :: ' ' :: ' ' :: ' ' :: (text ++ ',' :: after)) =
        some (text ++ ',' :: after) := skip_item (first.begins.append _)
    rw [written, items_item (first.begins.append _) start
      (first.read depth (',' :: after) ⟨',', after, rfl, .inr (.inl rfl)⟩)]
    have remaining : texts.length < fuel := by
      simp only [List.length_cons] at enough
      omega
    rw [ih remaining]
    rfl

/-- Texts with something in each are at least as long as there are texts. -/
theorem length_le_flatMap {α : Type} {f : α → List Char} (filled : ∀ a, f a ≠ [])
    (as : List α) : as.length ≤ (as.flatMap f).length := by
  induction as with
  | nil => exact Nat.le_refl 0
  | cons a as ih =>
    have some := List.length_pos_of_ne_nil (filled a)
    simp only [List.flatMap_cons, List.length_append, List.length_cons]
    omega

theorem reads_writeArray {room : Nat} {texts : List (List Char)} {values : List Value}
    (each : List.Forall₂ (Reads room) texts values) :
    Reads (room + 1) (writeArray texts) (.array values) := by
  have begins : Begins (writeArray texts) := by
    rcases texts with _ | ⟨_, _ | _⟩ <;> exact ⟨'[', _, rfl, by decide⟩
  refine ⟨begins, fun depth rest ends => ?_⟩
  rcases texts with _ | ⟨text, _ | ⟨second, texts⟩⟩
  · cases each
    rfl
  · obtain ⟨v, values, first, none, rfl⟩ := List.forall₂_cons_left_iff.mp each
    cases none
    have start : skip false (text ++ ']' :: rest) = some (text ++ ']' :: rest) :=
      (first.begins.append _).skip
    have written : writeArray [text] ++ rest = '[' :: (text ++ ']' :: rest) := by
      simp [writeArray]
    rw [written, ← Nat.add_assoc, value, items_last (first.begins.append _) start
      (first.read depth (']' :: rest) ⟨']', rest, rfl, .inr (.inr rfl)⟩)]
    rfl
  · have written : writeArray (text :: second :: texts) ++ rest =
        '[' :: ('\n' :: (text :: second :: texts).flatMap writeItem ++ ']' :: rest) := by
      simp [writeArray]
    rw [written, ← Nat.add_assoc, value, items_flatMap each]
    · rfl
    · have := length_le_flatMap (f := writeItem) (by simp [writeItem])
        (text :: second :: texts)
      simp only [List.length_append, List.length_cons] at this ⊢
      omega

/-! Keys. -/

/-- A key that stands without quotes. -/
def Bare (name : String) : Prop := name.toList ≠ [] ∧ ∀ c ∈ name.toList, isBare c

theorem isBare_ne {c d : Char} (h : isBare c) (no : isBare d = false) : c ≠ d := by
  rintro rfl
  exact absurd h (by simp [no])

theorem Bare.exists_cons {name : String} (bare : Bare name) :
    ∃ c more, name.toList = c :: more ∧ isBare c := by
  obtain ⟨c, more, same⟩ := List.exists_cons_of_ne_nil bare.1
  exact ⟨c, more, same, bare.2 c (by simp [same])⟩

theorem Bare.begins {name : String} (bare : Bare name) : Begins name.toList := by
  obtain ⟨c, more, same, isBare⟩ := bare.exists_cons
  refine ⟨c, more, same, ?_, isBare_ne isBare (by decide), isBare_ne isBare (by decide),
    isBare_ne isBare (by decide), isBare_ne isBare (by decide)⟩
  have space := isBare_ne isBare (show Reader.isBare ' ' = false by decide)
  have tab := isBare_ne isBare (show Reader.isBare '\t' = false by decide)
  simp [isBlank, space, tab]

theorem keyStep_bare {name : String} (bare : Bare name) {rest : List Char}
    (stops : ∀ c ∈ rest.head?, isBare c = false) :
    keyStep (name.toList ++ rest) = some (name, rest) := by
  obtain ⟨c, more, same, isBare⟩ := bare.exists_cons
  have taken : (name.toList ++ rest).takeWhile Reader.isBare = name.toList := by
    rw [List.takeWhile_append_of_pos bare.2]
    cases rest with
    | nil => simp
    | cons d rest => simp [stops d rfl]
  have left : (name.toList ++ rest).dropWhile Reader.isBare = rest := by
    rw [List.dropWhile_append_of_pos bare.2]
    cases rest with
    | nil => rfl
    | cons d rest => simp [stops d rfl]
  rw [keyStep.eq_def]
  split
  · next written =>
    rw [same] at written
    exact absurd (List.head_eq_of_cons_eq written) (isBare_ne isBare (by decide))
  · next written =>
    rw [same] at written
    exact absurd (List.head_eq_of_cons_eq written) (isBare_ne isBare (by decide))
  · rw [taken, left, if_neg (by simpa using bare.1), String.ofList_toList]

theorem key_bare {name : String} (bare : Bare name) {rest : List Char}
    (stops : ∀ c ∈ rest.head?, isBare c = false)
    (last : ∀ more, rest.dropWhile isBlank ≠ '.' :: more) :
    key (name.toList ++ rest) = some (([], name), rest.dropWhile isBlank) := by
  have steps : keySteps ((name.toList ++ rest).length + 1) (name.toList ++ rest) =
      some ([name], rest.dropWhile isBlank) := by
    rw [keySteps, (bare.begins.append rest).dropWhile, keyStep_bare bare stops]
    simp only [Option.bind_eq_bind, Option.bind_some]
  rw [key, steps]
  rfl

theorem keyed_writeEntry {name : String} {text rest : List Char} {v : Value} (bare : Bare name)
    (reads : Reads (depthLimit - 1) text v) :
    keyed (value (depthLimit - 1)) (writeEntry (name, text) ++ rest) =
      some ((([], name), v), '\n' :: rest) := by
  have written : writeEntry (name, text) ++ rest =
      name.toList ++ ' ' :: '=' :: ' ' :: (text ++ '\n' :: rest) := by
    simp [writeEntry]
  have read := reads.read 0 ('\n' :: rest) ⟨'\n', rest, rfl, .inl rfl⟩
  rw [Nat.zero_add] at read
  have start : (' ' :: (text ++ '\n' :: rest)).dropWhile isBlank = text ++ '\n' :: rest :=
    (reads.begins.append _).dropWhile
  have stop : (' ' :: '=' :: ' ' :: (text ++ '\n' :: rest)).dropWhile isBlank =
      '=' :: ' ' :: (text ++ '\n' :: rest) := rfl
  rw [written, keyed, key_bare bare (by rintro _ ⟨⟩; decide) (by rintro _ ⟨⟩), stop]
  simp only [Option.bind_eq_bind, Option.bind_some]
  rw [start, read]
  rfl

theorem heading_bare {name : String} (bare : Bare name) (rest : List Char) :
    heading [']'] (name.toList ++ ']' :: '\n' :: rest) = some ([name], rest) := by
  rw [heading, key_bare bare (by rintro _ ⟨⟩; decide) (by rintro _ ⟨⟩)]
  rfl

end Reader

/-! Documents. -/

/-- An entry with what its line is read as. -/
structure Holds (entry : String × List Char) (w : String × Value) : Prop where
  key : entry.1 = w.1
  bare : Reader.Bare entry.1
  reads : Reader.Reads (Reader.depthLimit - 1) entry.2 w.2

/-- A table with what its lines are read as. -/
structure HoldsTable (table : String × List (String × List Char)) (w : String × Entries) :
    Prop where
  name : table.1 = w.1
  bare : Reader.Bare table.1
  entries : List.Forall₂ Holds table.2 w.2
  fresh : (w.2.map (·.1)).Nodup

namespace Draft

open Reader

theorem lookup_eq_none {α : Type} {key : String} {entries : List (String × α)}
    (fresh : key ∉ entries.map (·.1)) : entries.lookup key = none := by
  rw [List.lookup_eq_none_iff]
  rintro entry mem
  simp only [bne_iff_ne, ne_eq]
  rintro rfl
  exact fresh (List.mem_map_of_mem mem)

theorem insert_fresh {d : Draft} {key : String} (value : Value)
    (fresh : key ∉ d.entries.map (·.1)) :
    d.insert [] key value = some { d with entries := d.entries ++ [(key, value)] } := by
  simp [Draft.insert, Entries.insert, lookup_eq_none fresh]

theorem openTable_fresh {d : Draft} {done : Entries} {name : String} (closed : d.close = some done)
    (fresh : name ∉ done.map (·.1)) :
    d.openTable [name] false = some { root := done, path := [name], entries := [] } := by
  simp [openTable, closed, Entries.updateAt, take, lookup_eq_none fresh]

theorem close_fresh {done entries : Entries} {name : String} (fresh : name ∉ done.map (·.1)) :
    ({ root := done, path := [name], entries } : Draft).close =
      some (done ++ [(name, .table .heading entries)]) := by
  simp [close, Entries.updateAt, put, lookup_eq_none fresh]

theorem lines_line_end (fuel : Nat) (d : Draft) (text : List Char) :
    lines fuel d ('\n' :: text) = lines fuel d text := by
  cases fuel <;> rfl

theorem lines_writeEntry {entry : String × List Char} {w : String × Value} (holds : Holds entry w)
    (fuel : Nat) {d : Draft} (fresh : w.1 ∉ d.entries.map (·.1)) (rest : List Char) :
    lines (fuel + 1) d (writeEntry entry ++ rest) =
      lines fuel { d with entries := d.entries ++ [w] } rest := by
  obtain ⟨name, text⟩ := entry
  obtain ⟨key, v⟩ := w
  obtain ⟨rfl, bare, reads⟩ := holds
  obtain ⟨c, more, same, isBare⟩ := bare.exists_cons
  have written : writeEntry (name, text) ++ rest =
      name.toList ++ ([' ', '=', ' '] ++ text ++ '\n' :: rest) := by
    simp [writeEntry]
  have start : skip false (writeEntry (name, text) ++ rest) =
      some (writeEntry (name, text) ++ rest) := by
    rw [written]
    exact (bare.begins.append _).skip
  have head (more : List Char) : writeEntry (name, text) ++ rest ≠ '[' :: more := by
    rw [written, same]
    exact fun bracket => isBare_ne isBare (by decide) (List.head_eq_of_cons_eq bracket)
  rw [lines, start]
  simp only [Option.bind_eq_bind, Option.bind_some]
  split
  · next none => simp [writeEntry] at none
  · next bracket => exact absurd bracket (head _)
  · next bracket => exact absurd bracket (head _)
  · rw [keyed_writeEntry bare reads]
    simp only [Option.bind_some]
    rw [insert_fresh v fresh]
    rfl

theorem lines_flatMap {entries : List (String × List Char)} {ws : Entries}
    (each : List.Forall₂ Holds entries ws) (fuel : Nat) {d : Draft}
    (fresh : ((d.entries ++ ws).map (·.1)).Nodup) (rest : List Char) :
    lines (fuel + entries.length) d (entries.flatMap writeEntry ++ rest) =
      lines fuel { d with entries := d.entries ++ ws } rest := by
  induction each generalizing d with
  | nil => simp
  | @cons entry w entries ws first _ ih =>
    have first_fresh : w.1 ∉ d.entries.map (·.1) := by
      simp only [List.map_append, List.map_cons, List.nodup_append] at fresh
      exact fun mem => fresh.2.2 _ mem _ (List.mem_cons_self) rfl
    rw [List.flatMap_cons, List.append_assoc, List.length_cons, ← Nat.add_assoc,
      lines_writeEntry first _ first_fresh, ih (by simpa using fresh)]
    simp

theorem lines_writeTable {table : String × List (String × List Char)} {w : String × Entries}
    (holds : HoldsTable table w) (fuel : Nat) {d : Draft} {done : Entries}
    (closed : d.close = some done) (fresh : w.1 ∉ done.map (·.1)) (rest : List Char) :
    lines (fuel + table.2.length + 1) d (writeTable table ++ rest) =
      lines fuel { root := done, path := [w.1], entries := w.2 } rest := by
  obtain ⟨name, entries⟩ := table
  obtain ⟨_, ws⟩ := w
  obtain ⟨rfl, bare, each, nodup⟩ := holds
  obtain ⟨c, more, same, isBare⟩ := bare.exists_cons
  have written : writeTable (name, entries) ++ rest =
      '[' :: (name.toList ++ ']' :: '\n' :: (entries.flatMap writeEntry ++ rest)) := by
    simp [writeTable]
  have start (text : List Char) : skip false ('[' :: text) = some ('[' :: text) := rfl
  rw [written, lines, start]
  simp only [Option.bind_eq_bind, Option.bind_some]
  split
  · next none => cases none
  · next brackets =>
    rw [List.cons.injEq, same] at brackets
    exact absurd (List.head_eq_of_cons_eq brackets.2) (isBare_ne isBare (by decide))
  · next rest' bracket =>
    obtain rfl := List.tail_eq_of_cons_eq bracket
    rw [heading_bare bare]
    simp only [Option.bind_some]
    rw [openTable_fresh closed fresh]
    simp only [Option.bind_some]
    rw [lines_flatMap each fuel (by simpa using nodup)]
    rfl
  · next other => exact absurd rfl (other _)

/-- How many lines some tables take, without the empty ones. -/
def lineCount (tables : List (String × List (String × List Char))) : Nat :=
  (tables.map fun table => table.2.length + 1).sum

theorem lines_writeTables {tables : List (String × List (String × List Char))}
    {ws : List (String × Entries)} (each : List.Forall₂ HoldsTable tables ws) (fuel : Nat)
    {d : Draft} {done : Entries} (closed : d.close = some done)
    (fresh : (done.map (·.1) ++ ws.map (·.1)).Nodup) :
    (lines (fuel + 1 + lineCount tables) d (writeTables tables)).bind close =
      some (done ++ ws.map fun w => (w.1, .table .heading w.2)) := by
  induction each generalizing d done with
  | nil => simpa [lineCount, writeTables, lines, skip] using closed
  | @cons table w tables ws first others ih =>
    have first_fresh : w.1 ∉ done.map (·.1) := by
      simp only [List.map_cons, List.nodup_append] at fresh
      exact fun mem => fresh.2.2 _ mem _ (List.mem_cons_self) rfl
    obtain ⟨after, written, goOn⟩ : ∃ after,
        writeTables (table :: tables) = writeTable table ++ after ∧
          ∀ fuel d, lines fuel d after = lines fuel d (writeTables tables) := by
      cases tables with
      | nil => exact ⟨[], by simp [writeTables], fun _ _ => rfl⟩
      | cons second tables => exact ⟨'\n' :: writeTables (second :: tables), rfl,
          fun fuel d => lines_line_end fuel d _⟩
    have count : fuel + 1 + lineCount (table :: tables) =
        fuel + 1 + lineCount tables + table.2.length + 1 := by
      simp only [lineCount, List.map_cons, List.sum_cons]
      omega
    rw [written, count, lines_writeTable first _ closed first_fresh, goOn,
      ih (close_fresh first_fresh) (by simpa using fresh)]
    simp

theorem lineCount_le (tables : List (String × List (String × List Char))) :
    lineCount tables ≤ (writeTables tables).length := by
  have one (table : String × List (String × List Char)) :
      table.2.length + 1 ≤ (writeTable table).length := by
    have := length_le_flatMap (f := writeEntry) (by simp [writeEntry]) table.2
    simp only [writeTable, List.length_append, List.length_cons]
    omega
  fun_induction writeTables tables with
  | case1 => exact Nat.le_refl 0
  | case2 table => simpa [lineCount] using one table
  | case3 table rest _ ih =>
    have := one table
    simp only [lineCount, List.map_cons, List.sum_cons, List.length_append,
      List.length_cons] at ih ⊢
    omega

end Draft

/-- Written tables are the document that they are read as. -/
theorem parse?_writeTables {tables : List (String × List (String × List Char))}
    {ws : List (String × Entries)} (each : List.Forall₂ HoldsTable tables ws)
    (fresh : (ws.map (·.1)).Nodup) :
    parse? (writeTables tables) = some (ws.map fun w => (w.1, .table .heading w.2)) := by
  have noMark (more : List Char) : writeTables tables ≠ '\ufeff' :: more := by
    fun_cases writeTables tables <;> simp [writeTable]
  obtain ⟨fuel, enough⟩ := Nat.exists_eq_add_of_le (Draft.lineCount_le tables)
  have read := Draft.lines_writeTables each fuel (d := {}) rfl (by simpa using fresh)
  rw [parse?]
  · rw [enough, show Draft.lineCount tables + fuel + 1 = fuel + 1 + Draft.lineCount tables by omega]
    simpa using read
  · exact noMark

end CallStudy.Toml
