import CallStudy.Text.Csv
import Mathlib.Data.List.Basic

/-!
A reader of comma-separated records, after RFC 4180 with line feeds as the ends of records. It is
strict: a quote inside a field without quotes, text behind a closing quote and a carriage return
outside quotes are refused. Reading undoes writing.
-/

set_option autoImplicit false

namespace CallStudy.Csv

/-- Where in a field a reader is. -/
inductive Place where
  | start
  | bare
  | quoted
  /-- Behind a quote inside quotes, which ends the field unless it is followed by another. -/
  | closing
  deriving Repr, DecidableEq

structure Reader where
  records : List (List (List Char)) := []
  /-- The fields of the record that is being read, without the last one. -/
  fields : List (List Char) := []
  text : List Char := []
  place : Place := .start
  deriving Repr, DecidableEq

namespace Reader

def add (r : Reader) (place : Place) (c : Char) : Reader :=
  { r with text := r.text ++ [c], place }

def endField (r : Reader) : Reader :=
  { r with fields := r.fields ++ [r.text], text := [], place := .start }

def endRecord (r : Reader) : Reader where
  records := r.records ++ [r.fields ++ [r.text]]

/-- What ends a field: a comma or, with the field as the last of its record, a line feed. -/
def separate (r : Reader) (c : Char) : Option Reader :=
  if c = ',' then some r.endField else if c = '\n' then some r.endRecord else none

def stepBare (r : Reader) (c : Char) : Option Reader :=
  if isSpecial c then r.separate c else some (r.add .bare c)

def step (r : Reader) (c : Char) : Option Reader :=
  match r.place with
  | .start => if c = '"' then some { r with place := .quoted } else r.stepBare c
  | .bare => r.stepBare c
  | .quoted => some (if c = '"' then { r with place := .closing } else r.add .quoted c)
  | .closing => if c = '"' then some (r.add .quoted c) else r.separate c

/-- The records at the end of a text, whose last line feed may be missing. -/
def finish (r : Reader) : Option (List (List (List Char))) :=
  match r.place with
  | .start => some (if r.fields.isEmpty then r.records else r.endRecord.records)
  | .bare | .closing => some r.endRecord.records
  | .quoted => none

end Reader

/-- The records of a text. -/
def read? (text : List Char) : Option (List (List (List Char))) :=
  (text.foldlM Reader.step {}).bind Reader.finish

section Writing

variable (rows : List (List (List Char))) (before : List (List Char))

theorem foldlM_step_bare {text : List Char} (plain : ¬ text.any isSpecial) (seen : List Char) :
    text.foldlM Reader.step ⟨rows, before, seen, .bare⟩ =
      some ⟨rows, before, seen ++ text, .bare⟩ := by
  induction text generalizing seen with
  | nil => simp
  | cons c rest ih =>
    simp only [List.any_cons, Bool.or_eq_true, not_or] at plain
    have first : Reader.step ⟨rows, before, seen, .bare⟩ c =
        some ⟨rows, before, seen ++ [c], .bare⟩ := by
      simp only [Reader.step, Reader.stepBare, plain.1]
      rfl
    rw [List.foldlM_cons, first]
    simpa using ih plain.2 (seen ++ [c])

theorem foldlM_step_quoted (text seen : List Char) :
    (doubled text).foldlM Reader.step ⟨rows, before, seen, .quoted⟩ =
      some ⟨rows, before, seen ++ text, .quoted⟩ := by
  induction text generalizing seen with
  | nil => simp [doubled]
  | cons c rest ih =>
    have next := ih (seen ++ [c])
    rw [List.append_assoc, List.singleton_append] at next
    rw [doubled, List.flatMap_cons, ← doubled, List.foldlM_append, ← next]
    by_cases quote : c = '"'
    · subst quote
      rfl
    · have kept : Reader.step ⟨rows, before, seen, .quoted⟩ c =
          some ⟨rows, before, seen ++ [c], .quoted⟩ := by
        simp only [Reader.step, quote, ↓reduceIte, Reader.add]
      rw [if_neg quote, List.foldlM_cons, kept]
      rfl

/-- Behind a written field the reader has its text and waits for what ends it. -/
theorem foldlM_step_field (text : List Char) :
    ∃ place, (field text).foldlM Reader.step ⟨rows, before, [], .start⟩ =
        some ⟨rows, before, text, place⟩ ∧
      ∀ c, (c = ',' ∨ c = '\n') → Reader.step ⟨rows, before, text, place⟩ c =
        Reader.separate ⟨rows, before, text, place⟩ c := by
  unfold field
  split
  · next special =>
    refine ⟨.closing, ?_, ?_⟩
    · rw [List.cons_append, List.foldlM_cons]
      have opened : Reader.step ⟨rows, before, [], .start⟩ '"' =
          some ⟨rows, before, [], .quoted⟩ := rfl
      rw [opened, Option.bind_eq_bind, Option.bind_some, List.foldlM_append, foldlM_step_quoted]
      rfl
    · rintro c (rfl | rfl) <;> rfl
  · next plain =>
    cases text with
    | nil =>
      refine ⟨.start, rfl, ?_⟩
      rintro c (rfl | rfl) <;> rfl
    | cons c rest =>
      refine ⟨.bare, ?_, ?_⟩
      · simp only [List.any_cons, Bool.or_eq_true, not_or] at plain
        have unquoted : c ≠ '"' := by
          rintro rfl
          exact plain.1 rfl
        have first : Reader.step ⟨rows, before, [], .start⟩ c =
            some ⟨rows, before, [c], .bare⟩ := by
          simp only [Reader.step, unquoted, ↓reduceIte, Reader.stepBare, plain.1]
          rfl
        rw [List.foldlM_cons, first]
        exact foldlM_step_bare rows before plain.2 [c]
      · rintro c (rfl | rfl) <;> rfl

theorem foldlM_step_fields {texts : List (List Char)} (filled : texts ≠ []) :
    (fields texts ++ ['\n']).foldlM Reader.step ⟨rows, before, [], .start⟩ =
      some ⟨rows ++ [before ++ texts], [], [], .start⟩ := by
  induction texts generalizing before with
  | nil => contradiction
  | cons text rest ih =>
    obtain ⟨place, read, ends⟩ := foldlM_step_field rows before text
    cases rest with
    | nil =>
      rw [fields, List.foldlM_append, read, Option.bind_eq_bind, Option.bind_some,
        List.foldlM_cons, ends '\n' (.inr rfl)]
      rfl
    | cons next rest =>
      have step := ih (before ++ [text]) (List.cons_ne_nil next rest)
      rw [List.append_assoc, List.singleton_append] at step
      rw [fields, List.append_assoc, List.foldlM_append, read, Option.bind_eq_bind,
        Option.bind_some, List.cons_append, List.foldlM_cons, ends ',' (.inl rfl), ← step]
      · rfl
      · exact List.cons_ne_nil next rest

theorem foldlM_step_records {new : List (List (List Char))} (filled : ∀ row ∈ new, row ≠ []) :
    (records new).foldlM Reader.step ⟨rows, [], [], .start⟩ =
      some ⟨rows ++ new, [], [], .start⟩ := by
  induction new generalizing rows with
  | nil => simp [records]
  | cons row rest ih =>
    rw [List.forall_mem_cons] at filled
    have next := ih (rows ++ [row]) filled.2
    rw [List.append_assoc, List.singleton_append] at next
    rw [records, List.flatMap_cons, ← records, List.foldlM_append, record,
      foldlM_step_fields rows [] filled.1]
    exact next

end Writing

/-- Reading undoes writing. A record without fields is not among those that can be written: its
line has one empty field. -/
theorem read?_records {rows : List (List (List Char))} (filled : ∀ row ∈ rows, row ≠ []) :
    read? (records rows) = some rows := by
  rw [read?, foldlM_step_records [] filled]
  rfl

example : read? "a,\"b\"\"\n\",\n\"\",c".toList =
    some [["a".toList, "b\"\n".toList, []], [[], ['c']]] := by decide

end CallStudy.Csv
