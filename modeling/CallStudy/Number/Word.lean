/-!
Checked arithmetic on 64-bit signed words. An operation whose exact result leaves the range of a
word stops with the operation that overflowed.
-/

namespace CallStudy

/-- The operation that left the range of a word. -/
inductive Overflow where
  | addition
  | multiplication
  deriving Repr, DecidableEq

def Overflow.message : Overflow → String
  | .addition => "attempt to add with overflow"
  | .multiplication => "attempt to multiply with overflow"

namespace Word

/-- The word of value `n`, if there is one. -/
def ofInt? (n : Int) : Option Int64 :=
  if Int64.minValue.toInt ≤ n ∧ n ≤ Int64.maxValue.toInt then some (Int64.ofInt n) else none

theorem ofInt?_eq_some_iff {n : Int} {w : Int64} : ofInt? n = some w ↔ w.toInt = n := by
  unfold ofInt?
  have low := Int64.minValue_le_toInt w
  have high := Int64.toInt_le w
  rw [Int64.toInt_minValue, Int64.toInt_maxValue] at *
  constructor
  · intro h
    split at h
    · next range =>
      rw [← Option.some.inj h, Int64.toInt_ofInt_of_le range.1 (by omega)]
    · simp at h
  · rintro rfl
    rw [if_pos ⟨low, by omega⟩, Int64.ofInt_toInt]

def add (a b : Int64) : Except Overflow Int64 :=
  match ofInt? (a.toInt + b.toInt) with
  | some c => .ok c
  | none => .error .addition

def mul (a b : Int64) : Except Overflow Int64 :=
  match ofInt? (a.toInt * b.toInt) with
  | some c => .ok c
  | none => .error .multiplication

theorem add_eq_ok_iff {a b c : Int64} : add a b = .ok c ↔ c.toInt = a.toInt + b.toInt := by
  rw [add, ← ofInt?_eq_some_iff]
  split <;> simp_all

theorem mul_eq_ok_iff {a b c : Int64} : mul a b = .ok c ↔ c.toInt = a.toInt * b.toInt := by
  rw [mul, ← ofInt?_eq_some_iff]
  split <;> simp_all

end Word
end CallStudy
