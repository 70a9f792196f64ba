import CallStudy.Source.Syntax.Item
import Mathlib.Data.List.Find

/-!
Gaps between punctuation characters. Whether two of them stand next to each other matters to what
stands ahead only where some operator has them so; elsewhere a gap may be put in or taken out.
-/

set_option autoImplicit false

namespace CallStudy.Source

namespace Token

/-- Whether some operator has `d` right behind `c`. -/
def joins (c d : Char) : Bool :=
  d = '=' ∧ c ∈ ['=', '!', '<', '>', '+', '-', '*', '/', '%', '^', '&', '|', '.'] ∨
    d = c ∧ c ∈ ['.', ':', '&', '|', '<', '>'] ∨ d = '>' ∧ c ∈ ['-', '=']

/-- Whether the tokens begin with what an operator can have behind `c`. -/
def joinsAhead (c : Char) : List Token → Bool
  | punct d _ :: _ => joins c d
  | _ => false

mutual
/-- A token in front of `rest`, joint to it only where an operator could be. -/
def spacedIn (rest : List Token) : Token → Token
  | punct c joint => punct c (joint && joinsAhead c rest)
  | group d content => group d (spaced content)
  | t => t

/-- The tokens with a gap wherever no operator could be. -/
def spaced : List Token → List Token
  | [] => []
  | t :: rest => t.spacedIn rest :: spaced rest
end

mutual
/-- The token with a gap behind every punctuation character. -/
def loose : Token → Token
  | punct c _ => punct c false
  | group d content => group d (looseEach content)
  | t => t

def looseEach : List Token → List Token
  | [] => []
  | t :: rest => t.loose :: looseEach rest
end

theorem looseEach_eq_map (ts : List Token) : looseEach ts = ts.map loose := by
  induction ts with
  | nil => rfl
  | cons t rest ih => rw [looseEach, ih, List.map_cons]

mutual
theorem loose_spacedIn (rest : List Token) (t : Token) : (t.spacedIn rest).loose = t.loose := by
  match t with
  | group d content => rw [spacedIn, loose, loose, looseEach_spaced content]
  | punct _ _ => rfl
  | ident _ => rfl
  | lifetime _ => rfl
  | literal _ => rfl

theorem looseEach_spaced (ts : List Token) : looseEach (spaced ts) = looseEach ts := by
  match ts with
  | [] => rfl
  | t :: rest => rw [spaced, looseEach, looseEach, loose_spacedIn rest t, looseEach_spaced rest]
end

theorem map_loose_spaced (ts : List Token) : (spaced ts).map loose = ts.map loose := by
  rw [← looseEach_eq_map, ← looseEach_eq_map, looseEach_spaced]

mutual
theorem loose_loose (t : Token) : t.loose.loose = t.loose := by
  match t with
  | group d content => rw [loose, loose, looseEach_looseEach content]
  | punct _ _ => rfl
  | ident _ => rfl
  | lifetime _ => rfl
  | literal _ => rfl

theorem looseEach_looseEach (ts : List Token) : looseEach (looseEach ts) = looseEach ts := by
  match ts with
  | [] => rfl
  | t :: rest => rw [looseEach, looseEach, loose_loose t, looseEach_looseEach rest]
end

theorem joinsAhead_spaced (c : Char) (ts : List Token) :
    joinsAhead c (spaced ts) = joinsAhead c ts := by
  cases ts with
  | nil => rfl
  | cons t _ => cases t <;> rfl

mutual
theorem spacedIn_spacedIn (rest : List Token) (t : Token) :
    (t.spacedIn rest).spacedIn (spaced rest) = t.spacedIn rest := by
  match t with
  | group d content => rw [spacedIn, spacedIn, spaced_spaced content]
  | punct c joint =>
    rw [spacedIn, spacedIn, joinsAhead_spaced, Bool.and_assoc, Bool.and_self]
  | ident _ => rfl
  | lifetime _ => rfl
  | literal _ => rfl

theorem spaced_spaced (ts : List Token) : spaced (spaced ts) = spaced ts := by
  match ts with
  | [] => rfl
  | t :: rest => rw [spaced, spaced, spacedIn_spacedIn rest t, spaced_spaced rest]
end

mutual
theorem size_loose (t : Token) : t.loose.size = t.size := by
  match t with
  | group d content => rw [loose, size, size, sizeList_looseEach content]
  | punct _ _ => rfl
  | ident _ => rfl
  | lifetime _ => rfl
  | literal _ => rfl

theorem sizeList_looseEach (ts : List Token) : sizeList (looseEach ts) = sizeList ts := by
  match ts with
  | [] => rfl
  | t :: rest => rw [looseEach, sizeList, sizeList, size_loose t, sizeList_looseEach rest]
end

@[simp] theorem length_spaced (ts : List Token) : (spaced ts).length = ts.length := by
  induction ts with
  | nil => rfl
  | cons t rest ih => rw [spaced, List.length_cons, List.length_cons, ih]

@[simp] theorem drop_spaced (n : Nat) (ts : List Token) :
    (spaced ts).drop n = spaced (ts.drop n) := by
  induction ts generalizing n with
  | nil => rw [spaced, List.drop_nil, spaced]
  | cons t rest ih =>
    cases n with
    | zero => rfl
    | succ n => exact ih n

@[simp] theorem tail_spaced (ts : List Token) : (spaced ts).tail = spaced ts.tail := by
  cases ts <;> rfl

theorem ite_spaced {c : Prop} [Decidable c] (a b : List Token) :
    (if c then spaced a else spaced b) = spaced (if c then a else b) := by
  split <;> rfl

end Token

namespace Ahead

open Token

/-- Whether every character may stand right before the next one. -/
def fits : List Char → Bool
  | c :: d :: rest => joins c d && fits (d :: rest)
  | _ => true

theorem exists_punct_of_spells {d : Char} {cs : List Char} {ts : List Token}
    (ahead : spells (d :: cs) ts) : ∃ joint rest, ts = .punct d joint :: rest := by
  match cs, ts with
  | [], .punct e joint :: rest =>
    rw [spells, beq_iff_eq] at ahead
    exact ⟨joint, rest, ahead ▸ rfl⟩
  | _ :: _, .punct e joint :: rest =>
    simp only [spells, Bool.and_eq_true, beq_iff_eq] at ahead
    exact ⟨joint, rest, ahead.1.1 ▸ rfl⟩

theorem spells_cons_cons (c d e : Char) (cs : List Char) (joint : Bool) (rest : List Token) :
    spells (c :: d :: cs) (.punct e joint :: rest) = (c == e && joint && spells (d :: cs) rest) :=
  rfl

theorem spells_spaced {cs : List Char} (fit : fits cs) (ts : List Token) :
    spells cs (spaced ts) = spells cs ts := by
  match cs, ts with
  | [], _ => rfl
  | [_], [] => rfl
  | _ :: _ :: _, [] => rfl
  | [c], t :: rest => cases t <;> rfl
  | c :: d :: cs, .punct e joint :: rest =>
    rw [fits, Bool.and_eq_true] at fit
    rw [spaced, spacedIn, spells_cons_cons, spells_cons_cons, spells_spaced fit.2 rest]
    by_cases ahead : spells (d :: cs) rest
    · obtain ⟨joint', rest', rfl⟩ := exists_punct_of_spells ahead
      by_cases same : c = e
      · subst same
        rw [joinsAhead, fit.1, Bool.and_true]
      · rw [beq_false_of_ne same]
        rfl
    · rw [Bool.not_eq_true] at ahead
      rw [ahead, Bool.and_false, Bool.and_false]
  | _ :: _ :: _, .ident _ :: _ => rfl
  | _ :: _ :: _, .lifetime _ :: _ => rfl
  | _ :: _ :: _, .literal _ :: _ => rfl
  | _ :: _ :: _, .group _ _ :: _ => rfl

@[simp] theorem operator_spaced {text : String} (fit : fits text.toList) (ts : List Token) :
    operator text (spaced ts) = operator text ts := spells_spaced fit ts

section Heads

variable (ts : List Token)

@[simp] theorem atEnd_spaced : atEnd (spaced ts) = atEnd ts := by
  cases ts <;> rfl

@[simp] theorem keyword_spaced (text : String) : keyword text (spaced ts) = keyword text ts := by
  cases ts with
  | nil => rfl
  | cons t _ => cases t <;> rfl

@[simp] theorem anyIdent_spaced : anyIdent (spaced ts) = anyIdent ts := by
  cases ts with
  | nil => rfl
  | cons t _ => cases t <;> rfl

@[simp] theorem ident_spaced : ident (spaced ts) = ident ts := by
  cases ts with
  | nil => rfl
  | cons t _ => cases t <;> rfl

@[simp] theorem lifetime_spaced : lifetime (spaced ts) = lifetime ts := by
  cases ts with
  | nil => rfl
  | cons t _ => cases t <;> rfl

@[simp] theorem literalToken_spaced : literalToken (spaced ts) = literalToken ts := by
  cases ts with
  | nil => rfl
  | cons t _ => cases t <;> rfl

@[simp] theorem quotedLiteral_spaced : quotedLiteral (spaced ts) = quotedLiteral ts := by
  cases ts with
  | nil => rfl
  | cons t _ => cases t <;> rfl

@[simp] theorem group_spaced (d : Delimiter) : group d (spaced ts) = group d ts := by
  cases ts with
  | nil => rfl
  | cons t _ => cases t <;> rfl

@[simp] theorem number_spaced : number (spaced ts) = number ts := by
  cases ts with
  | nil => rfl
  | cons t _ => cases t <;> rfl

end Heads

section Looks

variable (ts : List Token)

@[simp] theorem paren_spaced : paren (spaced ts) = paren ts := group_spaced ts _

@[simp] theorem bracket_spaced : bracket (spaced ts) = bracket ts := group_spaced ts _

@[simp] theorem brace_spaced : brace (spaced ts) = brace ts := group_spaced ts _

@[simp] theorem second_spaced (look : List Token → Bool) :
    second look (spaced ts) = second (fun ts => look (spaced ts)) ts := by
  rw [second, second, drop_spaced]

@[simp] theorem third_spaced (look : List Token → Bool) :
    third look (spaced ts) = third (fun ts => look (spaced ts)) ts := by
  rw [third, third, drop_spaced]

@[simp] theorem literal_spaced : literal (spaced ts) = literal ts := by
  simp (disch := decide) [literal]

@[simp] theorem restriction_spaced : restriction (spaced ts) = restriction ts := by
  match ts with
  | .group .parenthesis content :: _ => simp [restriction, spaced, spacedIn]
  | .group .bracket _ :: _ => rfl
  | .group .brace _ :: _ => rfl
  | .ident _ :: _ => rfl
  | .lifetime _ :: _ => rfl
  | .literal _ :: _ => rfl
  | .punct _ _ :: _ => rfl
  | [] => rfl

@[simp] theorem pathWord_spaced : pathWord (spaced ts) = pathWord ts := by
  simp [pathWord]

@[simp] theorem afterPathWords_spaced (fuel : Nat) :
    afterPathWords fuel (spaced ts) = (afterPathWords fuel ts).map spaced := by
  induction fuel generalizing ts with
  | zero => rfl
  | succ fuel ih =>
    simp (disch := decide) only [afterPathWords, pathWord_spaced, drop_spaced, operator_spaced, ih]
    split
    · split <;> rfl
    · rfl

@[simp] theorem afterPlainPath_spaced :
    afterPlainPath (spaced ts) = (afterPlainPath ts).map spaced := by
  simp (disch := decide) only [afterPlainPath, operator_spaced, drop_spaced]
  split <;> simp

@[simp] theorem dropKeyword_spaced (text : String) :
    dropKeyword text (spaced ts) = spaced (dropKeyword text ts) := by
  simp only [dropKeyword, keyword_spaced, drop_spaced]
  split <;> rfl

@[simp] theorem afterVisibility_spaced :
    afterVisibility (spaced ts) = spaced (afterVisibility ts) := by
  simp only [afterVisibility, keyword_spaced, drop_spaced, restriction_spaced]
  split
  · split <;> rfl
  · rfl

@[simp] theorem parameterList_spaced : parameterList (spaced ts) = parameterList ts := by
  simp (disch := decide) [parameterList]

@[simp] theorem signature_spaced (allowSafe : Bool) :
    signature allowSafe (spaced ts) = signature allowSafe ts := by
  simp only [signature, dropKeyword_spaced, keyword_spaced, drop_spaced, quotedLiteral_spaced, ite_spaced]

@[simp] theorem invocationPath_spaced : invocationPath (spaced ts) = invocationPath ts := by
  simp (disch := decide) [invocationPath]

@[simp] theorem expression_spaced : expression (spaced ts) = expression ts := by
  simp (disch := decide) [expression]

end Looks

end Ahead

namespace Syntax

open Token

section Looks

variable (ts : List Token)

@[simp] theorem binaryOperator?_spaced : binaryOperator? (spaced ts) = binaryOperator? ts := by
  have fits : ∀ o ∈ binaryOperators, Ahead.fits o.1.toList := by decide
  rw [binaryOperator?, binaryOperator?]
  apply List.find?_congr
  intro o mem
  exact Ahead.operator_spaced (fits o mem) ts

@[simp] theorem levelAhead_spaced : levelAhead (spaced ts) = levelAhead ts := by
  simp (disch := decide) [levelAhead]

@[simp] theorem endsOpenRange_spaced (structs : Bool) :
    endsOpenRange structs (spaced ts) = endsOpenRange structs ts := by
  simp (disch := decide) [endsOpenRange]

@[simp] theorem isBinder_spaced : isBinder (spaced ts) = isBinder ts := by
  simp [isBinder]

@[simp] theorem startsClosure_spaced : startsClosure (spaced ts) = startsClosure ts := by
  simp (disch := decide) [startsClosure]

@[simp] theorem startsPathExpr_spaced : startsPathExpr (spaced ts) = startsPathExpr ts := by
  simp (disch := decide) [startsPathExpr]

@[simp] theorem isRawAddress_spaced : isRawAddress (spaced ts) = isRawAddress ts := by
  simp [isRawAddress]

@[simp] theorem startsItem_spaced : startsItem (spaced ts) = startsItem ts := by
  simp (disch := decide) only [startsItem, Ahead.afterPlainPath_spaced, drop_spaced, Ahead.keyword_spaced,
    Ahead.operator_spaced, Ahead.ident_spaced, Ahead.brace_spaced]
  cases Ahead.afterPlainPath ts with
  | none => rfl
  | some rest => simp (disch := decide)

@[simp] theorem startsInvocationStatement_spaced :
    startsInvocationStatement (spaced ts) = startsInvocationStatement ts := by
  simp only [startsInvocationStatement, Ahead.afterPlainPath_spaced]
  cases Ahead.afterPlainPath ts with
  | none => rfl
  | some rest => simp (disch := decide)

@[simp] theorem isBar_spaced : isBar (spaced ts) = isBar ts := by
  simp (disch := decide) [isBar]

@[simp] theorem endsRange_spaced : endsRange (spaced ts) = endsRange ts := by
  simp (disch := decide) [endsRange]

@[simp] theorem startsQualifiedPath_spaced :
    startsQualifiedPath (spaced ts) = startsQualifiedPath ts := by
  simp (disch := decide) [startsQualifiedPath]

@[simp] theorem continuesBounds_spaced (all : Bool) :
    continuesBounds all (spaced ts) = continuesBounds all ts := by
  simp (disch := decide) [continuesBounds]

@[simp] theorem stops_spaced (stop : BoundsEnd) : stop.stops (spaced ts) = stop.stops ts := by
  cases stop <;> simp (disch := decide) [BoundsEnd.stops]

@[simp] theorem startsPathType_spaced : startsPathType (spaced ts) = startsPathType ts := by
  simp [startsPathType]

@[simp] theorem startsFunctionType_spaced :
    startsFunctionType (spaced ts) = startsFunctionType ts := by
  simp [startsFunctionType]

@[simp] theorem isReceiver_spaced : isReceiver (spaced ts) = isReceiver ts := by
  simp (disch := decide) only [isReceiver, Ahead.operator_spaced, Ahead.lifetime_spaced,
    drop_spaced, ite_spaced, Ahead.dropKeyword_spaced, Ahead.keyword_spaced]

end Looks

end Syntax
end CallStudy.Source
