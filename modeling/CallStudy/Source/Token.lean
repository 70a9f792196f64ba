/-!
Token trees: what the lexer makes of a text. A punctuation character remembers whether the next
character in the text is punctuation too, because operators are spelled by such runs; brackets
are matched and hold their content as a list.
-/

namespace CallStudy.Source

/-- The three kinds of brackets. -/
inductive Delimiter where
  | parenthesis
  | bracket
  | brace
  deriving Repr, DecidableEq, Inhabited

namespace Delimiter

def opening : Delimiter → Char
  | parenthesis => '('
  | bracket => '['
  | brace => '{'

def closing : Delimiter → Char
  | parenthesis => ')'
  | bracket => ']'
  | brace => '}'

def ofOpening? : Char → Option Delimiter
  | '(' => some parenthesis
  | '[' => some bracket
  | '{' => some brace
  | _ => none

def ofClosing? : Char → Option Delimiter
  | ')' => some parenthesis
  | ']' => some bracket
  | '}' => some brace
  | _ => none

end Delimiter

/-- One token tree. `joint` says that another punctuation character follows without a gap. -/
inductive Token where
  | ident (text : String)
  | lifetime (text : String)
  | literal (text : String)
  | punct (char : Char) (joint : Bool)
  | group (delimiter : Delimiter) (content : List Token)
  deriving Repr, Inhabited

namespace Token

mutual
/-- Tokens counted one by one, a group as itself and its content. -/
def size : Token → Nat
  | group _ content => 1 + sizeList content
  | _ => 1

def sizeList : List Token → Nat
  | [] => 0
  | t :: ts => t.size + sizeList ts
end

@[simp] theorem sizeList_append (a b : List Token) :
    sizeList (a ++ b) = sizeList a + sizeList b := by
  induction a with
  | nil => simp [sizeList]
  | cons t ts ih => simp [sizeList, ih, Nat.add_assoc]

mutual
/-- Whether two tokens are the same. -/
def same : Token → Token → Bool
  | ident a, ident b | lifetime a, lifetime b | literal a, literal b => a == b
  | punct c joint, punct c' joint' => c == c' && joint == joint'
  | group d content, group d' content' => d == d' && sameList content content'
  | _, _ => false

def sameList : List Token → List Token → Bool
  | [], [] => true
  | t :: ts, t' :: ts' => t.same t' && sameList ts ts'
  | _, _ => false
end

mutual
theorem same_iff (t t' : Token) : t.same t' ↔ t = t' := by
  cases t with
  | group d content =>
    cases t' with
    | group d' content' => simp [same, sameList_iff content content']
    | _ => simp [same]
  | _ => cases t' <;> simp [same]

theorem sameList_iff (ts ts' : List Token) : sameList ts ts' ↔ ts = ts' := by
  match ts, ts' with
  | [], [] => simp [sameList]
  | t :: ts, t' :: ts' => simp [sameList, same_iff t t', sameList_iff ts ts']
  | [], _ :: _ => simp [sameList]
  | _ :: _, [] => simp [sameList]
end

instance : DecidableEq Token := fun t t' => decidable_of_iff _ (same_iff t t')

end Token
end CallStudy.Source
