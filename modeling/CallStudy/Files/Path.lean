/-!
Paths as text: steps with slashes between them. A step that is empty or a single dot stands for
the directory it is in and does not count, except for a dot in front.
-/

namespace CallStudy.Path

/-- Whether a path starts at the root. -/
def isAbsolute (path : String) : Bool := path.toList.head? = some '/'

/-- A path seen from the directory `base`. -/
def join (base path : String) : String :=
  if isAbsolute path || base.isEmpty then path
  else if base.toList.getLast? = some '/' then base ++ path
  else base ++ "/" ++ path

/-- The texts between the slashes of a path. -/
def pieces : List Char → List (List Char)
  | [] => [[]]
  | c :: text =>
    if c = '/' then [] :: pieces text
    else
      match pieces text with
      | [] => [[c]]
      | piece :: rest => (c :: piece) :: rest

/-- The steps of a path, those that do not count included. -/
def steps (path : String) : List String := (pieces path.toList).map String.ofList

/-- A reversed path without the steps at its end that do not count. -/
def trimmed : List Char → List Char
  | ['/'] => ['/']
  | '/' :: text => trimmed text
  | '.' :: '/' :: text => trimmed ('/' :: text)
  | text => text

theorem length_trimmed_le (text : List Char) : (trimmed text).length ≤ text.length := by
  fun_induction trimmed text <;> simp_all <;> omega

/-- The directory that holds what a reversed path names; the root and the empty path have none. -/
def up? (text : List Char) : Option (List Char) :=
  match trimmed text with
  | [] => none
  | c :: rest => if c = '/' then none else some (trimmed (rest.dropWhile (· ≠ '/')))

theorem length_lt_of_up?_eq_some {text rest : List Char} (h : up? text = some rest) :
    rest.length < text.length := by
  have bound := length_trimmed_le text
  unfold up? at h
  split at h
  · cases h
  · next c tail eq =>
    split at h
    · cases h
    · have first := length_trimmed_le (tail.dropWhile (· ≠ '/'))
      have second := (List.dropWhile_sublist (· ≠ '/') (l := tail)).length_le
      rw [eq, List.length_cons] at bound
      cases h
      omega

/-- A reversed path with all directories around it, the innermost first. -/
def ascending (text : List Char) : List (List Char) :=
  text ::
    match _ : up? text with
    | none => []
    | some rest => ascending rest
termination_by text.length
decreasing_by exact length_lt_of_up?_eq_some (by assumption)

/-- A path with all directories around it, the innermost first. -/
def ancestors (path : String) : List String :=
  (ascending path.toList.reverse).map fun text => .ofList text.reverse

/-- The last step of a path, if it is a name. -/
def lastName? (path : String) : Option String :=
  let name := (trimmed path.toList.reverse).takeWhile (· ≠ '/')
  if name.isEmpty || name = ['.'] || name = ['.', '.'] then none else some (.ofList name.reverse)

/-- Whether a name ends in `.rs` behind something else. -/
def namesSource (name : String) : Bool :=
  match name.toList.reverse with
  | 's' :: 'r' :: '.' :: _ :: _ => true
  | _ => false

end CallStudy.Path
