import CallStudy.Files.Path

/-!
A tree of files with a current directory. A path is followed step by step from the root or from
the current directory; two dots lead to the directory around, and every step needs a directory to
start from.
-/

namespace CallStudy

inductive Node where
  | file (content : ByteArray)
  | directory (entries : List (String × Node))
  deriving Inhabited

namespace Node

/-- What stands under a path of names. -/
def find : List String → Node → Option Node
  | [], node => some node
  | _ :: _, file _ => none
  | name :: rest, directory entries => (entries.lookup name).bind (find rest)

/-- Entries with `node` under a name. -/
def setEntry (name : String) (node : Node) : List (String × Node) → List (String × Node)
  | [] => [(name, node)]
  | (n, old) :: rest =>
    if n = name then (n, node) :: rest else (n, old) :: setEntry name node rest

/-- Puts `node` under a path of names and makes the directories that it lacks. -/
def put (node : Node) : List String → Node → Node
  | [], _ => node
  | name :: rest, directory entries =>
    directory (setEntry name (put node rest ((entries.lookup name).getD (directory []))) entries)
  | name :: rest, file _ => directory [(name, put node rest (directory []))]

def isFile : Node → Bool
  | file _ => true
  | directory _ => false

def isDirectory : Node → Bool
  | file _ => false
  | directory _ => true

mutual
/-- All files under a path, with their paths. -/
def files (path : List String) : Node → List (List String × ByteArray)
  | file content => [(path, content)]
  | directory entries => filesOf path entries

def filesOf (path : List String) : List (String × Node) → List (List String × ByteArray)
  | [] => []
  | (name, node) :: rest => node.files (path ++ [name]) ++ filesOf path rest
end

end Node

structure FileTree where
  root : Node := .directory []
  /-- The names that lead to the current directory. -/
  current : List String := []
  deriving Inhabited

namespace FileTree

variable (t : FileTree)

/-- One step from a directory. -/
def step (place : List String) (name : String) : Option (List String) :=
  match t.root.find place with
  | some (.directory entries) =>
    if name = "" ∨ name = "." then some place
    else if name = ".." then some place.dropLast
    else if (entries.lookup name).isSome then some (place ++ [name])
    else none
  | _ => none

/-- Where a path starts. -/
def start (path : String) : List String := if Path.isAbsolute path then [] else t.current

/-- The names that lead to what a path stands for; the empty path stands for nothing. -/
def locate (path : String) : Option (List String) :=
  if path.isEmpty then none else (Path.steps path).foldlM t.step (t.start path)

def find (path : String) : Option Node := (t.locate path).bind fun place => t.root.find place

def readText (path : String) : Option String :=
  match t.find path with
  | some (.file content) => String.fromUTF8? content
  | _ => none

/-- The names of the files in a directory. -/
def regularFiles (path : String) : Option (List String) :=
  match t.find path with
  | some (.directory entries) => some ((entries.filter (·.2.isFile)).map (·.1))
  | _ => none

/-- Whether a file may have this name. -/
def isFileName (name : String) : Bool :=
  name ≠ "" && name ≠ "." && name ≠ ".." && name.utf8ByteSize ≤ 255 && !name.toList.contains '\x00'

/-- Makes a file or replaces its content. The directory around it has to exist, and no directory
may have its name. -/
def write (path : String) (content : ByteArray) : Option FileTree := do
  let steps := Path.steps path
  let name ← steps.getLast?.filter isFileName
  let place ← steps.dropLast.foldlM t.step (t.start path)
  match t.root.find place, t.root.find (place ++ [name]) with
  | _, some (.directory _) => none
  | some (.directory _), _ => return { t with root := Node.put (.file content) (place ++ [name]) t.root }
  | _, _ => none

end FileTree
end CallStudy
