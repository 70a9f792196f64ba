import CallStudy.Files.Tree

/-!
What programs need of a file system. A tree of files is one.
-/

namespace CallStudy

class FileAccess (m : Type → Type) where
  isPresent : String → m Bool
  isDirectory : String → m Bool
  /-- The text of a file, unless it cannot be read as one. -/
  readText : String → m (Option String)
  /-- The names of the files in a directory, in any order. -/
  regularFiles : String → m (Option (List String))
  /-- Replaces the content of a file and tells whether that was possible. -/
  writeText : String → String → m Bool
  currentDirectory : m (Option String)

instance {m n : Type → Type} [MonadLift m n] [FileAccess m] : FileAccess n where
  isPresent path := liftM (FileAccess.isPresent path : m Bool)
  isDirectory path := liftM (FileAccess.isDirectory path : m Bool)
  readText path := liftM (FileAccess.readText path : m (Option String))
  regularFiles path := liftM (FileAccess.regularFiles path : m (Option (List String)))
  writeText path text := liftM (FileAccess.writeText path text : m Bool)
  currentDirectory := liftM (FileAccess.currentDirectory : m (Option String))

instance : FileAccess (StateM FileTree) where
  isPresent path := return ((← get).find path).isSome
  isDirectory path := return ((← get).find path).any Node.isDirectory
  readText path := return (← get).readText path
  regularFiles path := return (← get).regularFiles path
  writeText path text := do
    match (← get).write path text.toUTF8 with
    | some t => set t; return true
    | none => return false
  currentDirectory := return some ("/" ++ "/".intercalate (← get).current)

end CallStudy
