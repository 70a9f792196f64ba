/-!
Reading command line arguments by a form: switches with a long name and perhaps a letter, and
slots for arguments that stand free. An argument that starts with a dash goes to a slot when the
slot allows that and the argument is not made of known switches.
-/

namespace CallStudy.Command

/-- Why reading stops before the end. -/
inductive Stop where
  | misuse
  | version
  | help
  deriving Repr, DecidableEq

/-- What a switch does to what has been read so far. -/
inductive Action (σ : Type) where
  | flag (set : σ → Except Stop σ)
  | value (set : String → σ → Except Stop σ)

structure Switch (σ : Type) where
  long : String
  letter : Option Char := none
  action : Action σ

/-- A place for a free argument. -/
structure Slot (σ : Type) where
  put : String → σ → Except Stop σ
  /-- Whether arguments with a dash in front may go here. -/
  dashes : Bool := false
  /-- Whether any number of arguments may go here. -/
  many : Bool := false

structure Form (σ : Type) where
  switches : List (Switch σ) := []
  slots : List (Slot σ) := []

/-- How far reading has come. -/
structure Progress (σ : Type) where
  read : σ
  slots : List (Slot σ)
  /-- The switch that waits for its value. -/
  waiting : Option (String → σ → Except Stop σ) := none
  /-- Whether the argument before went to a slot for many that allows dashes. -/
  inSlot : Bool := false

variable {σ : Type}

namespace Progress

/-- Gives an argument to the switch that waits or to the next slot. -/
def take (p : Progress σ) (arg : String) : Except Stop (Progress σ) :=
  match p.waiting, p.slots with
  | some set, _ => return { p with read := ← set arg p.read, waiting := none, inSlot := false }
  | none, [] => .error .misuse
  | none, slot :: rest =>
    return { p with
      read := ← slot.put arg p.read
      slots := if slot.many then p.slots else rest
      inSlot := slot.many && slot.dashes }

/-- Does what a switch does, unless another one waits for its value. -/
def turn (p : Progress σ) (set : σ → Except Stop σ) : Except Stop (Progress σ) :=
  if p.waiting.isSome then .error .misuse
  else return { p with read := ← set p.read, inSlot := false }

/-- Lets a switch wait for its value. -/
def wait (p : Progress σ) (set : String → σ → Except Stop σ) : Except Stop (Progress σ) :=
  if p.waiting.isSome then .error .misuse
  else .ok { p with waiting := some set, inSlot := false }

/-- Whether the next slot takes arguments with dashes. -/
def allowsDashes (p : Progress σ) : Bool := p.slots.head?.any Slot.dashes

end Progress

namespace Form

variable (form : Form σ)

def ofLong? (name : String) : Option (Switch σ) := form.switches.find? (·.long = name)

def ofLetter? (c : Char) : Option (Switch σ) := form.switches.find? (·.letter = some c)

/-- A value may stand behind the letter of its switch, with or without an equals sign. -/
def attached : List Char → Option String
  | [] => none
  | '=' :: text => some (.ofList text)
  | text => some (.ofList text)

/-- The letters behind a dash. -/
def readLetters : List Char → Progress σ → Except Stop (Progress σ)
  | [], p => .ok p
  | c :: rest, p =>
    match (form.ofLetter? c).map Switch.action with
    | none => .error .misuse
    | some (.flag set) => do readLetters rest (← p.turn set)
    | some (.value set) =>
      match attached rest with
      | none => p.wait set
      | some text => p.turn (set text)

/-- A long name behind two dashes, with a value behind an equals sign perhaps. -/
def readLong (arg : String) (text : List Char) (p : Progress σ) : Except Stop (Progress σ) :=
  let (name, rest) := text.span (· ≠ '=')
  match (form.ofLong? (.ofList name)).map Switch.action, rest with
  | none, _ => if p.allowsDashes then p.take arg else .error .misuse
  | some (.flag set), [] => p.turn set
  | some (.flag _), _ => .error .misuse
  | some (.value set), [] => p.wait set
  | some (.value set), _ :: value => p.turn (set (.ofList value))

/-- An argument before any double dash that stands alone. -/
def readArgument (arg : String) (p : Progress σ) : Except Stop (Progress σ) :=
  if p.inSlot then p.take arg
  else
    match arg.toList with
    | '-' :: '-' :: text => form.readLong arg text p
    | ['-'] => p.take arg
    | '-' :: letters =>
      if p.allowsDashes && letters.any (fun c => (form.ofLetter? c).isNone) then p.take arg
      else form.readLetters letters p
    | _ => p.take arg

/-- Reads arguments up to one that names a command. Behind a double dash all of them stand free. -/
def readAll (namesCommand : String → Bool) :
    List String → Progress σ → Except Stop (σ × List String)
  | [], p => if p.waiting.isSome then .error .misuse else .ok (p.read, [])
  | arg :: rest, p =>
    if p.waiting.isNone && namesCommand arg then .ok (p.read, arg :: rest)
    else if arg = "--" && !p.inSlot then
      if p.waiting.isSome then .error .misuse
      else do
        let p ← rest.foldlM Progress.take p
        return (p.read, [])
    else do readAll namesCommand rest (← form.readArgument arg p)

/-- Reads arguments from the start. -/
def run (namesCommand : String → Bool) (start : σ) (args : List String) :
    Except Stop (σ × List String) :=
  form.readAll namesCommand args { read := start, slots := form.slots }

end Form

/-- A switch on the first part of what is read. -/
def Switch.first {τ : Type} (s : Switch σ) : Switch (σ × τ) where
  long := s.long
  letter := s.letter
  action :=
    match s.action with
    | .flag set => .flag fun (a, b) => return (← set a, b)
    | .value set => .value fun text (a, b) => return (← set text a, b)

/-- A switch on the second part of what is read. -/
def Switch.second {τ : Type} (s : Switch τ) : Switch (σ × τ) where
  long := s.long
  letter := s.letter
  action :=
    match s.action with
    | .flag set => .flag fun (a, b) => return (a, ← set b)
    | .value set => .value fun text (a, b) => return (a, ← set text b)

def Slot.second {τ : Type} (s : Slot τ) : Slot (σ × τ) where
  put text := fun (a, b) => return (a, ← s.put text b)
  dashes := s.dashes
  many := s.many

end CallStudy.Command
