import CallStudy.Number.Numeral
import CallStudy.Run.Event
import CallStudy.Source.CharClass

/-!
Which events are written. A filter is a list of directives, each of which sets a threshold for the
events of some origins; of those that speak of an event the one with the longest target counts,
and of equally long ones the last.
-/

namespace CallStudy

/-- How much passes: one number more for every further kind of event. -/
inductive Threshold where
  | off
  | error
  | warn
  | info
  | debug
  | trace
  deriving Repr, DecidableEq

namespace Threshold

def rank : Threshold → Nat
  | off => 0
  | error => 1
  | warn => 2
  | info => 3
  | debug => 4
  | trace => 5

def all : List Threshold := [off, error, warn, info, debug, trace]

def name : Threshold → String
  | off => "off"
  | error => "error"
  | warn => "warn"
  | info => "info"
  | debug => "debug"
  | trace => "trace"

/-- A threshold as a number or as a word in any case. -/
def ofText? (text : List Char) : Option Threshold :=
  match Numeral.unsigned? text with
  | some n => all[n]?
  | none => all.find? (·.name.toList = text.map Char.toLower)

def admits (t : Threshold) : Level → Bool
  | .debug => debug.rank ≤ t.rank
  | .info => info.rank ≤ t.rank

end Threshold

/-- The part of the program that tells of an event. -/
def Event.origin : Event → String
  | foundLargeOf _ | gridPassed .. | extracted _ | tableSaved _ => "inlinelab"
  | configFound _ => "inlinelab::config"
  | fileExtracted .. => "inlinelab::analysis"
  | _ => "inlinelab::driver"

/-- A threshold for the events whose origin starts with the target, or for all without one. -/
structure Directive where
  target : Option (List Char)
  threshold : Threshold
  /-- Whether only events inside of some span are meant, of which there are none. -/
  inSpan : Bool := false
  deriving Repr, DecidableEq

namespace Directive

def isNameStart (c : Char) : Bool := c = '-' || c = ':' || Source.CharClass.isIdentContinue c

/-- What may follow a target or a span: nothing, or a threshold. -/
def ending? (target : Option (List Char)) (inSpan : Bool) : List Char → Option Directive
  | [] => some ⟨target, .trace, inSpan⟩
  | ['='] => some ⟨target, .trace, inSpan⟩
  | '=' :: text => (Threshold.ofText? text).map (⟨target, ·, inSpan⟩)
  | _ => none

/-- A span in brackets, with fields in braces perhaps, and what follows. -/
def span? (target : Option (List Char)) (text : List Char) : Option Directive :=
  match text.dropWhile fun c => c ≠ ']' && c ≠ '\x7b' with
  | ']' :: rest => ending? target true rest
  | '\x7b' :: '\x7d' :: _ => none
  | '\x7b' :: rest =>
    match rest.dropWhile (· ≠ '\x7d') with
    | '\x7d' :: ']' :: rest => ending? target true rest
    | _ => none
  | _ => none

/-- A threshold alone, or a target or span with a threshold perhaps. -/
def ofText? : List Char → Option Directive
  | [] => none
  | '[' :: text => span? none text
  | c :: text =>
    if isNameStart c then
      let (target, rest) := (c :: text).span fun c => c ≠ '=' && c ≠ '['
      match rest with
      | [] =>
        match Threshold.ofText? target with
        | some threshold => some ⟨none, threshold, false⟩
        | none => some ⟨some target, .trace, false⟩
      | '[' :: rest => span? (some target) rest
      | rest => ending? (some target) false rest
    else none

def speaksOf (d : Directive) (origin : String) : Bool :=
  !d.inSpan && d.target.all (·.isPrefixOf origin.toList)

/-- How narrow the target is. -/
def narrowness (d : Directive) : Nat := d.target.elim 0 fun target => target.length + 1

end Directive

structure EventFilter where
  directives : List Directive
  deriving Repr, DecidableEq

namespace EventFilter

/-- Directives with commas between them, of which there may be too many. An empty text lets nothing
pass. -/
def ofText? (text : String) : Option EventFilter :=
  let parts := (text.splitOn ",").filter (! ·.isEmpty)
  (parts.mapM fun part => Directive.ofText? part.toList).map (⟨·⟩)

/-- The filter for how often more detail was asked for. -/
def ofVerbosity : Nat → EventFilter
  | 0 => ⟨[⟨none, .info, false⟩]⟩
  | 1 => ⟨[⟨none, .debug, false⟩]⟩
  | _ => ⟨[⟨none, .trace, false⟩]⟩

/-- A setting goes before the verbosity if it can be read. -/
def choose (setting : Option String) (verbosity : Nat) : EventFilter :=
  (setting.bind ofText?).getD (ofVerbosity verbosity)

/-- The narrowest of two directives, the later of equally narrow ones. -/
def narrower (best : Option Directive) (d : Directive) : Option Directive :=
  match best with
  | some b => if b.narrowness ≤ d.narrowness then some d else some b
  | none => some d

def threshold (f : EventFilter) (origin : String) : Threshold :=
  ((f.directives.filter (·.speaksOf origin)).foldl narrower none).elim .off Directive.threshold

def passes (f : EventFilter) (e : Event) : Bool := (f.threshold e.origin).admits e.level

end EventFilter
end CallStudy
