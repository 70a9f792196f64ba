import CallStudy.Proofs.Command.Work

/-!
What work comes to that only looks at a tree of files.
-/

set_option autoImplicit false

namespace CallStudy.Command

variable {ε α β : Type} {t : FileTree}

/-- Work that only looks at the tree and has this result there. -/
def ComesTo (t : FileTree) (work : ExceptT ε Telling α) (result : Except ε α) : Prop :=
  ∀ s : Transcript, ∃ events, runIn work s t = ((result, { s with events }), t)

namespace ComesTo

variable {work : ExceptT ε Telling α} {next : α → ExceptT ε Telling β} {path : String}

theorem unique {result other : Except ε α} (h : ComesTo t work result)
    (h' : ComesTo t work other) : result = other := by
  obtain ⟨events, ran⟩ := h {}
  obtain ⟨events', ran'⟩ := h' {}
  rw [ran] at ran'
  exact congrArg (·.1.1) ran'

/-- A result that there always is, and that work always has, is the only one it has. -/
theorem iff {is : Except ε α → Prop} (total : ∃ result, is result)
    (comes : ∀ result, is result → ComesTo t work result) (result : Except ε α) :
    ComesTo t work result ↔ is result := by
  obtain ⟨actual, holds⟩ := total
  constructor
  · intro ran
    exact ran.unique (comes actual holds) ▸ holds
  · exact comes result

theorem of_pure (a : α) : ComesTo t (pure a : ExceptT ε Telling α) (.ok a) :=
  fun s => ⟨s.events, rfl⟩

theorem of_throw (e : ε) : ComesTo t (throw e : ExceptT ε Telling α) (.error e) :=
  fun s => ⟨s.events, rfl⟩

theorem bind {a : α} {result : Except ε β} (first : ComesTo t work (.ok a))
    (second : ComesTo t (next a) result) : ComesTo t (work >>= next) result := by
  intro s
  obtain ⟨events, ran⟩ := first s
  obtain ⟨events', ran'⟩ := second { s with events }
  exact ⟨events', (runIn_bind_of_ok ran).trans ran'⟩

theorem bind_error {e : ε} (first : ComesTo t work (.error e)) :
    ComesTo t (work >>= next) (.error e) := by
  intro s
  obtain ⟨events, ran⟩ := first s
  exact ⟨events, runIn_bind_of_error ran⟩

theorem attempt {failure : ε → Failure} {result : Except ε α} (h : ComesTo t work result) :
    ComesTo t (Work.attempt failure work) (result.mapError failure) := by
  intro s
  obtain ⟨events, ran⟩ := h s
  exact ⟨events, runIn_attempt ran⟩

theorem isPresent :
    ComesTo t (FileAccess.isPresent path : ExceptT ε Telling Bool) (.ok (t.find path).isSome) :=
  fun s => ⟨s.events, rfl⟩

theorem isDirectory :
    ComesTo t (FileAccess.isDirectory path : ExceptT ε Telling Bool)
      (.ok ((t.find path).any Node.isDirectory)) :=
  fun s => ⟨s.events, rfl⟩

theorem readText :
    ComesTo t (FileAccess.readText path : ExceptT ε Telling (Option String))
      (.ok (t.readText path)) :=
  fun s => ⟨s.events, rfl⟩

theorem regularFiles :
    ComesTo t (FileAccess.regularFiles path : ExceptT ε Telling (Option (List String)))
      (.ok (t.regularFiles path)) :=
  fun s => ⟨s.events, rfl⟩

theorem note (e : Event) :
    ComesTo t (liftM (Work.note e : Telling Unit) : ExceptT ε Telling Unit) (.ok ()) :=
  fun s => ⟨s.events.push e, rfl⟩

end ComesTo
end CallStudy.Command
