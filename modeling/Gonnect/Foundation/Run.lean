/-!
# Runs of a transition system

The operations of a component are a relation between a state, an event and the state after
it. A run records the events in their order, so an invariant may speak about the history
that led to a state as well as about the state itself.
-/

namespace Gonnect

universe u v

variable {State : Type u} {Event : Type v} {step : State → Event → State → Prop}

/-- `Run step start events finish` holds when `events` leads from `start` to `finish`. -/
inductive Run (step : State → Event → State → Prop) (start : State) :
    List Event → State → Prop where
  | nil : Run step start [] start
  | snoc {events : List Event} {before after : State} {event : Event} :
      Run step start events before → step before event after →
        Run step start (events ++ [event]) after

namespace Run

variable {start finish : State} {events : List Event}

theorem history_invariant {Invariant : List Event → State → Prop}
    (run : Run step start events finish) (initial : Invariant [] start)
    (preserved : ∀ history before event after, Invariant history before → step before event after →
        Invariant (history ++ [event]) after) : Invariant events finish := by
  induction run with
  | nil => exact initial
  | snoc _ taken ih => exact preserved _ _ _ _ ih taken

theorem invariant {Invariant : State → Prop} (run : Run step start events finish)
    (initial : Invariant start) (preserved : ∀ before event after,
      Invariant before → step before event after → Invariant after) : Invariant finish := by
  induction run with
  | nil => exact initial
  | snoc _ taken ih => exact preserved _ _ _ ih taken

theorem reaches_event {past later : List Event} {event : Event} (run : Run step start events finish)
    (listed : events = past ++ event :: later) :
    ∃ before after, Run step start past before ∧ step before event after := by
  induction run generalizing later with
  | nil => cases past <;> cases listed
  | @snoc earlier before after last ran taken ih =>
    rcases List.eq_nil_or_concat later with rfl | ⟨front, other, rfl⟩
    · rcases List.append_inj' listed rfl with ⟨rfl, same⟩
      cases same
      exact ⟨before, after, ran, taken⟩
    · have split : earlier ++ [last] = (past ++ event :: front) ++ [other] := by
        simpa using listed
      exact ih (List.append_inj' split rfl).1

theorem single {event : Event} (taken : step start event finish) :
    Run step start [event] finish := by
  simpa using Run.snoc Run.nil taken

end Run

end Gonnect
