import RingCache.Library.Transition

/-!
# Schedules and budgets

A schedule is a run together with the list of its actions.  A budget relates
states to numbers: whoever has a budget and takes a step is left with a
smaller one.  Schedules are then no longer than any budget of their first
state, and if every state that is not settled has a step, then every state
with a budget has a schedule to a settled state.
-/

namespace Transition

universe u v w x

variable {σ : Type u} {α : Type v} {ε : Type w}

/-- The runs from one state to another by a list of allowed actions. -/
inductive Schedule
    (step : σ → α → Except ε σ) (allowed : σ → α → σ → Prop) :
    σ → List α → σ → Prop
  | done {state : σ} : Schedule step allowed state [] state
  | next {before middle final : σ} {action : α} {rest : List α} :
      step before action = .ok middle →
      allowed before action middle →
      Schedule step allowed middle rest final →
      Schedule step allowed before (action :: rest) final

namespace Schedule

variable {step : σ → α → Except ε σ} {allowed : σ → α → σ → Prop}
variable {state final : σ} {actions : List α}

/-- A property that every allowed step keeps holds at the end of a schedule
if it holds at its start. -/
theorem invariant
    {property : σ → Prop}
    (preserved :
      ∀ before action after,
        property before →
        step before action = .ok after →
        allowed before action after →
        property after)
    (schedule : Schedule step allowed state actions final)
    (initial : property state) :
    property final := by
  induction schedule with
  | done =>
      exact initial
  | next stepped permitted _ inductionHypothesis =>
      exact inductionHypothesis (preserved _ _ _ initial stepped permitted)

/-- A checked run is a schedule. -/
theorem of_checkedRun
    {check : σ → α → σ → Bool}
    (sound :
      ∀ before action after,
        check before action after = true →
          allowed before action after)
    (ran : checkedRun step check state actions = some final) :
    Schedule step allowed state actions final := by
  induction actions generalizing state with
  | nil =>
      simp only [checkedRun, Option.some.injEq] at ran
      rw [ran]
      exact Schedule.done
  | cons action rest inductionHypothesis =>
      rw [checkedRun] at ran
      split at ran
      · simp at ran
      · next middle stepped =>
          split at ran
          · next checked =>
              exact
                Schedule.next stepped (sound _ _ _ checked)
                  (inductionHypothesis ran)
          · simp at ran

/-- If every allowed step of one system from a state with an invariant is,
under `project`, no step or one allowed step of another, then schedules
project to schedules. -/
theorem project
    {τ : Type u} {β : Type v} {δ : Type x}
    {lowerStep : τ → β → Except δ τ} {lowerAllowed : τ → β → τ → Prop}
    {property : σ → Prop}
    (project : σ → τ)
    (preserved :
      ∀ before action after,
        property before →
        step before action = .ok after →
        allowed before action after →
        property after)
    (simulated :
      ∀ before action after,
        property before →
        step before action = .ok after →
        allowed before action after →
        project after = project before ∨
          ∃ lowerAction,
            lowerStep (project before) lowerAction =
                .ok (project after) ∧
              lowerAllowed (project before) lowerAction (project after))
    (schedule : Schedule step allowed state actions final)
    (initial : property state) :
    ∃ lowerActions,
      Schedule lowerStep lowerAllowed (project state) lowerActions
        (project final) := by
  induction schedule with
  | done =>
      exact ⟨[], Schedule.done⟩
  | next stepped permitted _ inductionHypothesis =>
      obtain ⟨rest, schedule⟩ :=
        inductionHypothesis (preserved _ _ _ initial stepped permitted)
      rcases simulated _ _ _ initial stepped permitted with
        unchanged | ⟨lowerAction, lowerStepped, lowerPermitted⟩
      · rw [unchanged] at schedule
        exact ⟨rest, schedule⟩
      · exact
          ⟨lowerAction :: rest,
            Schedule.next lowerStepped lowerPermitted schedule⟩

variable {budget : σ → Nat → Prop}

/-- A schedule is no longer than a budget of its first state. -/
theorem length_le
    (spends :
      ∀ before action after amount,
        budget before amount →
        step before action = .ok after →
        allowed before action after →
          ∃ left, left < amount ∧ budget after left)
    (schedule : Schedule step allowed state actions final)
    {amount : Nat} (affordable : budget state amount) :
    actions.length ≤ amount := by
  induction schedule generalizing amount with
  | done =>
      exact Nat.zero_le _
  | next stepped permitted _ inductionHypothesis =>
      obtain ⟨left, smaller, remains⟩ :=
        spends _ _ _ _ affordable stepped permitted
      have bound := inductionHypothesis remains
      rw [List.length_cons]
      omega

/-- Where every state that is not settled has a step, a budget pays for a
schedule to a settled state. -/
theorem exists_settled
    {settled : σ → Prop}
    (spends :
      ∀ before action after amount,
        budget before amount →
        step before action = .ok after →
        allowed before action after →
          ∃ left, left < amount ∧ budget after left)
    (proceeds :
      ∀ before amount,
        budget before amount →
        ¬ settled before →
          ∃ action after,
            step before action = .ok after ∧
              allowed before action after)
    {amount : Nat} (affordable : budget state amount) :
    ∃ actions final,
      Schedule step allowed state actions final ∧ settled final := by
  induction amount using Nat.strongRecOn generalizing state with
  | ind amount inductionHypothesis =>
      by_cases finished : settled state
      · exact ⟨[], state, Schedule.done, finished⟩
      · obtain ⟨action, middle, stepped, permitted⟩ :=
          proceeds state amount affordable finished
        obtain ⟨left, smaller, remains⟩ :=
          spends _ _ _ _ affordable stepped permitted
        obtain ⟨rest, final, schedule, settledFinal⟩ :=
          inductionHypothesis left smaller remains
        exact
          ⟨action :: rest, final,
            Schedule.next stepped permitted schedule, settledFinal⟩

end Schedule

end Transition
