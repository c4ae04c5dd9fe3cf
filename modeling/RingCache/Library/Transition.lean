import Mathlib.Logic.Function.Basic
import Mathlib.Logic.Relation

/-!
# Runs of a partial step function

A step function takes a state and an action and either returns the next state
or stops.  A run is a finite sequence of successful steps, each of which also
meets a condition on the state before it, the action and the state after it.
The condition states what the environment promises; `fun _ _ _ => True` admits
every run.
-/

namespace Transition

universe u v w x

section Runs

variable {σ : Type u} {α : Type v} {ε : Type w}

/-- The states at the end of a run from `start` whose steps are all `allowed`. -/
inductive Reachable
    (step : σ → α → Except ε σ) (start : σ)
    (allowed : σ → α → σ → Prop) : σ → Prop
  | start : Reachable step start allowed start
  | next {before after : σ} {action : α} :
      Reachable step start allowed before →
      step before action = .ok after →
      allowed before action after →
      Reachable step start allowed after

variable {step : σ → α → Except ε σ} {start : σ}
variable {allowed : σ → α → σ → Prop}

/-- A property of the first state that every allowed step from a reachable
state keeps holds in every reachable state. -/
theorem Reachable.invariant
    {property : σ → Prop}
    (initial : property start)
    (preserved :
      ∀ before action after,
        Reachable step start allowed before →
        property before →
        step before action = .ok after →
        allowed before action after →
        property after)
    {state : σ} (reachable : Reachable step start allowed state) :
    property state := by
  induction reachable with
  | start =>
      exact initial
  | next reached stepped permitted inductionHypothesis =>
      exact
        preserved _ _ _ reached inductionHypothesis stepped permitted

/-- A weaker condition on the steps reaches at least the same states. -/
theorem Reachable.weaken
    {wider : σ → α → σ → Prop}
    (weaker :
      ∀ before action after,
        allowed before action after → wider before action after)
    {state : σ} (reachable : Reachable step start allowed state) :
    Reachable step start wider state := by
  induction reachable with
  | start =>
      exact Reachable.start
  | next _ stepped permitted inductionHypothesis =>
      exact
        Reachable.next inductionHypothesis stepped
          (weaker _ _ _ permitted)

/-- A run and a run from its end are one run. -/
theorem Reachable.trans
    {middle state : σ}
    (first : Reachable step start allowed middle)
    (second : Reachable step middle allowed state) :
    Reachable step start allowed state := by
  induction second with
  | start =>
      exact first
  | next _ stepped permitted inductionHypothesis =>
      exact Reachable.next inductionHypothesis stepped permitted

/-- If every allowed step of one system is, under `project`, no step or one
allowed step of another, then reachable states project to reachable states. -/
theorem Reachable.project
    {τ : Type u} {β : Type v} {δ : Type x}
    {lowerStep : τ → β → Except δ τ} {lowerStart : τ}
    {lowerAllowed : τ → β → τ → Prop}
    (project : σ → τ)
    (initial : project start = lowerStart)
    (simulated :
      ∀ before action after,
        Reachable step start allowed before →
        step before action = .ok after →
        allowed before action after →
        project after = project before ∨
          ∃ lowerAction,
            lowerStep (project before) lowerAction =
                .ok (project after) ∧
              lowerAllowed (project before) lowerAction (project after))
    {state : σ} (reachable : Reachable step start allowed state) :
    Reachable lowerStep lowerStart lowerAllowed (project state) := by
  induction reachable with
  | start =>
      rw [initial]
      exact Reachable.start
  | next reached stepped permitted inductionHypothesis =>
      rcases simulated _ _ _ reached stepped permitted with
        unchanged | ⟨lowerAction, lowerStepped, lowerPermitted⟩
      · rw [unchanged]
        exact inductionHypothesis
      · exact
          Reachable.next inductionHypothesis lowerStepped lowerPermitted

/-- If every allowed step from a state with a mate leads to a state whose mate
is the same or one step further, then every reachable state has a mate that
can be reached. -/
theorem Reachable.simulate
    {τ : Type x} {further : τ → τ → Prop} {first : τ}
    {mates : σ → τ → Prop}
    (initial : mates start first)
    (simulated :
      ∀ before action after mate,
        Reachable step start allowed before →
        mates before mate →
        step before action = .ok after →
        allowed before action after →
          ∃ next, Relation.ReflGen further mate next ∧ mates after next)
    {state : σ} (reachable : Reachable step start allowed state) :
    ∃ mate,
      Relation.ReflTransGen further first mate ∧ mates state mate := by
  induction reachable with
  | start =>
      exact ⟨first, Relation.ReflTransGen.refl, initial⟩
  | next reached stepped permitted inductionHypothesis =>
      obtain ⟨mate, mateReached, related⟩ := inductionHypothesis
      obtain ⟨next, moved, nextRelated⟩ :=
        simulated _ _ _ mate reached related stepped permitted
      exact ⟨next, mateReached.trans moved.to_reflTransGen, nextRelated⟩

/-- Follow a list of actions, testing every step with `check`. -/
def checkedRun
    (step : σ → α → Except ε σ) (check : σ → α → σ → Bool) :
    σ → List α → Option σ
  | state, [] => some state
  | state, action :: rest =>
      match step state action with
      | .error _ => none
      | .ok after =>
          if check state action after then
            checkedRun step check after rest
          else
            none

/-- A successful checked run ends in a reachable state. -/
theorem Reachable.of_checkedRun
    {check : σ → α → σ → Bool}
    (sound :
      ∀ before action after,
        check before action after = true →
          allowed before action after) :
    ∀ {actions : List α} {state final : σ},
      Reachable step start allowed state →
      checkedRun step check state actions = some final →
      Reachable step start allowed final
  | [], state, final, reachable, ran => by
      simp only [checkedRun, Option.some.injEq] at ran
      rw [← ran]
      exact reachable
  | action :: rest, state, final, reachable, ran => by
      rw [checkedRun] at ran
      split at ran
      · simp at ran
      · next after stepped =>
          split at ran
          · next checked =>
              exact
                Reachable.of_checkedRun sound
                  (Reachable.next reachable stepped
                    (sound _ _ _ checked))
                  ran
          · simp at ran

theorem checkedRun_append
    (check : σ → α → σ → Bool) (first second : List α) (state : σ) :
    checkedRun step check state (first ++ second) =
      (checkedRun step check state first).bind fun middle =>
        checkedRun step check middle second := by
  induction first generalizing state with
  | nil =>
      rfl
  | cons action rest inductionHypothesis =>
      simp only [List.cons_append, checkedRun]
      cases step state action with
      | error reason =>
          rfl
      | ok after =>
          by_cases checked : check state action after = true
          · simp only [if_pos checked]
            exact inductionHypothesis after
          · simp only [if_neg checked]
            rfl

end Runs

/-- A sequential composition succeeds exactly when both parts do. -/
theorem bind_eq_ok_iff
    {ε : Type u} {α β : Type v}
    {first : Except ε α} {second : α → Except ε β} {result : β} :
    (first >>= second) = .ok result ↔
      ∃ middle, first = .ok middle ∧ second middle = .ok result := by
  cases first with
  | error reason =>
      simp [bind, Except.bind]
  | ok middle =>
      simp [bind, Except.bind]

end Transition
