import Mathlib.Data.List.Infix
import Mathlib.Tactic.Common

/-
  Properties of all prefixes of a run, by an invariant that
  each event keeps up under a condition.

  A run is known by the events so far; what holds after them
  is a predicate on event lists.

  Main declarations:
    * `Runs.invariant_prefix`
    * `Runs.forall_prefix_iff`
    * `Runs.forall_split_snoc`, `Runs.exists_split_snoc`
-/

------------------------------------------------------------
-- Prefixes of Runs
------------------------------------------------------------

namespace Runs

variable {E : Type}

/- What every event of a run keeps up holds all along it. -/
theorem invariant_prefix
    (Invariant : List E → Prop)
    {events : List E}
    (hStart : Invariant [])
    (hNext : ∀ front event back,
      events = front ++ event :: back →
        Invariant front → Invariant (front ++ [event]))
    {front : List E}
    (hFront : front <+: events) :
    Invariant front := by
  induction front using List.reverseRecOn with
  | nil => exact hStart
  | append_singleton most event ih =>
      rcases hFront with ⟨back, hSplit⟩
      have hEvents : events = most ++ event :: back := by
        rw [← hSplit]
        simp
      have hMost : most <+: events :=
        ⟨event :: back, hEvents.symm⟩
      exact hNext most event back hEvents (ih hMost)

/-
  If events under a condition keep an invariant, and only
  events under the condition keep what is promised, then the
  promise holds along a run exactly if every event of it
  meets the condition.
-/
theorem forall_prefix_iff
    (Invariant : List E → Prop)
    {Promise : List E → Prop}
    {Condition : List E → E → Prop}
    {events : List E}
    (hStart : Invariant [])
    (hPromise : ∀ front, Invariant front → Promise front)
    (hNext : ∀ front event back,
      events = front ++ event :: back →
        Invariant front →
          Condition front event →
            Invariant (front ++ [event]))
    (hOnly : ∀ front event back,
      events = front ++ event :: back →
        Invariant front →
          Promise (front ++ [event]) →
            Condition front event) :
    (∀ front, front <+: events → Promise front) ↔
      ∀ front event back,
        events = front ++ event :: back →
          Condition front event := by
  constructor
  · intro hAll
    have hCondition :
        ∀ front event back,
          events = front ++ event :: back →
            Invariant front → Condition front event := by
      intro front event back hSplit hInvariant
      apply hOnly front event back hSplit hInvariant
      exact hAll (front ++ [event])
        ⟨back, by rw [hSplit]; simp⟩
    intro front event back hSplit
    apply hCondition front event back hSplit
    apply invariant_prefix Invariant hStart _
      ⟨event :: back, hSplit.symm⟩
    intro most next others hOther hInvariant
    exact hNext most next others hOther hInvariant
      (hCondition most next others hOther hInvariant)
  · intro hCondition front hFront
    apply hPromise
    apply invariant_prefix Invariant hStart _ hFront
    intro most next others hOther hInvariant
    exact hNext most next others hOther hInvariant
      (hCondition most next others hOther)

/- What holds of each event, given those before it, once one
   more event has come. -/
theorem forall_split_snoc
    (Holds : List E → E → Prop)
    (events : List E)
    (last : E) :
    (∀ front event back,
        events ++ [last] = front ++ event :: back →
          Holds front event) ↔
      (∀ front event back,
          events = front ++ event :: back →
            Holds front event) ∧
        Holds events last := by
  constructor
  · intro hAll
    constructor
    · intro front event back hSplit
      apply hAll front event (back ++ [last])
      rw [hSplit]
      simp
    · exact hAll events last [] rfl
  · rintro ⟨hBefore, hLast⟩ front event back hSplit
    rcases List.eq_nil_or_concat back with hNil | ⟨most, x, hBack⟩
    · rw [hNil] at hSplit
      rcases List.append_inj' hSplit rfl with ⟨hFront, hEvent⟩
      cases hEvent
      rw [← hFront]
      exact hLast
    · apply hBefore front event most
      rw [hBack, List.concat_eq_append, ← List.cons_append,
        ← List.append_assoc] at hSplit
      exact (List.append_inj' hSplit rfl).1

/- What holds of some event, given those before it. -/
theorem exists_split_snoc
    (Holds : List E → E → Prop)
    (events : List E)
    (last : E) :
    (∃ front event back,
        events ++ [last] = front ++ event :: back ∧
          Holds front event) ↔
      (∃ front event back,
          events = front ++ event :: back ∧
            Holds front event) ∨
        Holds events last := by
  have hNone := forall_split_snoc
    (fun front event => ¬ Holds front event) events last
  have hSome := not_congr hNone
  simpa only [not_forall, not_and_or, not_not, exists_prop]
    using hSome

end Runs
