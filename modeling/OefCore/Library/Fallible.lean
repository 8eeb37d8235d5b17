import Mathlib.Order.Defs.Unbundled
import Mathlib.Tactic.Common

/-
  Computations that change a state and can throw: what was
  done before an exception stays done.

  Main declarations:
    * `Fallible`, `Fallible.exec`
    * `Fallible.Keeps`
    * `Fallible.Holds`
-/

------------------------------------------------------------
-- Executions
------------------------------------------------------------

/- A computation on states `σ` that throws `ε`. -/
abbrev Fallible (ε σ : Type) :=
  ExceptT ε (StateM σ)

namespace Fallible

variable {ε σ α β : Type}

/- The outcome, and the state that is left. -/
def exec
    (x : Fallible ε σ α)
    (s : σ) : Except ε α × σ :=
  x.run.run s

@[simp]
theorem exec_pure (a : α) (s : σ) :
    exec (pure a : Fallible ε σ α) s = (.ok a, s) :=
  rfl

@[simp]
theorem exec_throw (e : ε) (s : σ) :
    exec (throw e : Fallible ε σ α) s = (.error e, s) :=
  rfl

@[simp]
theorem exec_get (s : σ) :
    exec (get : Fallible ε σ σ) s = (.ok s, s) :=
  rfl

@[simp]
theorem exec_set (t s : σ) :
    exec (set t : Fallible ε σ PUnit) s =
      (.ok PUnit.unit, t) :=
  rfl

@[simp]
theorem exec_modify (f : σ → σ) (s : σ) :
    exec (modify f : Fallible ε σ PUnit) s =
      (.ok PUnit.unit, f s) :=
  rfl

theorem exec_bind
    (x : Fallible ε σ α)
    (f : α → Fallible ε σ β)
    (s : σ) :
    exec (x >>= f) s =
      match exec x s with
      | (.ok a, t) => exec (f a) t
      | (.error e, t) => (.error e, t) := by
  have hStep :
      exec (x >>= f) s =
        (match (exec x s).1 with
          | .ok a => exec (f a)
          | .error e => fun t => (.error e, t))
            (exec x s).2 := by
    unfold exec
    simp only [ExceptT.run_bind, StateT.run_bind]
    simp only [bind]
    cases (x.run.run s).1 <;> rfl
  rw [hStep]
  rcases exec x s with ⟨outcome, t⟩
  cases outcome <;> rfl

theorem exec_bind_ok
    {x : Fallible ε σ α}
    {s t : σ}
    {a : α}
    (hExec : exec x s = (.ok a, t))
    (f : α → Fallible ε σ β) :
    exec (x >>= f) s = exec (f a) t := by
  rw [exec_bind, hExec]

theorem exec_bind_error
    {x : Fallible ε σ α}
    {s t : σ}
    {e : ε}
    (hExec : exec x s = (.error e, t))
    (f : α → Fallible ε σ β) :
    exec (x >>= f) s = (.error e, t) := by
  rw [exec_bind, hExec]

theorem exec_tryCatch
    (x : Fallible ε σ α)
    (handle : ε → Fallible ε σ α)
    (s : σ) :
    exec (tryCatch x handle) s =
      match exec x s with
      | (.ok a, t) => (.ok a, t)
      | (.error e, t) => exec (handle e) t := by
  have hStep :
      exec (tryCatch x handle) s =
        (match (exec x s).1 with
          | .ok a => fun t => (Except.ok a, t)
          | .error e => exec (handle e))
            (exec x s).2 := by
    unfold exec
    simp only [tryCatch, tryCatchThe, MonadExceptOf.tryCatch,
      ExceptT.tryCatch, ExceptT.run_mk, StateT.run_bind]
    simp only [bind]
    cases hOutcome : (x.run.run s).1 <;>
      simp only [ExceptT.run] at hOutcome <;>
      simp only [hOutcome] <;> rfl
  rw [hStep]
  rcases exec x s with ⟨outcome, t⟩
  cases outcome <;> rfl

------------------------------------------------------------
-- Frames
------------------------------------------------------------

/- However the computation ends, the states before and after
   are related. -/
def Keeps
    (R : σ → σ → Prop)
    (x : Fallible ε σ α) : Prop :=
  ∀ s, R s (exec x s).2

namespace Keeps

variable {R : σ → σ → Prop}

/- A computation that does not throw leaves a related state. -/
theorem exists_exec
    {x : Fallible ε σ α}
    (hKeeps : Keeps R x)
    {s : σ}
    {a : α}
    (hOk : (exec x s).1 = .ok a) :
    ∃ t, exec x s = (.ok a, t) ∧ R s t :=
  ⟨(exec x s).2, Prod.ext hOk rfl, hKeeps s⟩

theorem pure
    [Std.Refl R]
    (a : α) :
    Keeps R (Pure.pure a : Fallible ε σ α) :=
  fun s => Std.Refl.refl s

theorem throw
    [Std.Refl R]
    (e : ε) :
    Keeps R (throw e : Fallible ε σ α) :=
  fun s => Std.Refl.refl s

theorem get [Std.Refl R] :
    Keeps R (get : Fallible ε σ σ) :=
  fun s => Std.Refl.refl s

theorem modify
    {f : σ → σ}
    (hKeeps : ∀ s, R s (f s)) :
    Keeps R (modify f : Fallible ε σ PUnit) :=
  hKeeps

/- A frame that follows from another is kept with it. -/
theorem mono
    {Q : σ → σ → Prop}
    {x : Fallible ε σ α}
    (hKeeps : Keeps R x)
    (hFrame : ∀ s t, R s t → Q s t) :
    Keeps Q x :=
  fun s => hFrame s _ (hKeeps s)

theorem bind
    [IsTrans σ R]
    {x : Fallible ε σ α}
    {f : α → Fallible ε σ β}
    (hFirst : Keeps R x)
    (hThen : ∀ a, Keeps R (f a)) :
    Keeps R (x >>= f) := by
  intro s
  have hStart := hFirst s
  rcases hExec : exec x s with ⟨outcome, t⟩
  rw [hExec] at hStart
  cases outcome with
  | ok a =>
      rw [exec_bind_ok hExec]
      exact IsTrans.trans _ _ _ hStart (hThen a t)
  | error e =>
      rw [exec_bind_error hExec]
      exact hStart

theorem tryCatch
    [IsTrans σ R]
    {x : Fallible ε σ α}
    {handle : ε → Fallible ε σ α}
    (hFirst : Keeps R x)
    (hThen : ∀ e, Keeps R (handle e)) :
    Keeps R (tryCatch x handle) := by
  intro s
  have hStart := hFirst s
  rcases hExec : exec x s with ⟨outcome, t⟩
  rw [hExec] at hStart
  rw [exec_tryCatch, hExec]
  cases outcome with
  | ok a => exact hStart
  | error e => exact IsTrans.trans _ _ _ hStart (hThen e t)

end Keeps

------------------------------------------------------------
-- Invariants
------------------------------------------------------------

/- However the computation ends, an invariant of the state is
   kept; and what is returned has a property. -/
def Holds
    (P : σ → Prop)
    (x : Fallible ε σ α)
    (Q : α → Prop) : Prop :=
  ∀ s, P s →
    P (exec x s).2 ∧ ∀ a, (exec x s).1 = .ok a → Q a

namespace Holds

variable {P : σ → Prop} {Q : α → Prop}

theorem pure
    {a : α}
    (hValue : Q a) :
    Holds P (Pure.pure a : Fallible ε σ α) Q := by
  refine fun s hState => ⟨hState, fun b hOk => ?_⟩
  cases hOk
  exact hValue

theorem throw (e : ε) :
    Holds P (throw e : Fallible ε σ α) Q :=
  fun s hState => ⟨hState, fun a hOk => by cases hOk⟩

/- The state that is read satisfies the invariant. -/
theorem get : Holds P (get : Fallible ε σ σ) P := by
  refine fun s hState => ⟨hState, fun t hOk => ?_⟩
  cases hOk
  exact hState

theorem modify
    {f : σ → σ}
    (hState : ∀ s, P s → P (f s))
    {R : PUnit → Prop}
    (hValue : R ⟨⟩) :
    Holds P (modify f : Fallible ε σ PUnit) R :=
  fun s hBefore => ⟨hState s hBefore, fun _ _ => hValue⟩

theorem bind
    {x : Fallible ε σ α}
    {f : α → Fallible ε σ β}
    {R : β → Prop}
    (hFirst : Holds P x Q)
    (hThen : ∀ a, Q a → Holds P (f a) R) :
    Holds P (x >>= f) R := by
  intro s hState
  have hStart := hFirst s hState
  rcases hExec : exec x s with ⟨outcome, t⟩
  rw [hExec] at hStart
  cases outcome with
  | ok a =>
      rw [exec_bind_ok hExec]
      exact hThen a (hStart.2 a rfl) t hStart.1
  | error e =>
      rw [exec_bind_error hExec]
      exact ⟨hStart.1, fun b hOk => by cases hOk⟩

theorem tryCatch
    {x : Fallible ε σ α}
    {handle : ε → Fallible ε σ α}
    (hFirst : Holds P x Q)
    (hThen : ∀ e, Holds P (handle e) Q) :
    Holds P (tryCatch x handle) Q := by
  intro s hState
  have hStart := hFirst s hState
  rcases hExec : exec x s with ⟨outcome, t⟩
  rw [hExec] at hStart
  rw [exec_tryCatch, hExec]
  cases outcome with
  | ok a => exact ⟨hStart.1, hStart.2⟩
  | error e => exact hThen e t hStart.1

end Holds

end Fallible
