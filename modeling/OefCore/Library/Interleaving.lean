import Mathlib.Logic.Function.Basic
import Mathlib.Tactic.Common

/-
  Calls that share a state and take turns after every piece
  of their code, with one mutex that some pieces hold.

  A permit is a flag that lets one call at a time have an
  operation outstanding; whoever completes it is the next to
  hold the permit, until the flag is cleared.

  Main declarations:
    * `Program`, `Program.Turn`, `Program.Finishes`
    * `Interleaving`, `Interleaving.step`, `Interleaving.run`
    * `Interleaving.guarded_run`: what holds while the mutex
      is held
    * `Permit`, `Interleaving.permit_run`: at most one
      operation is outstanding
    * `Interleaving.exists_run_alone`: a call that nobody
      interrupts
-/

------------------------------------------------------------
-- Programs
------------------------------------------------------------

/-
  `enter` begins a call, if it can begin, and `next` is its
  next piece; both say where it goes on, if it does.  A piece
  that needs the lock waits until nobody holds it, and holds
  it if it goes on in the lock; there it does not wait again.
-/
structure Program (A C S : Type) where
  enter : A → S → Option (S × Option C)
  next : C → S → S × Option C
  needsLock : C → Bool
  inLock : C → Bool
  inLock_waits : ∀ c : C, inLock c = true → needsLock c = false
  enter_outside : ∀ {a : A} {s s' : S} {call : Option C},
    enter a s = some (s', call) → call.any inLock = false
  next_outside : ∀ (c : C) (s : S),
    needsLock c = false →
      inLock c = false →
        (next c s).2.any inLock = false

namespace Program

variable {A C S : Type}

/- What one piece does to the state and to its call. -/
inductive Turn (p : Program A C S) :
    S → Option C → S → Option C → Prop where
  | enter {a : A} {s s' : S} {call : Option C}
      (hEnter : p.enter a s = some (s', call)) :
      Turn p s none s' call
  | next (c : C) (s : S) :
      Turn p s (some c) (p.next c s).1 (p.next c s).2

/- A call that goes on to its end without a break. -/
inductive Finishes (p : Program A C S) :
    S → Option C → S → Prop where
  | done (s : S) : Finishes p s none s
  | more {c : C} {s s' : S}
      (hRest : Finishes p (p.next c s).1 (p.next c s).2 s') :
      Finishes p s (some c) s'

theorem Turn.outside
    {p : Program A C S}
    {s s' : S}
    {call call' : Option C}
    (hTurn : p.Turn s call s' call')
    (hNeeds : call.any p.needsLock = false)
    (hOut : call.any p.inLock = false) :
    call'.any p.inLock = false := by
  cases hTurn with
  | enter hEnter => exact p.enter_outside hEnter
  | next c s => exact p.next_outside c s hNeeds hOut

end Program

------------------------------------------------------------
-- Interleavings
------------------------------------------------------------

structure Interleaving (ι C S : Type) where
  shared : S
  mutex : Option ι
  calls : ι → Option C

namespace Interleaving

variable {ι A C S : Type} [DecidableEq ι]

inductive Move (ι A : Type) where
  | begin (i : ι) (a : A)
  | resume (i : ι)

/- Before any call. -/
def start (shared : S) : Interleaving ι C S :=
  { shared := shared
    mutex := none
    calls := fun _ => none }

def begin
    (p : Program A C S)
    (s : Interleaving ι C S)
    (i : ι)
    (a : A) : Interleaving ι C S :=
  if (s.calls i).isSome then
    s
  else
    match p.enter a s.shared with
    | none => s
    | some (shared, call) =>
        { s with
          shared := shared
          calls := Function.update s.calls i call }

def resume
    (p : Program A C S)
    (s : Interleaving ι C S)
    (i : ι) : Interleaving ι C S :=
  match s.calls i with
  | none => s
  | some c =>
      if p.needsLock c && s.mutex.isSome then
        s
      else
        { shared := (p.next c s.shared).1
          mutex :=
            if (p.next c s.shared).2.any p.inLock then
              some i
            else if p.inLock c then
              none
            else
              s.mutex
          calls :=
            Function.update s.calls i (p.next c s.shared).2 }

def step
    (p : Program A C S)
    (s : Interleaving ι C S) : Move ι A → Interleaving ι C S
  | .begin i a => s.begin p i a
  | .resume i => s.resume p i

def run
    (p : Program A C S)
    (s : Interleaving ι C S)
    (moves : List (Move ι A)) : Interleaving ι C S :=
  moves.foldl (step p) s

/- What a step that does something is. -/
structure Steps
    (p : Program A C S)
    (s s' : Interleaving ι C S)
    (i : ι)
    (call : Option C) : Prop where
  turn : p.Turn s.shared (s.calls i) s'.shared call
  waited :
    (s.calls i).any p.needsLock = true → s.mutex = none
  calls_eq : s'.calls = Function.update s.calls i call
  mutex_eq :
    s'.mutex =
      if call.any p.inLock then
        some i
      else if (s.calls i).any p.inLock then
        none
      else
        s.mutex

theorem step_cases
    (p : Program A C S)
    (s : Interleaving ι C S)
    (move : Move ι A) :
    s.step p move = s ∨
      ∃ i call, Steps p s (s.step p move) i call := by
  cases move with
  | begin i a =>
      cases hCall : s.calls i with
      | some c =>
          left
          simp [step, begin, hCall]
      | none =>
          cases hEnter : p.enter a s.shared with
          | none =>
              left
              simp [step, begin, hCall, hEnter]
          | some entered =>
              rcases entered with ⟨shared, call⟩
              right
              have hStep : s.step p (.begin i a) =
                  { s with
                    shared := shared
                    calls :=
                      Function.update s.calls i call } := by
                simp [step, begin, hCall, hEnter]
              rw [hStep]
              refine ⟨i, call, ?_, ?_, rfl, ?_⟩
              · rw [hCall]
                exact .enter hEnter
              · simp [hCall]
              · simp [hCall, p.enter_outside hEnter]
  | resume i =>
      cases hCall : s.calls i with
      | none =>
          left
          simp [step, resume, hCall]
      | some c =>
          by_cases hWaits : p.needsLock c && s.mutex.isSome
          · left
            simp only [step, resume, hCall, if_pos hWaits]
          · right
            refine ⟨i, (p.next c s.shared).2, ?_⟩
            have hStep : s.step p (.resume i) =
                s.resume p i := rfl
            rw [hStep, resume, hCall]
            simp only [if_neg hWaits]
            refine ⟨?_, ?_, rfl, ?_⟩
            · rw [hCall]
              exact .next c s.shared
            · intro hNeeds
              rw [hCall] at hNeeds
              simpa [show p.needsLock c = true from hNeeds]
                using hWaits
            · simp [hCall]

------------------------------------------------------------
-- The Mutex
------------------------------------------------------------

/- Who is in the lock holds the mutex, and under it the guard
   holds. -/
structure Guarded
    (p : Program A C S)
    (Guard : S → Prop)
    (s : Interleaving ι C S) : Prop where
  locked : ∀ i,
    (s.calls i).any p.inLock = true ↔ s.mutex = some i
  guard : ∀ i,
    (s.calls i).any p.inLock = true → Guard s.shared

omit [DecidableEq ι] in
theorem guarded_start
    (p : Program A C S)
    (Guard : S → Prop)
    (shared : S) :
    Guarded p Guard (start shared : Interleaving ι C S) where
  locked i := by simp [start]
  guard i hIn := by simp [start] at hIn

variable {p : Program A C S} {Guard : S → Prop}

omit [DecidableEq ι] in
/- Two calls are never both in the lock. -/
theorem Guarded.unique
    {s : Interleaving ι C S}
    (hGuarded : Guarded p Guard s)
    {i j : ι}
    (hLeft : (s.calls i).any p.inLock = true)
    (hRight : (s.calls j).any p.inLock = true) :
    i = j := by
  have hI := (hGuarded.locked i).mp hLeft
  have hJ := (hGuarded.locked j).mp hRight
  rw [hI] at hJ
  exact Option.some.inj hJ

theorem Guarded.locked_steps
    {s s' : Interleaving ι C S}
    (hGuarded : Guarded p Guard s)
    {i : ι}
    {call : Option C}
    (hSteps : Steps p s s' i call)
    (j : ι) :
    (s'.calls j).any p.inLock = true ↔ s'.mutex = some j := by
  have hBefore := hGuarded.locked
  rw [hSteps.calls_eq, hSteps.mutex_eq]
  by_cases hIn : call.any p.inLock = true
  · rw [if_pos hIn]
    by_cases hSame : j = i
    · subst hSame
      simp [hIn]
    · rw [Function.update_of_ne hSame]
      have hNot : s.mutex ≠ some j := by
        intro hOther
        by_cases hMine : (s.calls i).any p.inLock = true
        · rw [(hBefore i).mp hMine] at hOther
          exact hSame (Option.some.inj hOther).symm
        · by_cases hNeeds :
              (s.calls i).any p.needsLock = true
          · rw [hSteps.waited hNeeds] at hOther
            cases hOther
          · have hOut := hSteps.turn.outside
              (Bool.eq_false_iff.mpr hNeeds)
              (Bool.eq_false_iff.mpr hMine)
            rw [hIn] at hOut
            cases hOut
      constructor
      · intro hOther
        exact absurd ((hBefore j).mp hOther) hNot
      · intro hMine
        exact absurd (Option.some.inj hMine).symm hSame
  · rw [if_neg hIn]
    by_cases hSame : j = i
    · subst hSame
      rw [Function.update_self]
      by_cases hMine : (s.calls j).any p.inLock = true
      · simp [hIn, hMine]
      · simpa [hIn, hMine] using hBefore j
    · rw [Function.update_of_ne hSame]
      by_cases hMine : (s.calls i).any p.inLock = true
      · rw [if_pos hMine]
        constructor
        · intro hOther
          exact absurd (hGuarded.unique hOther hMine) hSame
        · intro hNone
          cases hNone
      · rw [if_neg hMine]
        exact hBefore j

/-
  A guard that holds when a call gets into the lock or goes
  on in it, and that calls without the lock leave alone,
  holds while a call is in the lock.
-/
theorem Guarded.step
    (hInside : ∀ {s s' : S} {call call' : Option C},
      p.Turn s call s' call' →
        call'.any p.inLock = true →
          (call.any p.inLock = true → Guard s) →
            Guard s')
    (hOutside : ∀ {s s' : S} {call call' : Option C},
      p.Turn s call s' call' →
        call.any p.needsLock = false →
          call.any p.inLock = false →
            Guard s → Guard s')
    {s : Interleaving ι C S}
    (hGuarded : Guarded p Guard s)
    (move : Move ι A) :
    Guarded p Guard (s.step p move) := by
  rcases step_cases p s move with hStill | ⟨i, call, hSteps⟩
  · rw [hStill]
    exact hGuarded
  refine ⟨hGuarded.locked_steps hSteps, ?_⟩
  intro j hIn
  rw [hSteps.calls_eq] at hIn
  by_cases hSame : j = i
  · subst hSame
    rw [Function.update_self] at hIn
    exact hInside hSteps.turn hIn (hGuarded.guard j)
  · rw [Function.update_of_ne hSame] at hIn
    have hMutex := (hGuarded.locked j).mp hIn
    apply hOutside hSteps.turn _ _ (hGuarded.guard j hIn)
    · apply Bool.eq_false_iff.mpr
      intro hNeeds
      rw [hSteps.waited hNeeds] at hMutex
      cases hMutex
    · apply Bool.eq_false_iff.mpr
      intro hMine
      exact hSame (hGuarded.unique hIn hMine)

theorem guarded_run
    (hInside : ∀ {s s' : S} {call call' : Option C},
      p.Turn s call s' call' →
        call'.any p.inLock = true →
          (call.any p.inLock = true → Guard s) →
            Guard s')
    (hOutside : ∀ {s s' : S} {call call' : Option C},
      p.Turn s call s' call' →
        call.any p.needsLock = false →
          call.any p.inLock = false →
            Guard s → Guard s')
    {s : Interleaving ι C S}
    (hGuarded : Guarded p Guard s)
    (moves : List (Move ι A)) :
    Guarded p Guard (s.run p moves) := by
  induction moves generalizing s with
  | nil => exact hGuarded
  | cons move moves ih =>
      exact ih (hGuarded.step hInside hOutside move)

end Interleaving

------------------------------------------------------------
-- Permits
------------------------------------------------------------

namespace Permit

/-
  What a call can do with a permit: whether it is taken,
  whether the call holds it, and how many operations are
  outstanding, before and after.
-/
inductive Turn :
    Bool → Bool → Nat → Bool → Bool → Nat → Prop where
  | stay (taken holds : Bool) (outstanding : Nat) :
      Turn taken holds outstanding taken holds outstanding
  | take (outstanding : Nat) :
      Turn false false outstanding true true outstanding
  | start (taken : Bool) (outstanding : Nat) :
      Turn taken true outstanding taken false (outstanding + 1)
  | complete (taken : Bool) (outstanding : Nat) :
      Turn taken false (outstanding + 1) taken true outstanding
  | release (taken : Bool) (outstanding : Nat) :
      Turn taken true outstanding false false outstanding
  | drop (taken : Bool) (outstanding : Nat) :
      Turn taken true outstanding taken false outstanding

theorem Turn.of_same
    {taken holds taken' holds' : Bool}
    {outstanding outstanding' : Nat}
    (hTaken : taken' = taken)
    (hHolds : holds' = holds)
    (hOutstanding : outstanding' = outstanding) :
    Turn taken holds outstanding taken' holds'
      outstanding' := by
  rw [hTaken, hHolds, hOutstanding]
  exact .stay taken holds outstanding

/- Either one call holds the permit, or one operation is
   outstanding, or neither. -/
structure Sound
    {ι : Type}
    (taken : Bool)
    (holds : ι → Bool)
    (outstanding : Nat) : Prop where
  outstanding_le : outstanding ≤ 1
  sole : ∀ i j,
    holds i = true → holds j = true → i = j
  apart : ∀ i, holds i = true → outstanding = 0
  free : taken = false →
    outstanding = 0 ∧ ∀ i, holds i = false

namespace Sound

variable {ι : Type}

theorem start :
    Sound false (fun _ : ι => false) 0 where
  outstanding_le := Nat.zero_le 1
  sole i j hLeft hRight := by cases hLeft
  apart i hHolds := by cases hHolds
  free hFree := ⟨rfl, fun _ => rfl⟩

variable {taken : Bool} {holds : ι → Bool} {outstanding : Nat}

/- Whoever holds the permit leaves nobody else with it. -/
theorem others
    (hSound : Sound taken holds outstanding)
    {i : ι}
    (hHolds : holds i = true)
    {j : ι}
    (hOther : j ≠ i) :
    holds j = false := by
  apply Bool.eq_false_iff.mpr
  intro hAlso
  exact hOther (hSound.sole j i hAlso hHolds)

variable [DecidableEq ι]

/- The permit is with one call alone. -/
theorem of_holder
    {i : ι}
    (hOthers : ∀ j, j ≠ i → holds j = false) :
    Sound true (Function.update holds i true) 0 where
  outstanding_le := Nat.zero_le 1
  sole := by
    have hOnly : ∀ j,
        Function.update holds i true j = true → j = i := by
      intro j hHolds
      by_contra hSame
      rw [Function.update_of_ne hSame, hOthers j hSame]
        at hHolds
      cases hHolds
    intro j k hLeft hRight
    rw [hOnly j hLeft, hOnly k hRight]
  apart _ _ := rfl
  free hFree := by cases hFree

/- The permit is with no call. -/
theorem of_none
    {i : ι}
    (hOthers : ∀ j, j ≠ i → holds j = false)
    (hLe : outstanding ≤ 1)
    (hFree : taken = false → outstanding = 0) :
    Sound taken (Function.update holds i false) outstanding := by
  have hNone : ∀ j,
      Function.update holds i false j = false := by
    intro j
    by_cases hSame : j = i
    · subst hSame
      exact Function.update_self _ _ _
    · rw [Function.update_of_ne hSame]
      exact hOthers j hSame
  constructor
  · exact hLe
  · intro j k hLeft
    rw [hNone j] at hLeft
    cases hLeft
  · intro j hLeft
    rw [hNone j] at hLeft
    cases hLeft
  · intro hTaken
    exact ⟨hFree hTaken, hNone⟩

theorem turn
    (hSound : Sound taken holds outstanding)
    {i : ι}
    {taken' holds' : Bool}
    {outstanding' : Nat}
    (hTurn : Turn taken (holds i) outstanding
      taken' holds' outstanding') :
    Sound taken' (Function.update holds i holds')
      outstanding' := by
  generalize hMine : holds i = mine at hTurn
  cases hTurn with
  | stay =>
      rw [← hMine, Function.update_eq_self]
      exact hSound
  | take =>
      rcases hSound.free rfl with ⟨hNone, hHolds⟩
      rw [hNone]
      exact of_holder fun j _ => hHolds j
  | start =>
      have hNone := hSound.apart i hMine
      apply of_none (fun j hOther => hSound.others hMine hOther)
      · omega
      · intro hFree
        rw [(hSound.free hFree).2 i] at hMine
        cases hMine
  | complete =>
      have hLe := hSound.outstanding_le
      have hNone : outstanding' = 0 := by omega
      have hTaken : taken = true := by
        apply Bool.not_eq_false _ |>.mp
        intro hFree
        have hZero := (hSound.free hFree).1
        omega
      rw [hNone, hTaken]
      apply of_holder
      intro j _
      apply Bool.eq_false_iff.mpr
      intro hHolds
      have hZero := hSound.apart j hHolds
      omega
  | release =>
      have hNone := hSound.apart i hMine
      apply of_none (fun j hOther => hSound.others hMine hOther)
      · omega
      · exact fun _ => hNone
  | drop =>
      have hNone := hSound.apart i hMine
      apply of_none (fun j hOther => hSound.others hMine hOther)
      · omega
      · exact fun _ => hNone

end Sound

end Permit

namespace Interleaving

variable {ι A C S : Type} [DecidableEq ι]
variable {p : Program A C S}

/- A permit that every piece of every call respects is
   sound all along. -/
theorem permit_run
    {Guard : S → Prop}
    {taken : S → Bool}
    {holds : C → Bool}
    {outstanding : S → Nat}
    (hInside : ∀ {s s' : S} {call call' : Option C},
      p.Turn s call s' call' →
        call'.any p.inLock = true →
          (call.any p.inLock = true → Guard s) →
            Guard s')
    (hOutside : ∀ {s s' : S} {call call' : Option C},
      p.Turn s call s' call' →
        call.any p.needsLock = false →
          call.any p.inLock = false →
            Guard s → Guard s')
    (hPermit : ∀ {s s' : S} {call call' : Option C},
      p.Turn s call s' call' →
        (call.any p.inLock = true → Guard s) →
          Permit.Turn (taken s) (call.any holds)
            (outstanding s) (taken s') (call'.any holds)
            (outstanding s'))
    {s : Interleaving ι C S}
    (hGuarded : Guarded p Guard s)
    (hSound : Permit.Sound (taken s.shared)
      (fun i => (s.calls i).any holds) (outstanding s.shared))
    (moves : List (Move ι A)) :
    Permit.Sound (taken (s.run p moves).shared)
      (fun i => ((s.run p moves).calls i).any holds)
      (outstanding (s.run p moves).shared) := by
  induction moves generalizing s with
  | nil => exact hSound
  | cons move moves ih =>
      apply ih (hGuarded.step hInside hOutside move)
      rcases step_cases p s move with hStill | ⟨i, call, hSteps⟩
      · rw [hStill]
        exact hSound
      have hHolds :
          (fun j => ((s.step p move).calls j).any holds) =
            Function.update
              (fun j => (s.calls j).any holds) i
              (call.any holds) := by
        funext j
        rw [hSteps.calls_eq]
        by_cases hSame : j = i
        · subst hSame
          simp
        · simp [Function.update_of_ne hSame]
      rw [hHolds]
      exact hSound.turn
        (hPermit hSteps.turn (hGuarded.guard i))

------------------------------------------------------------
-- Calls That Are Alone
------------------------------------------------------------

/- With nobody else around, a call goes on to its end. -/
theorem exists_run_alone
    {s : Interleaving ι C S}
    {i : ι}
    {call : Option C}
    (hCall : s.calls i = call)
    (hMutex :
      s.mutex = if call.any p.inLock then some i else none)
    {shared : S}
    (hFinishes : p.Finishes s.shared call shared) :
    ∃ count,
      s.run p (List.replicate count (.resume i)) =
        { shared := shared
          mutex := none
          calls := Function.update s.calls i none } := by
  generalize hShared : s.shared = before at hFinishes
  induction hFinishes generalizing s with
  | done last =>
      refine ⟨0, ?_⟩
      rw [← hCall, Function.update_eq_self]
      simp only [Option.any_none, Bool.false_eq_true,
        if_false] at hMutex
      rcases s with ⟨shared, mutex, calls⟩
      cases hShared
      cases hMutex
      rfl
  | more hRest ih =>
      rename_i c before last
      have hRuns : ¬ (p.needsLock c && s.mutex.isSome) := by
        rw [hMutex]
        cases hIn : p.inLock c with
        | true => simp [p.inLock_waits c hIn]
        | false => simp [hIn]
      have hStep : s.step p (.resume i) =
          { shared := (p.next c before).1
            mutex :=
              if (p.next c before).2.any p.inLock then
                some i
              else
                none
            calls :=
              Function.update s.calls i
                (p.next c before).2 } := by
        have hResume : s.step p (.resume i) =
            s.resume p i := rfl
        rw [hResume, resume, hCall]
        simp only [if_neg hRuns, hShared]
        rw [hMutex]
        cases hIn : p.inLock c with
        | true => simp
        | false => simp [hIn]
      rcases ih (s := s.step p (.resume i))
          (by rw [hStep]; simp)
          (by rw [hStep])
          (by rw [hStep]) with
        ⟨count, hRun⟩
      refine ⟨count + 1, ?_⟩
      rw [List.replicate_succ]
      change (s.step p (.resume i)).run p _ = _
      rw [hRun, hStep]
      simp

end Interleaving
