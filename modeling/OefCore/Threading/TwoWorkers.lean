import OefCore.Threading.Conservation

/-
  Whether two workers of a pool can run one task at a time.

  Main declarations:
    * `PoolRun.NeverTwice`, `PoolRun.PickedUpLate`
    * `PoolRun.neverTwice_iff`
-/

namespace OefCore

namespace PoolRun

variable {T : Type}
variable [DecidableEq T]

------------------------------------------------------------
-- Taking Tasks
------------------------------------------------------------

/- The task that a worker takes with an event, and runs. -/
def popped (r : PoolRun T) : PoolEvent T → Option T
  | .popFuture worker now =>
      match r.pool.runningTasks worker with
      | none => (r.pool.locklessGetNextFutureWork now).1
      | some _ => none
  | .popPending worker =>
      match r.pool.runningTasks worker with
      | none => r.pool.popPending.1
      | some _ => none
  | _ => none

variable {r : PoolRun T}
variable {event : PoolEvent T}

/- What an event does to the tasks that run. -/
theorem runningTasks_step
    (r : PoolRun T)
    (event : PoolEvent T) :
    (∃ worker task,
        r.popped event = some task ∧
          r.pool.runningTasks worker = none ∧
          0 < r.pool.copies task ∧
          (r.step event).pool.runningTasks =
            Function.update r.pool.runningTasks worker
              (some task)) ∨
      r.popped event = none ∧
        ∀ worker task,
          (r.step event).pool.runningTasks worker =
              some task →
            r.pool.runningTasks worker = some task := by
  have hTakes : ∀ {worker task pool},
      Taskpool.Taken r.pool pool task →
        0 < r.pool.copies task ∧
          (r.runPopped worker
            (some task, pool)).pool.runningTasks =
              Function.update r.pool.runningTasks worker
                (some task) := by
    intro worker task pool hTaken
    have hCopies := hTaken.copies_task
    refine ⟨by omega, ?_⟩
    simp only [runPopped, Taskpool.markRunning,
      hTaken.runningTasks_eq]
  cases event with
  | popFuture worker now =>
      cases hWorker : r.pool.runningTasks worker with
      | some other =>
          right
          simp only [popped, step, hWorker]
          exact ⟨trivial, fun _ _ hSome => hSome⟩
      | none =>
          simp only [popped, step, hWorker]
          rcases r.pool.futureWork_cases now with
            ⟨task, pool, hPop, hTaken, _⟩ |
              ⟨dropped, futureTasks, hPop, _⟩
          · left
            rw [hPop]
            exact ⟨worker, task, rfl, hWorker, hTakes hTaken⟩
          · right
            rw [hPop]
            exact ⟨rfl, fun _ _ hSome => hSome⟩
  | popPending worker =>
      cases hWorker : r.pool.runningTasks worker with
      | some other =>
          right
          simp only [popped, step, hWorker]
          exact ⟨trivial, fun _ _ hSome => hSome⟩
      | none =>
          simp only [popped, step, hWorker]
          cases hPop : r.pool.popPending with
          | mk taken pool =>
              cases taken with
              | none =>
                  right
                  rw [Taskpool.popPending_none hPop]
                  exact ⟨rfl, fun _ _ hSome => hSome⟩
              | some task =>
                  left
                  have hTaken := Taskpool.taken_popPending hPop
                  exact ⟨worker, task, rfl, hWorker,
                    hTakes hTaken⟩
  | submit submitted isRunnable =>
      right
      simp [popped, step]
  | submitAfter submitted now delay =>
      right
      simp [popped, step]
  | result worker status =>
      right
      refine ⟨rfl, ?_⟩
      intro thread task hSome
      simp only [step] at hSome
      split at hSome
      · exact hSome
      · rename_i done hDone
        have hErased :
            (r.pool.eraseRunning worker).runningTasks thread =
              some task := by
          cases status <;> exact hSome
        exact (Taskpool.Single.held_of_update_none hErased).2
  | makeRunnable woken =>
      right
      simp [popped, step]
  | cancel cancelled =>
      right
      simp [popped, step]
  | cancelTaskGroup groupId =>
      right
      exact ⟨rfl, fun _ _ hSome => hSome⟩

------------------------------------------------------------
-- Never Twice
------------------------------------------------------------

/- No task is in `running_tasks` under two thread numbers. -/
def NeverTwice (r : PoolRun T) : Prop :=
  ∀ task worker other,
    r.pool.runningTasks worker = some task →
      r.pool.runningTasks other = some task →
        worker = other

/- A task that was ever submitted while it was running is
   taken only when no worker runs it. -/
def PickedUpLate
    (r : PoolRun T)
    (front : List (PoolEvent T))
    (event : PoolEvent T) : Prop :=
  ∀ task,
    (r.run front).popped event = some task →
      ¬ r.NeverResubmitted front task →
        ∀ worker,
          (r.run front).pool.runningTasks worker ≠ some task

theorem NeverTwice.step
    (hNever : r.NeverTwice)
    (hFree : ∀ task, r.popped event = some task →
      ∀ worker, r.pool.runningTasks worker ≠ some task) :
    (r.step event).NeverTwice := by
  rcases r.runningTasks_step event with
    ⟨worker, task, hPopped, _, _, hRunning⟩ | ⟨_, hRunning⟩
  · have hNot := hFree task hPopped
    have hHere : ∀ {thread},
        Function.update r.pool.runningTasks worker (some task)
          thread = some task → thread = worker := by
      intro thread hSome
      by_cases hThread : thread = worker
      · exact hThread
      · rw [Function.update_of_ne hThread] at hSome
        exact absurd hSome (hNot thread)
    intro other first second hFirst hSecond
    rw [hRunning] at hFirst hSecond
    by_cases hOther : other = task
    · subst hOther
      rw [hHere hFirst, hHere hSecond]
    · have hBefore : ∀ {thread},
          Function.update r.pool.runningTasks worker
            (some task) thread = some other →
              r.pool.runningTasks thread = some other := by
        intro thread hSome
        by_cases hThread : thread = worker
        · rw [hThread, Function.update_self] at hSome
          cases hSome
          exact absurd rfl hOther
        · rwa [Function.update_of_ne hThread] at hSome
      exact hNever other first second (hBefore hFirst)
        (hBefore hSecond)
  · intro task first second hFirst hSecond
    exact hNever task first second (hRunning first task hFirst)
      (hRunning second task hSecond)

/-
  No task is run by two workers along a run exactly if each
  task that was submitted while it was running is taken up
  after that.
-/
theorem neverTwice_iff
    (groupId : T → Nat)
    (events : List (PoolEvent T)) :
    (∀ front, front <+: events →
      ((start groupId).run front).NeverTwice) ↔
      ∀ front event back,
        events = front ++ event :: back →
          (start groupId).PickedUpLate front event := by
  apply Runs.forall_prefix_iff
    fun front => ((start groupId).run front).NeverTwice
  · intro task worker other hNone
    cases hNone
  · exact fun _ hNever => hNever
  · intro front event _ _ hNever hLate
    rw [run_snoc]
    apply hNever.step
    intro task hPopped
    by_cases hResubmitted :
        (start groupId).NeverResubmitted front task
    · have hSingle := singleAt_run hResubmitted
      rcases runningTasks_step _ event with
        ⟨_, taken, hTaken, _, hCopies, _⟩ | ⟨hNone, _⟩
      · rw [hPopped, Option.some.injEq] at hTaken
        rw [← hTaken] at hCopies
        exact hSingle.not_held_of_copies hCopies
      · rw [hPopped] at hNone
        cases hNone
    · exact hLate task hPopped hResubmitted
  · intro front event _ _ _ hNever task hPopped _ worker hSome
    rw [run_snoc] at hNever
    rcases runningTasks_step _ event with
      ⟨thread, taken, hTaken, hIdle, _, hRunning⟩ | ⟨hNone, _⟩
    · rw [hPopped, Option.some.injEq] at hTaken
      subst hTaken
      have hNe : worker ≠ thread := by
        intro hEq
        rw [hEq, hIdle] at hSome
        cases hSome
      apply hNe
      apply hNever task
      · rw [hRunning, Function.update_of_ne hNe]
        exact hSome
      · rw [hRunning, Function.update_self]
    · rw [hPopped] at hNone
      cases hNone

/- A task submits itself with a delay, as the heartbeat does,
   and its run lasts longer than that. -/
def resubmitted : List (PoolEvent Unit) :=
  [.submit () true, .popPending 0, .submitAfter () 0 1000,
    .popFuture 1 1000]

theorem not_neverTwice_of_resubmitted :
    ¬ ∀ front, front <+: resubmitted →
      ((start fun _ : Unit => 0).run front).NeverTwice := by
  intro hAll
  have hNever := hAll resubmitted (List.prefix_refl _)
  have hEq := hNever () 0 1 rfl rfl
  cases hEq

end PoolRun

end OefCore
