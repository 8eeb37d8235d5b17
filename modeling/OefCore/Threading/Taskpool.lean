import Mathlib.Data.List.Count
import Mathlib.Logic.Function.Basic
import Mathlib.Tactic.Common

/-
  The task pool: what it keeps of its tasks, and the sections
  of its functions that run without interruption.

  The pool is the default one, and the only one.

  Main declarations:
    * `ExitState`, `PoolTask`, `FutureTask`, `Taskpool`
    * `Taskpool.popPending`,
      `Taskpool.locklessGetNextFutureWork`
    * `Taskpool.suspend`, `Taskpool.makeRunnable`,
      `Taskpool.cancelTaskGroup`
    * `Taskpool.submit`, `Taskpool.submitAfter`,
      `Taskpool.wakeTask`, `Taskpool.cancel` of a task
    * `Taskpool.copies`, `Taskpool.Single`
-/

namespace OefCore

------------------------------------------------------------
-- Tasks and the Pool
------------------------------------------------------------

inductive ExitState where
  | complete
  | defer
  | cancelled
  | errored
  deriving DecidableEq, Repr

/- What the pool reads and writes of a task; `pool` says
   whether its pointer to the pool is set. -/
structure PoolTask where
  pool : Bool
  cancelled : Bool
  groupId : Nat
  deriving DecidableEq, Repr

structure FutureTask (T : Type) where
  task : T
  due : Nat
  deriving DecidableEq, Repr

/- `FutureTaskOrdering`: the second comes out first. -/
def futureTaskOrdering {T : Type} (a b : FutureTask T) : Bool :=
  if a.due < b.due then
    false
  else
    true

/- `running_tasks` is by thread number; `future_tasks` are in
   the order in which they come out. -/
structure Taskpool (T : Type) where
  pendingTasks : List T
  runningTasks : Nat → Option T
  suspendedTasks : T → Bool
  futureTasks : List (FutureTask T)
  tasks : T → PoolTask

namespace Taskpool

variable {T : Type}

/- A pool without tasks, and tasks without a pool. -/
def construct (groupId : T → Nat) : Taskpool T where
  pendingTasks := []
  runningTasks := fun _ => none
  suspendedTasks := fun _ => false
  futureTasks := []
  tasks := fun task =>
    { pool := false
      cancelled := false
      groupId := groupId task }

/- The push of the priority queue. -/
def pushFuture
    (futureTask : FutureTask T) :
    List (FutureTask T) → List (FutureTask T)
  | [] => [futureTask]
  | first :: rest =>
      if futureTaskOrdering first futureTask then
        futureTask :: first :: rest
      else
        first :: pushFuture futureTask rest

/- The loop of `lockless_getNextFutureWork`. -/
def nextFuture
    (cancelled : T → Bool)
    (now : Nat) :
    List (FutureTask T) → Option T × List (FutureTask T)
  | [] => (none, [])
  | top :: rest =>
      if top.due ≤ now then
        if cancelled top.task then
          nextFuture cancelled now rest
        else
          (some top.task, rest)
      else
        (none, top :: rest)

variable [DecidableEq T]

def setPool
    (self : Taskpool T)
    (task : T)
    (pool : Bool) : Taskpool T :=
  { self with
    tasks :=
      Function.update self.tasks task
        { self.tasks task with pool := pool } }

/- The section of `run` that takes a pending task. -/
def popPending
    (self : Taskpool T) : Option T × Taskpool T :=
  match self.pendingTasks with
  | [] => (none, self)
  | task :: pendingTasks =>
      (some task,
        { self with pendingTasks := pendingTasks }.setPool task
          false)

/- Due tasks that were cancelled are dropped; their pool
   pointer stays. -/
def locklessGetNextFutureWork
    (self : Taskpool T)
    (now : Nat) : Option T × Taskpool T :=
  match nextFuture (fun task => (self.tasks task).cancelled)
      now self.futureTasks with
  | (none, futureTasks) =>
      (none, { self with futureTasks := futureTasks })
  | (some task, futureTasks) =>
      (some task,
        { self with futureTasks := futureTasks }.setPool task
          false)

/- The section of `run` before a task is run. -/
def markRunning
    (self : Taskpool T)
    (threadIdx : Nat)
    (task : T) : Taskpool T :=
  { self with
    runningTasks :=
      Function.update self.runningTasks threadIdx (some task) }

/- The section of `run` after a task was run. -/
def eraseRunning
    (self : Taskpool T)
    (threadIdx : Nat) : Taskpool T :=
  { self with
    runningTasks :=
      Function.update self.runningTasks threadIdx none }

def suspend
    (self : Taskpool T)
    (task : T) : Taskpool T :=
  { self.setPool task true with
    suspendedTasks :=
      Function.update self.suspendedTasks task true }

/- `Taskpool::makeRunnable`: a task that is not suspended is
   left where it is. -/
def makeRunnable
    (self : Taskpool T)
    (task : T) : Taskpool T :=
  if self.suspendedTasks task then
    { self with
      suspendedTasks :=
        Function.update self.suspendedTasks task false
      pendingTasks := task :: self.pendingTasks }
  else
    self

/- `Taskpool::remove`; tasks to come are left. -/
def remove
    (self : Taskpool T)
    (task : T) : Taskpool T :=
  { self with
    pendingTasks := self.pendingTasks.filter (· ≠ task)
    suspendedTasks :=
      Function.update self.suspendedTasks task false }

def after
    (self : Taskpool T)
    (task : T)
    (now delay : Nat) : Taskpool T :=
  { self with
    futureTasks :=
      pushFuture { task := task, due := now + delay }
        self.futureTasks }

/- The tasks that `cancelTaskGroup` collects. -/
def ofGroup
    (self : Taskpool T)
    (groupId : Nat)
    (task : T) : Bool :=
  (self.tasks task).groupId == groupId &&
    (self.pendingTasks.contains task ||
      self.suspendedTasks task)

/- The collected tasks are cancelled one by one; the `remove`
   of each finds nothing that is left. -/
def cancelTaskGroup
    (self : Taskpool T)
    (groupId : Nat) : Taskpool T :=
  { self with
    pendingTasks :=
      self.pendingTasks.filter fun task =>
        (self.tasks task).groupId ≠ groupId
    suspendedTasks := fun task =>
      self.suspendedTasks task &&
        (self.tasks task).groupId != groupId
    tasks := fun task =>
      if self.ofGroup groupId task then
        { self.tasks task with cancelled := true }
      else
        self.tasks task }

------------------------------------------------------------
-- Functions of a Task
------------------------------------------------------------

/- `Task::makeRunnable`: without a pool, nothing happens. -/
def wakeTask
    (self : Taskpool T)
    (task : T) : Taskpool T :=
  if (self.tasks task).pool then
    self.makeRunnable task
  else
    self

def setCancelled
    (self : Taskpool T)
    (task : T) : Taskpool T :=
  { self with
    tasks :=
      Function.update self.tasks task
        { self.tasks task with cancelled := true } }

/- `Task::cancel`. -/
def cancel
    (self : Taskpool T)
    (task : T) : Taskpool T :=
  if (self.tasks task).pool then
    (self.setCancelled task).remove task
  else
    self.setCancelled task

/- `Task::submit` of a task whose `isRunnable` gives the
   answer. -/
def submit
    (self : Taskpool T)
    (task : T)
    (isRunnable : Bool) : Taskpool T :=
  if (self.tasks task).pool then
    self
  else if isRunnable then
    { self.setPool task true with
      pendingTasks := self.pendingTasks ++ [task] }
  else
    (self.setPool task true).suspend task

/- `Task::submit` with a delay. -/
def submitAfter
    (self : Taskpool T)
    (task : T)
    (now delay : Nat) : Taskpool T :=
  if (self.tasks task).pool then
    self
  else
    (self.setPool task true).after task now delay

------------------------------------------------------------
-- Setting the Pool Pointer
------------------------------------------------------------

@[simp]
theorem pendingTasks_setPool
    (self : Taskpool T)
    (task : T)
    (pool : Bool) :
    (self.setPool task pool).pendingTasks =
      self.pendingTasks :=
  rfl

@[simp]
theorem suspendedTasks_setPool
    (self : Taskpool T)
    (task : T)
    (pool : Bool) :
    (self.setPool task pool).suspendedTasks =
      self.suspendedTasks :=
  rfl

@[simp]
theorem futureTasks_setPool
    (self : Taskpool T)
    (task : T)
    (pool : Bool) :
    (self.setPool task pool).futureTasks = self.futureTasks :=
  rfl

@[simp]
theorem tasks_setPool_self
    (self : Taskpool T)
    (task : T)
    (pool : Bool) :
    (self.setPool task pool).tasks task =
      { self.tasks task with pool := pool } := by
  simp [setPool]

theorem tasks_setPool_of_ne
    (self : Taskpool T)
    {task other : T}
    (hNe : other ≠ task)
    (pool : Bool) :
    (self.setPool task pool).tasks other =
      self.tasks other := by
  simp [setPool, hNe]

------------------------------------------------------------
-- Copies of a Task
------------------------------------------------------------

def futureCopies
    (futureTasks : List (FutureTask T))
    (task : T) : Nat :=
  (futureTasks.map FutureTask.task).count task

/- How often a task is in the pool, not counting workers. -/
def copies
    (self : Taskpool T)
    (task : T) : Nat :=
  self.pendingTasks.count task +
    (self.suspendedTasks task).toNat +
      futureCopies self.futureTasks task

@[simp]
theorem copies_setPool
    (self : Taskpool T)
    (task other : T)
    (pool : Bool) :
    (self.setPool task pool).copies other =
      self.copies other :=
  rfl

theorem copies_pos_of_pending
    {self : Taskpool T}
    {task : T}
    (hMem : task ∈ self.pendingTasks) :
    0 < self.copies task := by
  have hCount := List.count_pos_iff.mpr hMem
  unfold copies
  omega

theorem copies_pos_of_suspended
    {self : Taskpool T}
    {task : T}
    (hSuspended : self.suspendedTasks task = true) :
    0 < self.copies task := by
  unfold copies
  rw [hSuspended, Bool.toNat_true]
  omega

theorem copies_pos_iff
    (self : Taskpool T)
    (task : T) :
    0 < self.copies task ↔
      task ∈ self.pendingTasks ∨
        self.suspendedTasks task = true ∨
          ∃ futureTask ∈ self.futureTasks,
            futureTask.task = task := by
  have hFuture :
      0 < futureCopies self.futureTasks task ↔
        ∃ futureTask ∈ self.futureTasks,
          futureTask.task = task := by
    unfold futureCopies
    rw [List.count_pos_iff, List.mem_map]
  have hPending :
      0 < self.pendingTasks.count task ↔
        task ∈ self.pendingTasks :=
    List.count_pos_iff
  rw [← hFuture, ← hPending]
  unfold copies
  cases self.suspendedTasks task with
  | false =>
      simp only [Bool.toNat_false, Bool.false_eq_true,
        false_or]
      omega
  | true =>
      simp only [Bool.toNat_true, true_or, or_true, iff_true]
      omega

theorem futureCopies_pushFuture
    (futureTask : FutureTask T)
    (futureTasks : List (FutureTask T))
    (task : T) :
    futureCopies (pushFuture futureTask futureTasks) task =
      futureCopies futureTasks task +
        if futureTask.task = task then 1 else 0 := by
  induction futureTasks with
  | nil =>
      simp [pushFuture, futureCopies, List.count_singleton]
  | cons first rest ih =>
      unfold futureCopies at ih ⊢
      unfold pushFuture
      split
      · simp [List.count_cons]
      · simp only [List.map_cons, List.count_cons] at ih ⊢
        omega

/- What the loop takes out: due tasks that were cancelled,
   and then the task that it returns. -/
omit [DecidableEq T] in
theorem nextFuture_cases
    (cancelled : T → Bool)
    (now : Nat)
    (futureTasks : List (FutureTask T)) :
    ∃ dropped,
      (∀ futureTask ∈ dropped,
        cancelled futureTask.task = true) ∧
      ((∃ rest,
          nextFuture cancelled now futureTasks = (none, rest) ∧
          futureTasks = dropped ++ rest ∧
          ∀ first ∈ rest.head?, now < first.due) ∨
        ∃ top rest,
          nextFuture cancelled now futureTasks =
            (some top.task, rest) ∧
          futureTasks = dropped ++ top :: rest ∧
          top.due ≤ now ∧
          cancelled top.task = false) := by
  induction futureTasks with
  | nil =>
      exact ⟨[], by simp, Or.inl ⟨[], rfl, rfl, by simp⟩⟩
  | cons top rest ih =>
      unfold nextFuture
      by_cases hDue : top.due ≤ now
      · rw [if_pos hDue]
        cases hCancelled : cancelled top.task with
        | false =>
            refine ⟨[], by simp, Or.inr ⟨top, rest, ?_⟩⟩
            simp [hDue, hCancelled]
        | true =>
            rcases ih with ⟨dropped, hDropped, hRest⟩
            refine ⟨top :: dropped, ?_, ?_⟩
            · intro futureTask hMem
              rcases List.mem_cons.mp hMem with hTop | hMore
              · rw [hTop]
                exact hCancelled
              · exact hDropped futureTask hMore
            · rw [if_pos rfl]
              rcases hRest with
                ⟨others, hNext, hSplit, hThen⟩ |
                  ⟨next, others, hNext, hSplit, hThen⟩
              · left
                exact ⟨others, hNext, by rw [hSplit]; rfl,
                  hThen⟩
              · right
                exact ⟨next, others, hNext,
                  by rw [hSplit]; rfl, hThen⟩
      · rw [if_neg hDue]
        refine ⟨[], by simp, Or.inl ⟨top :: rest, rfl, rfl, ?_⟩⟩
        intro first hFirst
        cases hFirst
        exact Nat.lt_of_not_le hDue

theorem futureCopies_append
    (front back : List (FutureTask T))
    (task : T) :
    futureCopies (front ++ back) task =
      futureCopies front task + futureCopies back task := by
  simp [futureCopies]

theorem futureCopies_eq_zero
    {futureTasks : List (FutureTask T)}
    {tasks : T → PoolTask}
    (hCancelled : ∀ futureTask ∈ futureTasks,
      (tasks futureTask.task).cancelled = true)
    {task : T}
    (hNot : (tasks task).cancelled = false) :
    futureCopies futureTasks task = 0 := by
  unfold futureCopies
  rw [List.count_eq_zero, List.mem_map]
  rintro ⟨futureTask, hMem, hTask⟩
  have hTrue := hCancelled futureTask hMem
  rw [hTask, hNot] at hTrue
  cases hTrue

------------------------------------------------------------
-- Taking Tasks Out
------------------------------------------------------------

/- What taking a task out of the pool does. -/
structure Taken
    (pool next : Taskpool T)
    (task : T) : Prop where
  copies_task : next.copies task + 1 = pool.copies task
  copies_other :
    ∀ other, other ≠ task →
      next.copies other ≤ pool.copies other
  copies_kept :
    ∀ other, other ≠ task →
      (pool.tasks other).cancelled = false →
        next.copies other = pool.copies other
  tasks_task :
    next.tasks task = { pool.tasks task with pool := false }
  tasks_other :
    ∀ other, other ≠ task →
      next.tasks other = pool.tasks other
  runningTasks_eq : next.runningTasks = pool.runningTasks
  suspendedTasks_eq : next.suspendedTasks = pool.suspendedTasks

theorem popPending_eq
    {self : Taskpool T}
    {task : T}
    {pendingTasks : List T}
    (hPending : self.pendingTasks = task :: pendingTasks) :
    self.popPending =
      (some task,
        { self with pendingTasks := pendingTasks }.setPool task
          false) := by
  unfold popPending
  rw [hPending]

theorem popPending_none
    {self next : Taskpool T}
    (hPop : self.popPending = (none, next)) :
    next = self := by
  unfold popPending at hPop
  split at hPop
  · cases hPop
    rfl
  · cases hPop

theorem taken_popPending
    {self next : Taskpool T}
    {task : T}
    (hPop : self.popPending = (some task, next)) :
    Taken self next task := by
  cases hPending : self.pendingTasks with
  | nil =>
      unfold popPending at hPop
      rw [hPending] at hPop
      cases hPop
  | cons first rest =>
      rw [popPending_eq hPending] at hPop
      cases hPop
      have hCopies : ∀ other,
          ({ self with pendingTasks := rest }.setPool task
              false).copies other +
            (if task = other then 1 else 0) =
              self.copies other := by
        intro other
        have hSame :
            ({ self with pendingTasks := rest }.setPool task
              false).copies other =
              rest.count other +
                (self.suspendedTasks other).toNat +
                  futureCopies self.futureTasks other :=
          rfl
        rw [hSame]
        unfold copies
        rw [hPending, List.count_cons]
        simp only [beq_iff_eq]
        omega
      have hOther : ∀ other, other ≠ task →
          ({ self with pendingTasks := rest }.setPool task
            false).copies other = self.copies other := by
        intro other hNe
        have hAll := hCopies other
        rw [if_neg (Ne.symm hNe)] at hAll
        exact hAll
      exact
        { copies_task := by
            have hAll := hCopies task
            rw [if_pos rfl] at hAll
            exact hAll
          copies_other := fun other hNe =>
            Nat.le_of_eq (hOther other hNe)
          copies_kept := fun other hNe _ => hOther other hNe
          tasks_task := tasks_setPool_self _ _ _
          tasks_other := fun other hNe =>
            tasks_setPool_of_ne _ hNe _
          runningTasks_eq := rfl
          suspendedTasks_eq := rfl }

/- What is left of each task when one that was put off is
   taken out, and those before it are dropped. -/
theorem copies_setPool_of_split
    {self : Taskpool T}
    {dropped rest : List (FutureTask T)}
    {top : FutureTask T}
    (hSplit : self.futureTasks = dropped ++ top :: rest)
    (other : T) :
    ({ self with futureTasks := rest }.setPool top.task
        false).copies other +
      (if top.task = other then 1 else 0) +
        futureCopies dropped other =
          self.copies other := by
  have hSame :
      ({ self with futureTasks := rest }.setPool top.task
          false).copies other =
        self.pendingTasks.count other +
          (self.suspendedTasks other).toNat +
            futureCopies rest other :=
    rfl
  have hTop :
      futureCopies (top :: rest) other =
        futureCopies rest other +
          if top.task = other then 1 else 0 := by
    simp [futureCopies, List.count_cons]
  rw [hSame]
  unfold copies
  rw [hSplit, futureCopies_append, hTop]
  omega

theorem taken_setPool_of_split
    {self : Taskpool T}
    {dropped rest : List (FutureTask T)}
    {top : FutureTask T}
    (hSplit : self.futureTasks = dropped ++ top :: rest)
    (hDropped : ∀ futureTask ∈ dropped,
      (self.tasks futureTask.task).cancelled = true)
    (hNot : (self.tasks top.task).cancelled = false) :
    Taken self
      ({ self with futureTasks := rest }.setPool top.task false)
      top.task where
  copies_task := by
    have hAll := copies_setPool_of_split hSplit top.task
    have hNone := futureCopies_eq_zero hDropped hNot
    rw [if_pos rfl, hNone] at hAll
    exact hAll
  copies_other := by
    intro other hNe
    have hAll := copies_setPool_of_split hSplit other
    rw [if_neg (Ne.symm hNe)] at hAll
    omega
  copies_kept := by
    intro other hNe hUncancelled
    have hAll := copies_setPool_of_split hSplit other
    have hNone := futureCopies_eq_zero hDropped hUncancelled
    rw [if_neg (Ne.symm hNe), hNone] at hAll
    exact hAll
  tasks_task := tasks_setPool_self _ _ _
  tasks_other := fun _ hNe => tasks_setPool_of_ne _ hNe _
  runningTasks_eq := rfl
  suspendedTasks_eq := rfl

/- What looking for future work does: a task is taken out, or
   no task is, and cancelled ones may be dropped. -/
theorem futureWork_cases
    (self : Taskpool T)
    (now : Nat) :
    (∃ task next,
        self.locklessGetNextFutureWork now =
          (some task, next) ∧
        Taken self next task ∧
        (self.tasks task).cancelled = false ∧
        ∃ dropped top,
          self.futureTasks =
            dropped ++ top :: next.futureTasks ∧
          (∀ futureTask ∈ dropped,
            (self.tasks futureTask.task).cancelled = true) ∧
          top.task = task ∧ top.due ≤ now) ∨
      ∃ dropped futureTasks,
        self.locklessGetNextFutureWork now =
          (none, { self with futureTasks := futureTasks }) ∧
        self.futureTasks = dropped ++ futureTasks ∧
        (∀ futureTask ∈ dropped,
          (self.tasks futureTask.task).cancelled = true) ∧
        ∀ first ∈ futureTasks.head?, now < first.due := by
  rcases nextFuture_cases
      (fun task => (self.tasks task).cancelled) now
      self.futureTasks with
    ⟨dropped, hDropped, hNone | hSome⟩
  · rcases hNone with ⟨futureTasks, hNext, hSplit, hLater⟩
    refine Or.inr
      ⟨dropped, futureTasks, ?_, hSplit, hDropped, hLater⟩
    unfold locklessGetNextFutureWork
    rw [hNext]
  · rcases hSome with ⟨top, rest, hNext, hSplit, hDue, hNot⟩
    refine Or.inl
      ⟨top.task,
        { self with futureTasks := rest }.setPool top.task
          false, ?_,
        taken_setPool_of_split hSplit hDropped hNot, hNot,
        dropped, top, hSplit, hDropped, rfl, hDue⟩
    unfold locklessGetNextFutureWork
    rw [hNext]

theorem copies_dropped
    {self : Taskpool T}
    {dropped futureTasks : List (FutureTask T)}
    (hSplit : self.futureTasks = dropped ++ futureTasks)
    (task : T) :
    { self with futureTasks := futureTasks }.copies task +
        futureCopies dropped task =
      self.copies task := by
  simp only [copies, hSplit, futureCopies_append]
  omega

------------------------------------------------------------
-- Copies After the Other Operations
------------------------------------------------------------

theorem tasks_suspend
    (self : Taskpool T)
    (task : T) :
    (self.suspend task).tasks =
      (self.setPool task true).tasks :=
  rfl

theorem copies_suspend_self
    (self : Taskpool T)
    (task : T) :
    (self.suspend task).copies task ≤ self.copies task + 1 ∧
      0 < (self.suspend task).copies task := by
  have hCopies :
      (self.suspend task).copies task =
        self.pendingTasks.count task + 1 +
          futureCopies self.futureTasks task := by
    simp [copies, suspend]
  rw [hCopies]
  unfold copies
  omega

theorem copies_suspend_of_ne
    (self : Taskpool T)
    {task other : T}
    (hNe : other ≠ task) :
    (self.suspend task).copies other = self.copies other := by
  simp [copies, suspend, hNe]

@[simp]
theorem tasks_makeRunnable
    (self : Taskpool T)
    (task : T) :
    (self.makeRunnable task).tasks = self.tasks := by
  unfold makeRunnable
  split <;> rfl

/- Waking moves a task. -/
@[simp]
theorem copies_makeRunnable
    (self : Taskpool T)
    (task other : T) :
    (self.makeRunnable task).copies other =
      self.copies other := by
  unfold makeRunnable
  cases hSuspended : self.suspendedTasks task with
  | false => rfl
  | true =>
      rw [if_pos rfl]
      unfold copies
      by_cases hOther : other = task
      · rw [hOther, hSuspended]
        simp
      · simp [hOther, Ne.symm hOther]

@[simp]
theorem tasks_wakeTask
    (self : Taskpool T)
    (task : T) :
    (self.wakeTask task).tasks = self.tasks := by
  unfold wakeTask
  split
  · exact tasks_makeRunnable self task
  · rfl

@[simp]
theorem copies_wakeTask
    (self : Taskpool T)
    (task other : T) :
    (self.wakeTask task).copies other =
      self.copies other := by
  unfold wakeTask
  split
  · exact copies_makeRunnable self task other
  · rfl

@[simp]
theorem runningTasks_wakeTask
    (self : Taskpool T)
    (task : T) :
    (self.wakeTask task).runningTasks =
      self.runningTasks := by
  unfold wakeTask makeRunnable
  split
  · split <;> rfl
  · rfl

/- Waking does not suspend. -/
theorem suspendedTasks_wakeTask
    {self : Taskpool T}
    {task other : T}
    (hSuspended :
      (self.wakeTask task).suspendedTasks other = true) :
    self.suspendedTasks other = true := by
  unfold wakeTask makeRunnable at hSuspended
  split at hSuspended
  · split at hSuspended
    · by_cases hOther : other = task
      · simp [hOther] at hSuspended
      · simpa [hOther] using hSuspended
    · exact hSuspended
  · exact hSuspended

/- A suspended task stays so, unless it is pending then. -/
theorem suspended_or_pending_wakeTask
    {self : Taskpool T}
    {task other : T}
    (hSuspended : self.suspendedTasks other = true)
    (hNot : other = task →
      task ∉ (self.wakeTask task).pendingTasks) :
    (self.wakeTask task).suspendedTasks other = true := by
  unfold wakeTask makeRunnable at hNot ⊢
  split
  · rename_i hPool
    split
    · rename_i hTask
      have hNe : other ≠ task := by
        intro hEq
        apply hNot hEq
        rw [if_pos hPool, if_pos hTask]
        exact List.mem_cons_self
      simpa [hNe] using hSuspended
    · exact hSuspended
  · exact hSuspended

/- A suspended task that is woken is pending. -/
theorem wakeTask_of_suspended
    {self : Taskpool T}
    {task : T}
    (hPool : (self.tasks task).pool = true)
    (hSuspended : self.suspendedTasks task = true) :
    task ∈ (self.wakeTask task).pendingTasks ∧
      (self.wakeTask task).suspendedTasks task = false := by
  unfold wakeTask makeRunnable
  rw [if_pos hPool, if_pos hSuspended]
  simp

@[simp]
theorem runningTasks_cancel
    (self : Taskpool T)
    (task : T) :
    (self.cancel task).runningTasks = self.runningTasks := by
  unfold cancel
  split <;> rfl

theorem tasks_cancel_self
    (self : Taskpool T)
    (task : T) :
    (self.cancel task).tasks task =
      { self.tasks task with cancelled := true } := by
  unfold cancel
  split <;> simp [remove, setCancelled]

theorem tasks_cancel_of_ne
    (self : Taskpool T)
    {task other : T}
    (hNe : other ≠ task) :
    (self.cancel task).tasks other = self.tasks other := by
  unfold cancel
  split <;> simp [remove, setCancelled, hNe]

/- Cancelling does not suspend. -/
theorem suspendedTasks_cancel
    {self : Taskpool T}
    {task other : T}
    (hSuspended :
      (self.cancel task).suspendedTasks other = true) :
    self.suspendedTasks other = true := by
  unfold cancel at hSuspended
  split at hSuspended
  · by_cases hOther : other = task
    · simp [remove, hOther] at hSuspended
    · simpa [remove, setCancelled, hOther] using hSuspended
  · exact hSuspended

theorem copies_cancel_le
    (self : Taskpool T)
    (task other : T) :
    (self.cancel task).copies other ≤ self.copies other := by
  unfold cancel
  split
  · have hCount :
        (self.pendingTasks.filter (· ≠ task)).count other ≤
          self.pendingTasks.count other :=
      List.Sublist.count_le other List.filter_sublist
    have hSuspended :
        (Function.update self.suspendedTasks task false
            other).toNat ≤
          (self.suspendedTasks other).toNat := by
      by_cases hOther : other = task
      · simp [hOther]
      · simp [hOther]
    simp only [copies, remove, setCancelled]
    omega
  · exact Nat.le_refl _

theorem copies_cancel_of_ne
    (self : Taskpool T)
    {task other : T}
    (hNe : other ≠ task) :
    (self.cancel task).copies other = self.copies other := by
  unfold cancel
  split
  · have hCount :
        (self.pendingTasks.filter (· ≠ task)).count other =
          self.pendingTasks.count other := by
      apply List.count_filter
      simpa using hNe
    simp only [copies, remove, setCancelled,
      Function.update_of_ne hNe]
    omega
  · rfl

theorem copies_cancelTaskGroup_le
    (self : Taskpool T)
    (groupId : Nat)
    (task : T) :
    (self.cancelTaskGroup groupId).copies task ≤
      self.copies task := by
  have hCount :
      (self.pendingTasks.filter fun task =>
          (self.tasks task).groupId ≠ groupId).count task ≤
        self.pendingTasks.count task :=
    List.Sublist.count_le task List.filter_sublist
  have hSuspended :
      (self.suspendedTasks task &&
          (self.tasks task).groupId != groupId).toNat ≤
        (self.suspendedTasks task).toNat := by
    cases self.suspendedTasks task <;> simp [Bool.toNat_le]
  simp only [copies, cancelTaskGroup]
  omega

/- A task that is not cancelled with the group stays where it
   is. -/
theorem copies_cancelTaskGroup_of_not
    (self : Taskpool T)
    {groupId : Nat}
    {task : T}
    (hNot : self.ofGroup groupId task = false) :
    (self.cancelTaskGroup groupId).copies task =
      self.copies task := by
  by_cases hGroup : (self.tasks task).groupId = groupId
  · have hNowhere :
        task ∉ self.pendingTasks ∧
          self.suspendedTasks task = false := by
      unfold ofGroup at hNot
      simpa [hGroup] using hNot
    have hCount :
        (self.pendingTasks.filter fun task =>
          (self.tasks task).groupId ≠ groupId).count task =
            0 := by
      rw [List.count_eq_zero]
      intro hMem
      exact hNowhere.1 ((List.mem_filter.mp hMem).1)
    have hBefore : self.pendingTasks.count task = 0 :=
      List.count_eq_zero.mpr hNowhere.1
    simp only [copies, cancelTaskGroup, hNowhere.2, hCount,
      hBefore, Bool.false_and]
  · have hCount :
        (self.pendingTasks.filter fun task =>
          (self.tasks task).groupId ≠ groupId).count task =
            self.pendingTasks.count task := by
      apply List.count_filter
      simpa using hGroup
    have hSuspended :
        (self.suspendedTasks task &&
          (self.tasks task).groupId != groupId) =
            self.suspendedTasks task := by
      simp [hGroup]
    simp only [copies, cancelTaskGroup, hCount, hSuspended]

@[simp]
theorem runningTasks_submit
    (self : Taskpool T)
    (task : T)
    (isRunnable : Bool) :
    (self.submit task isRunnable).runningTasks =
      self.runningTasks := by
  unfold submit
  split
  · rfl
  · split <;> rfl

theorem tasks_submit
    (self : Taskpool T)
    (task : T)
    (isRunnable : Bool) :
    (self.submit task isRunnable).tasks =
      (self.setPool task true).tasks := by
  unfold submit
  split
  · rename_i hPool
    funext other
    by_cases hOther : other = task
    · rw [hOther, tasks_setPool_self, ← hPool]
    · rw [tasks_setPool_of_ne _ hOther]
  · split
    · rfl
    · funext other
      rw [tasks_suspend]
      by_cases hOther : other = task
      · rw [hOther, tasks_setPool_self, tasks_setPool_self]
      · rw [tasks_setPool_of_ne _ hOther]

theorem copies_submit_self
    {self : Taskpool T}
    {task : T}
    (hPool : (self.tasks task).pool = false)
    (isRunnable : Bool) :
    (self.submit task isRunnable).copies task ≤
        self.copies task + 1 ∧
      0 < (self.submit task isRunnable).copies task := by
  unfold submit
  rw [hPool]
  cases isRunnable with
  | true =>
      simp only [Bool.false_eq_true, if_false, if_true, copies,
        suspendedTasks_setPool, futureTasks_setPool,
        List.count_append, List.count_singleton_self]
      omega
  | false => exact copies_suspend_self _ task

theorem copies_submit_of_ne
    (self : Taskpool T)
    {task other : T}
    (hNe : other ≠ task)
    (isRunnable : Bool) :
    (self.submit task isRunnable).copies other =
      self.copies other := by
  unfold submit
  split
  · rfl
  · split
    · simp [copies, Ne.symm hNe]
    · rw [copies_suspend_of_ne _ hNe, copies_setPool]

@[simp]
theorem runningTasks_submitAfter
    (self : Taskpool T)
    (task : T)
    (now delay : Nat) :
    (self.submitAfter task now delay).runningTasks =
      self.runningTasks := by
  unfold submitAfter
  split <;> rfl

theorem tasks_submitAfter
    (self : Taskpool T)
    (task : T)
    (now delay : Nat) :
    (self.submitAfter task now delay).tasks =
      (self.setPool task true).tasks := by
  unfold submitAfter
  split
  · rename_i hPool
    funext other
    by_cases hOther : other = task
    · rw [hOther, tasks_setPool_self, ← hPool]
    · rw [tasks_setPool_of_ne _ hOther]
  · rfl

theorem copies_submitAfter
    {self : Taskpool T}
    {task : T}
    (hPool : (self.tasks task).pool = false)
    (now delay : Nat)
    (other : T) :
    (self.submitAfter task now delay).copies other =
      self.copies other + if task = other then 1 else 0 := by
  unfold submitAfter
  rw [hPool]
  simp only [Bool.false_eq_true, if_false, copies, after,
    pendingTasks_setPool, suspendedTasks_setPool,
    futureTasks_setPool, futureCopies_pushFuture]
  omega

------------------------------------------------------------
-- Single Tasks
------------------------------------------------------------

/-
  A task is in one place at most: in the pool once, or held
  by one worker; `held` gives the task of a worker.
-/
structure Single
    (pool : Taskpool T)
    (held : Nat → Option T)
    (task : T) : Prop where
  copies_le : pool.copies task ≤ 1
  copies_pool :
    0 < pool.copies task → (pool.tasks task).pool = true
  held_pool :
    ∀ worker, held worker = some task →
      (pool.tasks task).pool = false
  held_unique :
    ∀ worker other,
      held worker = some task → held other = some task →
        worker = other

namespace Single

variable {pool next : Taskpool T}
variable {held after : Nat → Option T}
variable {task : T}

theorem construct
    (groupId : T → Nat)
    (task : T) :
    (Taskpool.construct groupId).Single (fun _ => none)
      task where
  copies_le := Nat.zero_le _
  copies_pool hSome := absurd hSome (Nat.lt_irrefl 0)
  held_pool _ hHeld := by cases hHeld
  held_unique _ _ hHeld := by cases hHeld

theorem not_held_of_copies
    (hSingle : pool.Single held task)
    (hSome : 0 < pool.copies task)
    (worker : Nat) :
    held worker ≠ some task := by
  intro hHeld
  have hSet := hSingle.copies_pool hSome
  rw [hSingle.held_pool worker hHeld] at hSet
  cases hSet

/- Fewer copies, and no new worker. -/
theorem shrink
    (hSingle : pool.Single held task)
    (hCopies : next.copies task ≤ pool.copies task)
    (hPool :
      (next.tasks task).pool = (pool.tasks task).pool)
    (hHeld : ∀ worker, after worker = some task →
      held worker = some task) :
    next.Single after task where
  copies_le := Nat.le_trans hCopies hSingle.copies_le
  copies_pool hSome := by
    rw [hPool]
    exact hSingle.copies_pool (Nat.lt_of_lt_of_le hSome hCopies)
  held_pool worker hSome := by
    rw [hPool]
    exact hSingle.held_pool worker (hHeld worker hSome)
  held_unique worker other hFirst hSecond :=
    hSingle.held_unique worker other (hHeld worker hFirst)
      (hHeld other hSecond)

/- A task that no worker holds comes into the pool. -/
theorem enter
    (hCopies : next.copies task ≤ 1)
    (hPool : (next.tasks task).pool = true)
    (hHeld : ∀ worker, after worker ≠ some task) :
    next.Single after task where
  copies_le := hCopies
  copies_pool _ := hPool
  held_pool worker hSome := absurd hSome (hHeld worker)
  held_unique worker _ hSome := absurd hSome (hHeld worker)

/- A worker takes a task. -/
theorem taken
    {popped : T}
    (hTaken : Taken pool next popped)
    (worker : Nat)
    (hSingle : pool.Single held task) :
    next.Single (Function.update held worker (some popped))
      task := by
  by_cases hTask : task = popped
  · subst hTask
    have hCopies := hTaken.copies_task
    have hLe := hSingle.copies_le
    have hHere : ∀ thread,
        Function.update held worker (some task) thread =
          some task → thread = worker := by
      intro thread hHeld
      by_cases hThread : thread = worker
      · exact hThread
      · rw [Function.update_of_ne hThread] at hHeld
        exact absurd hHeld
          (hSingle.not_held_of_copies (by omega) thread)
    exact
      { copies_le := by omega
        copies_pool := by omega
        held_pool := by
          intro _ _
          rw [hTaken.tasks_task]
        held_unique := by
          intro first second hFirst hSecond
          rw [hHere first hFirst, hHere second hSecond] }
  · apply hSingle.shrink (hTaken.copies_other task hTask)
    · rw [hTaken.tasks_other task hTask]
    · intro thread hHeld
      by_cases hThread : thread = worker
      · rw [hThread, Function.update_self] at hHeld
        cases hHeld
        exact absurd rfl hTask
      · rwa [Function.update_of_ne hThread] at hHeld

omit [DecidableEq T] in
theorem held_of_update_none
    {worker thread : Nat}
    (hHeld :
      Function.update held worker none thread = some task) :
    thread ≠ worker ∧ held thread = some task := by
  by_cases hThread : thread = worker
  · rw [hThread, Function.update_self] at hHeld
    cases hHeld
  · rw [Function.update_of_ne hThread] at hHeld
    exact ⟨hThread, hHeld⟩

/- A worker puts down the task that it holds. -/
theorem dropped
    (hSingle : pool.Single held task)
    (worker : Nat) :
    pool.Single (Function.update held worker none) task :=
  hSingle.shrink (Nat.le_refl _) rfl
    fun _ hHeld => (held_of_update_none hHeld).2

/- A worker suspends the task that it holds. -/
theorem suspend
    (hSingle : pool.Single held task)
    {suspended : T}
    {worker : Nat}
    (hHeld : held worker = some suspended) :
    (pool.suspend suspended).Single
      (Function.update held worker none) task := by
  by_cases hTask : task = suspended
  · subst hTask
    apply enter
    · have hCopies := (copies_suspend_self pool task).1
      have hNone : ¬ 0 < pool.copies task := by
        intro hSome
        exact hSingle.not_held_of_copies hSome worker hHeld
      omega
    · rw [tasks_suspend, tasks_setPool_self]
    · intro thread hStill
      rcases held_of_update_none hStill with ⟨hNe, hSome⟩
      exact hNe
        (hSingle.held_unique thread worker hSome hHeld)
  · apply hSingle.shrink
    · exact Nat.le_of_eq (copies_suspend_of_ne pool hTask)
    · rw [tasks_suspend, tasks_setPool_of_ne _ hTask]
    · exact fun _ hStill => (held_of_update_none hStill).2

theorem wakeTask
    (hSingle : pool.Single held task)
    (woken : T) :
    (pool.wakeTask woken).Single held task := by
  apply hSingle.shrink
  · exact Nat.le_of_eq (copies_wakeTask pool woken task)
  · rw [tasks_wakeTask]
  · exact fun _ hHeld => hHeld

theorem cancel
    (hSingle : pool.Single held task)
    (cancelled : T) :
    (pool.cancel cancelled).Single held task := by
  apply hSingle.shrink (copies_cancel_le pool cancelled task)
  · by_cases hTask : task = cancelled
    · rw [hTask, tasks_cancel_self]
    · rw [tasks_cancel_of_ne _ hTask]
  · exact fun _ hHeld => hHeld

theorem cancelTaskGroup
    (hSingle : pool.Single held task)
    (groupId : Nat) :
    (pool.cancelTaskGroup groupId).Single held task := by
  apply hSingle.shrink (copies_cancelTaskGroup_le _ _ _)
  · unfold Taskpool.cancelTaskGroup
    simp only
    split <;> rfl
  · exact fun _ hHeld => hHeld

theorem dropFuture
    (hSingle : pool.Single held task)
    {gone futureTasks : List (FutureTask T)}
    (hSplit : pool.futureTasks = gone ++ futureTasks) :
    { pool with futureTasks := futureTasks }.Single held
      task := by
  have hCopies := copies_dropped hSplit task
  exact hSingle.shrink (by omega) rfl fun _ hHeld => hHeld

/- A submission that is not of the task while it is held. -/
theorem submit
    (hSingle : pool.Single held task)
    {submitted : T}
    (hNotHeld : submitted = task →
      ∀ worker, held worker ≠ some task)
    (isRunnable : Bool) :
    (pool.submit submitted isRunnable).Single held task := by
  by_cases hTask : task = submitted
  · subst hTask
    cases hPool : (pool.tasks task).pool with
    | true =>
        unfold Taskpool.submit
        rw [if_pos hPool]
        exact hSingle
    | false =>
        have hNone : ¬ 0 < pool.copies task := by
          intro hSome
          rw [hSingle.copies_pool hSome] at hPool
          cases hPool
        have hCopies := (copies_submit_self hPool isRunnable).1
        apply enter
        · omega
        · rw [tasks_submit, tasks_setPool_self]
        · exact hNotHeld rfl
  · apply hSingle.shrink
    · exact Nat.le_of_eq (copies_submit_of_ne pool hTask _)
    · rw [tasks_submit, tasks_setPool_of_ne _ hTask]
    · exact fun _ hHeld => hHeld

theorem submitAfter
    (hSingle : pool.Single held task)
    {submitted : T}
    (hNotHeld : submitted = task →
      ∀ worker, held worker ≠ some task)
    (now delay : Nat) :
    (pool.submitAfter submitted now delay).Single held
      task := by
  cases hPool : (pool.tasks submitted).pool with
  | true =>
      unfold Taskpool.submitAfter
      rw [if_pos hPool]
      exact hSingle
  | false =>
      have hCopies := copies_submitAfter hPool now delay task
      by_cases hTask : task = submitted
      · subst hTask
        have hNone : ¬ 0 < pool.copies task := by
          intro hSome
          rw [hSingle.copies_pool hSome] at hPool
          cases hPool
        rw [if_pos rfl] at hCopies
        apply enter
        · omega
        · rw [tasks_submitAfter, tasks_setPool_self]
        · exact hNotHeld rfl
      · rw [if_neg (Ne.symm hTask)] at hCopies
        apply hSingle.shrink
        · exact Nat.le_of_eq hCopies
        · rw [tasks_submitAfter, tasks_setPool_of_ne _ hTask]
        · exact fun _ hHeld => hHeld

end Single

end Taskpool

end OefCore
