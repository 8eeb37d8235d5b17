import OefCore.Threading.PoolMutex

/-
  Whether a task that `submit` says is in a pool is in it.

  Main declarations:
    * `Pools.Pointed`
    * `Taskpools.Pointed.step`
    * `Taskpools.Truthful`
    * `Taskpools.truthful_iff`
-/

namespace OefCore

------------------------------------------------------------
-- Containers
------------------------------------------------------------

namespace PoolContents

variable {T : Type}
variable [DecidableEq T]

theorem Queues.remove
    {contents : PoolContents T}
    {task other : T}
    (hQueues : contents.Queues other)
    (hOther : other ≠ task) :
    (contents.remove task).Queues other := by
  rcases hQueues with hPending | hSuspended | hFuture
  · left
    simp [PoolContents.remove, hPending, hOther]
  · right
    left
    simp [PoolContents.remove, hSuspended, hOther]
  · exact .inr (.inr hFuture)

theorem Queues.makeRunnable
    {contents : PoolContents T}
    {other : T}
    (hQueues : contents.Queues other)
    (task : T) :
    (contents.makeRunnable task).Queues other := by
  unfold PoolContents.makeRunnable
  split
  · by_cases hOther : other = task
    · left
      simp [hOther]
    · rcases hQueues with hPending | hSuspended | hFuture
      · left
        simp [hPending]
      · right
        left
        simp [hSuspended, hOther]
      · exact .inr (.inr hFuture)
  · exact hQueues

theorem Queues.suspend
    {contents : PoolContents T}
    {other : T}
    (hQueues : contents.Queues other)
    (task : T) :
    (contents.suspend task).Queues other := by
  rcases hQueues with hPending | hSuspended | hFuture
  · exact .inl hPending
  · right
    left
    exact List.mem_insert_of_mem hSuspended
  · exact .inr (.inr hFuture)

theorem queues_suspend
    (contents : PoolContents T)
    (task : T) :
    (contents.suspend task).Queues task :=
  .inr (.inl List.mem_insert_self)

omit [DecidableEq T] in
theorem mem_pushFuture
    (futureTask other : FutureTask T)
    (futureTasks : List (FutureTask T)) :
    other ∈ Taskpool.pushFuture futureTask futureTasks ↔
      other = futureTask ∨ other ∈ futureTasks := by
  induction futureTasks with
  | nil => simp [Taskpool.pushFuture]
  | cons first rest ih =>
      unfold Taskpool.pushFuture
      split
      · simp
      · simp only [List.mem_cons, ih]
        tauto

omit [DecidableEq T] in
theorem Queues.after
    {contents : PoolContents T}
    {other : T}
    (hQueues : contents.Queues other)
    (task : T)
    (due : Nat) :
    (contents.after task due).Queues other := by
  rcases hQueues with hPending | hSuspended |
    ⟨futureTask, hMem, hTask⟩
  · exact .inl hPending
  · exact .inr (.inl hSuspended)
  · right
    right
    exact ⟨futureTask,
      (mem_pushFuture _ _ _).mpr (.inr hMem), hTask⟩

/- Dropping future tasks of others keeps a task waiting. -/
omit [DecidableEq T] in
theorem Queues.dropFuture
    {contents : PoolContents T}
    {other : T}
    (hQueues : contents.Queues other)
    {dropped rest : List (FutureTask T)}
    (hSplit : contents.futureTasks = dropped ++ rest)
    (hOthers :
      ∀ futureTask ∈ dropped, futureTask.task ≠ other) :
    ({ contents with futureTasks := rest }).Queues other := by
  rcases hQueues with hPending | hSuspended |
    ⟨futureTask, hMem, hTask⟩
  · exact .inl hPending
  · exact .inr (.inl hSuspended)
  · right
    right
    rw [hSplit] at hMem
    rcases List.mem_append.mp hMem with hGone | hRest
    · exact absurd hTask (hOthers futureTask hGone)
    · exact ⟨futureTask, hRest, hTask⟩

omit [DecidableEq T] in
theorem queues_after
    (contents : PoolContents T)
    (task : T)
    (due : Nat) :
    (contents.after task due).Queues task := by
  right
  right
  exact ⟨_, (mem_pushFuture _ _ _).mpr (.inl rfl), rfl⟩

end PoolContents

------------------------------------------------------------
-- Pointers to Pools
------------------------------------------------------------

namespace Pools

variable {P T : Type}
variable [DecidableEq P] [DecidableEq T]

/- A task in use that points to a pool waits there, certain
   tasks aside. -/
def PointedBut
    (pools : Pools P T)
    (aside : List T) : Prop :=
  ∀ task p, task ∉ aside →
    (pools.tasks task).pool = some p →
      (pools.tasks task).cancelled = false →
        (pools.contents p).Queues task

/- All of them do. -/
def Pointed (pools : Pools P T) : Prop :=
  pools.PointedBut []

section Changes

variable {self : Pools P T}
variable {aside : List T}

omit [DecidableEq T] in
/- A change of one pool that keeps all that wait in it. -/
theorem PointedBut.modify
    (hPointed : self.PointedBut aside)
    {p : P}
    {f : PoolContents T → PoolContents T}
    (hKeeps : ∀ task, task ∉ aside →
      (self.tasks task).pool = some p →
        (self.tasks task).cancelled = false →
          (self.contents p).Queues task →
            (f (self.contents p)).Queues task) :
    (self.modify p f).PointedBut aside := by
  intro task q hAside hPool hLive
  have hBefore := hPointed task q hAside hPool hLive
  by_cases hSame : q = p
  · subst hSame
    simpa [Pools.modify] using
      hKeeps task hAside hPool hLive hBefore
  · simpa [Pools.modify, hSame] using hBefore

omit [DecidableEq P] in
/- A pointer that is set asks for its task to be put aside. -/
theorem PointedBut.setPool
    (hPointed : self.PointedBut aside)
    (task : T)
    (pool : Option P) :
    (self.setPool task pool).PointedBut (task :: aside) := by
  intro other q hAside hPool hLive
  have hOther : other ≠ task := by
    rintro rfl
    exact hAside List.mem_cons_self
  simp only [Pools.setPool, Function.update_of_ne hOther]
    at hPool hLive
  apply hPointed other q _ hPool hLive
  intro hMem
  exact hAside (List.mem_cons_of_mem task hMem)

omit [DecidableEq P] in
/- A pointer that is cleared asks for nothing. -/
theorem PointedBut.clearPool
    {task : T}
    (hPointed : self.PointedBut (task :: aside)) :
    (self.setPool task none).PointedBut aside := by
  intro other q hAside hPool hLive
  by_cases hOther : other = task
  · subst hOther
    simp [Pools.setPool] at hPool
  · simp only [Pools.setPool, Function.update_of_ne hOther]
      at hPool hLive
    apply hPointed other q _ hPool hLive
    simp [hOther, hAside]

omit [DecidableEq P] in
/- Nor does one that is cancelled. -/
theorem PointedBut.setCancelled
    {task : T}
    (hPointed : self.PointedBut (task :: aside)) :
    (self.setCancelled task).PointedBut aside := by
  intro other q hAside hPool hLive
  by_cases hOther : other = task
  · subst hOther
    simp [Pools.setCancelled] at hLive
  · simp only [Pools.setCancelled,
      Function.update_of_ne hOther] at hPool hLive
    apply hPointed other q _ hPool hLive
    simp [hOther, hAside]

omit [DecidableEq P] [DecidableEq T] in
theorem PointedBut.mono
    (hPointed : self.PointedBut aside)
    {more : List T}
    (hMore : aside ⊆ more) :
    self.PointedBut more := by
  intro task q hAside hPool hLive
  exact hPointed task q (fun hMem => hAside (hMore hMem))
    hPool hLive

omit [DecidableEq P] [DecidableEq T] in
/- A task put aside that does wait need not be. -/
theorem PointedBut.restore
    {task : T}
    (hPointed : self.PointedBut (task :: aside))
    {p : P}
    (hPool : (self.tasks task).pool = some p)
    (hQueues : (self.contents p).Queues task) :
    self.PointedBut aside := by
  intro other q hAside hOtherPool hLive
  by_cases hOther : other = task
  · subst hOther
    rw [hPool] at hOtherPool
    cases hOtherPool
    exact hQueues
  · apply hPointed other q _ hOtherPool hLive
    simp [hOther, hAside]

/- A removed task is put aside. -/
theorem PointedBut.remove
    (hPointed : self.PointedBut aside)
    (p : P)
    (task : T) :
    (self.modify p (·.remove task)).PointedBut
      (task :: aside) := by
  apply (hPointed.mono (List.subset_cons_self _ _)).modify
  intro other hAside _ _ hQueues
  apply hQueues.remove
  rintro rfl
  exact hAside List.mem_cons_self

theorem PointedBut.taskCancel
    (hPointed : self.PointedBut aside)
    {task : T}
    {rest : List T}
    (hAside : aside ⊆ task :: rest) :
    (self.taskCancel task).PointedBut rest := by
  have hCancelled :
      (self.setCancelled task).PointedBut rest :=
    (hPointed.mono hAside).setCancelled
  unfold Pools.taskCancel
  split
  · intro other q hRest hPool hLive
    have hOther : other ≠ task := by
      rintro rfl
      simp [Pools.modify, Pools.setCancelled] at hLive
    apply hCancelled.remove _ _ other q _ hPool hLive
    simp [hOther, hRest]
  · exact hCancelled

/- Once all tasks that were put aside are cancelled, none is
   left there. -/
theorem PointedBut.cancelAll
    {tasks : List T}
    (hPointed : self.PointedBut tasks) :
    (self.cancelAll tasks).Pointed := by
  induction tasks generalizing self with
  | nil => exact hPointed
  | cons task tasks ih =>
      apply ih
      exact hPointed.taskCancel (List.Subset.refl _)

theorem PointedBut.suspend
    {task : T}
    (hPointed : self.PointedBut [task])
    (p : P) :
    (self.suspend p task).Pointed ∧
      ((self.suspend p task).contents p).Queues task := by
  have hQueues :
      ((self.suspend p task).contents p).Queues task := by
    simpa [Pools.suspend, Pools.modify] using
      PoolContents.queues_suspend _ task
  refine ⟨?_, hQueues⟩
  have hAside :
      (self.suspend p task).PointedBut [task] := by
    apply PointedBut.modify
    · apply (hPointed.setPool task (some p)).mono
      simp
    · intro other _ _ _ hBefore
      exact hBefore.suspend task
  apply hAside.restore _ hQueues
  simp [Pools.suspend, Pools.modify, Pools.setPool]

omit [DecidableEq T] in
theorem PointedBut.push
    {task : T}
    {p : P}
    (hPointed : self.PointedBut [task])
    (hPool : (self.tasks task).pool = some p)
    {f : PoolContents T → PoolContents T}
    (hKeeps : ∀ other, (self.contents p).Queues other →
      (f (self.contents p)).Queues other)
    (hQueues : (f (self.contents p)).Queues task) :
    (self.modify p f).Pointed ∧
      ((self.modify p f).contents p).Queues task := by
  have hEntered :
      ((self.modify p f).contents p).Queues task := by
    simpa [Pools.modify] using hQueues
  refine ⟨?_, hEntered⟩
  have hAside : (self.modify p f).PointedBut [task] :=
    hPointed.modify fun other _ _ _ => hKeeps other
  exact hAside.restore hPool hEntered

theorem Pointed.popPending
    (hPointed : self.Pointed)
    (p : P)
    (threadIdx : Nat) :
    (self.popPending p threadIdx).Pointed := by
  unfold Pools.popPending
  split
  · exact hPointed
  · rename_i task pendingTasks hPending
    have hTaken :
        (self.modify p fun contents =>
          { contents with
            pendingTasks := pendingTasks }).PointedBut
              [task] := by
      apply (hPointed.mono (List.nil_subset _)).modify
      intro other hAside _ _ hQueues
      rcases hQueues with hMem | hElsewhere
      · left
        rw [hPending] at hMem
        rcases List.mem_cons.mp hMem with hSame | hRest
        · exact absurd (List.mem_singleton.mpr hSame) hAside
        · exact hRest
      · exact .inr hElsewhere
    exact hTaken.clearPool

theorem Pointed.locklessGetNextFutureWork
    (hPointed : self.Pointed)
    (p : P)
    (threadIdx now : Nat) :
    (self.locklessGetNextFutureWork p threadIdx
      now).Pointed := by
  rcases Taskpool.nextFuture_cases
      (fun task => (self.tasks task).cancelled) now
      (self.contents p).futureTasks with
    ⟨dropped, hDropped,
      ⟨rest, hNext, hSplit, -⟩ |
        ⟨top, rest, hNext, hSplit, -, -⟩⟩
  · simp only [Pools.locklessGetNextFutureWork, hNext]
    apply PointedBut.modify hPointed
    intro other _ _ hLive hQueues
    apply hQueues.dropFuture hSplit
    intro futureTask hGone hTask
    have hCancelled := hDropped futureTask hGone
    rw [hTask, hLive] at hCancelled
    cases hCancelled
  · simp only [Pools.locklessGetNextFutureWork, hNext]
    have hTaken :
        (self.modify p fun contents =>
          { contents with
            futureTasks := rest }).PointedBut [top.task] := by
      apply (hPointed.mono (List.nil_subset _)).modify
      intro other hAside _ hLive hQueues
      rw [List.append_cons] at hSplit
      apply hQueues.dropFuture hSplit
      intro futureTask hMem hTask
      rcases List.mem_append.mp hMem with hGone | hTop
      · have hCancelled := hDropped futureTask hGone
        rw [hTask, hLive] at hCancelled
        cases hCancelled
      · rw [List.mem_singleton.mp hTop] at hTask
        exact absurd (List.mem_singleton.mpr hTask.symm) hAside
    exact hTaken.clearPool

omit [DecidableEq T] in
theorem Pointed.withoutGroup
    (hPointed : self.Pointed)
    (p : P)
    (groupId : Nat) :
    (self.withoutGroup p groupId).PointedBut
      (self.ofGroup p groupId) := by
  have hWider :
      self.PointedBut (self.ofGroup p groupId) :=
    hPointed.mono (List.nil_subset _)
  apply hWider.modify
  intro other hAside _ _ hQueues
  simp only [Pools.ofGroup, List.mem_append, List.mem_filter,
    decide_eq_true_eq, not_or, not_and] at hAside
  rcases hQueues with hMem | hMem | hFuture
  · left
    simp [hMem, hAside.1 hMem]
  · right
    left
    simp [hMem, hAside.2 hMem]
  · exact .inr (.inr hFuture)

/- Where a task waits does not depend on its group. -/
omit [DecidableEq P] in
theorem Pointed.setGroupId
    (hPointed : self.Pointed)
    (task : T)
    (groupId : Nat) :
    (self.setGroupId task groupId).Pointed := by
  have hSame :
      ∀ other,
        ((self.setGroupId task groupId).tasks other).pool =
            (self.tasks other).pool ∧
          ((self.setGroupId task groupId).tasks
              other).cancelled =
            (self.tasks other).cancelled := by
    intro other
    by_cases hTask : other = task
    · subst hTask
      simp [Pools.setGroupId]
    · simp [Pools.setGroupId, hTask]
  intro other p hAside hPool hLive
  exact hPointed other p hAside
    ((hSame other).1 ▸ hPool) ((hSame other).2 ▸ hLive)

/- Pending tasks that are cancelled may be dropped. -/
omit [DecidableEq T] in
theorem Pointed.clearPending
    (hPointed : self.Pointed)
    {p : P}
    (hCancelled :
      ∀ task ∈ (self.contents p).pendingTasks,
        (self.tasks task).cancelled = true) :
    (self.modify p
      ({ · with pendingTasks := [] })).Pointed := by
  apply PointedBut.modify hPointed
  intro other _ _ hLive hQueues
  rcases hQueues with hMem | hElsewhere
  · have hGone := hCancelled other hMem
    rw [hLive] at hGone
    cases hGone
  · exact .inr hElsewhere

/- Cancelling adds nothing to the pending tasks. -/
theorem mem_pendingTasks_of_cancelAll
    {tasks : List T}
    {p : P}
    {task : T}
    (hMem :
      task ∈ ((self.cancelAll tasks).contents p).pendingTasks) :
    task ∈ (self.contents p).pendingTasks := by
  induction tasks generalizing self with
  | nil => exact hMem
  | cons first tasks ih =>
      have hRest := ih hMem
      unfold Pools.taskCancel at hRest
      split at hRest
      · rename_i q _
        by_cases hPool : p = q
        · subst hPool
          simp only [Pools.modify, Function.update_self,
            PoolContents.remove, List.mem_filter] at hRest
          exact hRest.1
        · simpa [Pools.modify, Pools.setCancelled, hPool]
            using hRest
      · exact hRest

end Changes

end Pools

------------------------------------------------------------
-- Steps
------------------------------------------------------------

namespace Taskpools

variable {P T : Type}
variable [DecidableEq P] [DecidableEq T]

section Inversion

variable {self next : Taskpools P T}

/- A section that comes to its end has done its part. -/
theorem pools_of_withLock
    {p : P}
    {body : Pools P T → Pools P T}
    (hNext : self.withLock p body = .ok next) :
    next.pools = body self.pools := by
  unfold withLock lock at hNext
  split at hNext
  · cases hNext
  · simp only [bind, Except.bind, pure, Except.pure, throw,
      throwThe, MonadExceptOf.throw] at hNext
    split at hNext
    · cases hNext
    · cases hNext
      rfl

theorem pools_of_taskCancel
    {task : T}
    (hNext : self.taskCancel task = .ok next) :
    next.pools = self.pools.taskCancel task := by
  have hPool :
      ((self.change (·.setCancelled task)).pools.tasks
        task).pool =
          (self.pools.tasks task).pool := by
    simp [change, Pools.setCancelled]
  unfold taskCancel at hNext
  dsimp only at hNext
  rw [hPool] at hNext
  cases hPointer : (self.pools.tasks task).pool with
  | none =>
      simp only [hPointer] at hNext
      cases hNext
      simp [change, Pools.taskCancel, hPointer]
  | some p =>
      simp only [hPointer] at hNext
      rw [pools_of_withLock hNext]
      simp [change, Pools.taskCancel, hPointer]

theorem pools_of_cancelAll
    {tasks : List T}
    (hNext : self.cancelAll tasks = .ok next) :
    next.pools = self.pools.cancelAll tasks := by
  induction tasks generalizing self with
  | nil =>
      cases hNext
      rfl
  | cons task tasks ih =>
      unfold cancelAll at hNext ih
      rw [List.foldlM_cons] at hNext
      cases hFirst : self.taskCancel task with
      | error fault =>
          rw [hFirst] at hNext
          cases hNext
      | ok first =>
          rw [hFirst] at hNext
          rw [ih hNext, pools_of_taskCancel hFirst]
          rfl

theorem pools_of_leave
    {task : T}
    (hNext : self.leave task = .ok next) :
    next.pools = self.pools ∨
      ∃ p, next.pools =
        self.pools.modify p (·.remove task) := by
  unfold leave at hNext
  split at hNext
  · rename_i p _
    exact .inr ⟨p, pools_of_withLock hNext⟩
  · cases hNext
    exact .inl rfl

theorem Pointed.stop
    {p : P}
    (hPointed : self.pools.Pointed)
    (hNext : self.stop p = .ok next) :
    next.pools.Pointed := by
  unfold Taskpools.stop lock at hNext
  split at hNext
  · cases hNext
  · simp only [bind, Except.bind] at hNext
    split at hNext
    · cases hNext
    · rename_i looped hLooped
      split at hNext
      · cases hNext
      · rename_i stopped hStopped
        cases hNext
        have hQuitting :
            (self.pools.modify p
              ({ · with quit := true })).Pointed :=
          Pools.PointedBut.modify hPointed
            fun _ _ _ _ hQueues => hQueues
        have hPending : ∀ task,
            task ∈ (looped.pools.contents p).pendingTasks →
              (looped.pools.tasks task).cancelled = true := by
          rw [pools_of_cancelAll hLooped]
          intro task hMem
          apply Pools.cancelled_cancelAll
          left
          exact Pools.mem_pendingTasks_of_cancelAll hMem
        have hLoopedPointed : looped.pools.Pointed := by
          rw [pools_of_cancelAll hLooped]
          exact (hQuitting.mono (List.nil_subset _)).cancelAll
        have hCleared := hLoopedPointed.clearPending hPending
        change stopped.pools.Pointed
        rw [pools_of_cancelAll hStopped]
        exact (hCleared.mono (List.nil_subset _)).cancelAll

theorem Pointed.cancelTaskGroup
    {p : P}
    {groupId : Nat}
    (hPointed : self.pools.Pointed)
    (hNext : self.cancelTaskGroup p groupId = .ok next) :
    next.pools.Pointed := by
  unfold Taskpools.cancelTaskGroup at hNext
  simp only [bind, Except.bind] at hNext
  split at hNext
  · cases hNext
  · rename_i without hWithout
    have hPools := pools_of_withLock hWithout
    rw [pools_of_cancelAll hNext, hPools]
    exact (hPointed.withoutGroup p groupId).cancelAll

------------------------------------------------------------
-- Submissions
------------------------------------------------------------

/- A way into a pool after which the task waits there. -/
def Enters
    (task : T)
    (enter :
      Taskpools P T → P →
        Except PoolFault (Taskpools P T)) : Prop :=
  ∀ {pointing entered : Taskpools P T} {p : P},
    pointing.pools.PointedBut [task] →
      (pointing.pools.tasks task).pool = some p →
        enter pointing p = .ok entered →
          entered.pools.Pointed ∧
            (entered.pools.contents p).Queues task

theorem enters_submit
    (task : T)
    (isRunnable : Bool) :
    Enters task fun (pointing : Taskpools P T) p =>
      pointing.submit p task isRunnable := by
  intro pointing entered p hPointed hPool hEntered
  unfold submit at hEntered
  split at hEntered
  · rw [pools_of_withLock hEntered]
    apply hPointed.push hPool
    · intro other hQueues
      rcases hQueues with hMem | hElsewhere
      · exact .inl (List.mem_append_left _ hMem)
      · exact .inr hElsewhere
    · exact .inl (by simp)
  · cases hEntered
    exact hPointed.suspend p

theorem enters_after
    (task : T)
    (now delay : Nat) :
    Enters task fun (pointing : Taskpools P T) p =>
      pointing.after p task now delay := by
  intro pointing entered p hPointed hPool hEntered
  rw [pools_of_withLock hEntered]
  apply hPointed.push hPool
  · intro other hQueues
    exact hQueues.after task _
  · exact PoolContents.queues_after _ task _

/- A submission says yes. Either the task waits in the pool
   then, or there was no pool on either side. -/
theorem submitBy_cases
    {enter :
      Taskpools P T → P → Except PoolFault (Taskpools P T)}
    {task : T}
    (hEnters : Enters task enter)
    (hPointed : self.pools.Pointed)
    {pool : Option P}
    {answer : Bool}
    (hNext :
      self.submitBy enter task pool = .ok (answer, next)) :
    next.pools.Pointed ∧
      (pool = none ∧
          (self.pools.tasks task).pool = none ∧
            next = self ∨
        ∃ p, pool = some p ∧
          ((next.pools.tasks task).cancelled = false →
            (next.pools.contents p).Queues task)) := by
  unfold submitBy at hNext
  split at hNext
  · rename_i hSame
    cases hNext
    refine ⟨hPointed, ?_⟩
    cases pool with
    | none => exact .inl ⟨rfl, hSame, rfl⟩
    | some p =>
        right
        exact ⟨p, rfl,
          hPointed task p List.not_mem_nil hSame⟩
  · simp only [bind, Except.bind] at hNext
    split at hNext
    · cases hNext
    · rename_i gone hLeft
      have hLeftPointed : gone.pools.PointedBut [task] := by
        rcases pools_of_leave hLeft with hSame | ⟨q, hRemoved⟩
        · rw [hSame]
          exact hPointed.mono (List.nil_subset _)
        · rw [hRemoved]
          exact hPointed.remove q task
      have hPointing :
          (gone.pools.setPool task pool).PointedBut
            [task] := by
        apply (hLeftPointed.setPool task pool).mono
        simp
      cases pool with
      | none => cases hNext
      | some p =>
          simp only at hNext
          split at hNext
          · cases hNext
          · rename_i entered hEntered
            cases hNext
            have hDone := hEnters hPointing
              (by simp [change, Pools.setPool]) hEntered
            refine ⟨hDone.1, .inr ⟨p, rfl, fun _ => hDone.2⟩⟩

/- The pool that a call is for. -/
def SubmitCall.target
    (call : SubmitCall P)
    (defaultTaskpool : Option P) : Option P :=
  match call with
  | .toPool pool _ => pool
  | .toDefault _ => defaultTaskpool
  | .toPoolAfter pool _ _ => pool
  | .toDefaultAfter _ _ => defaultTaskpool

/- There is no pool to submit to, and the task points to none;
   only the overload for the default pool with a delay asks
   for the pool before it compares the two. -/
def Pointless
    (taskpools : Taskpools P T)
    (task : T)
    (call : SubmitCall P) : Prop :=
  call.target taskpools.pools.defaultTaskpool = none ∧
    (taskpools.pools.tasks task).pool = none ∧
      ∀ now delay, call ≠ .toDefaultAfter now delay

theorem submitCall_of_pointless
    {task : T}
    {call : SubmitCall P}
    (hPointless : self.Pointless task call) :
    self.submitCall task call = .ok (true, self) := by
  rcases hPointless with ⟨hTarget, hPool, hOther⟩
  cases call with
  | toPool pool isRunnable =>
      have hNone : pool = none := hTarget
      simp [submitCall, taskSubmit, submitBy, hPool, hNone]
  | toDefault isRunnable =>
      have hNone : self.pools.defaultTaskpool = none := hTarget
      simp [submitCall, taskSubmitDefault, hPool, hNone]
  | toPoolAfter pool now delay =>
      have hNone : pool = none := hTarget
      simp [submitCall, taskSubmitAfter, submitBy, hPool,
        hNone]
  | toDefaultAfter now delay =>
      exact absurd rfl (hOther now delay)

/- A call that asks for its pool only after the comparison. -/
theorem submitBy_of_target
    {enter :
      Taskpools P T → P → Except PoolFault (Taskpools P T)}
    {task : T}
    (hEnters : Enters task enter)
    (hPointed : self.pools.Pointed)
    (call : SubmitCall P)
    (hOther : ∀ now delay, call ≠ .toDefaultAfter now delay)
    {answer : Bool}
    (hNext :
      self.submitBy enter task
          (call.target self.pools.defaultTaskpool) =
        .ok (answer, next)) :
    next.pools.Pointed ∧
      (self.Pointless task call ∧ next = self ∨
        ∃ p,
          call.target self.pools.defaultTaskpool = some p ∧
            ((next.pools.tasks task).cancelled = false →
              (next.pools.contents p).Queues task)) := by
  rcases submitBy_cases hEnters hPointed hNext with
    ⟨hStill, ⟨hNone, hPool, hSame⟩ | hWaits⟩
  · exact ⟨hStill, .inl ⟨⟨hNone, hPool, hOther⟩, hSame⟩⟩
  · exact ⟨hStill, .inr hWaits⟩

/- A call that makes sure of its pool first. -/
theorem submitBy_of_isSome
    {enter :
      Taskpools P T → P → Except PoolFault (Taskpools P T)}
    {task : T}
    (hEnters : Enters task enter)
    (hPointed : self.pools.Pointed)
    {pool : Option P}
    (hSome : pool.isSome = true)
    {answer : Bool}
    (hNext :
      self.submitBy enter task pool = .ok (answer, next)) :
    next.pools.Pointed ∧
      ∃ p, pool = some p ∧
        ((next.pools.tasks task).cancelled = false →
          (next.pools.contents p).Queues task) := by
  rcases submitBy_cases hEnters hPointed hNext with
    ⟨hStill, ⟨hNone, -⟩ | hWaits⟩
  · rw [hNone] at hSome
    cases hSome
  · exact ⟨hStill, hWaits⟩

/- In any other case a yes means that the task waits. -/
theorem submitCall_cases
    {task : T}
    {call : SubmitCall P}
    (hPointed : self.pools.Pointed)
    {answer : Bool}
    (hNext :
      self.submitCall task call = .ok (answer, next)) :
    next.pools.Pointed ∧
      (answer = true →
        self.Pointless task call ∧ next = self ∨
          ∃ p,
            call.target self.pools.defaultTaskpool = some p ∧
              ((next.pools.tasks task).cancelled = false →
                (next.pools.contents p).Queues task)) := by
  cases call with
  | toPool pool isRunnable =>
      rcases submitBy_of_target (enters_submit task isRunnable)
        hPointed (.toPool pool isRunnable) (by simp) hNext with
        ⟨hStill, hCases⟩
      exact ⟨hStill, fun _ => hCases⟩
  | toDefault isRunnable =>
      simp only [submitCall, taskSubmitDefault] at hNext
      split at hNext
      · rename_i hSame
        cases hNext
        refine ⟨hPointed, fun _ => ?_⟩
        cases hTarget : self.pools.defaultTaskpool with
        | none =>
            left
            exact ⟨⟨hTarget, hSame.trans hTarget, by simp⟩, rfl⟩
        | some p =>
            right
            exact ⟨p, rfl, hPointed task p List.not_mem_nil
              (hSame.trans hTarget)⟩
      · split at hNext
        · rename_i hSome
          rcases submitBy_of_isSome
            (enters_submit task isRunnable) hPointed hSome hNext
            with ⟨hStill, hWaits⟩
          exact ⟨hStill, fun _ => .inr hWaits⟩
        · cases hNext
          exact ⟨hPointed, fun hYes => by cases hYes⟩
  | toPoolAfter pool now delay =>
      rcases submitBy_of_target (enters_after task now delay)
        hPointed (.toPoolAfter pool now delay) (by simp) hNext
        with ⟨hStill, hCases⟩
      exact ⟨hStill, fun _ => hCases⟩
  | toDefaultAfter now delay =>
      simp only [submitCall, taskSubmitDefaultAfter] at hNext
      split at hNext
      · rename_i hSome
        rcases submitBy_of_isSome (enters_after task now delay)
          hPointed hSome hNext with ⟨hStill, hWaits⟩
        exact ⟨hStill, fun _ => .inr hWaits⟩
      · cases hNext
        exact ⟨hPointed, fun hYes => by cases hYes⟩

------------------------------------------------------------
-- Runs
------------------------------------------------------------

/- A task in use is not taken out of the pool that it points
   to, unless it is also a task to come there. -/
def Detaches
    (taskpools : Taskpools P T) : PoolsEvent P T → Prop
  | .remove p task =>
      (taskpools.pools.tasks task).pool = some p ∧
        (taskpools.pools.tasks task).cancelled = false ∧
          ∀ futureTask ∈
              (taskpools.pools.contents p).futureTasks,
            futureTask.task ≠ task
  | _ => False

theorem Pointed.remove
    {p : P}
    {task : T}
    (hPointed : self.pools.Pointed)
    (hKept : ¬ self.Detaches (.remove p task)) :
    (self.pools.modify p (·.remove task)).Pointed := by
  apply Pools.PointedBut.modify hPointed
  intro other _ hPool hLive hQueues
  by_cases hOther : other = task
  · subst hOther
    right
    right
    by_contra hNone
    apply hKept
    refine ⟨hPool, hLive, ?_⟩
    intro futureTask hMem hTask
    exact hNone ⟨futureTask, hMem, hTask⟩
  · exact hQueues.remove hOther

theorem Pointed.work
    {p : P}
    {threadIdx : Nat}
    {step : LoopStep}
    (hPointed : self.pools.Pointed)
    (hNext : self.work p threadIdx step = .ok next) :
    next.pools.Pointed := by
  unfold Taskpools.work at hNext
  split at hNext
  · rw [pools_of_withLock hNext]
    exact hPointed.locklessGetNextFutureWork p threadIdx _
  · rw [pools_of_withLock hNext]
    exact hPointed.popPending p threadIdx
  · rename_i task _
    have hMarked :
        (self.pools.modify p
          (·.markRunning threadIdx task)).Pointed :=
      Pools.PointedBut.modify hPointed
        fun _ _ _ _ hQueues => hQueues
    rw [pools_of_withLock hNext]
    exact hMarked
  · cases hNext
    exact hPointed
  · have hErased :
        (self.pools.modify p
          (·.eraseRunning threadIdx)).Pointed :=
      Pools.PointedBut.modify hPointed
        fun _ _ _ _ hQueues => hQueues
    rw [pools_of_withLock hNext]
    exact hErased
  · dsimp only at hNext
    split at hNext
    · cases hNext
      exact ((hPointed.mono (List.nil_subset _)).suspend p).1
    · cases hNext
      exact hPointed
  · cases hNext
    exact hPointed

/- Tasks that point to a pool go on waiting there. -/
theorem Pointed.step
    {event : PoolsEvent P T}
    (hPointed : self.pools.Pointed)
    (hKept : ¬ self.Detaches event)
    (hNext : self.step event = .ok next) :
    next.pools.Pointed := by
  have hModify :
      ∀ {p : P} {f : PoolContents T → PoolContents T},
        (∀ task, (self.pools.contents p).Queues task →
          (f (self.pools.contents p)).Queues task) →
            (self.pools.modify p f).Pointed := by
    intro p f hKeeps
    exact Pools.PointedBut.modify hPointed
      fun task _ _ _ => hKeeps task
  cases event with
  | submitCall task call =>
      simp only [Taskpools.step] at hNext
      cases hCall : self.submitCall task call with
      | error fault =>
          rw [hCall] at hNext
          cases hNext
      | ok answered =>
          rw [hCall] at hNext
          cases hNext
          exact (submitCall_cases hPointed hCall).1
  | taskCancel task =>
      rw [pools_of_taskCancel hNext]
      exact hPointed.taskCancel (List.nil_subset _)
  | taskMakeRunnable task =>
      simp only [Taskpools.step, taskMakeRunnable] at hNext
      split at hNext
      · rw [pools_of_withLock hNext]
        exact hModify fun _ hQueues => hQueues.makeRunnable task
      · cases hNext
        exact hPointed
  | setGroupId task groupId =>
      cases hNext
      exact hPointed.setGroupId task groupId
  | submit p task isRunnable =>
      simp only [Taskpools.step, submit] at hNext
      split at hNext
      · rw [pools_of_withLock hNext]
        apply hModify
        intro other hQueues
        rcases hQueues with hMem | hElsewhere
        · exact .inl (List.mem_append_left _ hMem)
        · exact .inr hElsewhere
      · cases hNext
        exact
          ((hPointed.mono (List.nil_subset _)).suspend p).1
  | suspend p task =>
      cases hNext
      exact ((hPointed.mono (List.nil_subset _)).suspend p).1
  | after p task now delay =>
      rw [pools_of_withLock hNext]
      exact hModify fun _ hQueues => hQueues.after task _
  | remove p task =>
      rw [pools_of_withLock hNext]
      exact Pointed.remove hPointed hKept
  | makeRunnable p task =>
      rw [pools_of_withLock hNext]
      exact hModify fun _ hQueues => hQueues.makeRunnable task
  | cancelTaskGroup p groupId =>
      exact Pointed.cancelTaskGroup hPointed hNext
  | updateStatus p =>
      rw [pools_of_withLock hNext]
      exact hPointed
  | stop p => exact Pointed.stop hPointed hNext
  | setDefault pool =>
      cases hNext
      exact hPointed
  | work p threadIdx step => exact Pointed.work hPointed hNext
  | returns p threadIdx status =>
      cases hNext
      simp only [returns]
      split
      · exact hPointed
      · exact hPointed

theorem Pointed.run
    {events : List (PoolsEvent P T)}
    (hPointed : self.pools.Pointed)
    (hKept : ∀ front event back,
      events = front ++ event :: back →
        ∀ reached, self.run front = .ok reached →
          ¬ reached.Detaches event)
    (hNext : self.run events = .ok next) :
    next.pools.Pointed := by
  induction events generalizing self with
  | nil =>
      cases hNext
      exact hPointed
  | cons event events ih =>
      rcases exists_step_of_run_cons hNext with
        ⟨first, hStep, hRest⟩
      have hFirst : first.pools.Pointed :=
        Pointed.step hPointed
          (hKept [] event events rfl self rfl) hStep
      apply ih hFirst _ hRest
      intro front later back hSplit reached hReached
      apply hKept (event :: front) later back
        (by rw [hSplit]; rfl) reached
      rw [run_cons, hStep]
      exact hReached

end Inversion

/- If the call says yes for a task that is in use, the task
   waits in the pool that the call is for. -/
def Truthful
    (taskpools : Taskpools P T)
    (task : T)
    (call : SubmitCall P) : Prop :=
  ∀ next,
    taskpools.submitCall task call = .ok (true, next) →
      (next.pools.tasks task).cancelled = false →
        ∃ p,
          call.target taskpools.pools.defaultTaskpool =
              some p ∧
            (next.pools.contents p).Queues task

theorem truthful_iff_of_pointed
    {self : Taskpools P T}
    (hPointed : self.pools.Pointed)
    (task : T)
    (call : SubmitCall P) :
    self.Truthful task call ↔
      ((self.pools.tasks task).cancelled = false →
        ¬ self.Pointless task call) := by
  constructor
  · intro hTruthful hLive hPointless
    rcases hTruthful self (submitCall_of_pointless hPointless)
      hLive with ⟨p, hTarget, -⟩
    rw [hPointless.1] at hTarget
    cases hTarget
  · intro hPoint next hNext hLive
    rcases (submitCall_cases hPointed hNext).2 rfl with
      ⟨hPointless, hSame⟩ | ⟨p, hTarget, hWaits⟩
    · rw [hSame] at hLive
      exact absurd hPointless (hPoint hLive)
    · exact ⟨p, hTarget, hWaits hLive⟩

/- A task that was taken out is said to be there all the
   same. -/
theorem not_truthful_of_detaches
    {self next : Taskpools P T}
    {p : P}
    {task : T}
    (hDetaches : self.Detaches (.remove p task))
    (hNext : self.step (.remove p task) = .ok next)
    (isRunnable : Bool) :
    ¬ next.Truthful task (.toPool (some p) isRunnable) := by
  rcases hDetaches with ⟨hPool, hLive, hFuture⟩
  have hPools := pools_of_withLock hNext
  have hTasks : next.pools.tasks = self.pools.tasks := by
    rw [hPools]
    rfl
  have hContents :
      next.pools.contents p =
        (self.pools.contents p).remove task := by
    simp [hPools, Pools.modify]
  have hYes :
      next.submitCall task (.toPool (some p) isRunnable) =
        .ok (true, next) := by
    simp [submitCall, taskSubmit, submitBy, hTasks, hPool]
  intro hTruthful
  rcases hTruthful next hYes (by rw [hTasks]; exact hLive) with
    ⟨q, hTarget, hQueues⟩
  cases hTarget
  rw [hContents] at hQueues
  rcases hQueues with hMem | hMem | ⟨futureTask, hMem, hTask⟩
  · simp [PoolContents.remove] at hMem
  · simp [PoolContents.remove] at hMem
  · exact hFuture futureTask hMem hTask

omit [DecidableEq P] [DecidableEq T] in
theorem pointed_construct (groupId : T → Nat) :
    (construct groupId : Taskpools P T).pools.Pointed := by
  intro task p _ hPool _
  cases hPool

/-
  In a run that does not take tasks in use out of the pool
  that they point to, `submit` tells the truth exactly if it
  is not called for a task that points to no pool when there
  is none to submit to.
-/
theorem truthful_iff
    (groupId : T → Nat)
    {events : List (PoolsEvent P T)}
    (hKept : ∀ front event back,
      events = front ++ event :: back →
        ∀ reached, (construct groupId).run front = .ok reached →
          ¬ reached.Detaches event) :
    (∀ front task call back,
      events = front ++ .submitCall task call :: back →
        ∀ reached,
          (construct groupId).run front = .ok reached →
            reached.Truthful task call) ↔
      ∀ front task call back,
        events = front ++ .submitCall task call :: back →
          ∀ reached,
            (construct groupId).run front = .ok reached →
              (reached.pools.tasks task).cancelled = false →
                ¬ reached.Pointless task call := by
  have hEach : ∀ front task call back,
      events = front ++ .submitCall task call :: back →
        ∀ reached : Taskpools P T,
          (construct groupId).run front = .ok reached →
            (reached.Truthful task call ↔
              ((reached.pools.tasks task).cancelled = false →
                ¬ reached.Pointless task call)) := by
    intro front task call back hSplit reached hReached
    apply truthful_iff_of_pointed
    apply Pointed.run (pointed_construct groupId) _ hReached
    intro first event rest hFront
    apply hKept first event
      (rest ++ .submitCall task call :: back)
    rw [hSplit, hFront]
    simp
  constructor
  · intro hAll front task call back hSplit reached hReached
    exact (hEach front task call back hSplit reached
      hReached).mp
        (hAll front task call back hSplit reached hReached)
  · intro hAll front task call back hSplit reached hReached
    exact (hEach front task call back hSplit reached
      hReached).mpr
        (hAll front task call back hSplit reached hReached)

/- One task that is submitted to one pool. -/
theorem truthful_iff_of_one_task :
    let events : List (PoolsEvent Unit Unit) :=
      [.submitCall () (.toPool (some ()) true)]
    (∀ front task call back,
      events = front ++ .submitCall task call :: back →
        ∀ reached,
          (construct fun _ => 0).run front = .ok reached →
            reached.Truthful task call) ↔
      ∀ front task call back,
        events = front ++ .submitCall task call :: back →
          ∀ reached,
            (construct fun _ => 0).run front = .ok reached →
              (reached.pools.tasks task).cancelled = false →
                ¬ reached.Pointless task call := by
  intro events
  apply truthful_iff
  intro front event back hSplit reached _
  have hMem : event ∈ events := by
    rw [hSplit]
    simp
  rw [List.mem_singleton.mp hMem]
  exact id

/- Without a default pool a new task is said to be in it. -/
theorem not_truthful_without_default :
    ¬ (construct (fun _ => 0) : Taskpools Unit Unit).Truthful ()
      (.toDefault true) := by
  intro hTruthful
  rcases hTruthful _ rfl rfl with ⟨p, hTarget, -⟩
  cases hTarget

end Taskpools

end OefCore
