import OefCore.Threading.Taskpools

/-
  Which functions of a pool take its mutex while they have it,
  and what `stop` leaves behind.

  Main declarations:
    * `Taskpools.Free`, `Taskpools.Proceeds`
    * `Taskpools.stop_of_apart`,
      `Taskpools.stop_of_pointing`
    * `Taskpools.Orderly`, `Taskpools.Apart`
    * `Taskpools.orderly_iff`
-/

namespace OefCore

------------------------------------------------------------
-- Cancelling without Mutexes
------------------------------------------------------------

namespace Pools

variable {P T : Type}
variable [DecidableEq P] [DecidableEq T]

/- What cancelling a task comes to. -/
def taskCancel
    (self : Pools P T)
    (task : T) : Pools P T :=
  match (self.tasks task).pool with
  | some p =>
      (self.setCancelled task).modify p (·.remove task)
  | none => self.setCancelled task

def cancelAll
    (self : Pools P T)
    (tasks : List T) : Pools P T :=
  tasks.foldl taskCancel self

theorem tasks_taskCancel
    (self : Pools P T)
    (task : T) :
    (self.taskCancel task).tasks =
      Function.update self.tasks task
        { self.tasks task with cancelled := true } := by
  unfold taskCancel
  split <;> rfl

/- No pointer to a pool changes. -/
theorem pool_taskCancel
    (self : Pools P T)
    (task other : T) :
    ((self.taskCancel task).tasks other).pool =
      (self.tasks other).pool := by
  rw [tasks_taskCancel]
  by_cases hOther : other = task
  · subst hOther
    simp
  · simp [hOther]

theorem cancelled_taskCancel
    {self : Pools P T}
    {task other : T}
    (hCancelled :
      other = task ∨ (self.tasks other).cancelled = true) :
    ((self.taskCancel task).tasks other).cancelled = true := by
  rw [tasks_taskCancel]
  by_cases hOther : other = task
  · subst hOther
    simp
  · rcases hCancelled with hSame | hBefore
    · exact absurd hSame hOther
    · simp [hOther, hBefore]

theorem runningTasks_taskCancel
    (self : Pools P T)
    (task : T)
    (p : P) :
    ((self.taskCancel task).contents p).runningTasks =
      (self.contents p).runningTasks := by
  unfold taskCancel
  split
  · rename_i q _
    by_cases hPool : p = q
    · subst hPool
      simp [modify, setCancelled, PoolContents.remove]
    · simp [modify, setCancelled, hPool]
  · rfl

/- A list of no pending tasks does not grow. -/
theorem pendingTasks_cancelAll
    {self : Pools P T}
    {p : P}
    (hNone : (self.contents p).pendingTasks = [])
    (tasks : List T) :
    ((self.cancelAll tasks).contents p).pendingTasks = [] := by
  induction tasks generalizing self with
  | nil => exact hNone
  | cons task tasks ih =>
      apply ih
      unfold taskCancel
      split
      · rename_i q _
        by_cases hPool : p = q
        · subst hPool
          simp [modify, setCancelled, PoolContents.remove,
            hNone]
        · simp [modify, setCancelled, hPool, hNone]
      · exact hNone

theorem pool_cancelAll
    (self : Pools P T)
    (tasks : List T)
    (other : T) :
    ((self.cancelAll tasks).tasks other).pool =
      (self.tasks other).pool := by
  induction tasks generalizing self with
  | nil => rfl
  | cons task tasks ih =>
      exact (ih _).trans (self.pool_taskCancel task other)

/- All of the list are cancelled, and those that were. -/
theorem cancelled_cancelAll
    {self : Pools P T}
    {tasks : List T}
    {other : T}
    (hCancelled :
      other ∈ tasks ∨ (self.tasks other).cancelled = true) :
    ((self.cancelAll tasks).tasks other).cancelled = true := by
  induction tasks generalizing self with
  | nil =>
      rcases hCancelled with hMem | hBefore
      · cases hMem
      · exact hBefore
  | cons task tasks ih =>
      apply ih
      rcases hCancelled with hMem | hBefore
      · rcases List.mem_cons.mp hMem with hSame | hLater
        · exact .inr (cancelled_taskCancel (.inl hSame))
        · exact .inl hLater
      · exact .inr (cancelled_taskCancel (.inr hBefore))

theorem runningTasks_cancelAll
    (self : Pools P T)
    (tasks : List T)
    (p : P) :
    ((self.cancelAll tasks).contents p).runningTasks =
      (self.contents p).runningTasks := by
  induction tasks generalizing self with
  | nil => rfl
  | cons task tasks ih =>
      exact (ih _).trans (self.runningTasks_taskCancel task p)

end Pools

------------------------------------------------------------
-- Sections of Free Mutexes
------------------------------------------------------------

namespace Taskpools

variable {P T : Type}
variable [DecidableEq P] [DecidableEq T]

/- Nobody has the mutex of the pool, and no loop walks along
   its pending tasks. -/
def FreeAt (taskpools : Taskpools P T) (p : P) : Prop :=
  taskpools.locked p = false ∧ taskpools.iterated p = false

def Free (taskpools : Taskpools P T) : Prop :=
  ∀ p, taskpools.FreeAt p

theorem withLock_of_free
    {self : Taskpools P T}
    {p : P}
    (hFree : self.FreeAt p)
    (body : Pools P T → Pools P T) :
    self.withLock p body = .ok (self.change body) := by
  have hUnlocked :
      Function.update (Function.update self.locked p true) p
          false =
        self.locked := by
    rw [Function.update_idem, ← hFree.1,
      Function.update_eq_self]
  simp [withLock, lock, hFree.1, hFree.2, change, unlock,
    hUnlocked, bind, Except.bind, pure, Except.pure]

theorem withLock_of_locked
    {self : Taskpools P T}
    {p : P}
    (hLocked : self.locked p = true)
    (body : Pools P T → Pools P T) :
    self.withLock p body = .error .deadlock := by
  simp [withLock, lock, hLocked, bind, Except.bind]

theorem taskCancel_of_free
    {self : Taskpools P T}
    {task : T}
    (hFree : ∀ p, (self.pools.tasks task).pool = some p →
      self.FreeAt p) :
    self.taskCancel task =
      .ok (self.change (·.taskCancel task)) := by
  have hPool :
      ((self.change (·.setCancelled task)).pools.tasks
        task).pool =
          (self.pools.tasks task).pool := by
    simp [change, Pools.setCancelled]
  unfold taskCancel
  dsimp only
  rw [hPool]
  cases hPointer : (self.pools.tasks task).pool with
  | none =>
      simp [change, Pools.taskCancel, hPointer]
  | some p =>
      have hAt :
          (self.change (·.setCancelled task)).FreeAt p :=
        hFree p hPointer
      simp only [remove, withLock_of_free hAt]
      simp [change, Pools.taskCancel, hPointer]

/- Cancelling a task of a pool takes the pool's mutex. -/
theorem taskCancel_of_locked
    {self : Taskpools P T}
    {task : T}
    {p : P}
    (hPointer : (self.pools.tasks task).pool = some p)
    (hLocked : self.locked p = true) :
    self.taskCancel task = .error .deadlock := by
  have hPool :
      ((self.change (·.setCancelled task)).pools.tasks
        task).pool = some p := by
    simp [change, Pools.setCancelled, hPointer]
  unfold taskCancel
  dsimp only
  have hStill :
      (self.change (·.setCancelled task)).locked p = true :=
    hLocked
  simp only [hPool]
  exact withLock_of_locked hStill _

theorem cancelAll_of_free
    {self : Taskpools P T}
    {tasks : List T}
    (hFree : ∀ task ∈ tasks, ∀ p,
      (self.pools.tasks task).pool = some p →
        self.FreeAt p) :
    self.cancelAll tasks =
      .ok (self.change (·.cancelAll tasks)) := by
  induction tasks generalizing self with
  | nil => rfl
  | cons task tasks ih =>
      have hFirst :=
        taskCancel_of_free (hFree task List.mem_cons_self)
      have hRest :
          (self.change (·.taskCancel task)).cancelAll tasks =
            .ok ((self.change (·.taskCancel task)).change
              (·.cancelAll tasks)) := by
        apply ih
        intro other hMem p hPointer
        apply hFree other (List.mem_cons_of_mem task hMem) p
        rw [← hPointer]
        exact (self.pools.pool_taskCancel task other).symm
      unfold cancelAll at hRest ⊢
      rw [List.foldlM_cons, hFirst]
      exact hRest

/- Of tasks of which one points to the pool whose mutex is
   held, that one is not passed. -/
theorem cancelAll_of_locked
    {self : Taskpools P T}
    {tasks : List T}
    {p : P}
    (hLocked : self.locked p = true)
    (hOthers : ∀ q, q ≠ p → self.FreeAt q)
    {task : T}
    (hMem : task ∈ tasks)
    (hPointer : (self.pools.tasks task).pool = some p) :
    self.cancelAll tasks = .error .deadlock := by
  induction tasks generalizing self with
  | nil => cases hMem
  | cons first tasks ih =>
      unfold cancelAll at ih ⊢
      rw [List.foldlM_cons]
      by_cases hFirst : (self.pools.tasks first).pool = some p
      · rw [taskCancel_of_locked hFirst hLocked]
        rfl
      · have hApart : ∀ q,
            (self.pools.tasks first).pool = some q →
              self.FreeAt q := by
          intro q hQ
          apply hOthers q
          intro hSame
          exact hFirst (hSame ▸ hQ)
        have hLater : task ∈ tasks := by
          rcases List.mem_cons.mp hMem with hSame | hLater
          · exact absurd (hSame ▸ hPointer) hFirst
          · exact hLater
        rw [taskCancel_of_free hApart]
        apply @ih (self.change (·.taskCancel first))
          hLocked hOthers hLater
        rw [← hPointer]
        exact self.pools.pool_taskCancel first task

------------------------------------------------------------
-- Stopping
------------------------------------------------------------

/- The tasks that `stop` cancels. -/
def Active
    (taskpools : Taskpools P T)
    (p : P)
    (task : T) : Prop :=
  task ∈ taskpools.pendingTasks p ∨
    task ∈ taskpools.runningTasks p

/- None of them points to the pool. -/
def ApartFrom
    (taskpools : Taskpools P T)
    (p : P) : Prop :=
  ∀ task, taskpools.Active p task →
    (taskpools.pools.tasks task).pool ≠ some p

/- What `stop` ends with. -/
structure Stopped
    (taskpools next : Taskpools P T)
    (p : P) : Prop where
  pendingTasks : next.pendingTasks p = []
  cancelled :
    ∀ task, taskpools.Active p task →
      (next.pools.tasks task).cancelled = true

/- While `stop` walks along the pending tasks. -/
def looping
    (self : Taskpools P T)
    (p : P) : Taskpools P T :=
  ({ self with
    locked := Function.update self.locked p true }.setQuit
      p).setIterated p true

/- While it walks along the running ones. -/
def clearing
    (self : Taskpools P T)
    (p : P) : Taskpools P T :=
  ((self.looping p).change
    (·.cancelAll (self.pendingTasks p))).clearPending p

section Stop

variable {self : Taskpools P T}
variable {p : P}

omit [DecidableEq T] in
theorem freeAt_looping
    (hFree : self.Free)
    {q : P}
    (hOther : q ≠ p) :
    (self.looping p).FreeAt q := by
  constructor
  · simp [looping, setQuit, change, setIterated, hOther,
      (hFree q).1]
  · simp [looping, setQuit, change, setIterated, hOther,
      (hFree q).2]

omit [DecidableEq T] in
theorem locked_looping :
    (self.looping p).locked p = true := by
  simp [looping, setQuit, change, setIterated]

theorem cancelAll_looping
    (hFree : self.Free)
    (hApart :
      ∀ task ∈ self.pendingTasks p,
        (self.pools.tasks task).pool ≠ some p) :
    (self.looping p).cancelAll (self.pendingTasks p) =
      .ok ((self.looping p).change
        (·.cancelAll (self.pendingTasks p))) := by
  apply cancelAll_of_free
  intro task hMem q hPointer
  apply freeAt_looping hFree
  rintro rfl
  exact hApart task hMem hPointer

theorem freeAt_clearing
    (hFree : self.Free)
    {q : P}
    (hOther : q ≠ p) :
    (self.clearing p).FreeAt q := by
  rcases freeAt_looping hFree hOther with
    ⟨hLocked, hIterated⟩
  constructor
  · exact hLocked
  · simpa [clearing, clearPending, change, setIterated,
      hOther] using hIterated

theorem locked_clearing :
    (self.clearing p).locked p = true := by
  simp [clearing, clearPending, looping, setQuit, change,
    setIterated]

theorem pool_clearing (task : T) :
    ((self.clearing p).pools.tasks task).pool =
      (self.pools.tasks task).pool :=
  Pools.pool_cancelAll _ _ task

theorem runningTasks_clearing :
    (self.clearing p).runningTasks p =
      self.runningTasks p := by
  have hKept :=
    (self.looping p).pools.runningTasks_cancelAll
      (self.pendingTasks p) p
  simp only [clearing, clearPending, runningTasks, change,
    Pools.modify, setIterated, Function.update_self, hKept]
  simp [looping, setQuit, change, setIterated, Pools.modify]

omit [DecidableEq T] in
theorem lock_of_free
    (hFree : self.FreeAt p) :
    self.lock p =
      .ok { self with
        locked := Function.update self.locked p true } := by
  simp [lock, hFree.1]

omit [DecidableEq T] in
theorem pendingTasks_quitting :
    ({ self with
      locked :=
        Function.update self.locked p true }.setQuit
          p).pendingTasks p =
      self.pendingTasks p := by
  simp [setQuit, change, pendingTasks, Pools.modify]

/- The first loop of `stop` that fails is its end. -/
theorem stop_of_pending_error
    (hFree : self.Free)
    {fault : PoolFault}
    (hPending :
      (self.looping p).cancelAll (self.pendingTasks p) =
        .error fault) :
    self.stop p = .error fault := by
  unfold looping at hPending
  unfold stop
  rw [lock_of_free (hFree p)]
  simp only [bind, Except.bind, pendingTasks_quitting,
    hPending]

/- Otherwise there is a second one. -/
theorem stop_of_pending_ok
    (hFree : self.Free)
    (hPending :
      (self.looping p).cancelAll (self.pendingTasks p) =
        .ok ((self.looping p).change
          (·.cancelAll (self.pendingTasks p)))) :
    self.stop p =
      ((self.clearing p).cancelAll (self.runningTasks p)).map
        (·.unlock p) := by
  have hClearing :
      ((self.looping p).change
        (·.cancelAll (self.pendingTasks p))).clearPending p =
          self.clearing p :=
    rfl
  have hFirst := hPending
  conv at hFirst =>
    lhs
    unfold looping
  unfold stop
  rw [lock_of_free (hFree p)]
  simp only [bind, Except.bind, pendingTasks_quitting, hFirst,
    hClearing, runningTasks_clearing]
  cases (self.clearing p).cancelAll (self.runningTasks p) with
  | error fault => rfl
  | ok stopped => rfl

/- With no pointer to the pool, `stop` comes to its end. -/
theorem stop_of_apart
    (hFree : self.Free)
    (hApart : self.ApartFrom p) :
    ∃ next, self.stop p = .ok next ∧ next.Free ∧
      self.Stopped next p := by
  have hPending := cancelAll_looping hFree
    fun task hMem => hApart task (.inl hMem)
  have hRunning :
      (self.clearing p).cancelAll (self.runningTasks p) =
        .ok ((self.clearing p).change
          (·.cancelAll (self.runningTasks p))) := by
    apply cancelAll_of_free
    intro task hMem q hPointer
    apply freeAt_clearing hFree
    rintro rfl
    rw [pool_clearing] at hPointer
    exact hApart task (.inr hMem) hPointer
  rw [stop_of_pending_ok hFree hPending, hRunning]
  refine ⟨_, rfl, ?_, ?_⟩
  · intro q
    by_cases hOther : q = p
    · subst hOther
      constructor
      · simp [unlock]
      · simp [unlock, change, clearing, clearPending,
          setIterated]
    · have hAt := freeAt_clearing hFree hOther
      constructor
      · simpa [unlock, change, hOther] using hAt.1
      · simpa [unlock, change] using hAt.2
  · constructor
    · apply Pools.pendingTasks_cancelAll
      simp [clearing, clearPending, change, Pools.modify]
    · intro task hActive
      apply Pools.cancelled_cancelAll
      rcases hActive with hPending | hRunning
      · right
        exact Pools.cancelled_cancelAll (.inl hPending)
      · exact .inl hRunning

/- With one, it waits for itself. -/
theorem stop_of_pointing
    (hFree : self.Free)
    (hPointing : ¬ self.ApartFrom p) :
    self.stop p = .error .deadlock := by
  by_cases hPending :
      ∀ task ∈ self.pendingTasks p,
        (self.pools.tasks task).pool ≠ some p
  · have hRunning :
        ∃ task ∈ self.runningTasks p,
          (self.pools.tasks task).pool = some p := by
      by_contra hNone
      apply hPointing
      intro task hActive hPointer
      rcases hActive with hMem | hMem
      · exact hPending task hMem hPointer
      · exact hNone ⟨task, hMem, hPointer⟩
    rcases hRunning with ⟨task, hMem, hPointer⟩
    rw [← pool_clearing] at hPointer
    rw [stop_of_pending_ok hFree
        (cancelAll_looping hFree hPending),
      cancelAll_of_locked locked_clearing
        (fun q => freeAt_clearing hFree) hMem hPointer]
    rfl
  · have hSome :
        ∃ task ∈ self.pendingTasks p,
          (self.pools.tasks task).pool = some p := by
      by_contra hNone
      apply hPending
      intro task hMem hPointer
      exact hNone ⟨task, hMem, hPointer⟩
    rcases hSome with ⟨task, hMem, hPointer⟩
    apply stop_of_pending_error hFree
    apply cancelAll_of_locked locked_looping
      (fun q => freeAt_looping hFree) hMem hPointer

end Stop

------------------------------------------------------------
-- All Other Functions
------------------------------------------------------------

/- No mutex is held afterwards that was not held before: only
   pools and tasks have changed, unless a null pointer was
   followed. -/
def Proceeds
    (taskpools : Taskpools P T)
    (outcome : Except PoolFault (Taskpools P T)) : Prop :=
  outcome = .error .nullPointer ∨
    ∃ f, outcome = .ok (taskpools.change f)

section Proceeding

variable {self : Taskpools P T}

omit [DecidableEq P] [DecidableEq T] in
theorem proceeds_ok
    (f : Pools P T → Pools P T) :
    self.Proceeds (.ok (self.change f)) :=
  .inr ⟨f, rfl⟩

omit [DecidableEq P] [DecidableEq T] in
theorem proceeds_self : self.Proceeds (.ok self) :=
  .inr ⟨id, rfl⟩

omit [DecidableEq P] [DecidableEq T] in
theorem Proceeds.bind
    {outcome : Except PoolFault (Taskpools P T)}
    (hFirst : self.Proceeds outcome)
    {g : Taskpools P T → Except PoolFault (Taskpools P T)}
    (hThen : ∀ f,
      (self.change f).Proceeds (g (self.change f))) :
    self.Proceeds (outcome.bind g) := by
  rcases hFirst with hNull | ⟨f, hOk⟩
  · left
    rw [hNull]
    rfl
  · rw [hOk]
    rcases hThen f with hNull | ⟨next, hNext⟩
    · exact .inl hNull
    · exact .inr ⟨next ∘ f, hNext⟩

theorem proceeds_withLock
    (hFree : self.Free)
    (p : P)
    (body : Pools P T → Pools P T) :
    self.Proceeds (self.withLock p body) :=
  .inr ⟨body, withLock_of_free (hFree p) body⟩

theorem proceeds_taskCancel
    (hFree : self.Free)
    (task : T) :
    self.Proceeds (self.taskCancel task) :=
  .inr ⟨_, taskCancel_of_free fun p _ => hFree p⟩

theorem proceeds_cancelTaskGroup
    (hFree : self.Free)
    (p : P)
    (groupId : Nat) :
    self.Proceeds (self.cancelTaskGroup p groupId) := by
  apply (proceeds_withLock hFree p _).bind
  intro f
  exact .inr ⟨_, cancelAll_of_free fun _ _ q _ => hFree q⟩

theorem proceeds_taskMakeRunnable
    (hFree : self.Free)
    (task : T) :
    self.Proceeds (self.taskMakeRunnable task) := by
  unfold taskMakeRunnable
  split
  · exact proceeds_withLock hFree _ _
  · exact proceeds_self

theorem proceeds_submit
    (hFree : self.Free)
    (p : P)
    (task : T)
    (isRunnable : Bool) :
    self.Proceeds (self.submit p task isRunnable) := by
  unfold submit
  split
  · exact proceeds_withLock hFree p _
  · exact proceeds_ok _

theorem proceeds_leave
    (hFree : self.Free)
    (task : T) :
    self.Proceeds (self.leave task) := by
  unfold leave
  split
  · exact proceeds_withLock hFree _ _
  · exact proceeds_self

/- A submission proceeds if entering the pool does. -/
theorem proceeds_submitBy
    (hFree : self.Free)
    {enter :
      Taskpools P T → P → Except PoolFault (Taskpools P T)}
    (hEnter : ∀ (free : Taskpools P T) p,
      free.Free → free.Proceeds (enter free p))
    (task : T)
    (pool : Option P) :
    self.Proceeds
      ((self.submitBy enter task pool).map Prod.snd) := by
  unfold submitBy
  split
  · exact proceeds_self
  · rcases proceeds_leave hFree task with hNull | ⟨f, hLeft⟩
    · left
      rw [hNull]
      rfl
    · rw [hLeft]
      cases pool with
      | none => exact .inl rfl
      | some p =>
          have hEntered := hEnter
            ((self.change f).change
              (·.setPool task (some p))) p hFree
          simp only [bind, Except.bind]
          rcases hEntered with hNull | ⟨g, hOk⟩
          · left
            rw [hNull]
            rfl
          · right
            rw [hOk]
            exact ⟨g ∘ (·.setPool task (some p)) ∘ f, rfl⟩

theorem proceeds_submitCall
    (hFree : self.Free)
    (task : T)
    (call : SubmitCall P) :
    self.Proceeds ((self.submitCall task call).map Prod.snd) := by
  have hSubmit := fun isRunnable pool =>
    proceeds_submitBy hFree (fun (free : Taskpools P T) p hFree =>
      proceeds_submit hFree p task isRunnable) task pool
  have hAfter := fun now delay pool =>
    proceeds_submitBy hFree (fun (free : Taskpools P T) p hFree =>
      proceeds_withLock hFree p
        (·.modify p (·.after task (now + delay)))) task pool
  cases call with
  | toPool pool isRunnable => exact hSubmit isRunnable pool
  | toDefault isRunnable =>
      simp only [submitCall, taskSubmitDefault]
      split
      · exact proceeds_self
      · split
        · exact hSubmit isRunnable _
        · exact proceeds_self
  | toPoolAfter pool now delay => exact hAfter now delay pool
  | toDefaultAfter now delay =>
      simp only [submitCall, taskSubmitDefaultAfter]
      split
      · exact hAfter now delay _
      · exact proceeds_self

theorem proceeds_work
    (hFree : self.Free)
    (p : P)
    (threadIdx : Nat)
    (step : LoopStep) :
    self.Proceeds (self.work p threadIdx step) := by
  unfold work
  split
  · exact proceeds_withLock hFree p _
  · exact proceeds_withLock hFree p _
  · exact proceeds_withLock hFree p _
  · exact proceeds_ok _
  · exact proceeds_withLock hFree p _
  · dsimp only
    split
    · rename_i task _ _
      exact .inr ⟨fun pools =>
        (pools.setWorker p threadIdx .idle).suspend p task, rfl⟩
    · exact proceeds_ok _
  · exact proceeds_self

/- What happens other than a `stop`. -/
theorem proceeds_step
    (hFree : self.Free)
    {event : PoolsEvent P T}
    (hOther : ∀ p, event ≠ .stop p) :
    self.Proceeds (self.step event) := by
  cases event with
  | submitCall task call => exact proceeds_submitCall hFree _ _
  | taskCancel task => exact proceeds_taskCancel hFree task
  | taskMakeRunnable task =>
      exact proceeds_taskMakeRunnable hFree task
  | setGroupId task groupId => exact proceeds_ok _
  | submit p task isRunnable =>
      exact proceeds_submit hFree p task isRunnable
  | suspend p task => exact proceeds_ok _
  | after p task now delay =>
      exact proceeds_withLock hFree p _
  | remove p task => exact proceeds_withLock hFree p _
  | makeRunnable p task => exact proceeds_withLock hFree p _
  | cancelTaskGroup p groupId =>
      exact proceeds_cancelTaskGroup hFree p groupId
  | updateStatus p => exact proceeds_withLock hFree p _
  | stop p => exact absurd rfl (hOther p)
  | setDefault pool => exact proceeds_ok _
  | work p threadIdx step =>
      exact proceeds_work hFree p threadIdx step
  | returns p threadIdx status =>
      simp only [Taskpools.step, returns]
      split
      · exact proceeds_ok _
      · exact proceeds_self

end Proceeding

------------------------------------------------------------
-- Runs
------------------------------------------------------------

omit [DecidableEq P] [DecidableEq T] in
theorem free_construct (groupId : T → Nat) :
    (construct groupId : Taskpools P T).Free :=
  fun _ => ⟨rfl, rfl⟩

/- Between two calls every mutex is free. -/
theorem Free.step
    {self next : Taskpools P T}
    (hFree : self.Free)
    {event : PoolsEvent P T}
    (hNext : self.step event = .ok next) :
    next.Free := by
  by_cases hStop : ∃ p, event = .stop p
  · rcases hStop with ⟨p, rfl⟩
    by_cases hApart : self.ApartFrom p
    · rcases stop_of_apart hFree hApart with
        ⟨stopped, hStopped, hStill, -⟩
      rw [Taskpools.step, hStopped] at hNext
      cases hNext
      exact hStill
    · rw [Taskpools.step, stop_of_pointing hFree hApart]
        at hNext
      cases hNext
  · have hOther : ∀ p, event ≠ .stop p :=
      fun p hEvent => hStop ⟨p, hEvent⟩
    rcases proceeds_step hFree hOther with
      hNull | ⟨f, hOk⟩
    · rw [hNull] at hNext
      cases hNext
    · rw [hOk] at hNext
      cases hNext
      exact hFree

theorem Free.run
    {self next : Taskpools P T}
    (hFree : self.Free)
    {events : List (PoolsEvent P T)}
    (hNext : self.run events = .ok next) :
    next.Free := by
  induction events generalizing self with
  | nil =>
      cases hNext
      exact hFree
  | cons event events ih =>
      rcases exists_step_of_run_cons hNext with
        ⟨first, hStep, hRest⟩
      exact ih (hFree.step hStep) hRest

/- A call takes no mutex that it has, changes no list that a
   loop walks along, and if it is `stop`, leaves nothing to be
   done. -/
structure Orderly
    (taskpools : Taskpools P T)
    (event : PoolsEvent P T) : Prop where
  noDeadlock : taskpools.step event ≠ .error .deadlock
  valid : taskpools.step event ≠ .error .invalidated
  stopped :
    ∀ p next, event = .stop p →
      taskpools.step event = .ok next →
        taskpools.Stopped next p

/- A pool is stopped only when none of its pending and running
   tasks points to it. -/
def Apart (taskpools : Taskpools P T) : PoolsEvent P T → Prop
  | .stop p =>
      ∀ task,
        task ∈ taskpools.pendingTasks p ∨
            task ∈ taskpools.runningTasks p →
          (taskpools.pools.tasks task).pool ≠ some p
  | _ => True

theorem Free.orderly_iff_apart
    {self : Taskpools P T}
    (hFree : self.Free)
    (event : PoolsEvent P T) :
    self.Orderly event ↔ self.Apart event := by
  by_cases hStop : ∃ p, event = .stop p
  · rcases hStop with ⟨p, rfl⟩
    constructor
    · intro hOrderly
      by_contra hPointing
      exact hOrderly.noDeadlock
        (stop_of_pointing hFree hPointing)
    · intro hApart
      rcases stop_of_apart hFree hApart with
        ⟨next, hNext, -, hStopped⟩
      have hStep : self.step (.stop p) = .ok next := hNext
      constructor
      · rw [hStep]
        intro hFault
        cases hFault
      · rw [hStep]
        intro hFault
        cases hFault
      · intro q other hEvent hOther
        cases hEvent
        rw [hStep] at hOther
        cases hOther
        exact hStopped
  · have hOther : ∀ p, event ≠ .stop p :=
      fun p hEvent => hStop ⟨p, hEvent⟩
    have hApart : self.Apart event := by
      cases event with
      | stop p => exact absurd rfl (hOther p)
      | _ => exact True.intro
    refine ⟨fun _ => hApart, fun _ => ?_⟩
    constructor
    · rcases proceeds_step hFree hOther with hNull | ⟨f, hOk⟩
      · simp [hNull]
      · simp [hOk]
    · rcases proceeds_step hFree hOther with hNull | ⟨f, hOk⟩
      · simp [hNull]
      · simp [hOk]
    · intro p next hEvent
      exact absurd hEvent (hOther p)

/-
  In a run of pools no call takes a mutex twice exactly if no
  pool is stopped while one of its pending or running tasks
  points to it.
-/
theorem orderly_iff
    (groupId : T → Nat)
    (events : List (PoolsEvent P T)) :
    (∀ front event back, events = front ++ event :: back →
      ∀ reached,
        (construct groupId).run front = .ok reached →
          reached.Orderly event) ↔
      ∀ front event back, events = front ++ event :: back →
        ∀ reached,
          (construct groupId).run front = .ok reached →
            reached.Apart event := by
  have hEach : ∀ front event (reached : Taskpools P T),
      (construct groupId).run front = .ok reached →
        (reached.Orderly event ↔ reached.Apart event) := by
    intro front event reached hReached
    exact ((free_construct groupId).run hReached).orderly_iff_apart
      event
  constructor
  · intro hAll front event back hSplit reached hReached
    exact (hEach front event reached hReached).mp
      (hAll front event back hSplit reached hReached)
  · intro hAll front event back hSplit reached hReached
    exact (hEach front event reached hReached).mpr
      (hAll front event back hSplit reached hReached)

/- A pool with one task that was submitted cannot be stopped. -/
theorem not_orderly_of_submitted :
    ∃ reached : Taskpools Unit Unit,
      (construct fun _ => 0).run
          [.submitCall () (.toPool (some ()) true)] =
        .ok reached ∧
      ¬ reached.Orderly (.stop ()) := by
  refine ⟨_, rfl, ?_⟩
  intro hOrderly
  exact hOrderly.noDeadlock rfl

end Taskpools

end OefCore
