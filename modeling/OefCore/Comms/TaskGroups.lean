import OefCore.Threading.GroupCancellation

/-
  The task groups of connections: identity numbers that are
  read from a count of live endpoints, and what closing one
  connection cancels.

  Main declarations:
    * `GroupEvent`, `GroupRun`, `GroupRun.step`
    * `GroupRun.OwnGroups`, `GroupRun.NumberFree`
    * `GroupRun.ownGroups_iff`
-/

namespace OefCore

------------------------------------------------------------
-- Runs
------------------------------------------------------------

variable {T : Type}

/-
  Endpoints are known by the order of their construction.  A
  task is created while a message of an endpoint is
  processed; `closed` is the end of the handler of an endpoint
  for the end of its connection.
-/
inductive GroupEvent (T : Type) where
  | construct
  | destruct (endpoint : Nat)
  | create (endpoint : Nat) (task : T)
  | closed (endpoint : Nat)
  | pool (event : PoolEvent T)

/- `count` is the gauge, `idents` has the number of each
   endpoint that is alive, and `creator` whose message a task
   was created for. -/
structure GroupRun (T : Type) where
  count : Nat
  constructed : Nat
  idents : Nat → Option Nat
  creator : T → Option Nat
  tasks : PoolRun T

namespace GroupRun

variable [DecidableEq T]

def start (groupId : T → Nat) : GroupRun T where
  count := 0
  constructed := 0
  idents := fun _ => none
  creator := fun _ => none
  tasks := PoolRun.start groupId

/- `count++`, and then `ident = count.get()`. -/
def construct (r : GroupRun T) : GroupRun T :=
  { r with
    count := r.count + 1
    constructed := r.constructed + 1
    idents :=
      Function.update r.idents r.constructed
        (some (r.count + 1)) }

/- A task takes the group of its thread, which the handler for
   messages has set to the number of its endpoint. -/
def create
    (r : GroupRun T)
    (endpoint ident : Nat)
    (task : T) : GroupRun T :=
  let pool := r.tasks.pool
  { r with
    creator := Function.update r.creator task (some endpoint)
    tasks :=
      { r.tasks with
        pool :=
          { pool with
            tasks :=
              Function.update pool.tasks task
                { pool.tasks task with groupId := ident } } } }

/- Nothing happens to endpoints that are not alive, and a task
   is created once. -/
def step (r : GroupRun T) : GroupEvent T → GroupRun T
  | .construct => r.construct
  | .destruct endpoint =>
      match r.idents endpoint with
      | some _ =>
          { r with
            count := r.count - 1
            idents := Function.update r.idents endpoint none }
      | none => r
  | .create endpoint task =>
      match r.idents endpoint, r.creator task with
      | some ident, none => r.create endpoint ident task
      | _, _ => r
  | .closed endpoint =>
      match r.idents endpoint with
      | some ident =>
          { r with
            tasks := r.tasks.step (.cancelTaskGroup ident) }
      | none => r
  | .pool event => { r with tasks := r.tasks.step event }

def run
    (r : GroupRun T)
    (events : List (GroupEvent T)) : GroupRun T :=
  events.foldl step r

theorem run_snoc
    (r : GroupRun T)
    (events : List (GroupEvent T))
    (event : GroupEvent T) :
    r.run (events ++ [event]) = (r.run events).step event := by
  simp [run]

------------------------------------------------------------
-- What Is Promised
------------------------------------------------------------

/- Endpoints that are alive have different numbers. -/
def Distinct (r : GroupRun T) : Prop :=
  ∀ endpoint other ident,
    r.idents endpoint = some ident →
      r.idents other = some ident → endpoint = other

/-
  Live endpoints have groups of their own; and where the last
  event closes one of them, the tasks created for messages of
  another live one are left alone.
-/
structure OwnGroups
    (r : GroupRun T)
    (events : List (GroupEvent T)) : Prop where
  distinct : (r.run events).Distinct
  alone :
    ∀ front endpoint other task,
      events = front ++ [.closed endpoint] →
        other ≠ endpoint →
          (r.run front).idents other ≠ none →
            (r.run front).creator task = some other →
              PoolRun.Alike (r.run front).tasks
                (r.run events).tasks task

/- No live endpoint has the number that a new one would get,
   which is one more than there are live ones. -/
def NumberFree
    (r : GroupRun T)
    (event : GroupEvent T) : Prop :=
  event = .construct →
    ∀ endpoint, r.idents endpoint ≠ some (r.count + 1)

------------------------------------------------------------
-- The Invariant
------------------------------------------------------------

/- Numbers are distinct, and a task has the number of the
   endpoint it was created for as its group. -/
structure Grouped (r : GroupRun T) : Prop where
  distinct : r.Distinct
  constructed :
    ∀ endpoint, r.constructed ≤ endpoint →
      r.idents endpoint = none
  creator :
    ∀ task endpoint, r.creator task = some endpoint →
      endpoint < r.constructed
  group :
    ∀ task endpoint ident,
      r.creator task = some endpoint →
        r.idents endpoint = some ident →
          (r.tasks.pool.tasks task).groupId = ident

omit [DecidableEq T] in
theorem grouped_start (groupId : T → Nat) :
    (start groupId).Grouped where
  distinct _ _ _ hNone := by cases hNone
  constructed _ _ := rfl
  creator _ _ hNone := by cases hNone
  group _ _ _ hNone := by cases hNone

section Steps

variable {r : GroupRun T}

omit [DecidableEq T] in
theorem Grouped.construct
    (hGrouped : r.Grouped)
    (hFree : r.NumberFree .construct) :
    r.construct.Grouped := by
  have hNot := hFree rfl
  constructor
  · intro endpoint other ident hFirst hSecond
    simp only [GroupRun.construct] at hFirst hSecond
    by_cases hNew : endpoint = r.constructed
    · by_cases hOther : other = r.constructed
      · rw [hNew, hOther]
      · rw [hNew, Function.update_self, Option.some.injEq]
          at hFirst
        rw [Function.update_of_ne hOther, ← hFirst] at hSecond
        exact absurd hSecond (hNot other)
    · rw [Function.update_of_ne hNew] at hFirst
      by_cases hOther : other = r.constructed
      · rw [hOther, Function.update_self, Option.some.injEq]
          at hSecond
        rw [← hSecond] at hFirst
        exact absurd hFirst (hNot endpoint)
      · rw [Function.update_of_ne hOther] at hSecond
        exact hGrouped.distinct endpoint other ident hFirst
          hSecond
  · intro endpoint hLate
    simp only [GroupRun.construct] at hLate ⊢
    rw [Function.update_of_ne (by omega)]
    exact hGrouped.constructed endpoint (by omega)
  · intro task endpoint hCreator
    have hBefore := hGrouped.creator task endpoint hCreator
    simp only [GroupRun.construct]
    omega
  · intro task endpoint ident hCreator hIdent
    have hBefore := hGrouped.creator task endpoint hCreator
    simp only [GroupRun.construct] at hIdent
    rw [Function.update_of_ne (by omega)] at hIdent
    exact hGrouped.group task endpoint ident hCreator hIdent

omit [DecidableEq T] in
theorem Grouped.destruct
    (hGrouped : r.Grouped)
    (endpoint : Nat)
    (count : Nat) :
    { r with
      count := count
      idents :=
        Function.update r.idents endpoint none }.Grouped := by
  have hBefore : ∀ {other ident},
      Function.update r.idents endpoint none other =
          some ident →
        r.idents other = some ident := by
    intro other ident hSome
    exact
      (Taskpool.Single.held_of_update_none hSome).2
  constructor
  · intro first second ident hFirst hSecond
    exact hGrouped.distinct first second ident (hBefore hFirst)
      (hBefore hSecond)
  · intro other hLate
    by_cases hOther : other = endpoint
    · simp [hOther]
    · simp only [Function.update_of_ne hOther]
      exact hGrouped.constructed other hLate
  · exact hGrouped.creator
  · intro task other ident hCreator hIdent
    exact hGrouped.group task other ident hCreator
      (hBefore hIdent)

theorem Grouped.create
    (hGrouped : r.Grouped)
    {endpoint ident : Nat}
    {task : T}
    (hIdent : r.idents endpoint = some ident) :
    (r.create endpoint ident task).Grouped := by
  have hOld : endpoint < r.constructed := by
    by_contra hLate
    have hNone := hGrouped.constructed endpoint (by omega)
    rw [hNone] at hIdent
    cases hIdent
  constructor
  · exact hGrouped.distinct
  · exact hGrouped.constructed
  · intro other creator hCreator
    simp only [GroupRun.create] at hCreator ⊢
    by_cases hOther : other = task
    · rw [hOther, Function.update_self, Option.some.injEq]
        at hCreator
      rw [← hCreator]
      exact hOld
    · rw [Function.update_of_ne hOther] at hCreator
      exact hGrouped.creator other creator hCreator
  · intro other creator number hCreator hNumber
    simp only [GroupRun.create] at hCreator hNumber ⊢
    by_cases hOther : other = task
    · rw [hOther, Function.update_self, Option.some.injEq]
        at hCreator
      rw [← hCreator, hIdent, Option.some.injEq] at hNumber
      rw [hOther, Function.update_self]
      exact hNumber
    · rw [Function.update_of_ne hOther] at hCreator ⊢
      exact hGrouped.group other creator number hCreator
        hNumber

theorem Grouped.pool
    (hGrouped : r.Grouped)
    (event : PoolEvent T) :
    { r with tasks := r.tasks.step event }.Grouped where
  distinct := hGrouped.distinct
  constructed := hGrouped.constructed
  creator := hGrouped.creator
  group := by
    intro task endpoint ident hCreator hIdent
    have hAged := PoolRun.aged_step r.tasks event task
    exact hAged.groupId.trans
      (hGrouped.group task endpoint ident hCreator hIdent)

theorem Grouped.step
    (hGrouped : r.Grouped)
    {event : GroupEvent T}
    (hFree : r.NumberFree event) :
    (r.step event).Grouped := by
  cases event with
  | construct => exact hGrouped.construct hFree
  | destruct endpoint =>
      simp only [GroupRun.step]
      split
      · exact hGrouped.destruct endpoint _
      · exact hGrouped
  | create endpoint task =>
      simp only [GroupRun.step]
      split
      · rename_i ident hIdent hNew
        exact hGrouped.create hIdent
      · exact hGrouped
  | closed endpoint =>
      simp only [GroupRun.step]
      split
      · exact hGrouped.pool _
      · exact hGrouped
  | pool event => exact hGrouped.pool event

/- Closing an endpoint leaves the tasks of the others alone. -/
theorem Grouped.alone
    (hGrouped : r.Grouped)
    {endpoint other : Nat}
    {task : T}
    (hOther : other ≠ endpoint)
    (hAlive : r.idents other ≠ none)
    (hCreator : r.creator task = some other) :
    PoolRun.Alike r.tasks (r.step (.closed endpoint)).tasks
      task := by
  simp only [GroupRun.step]
  cases hEndpoint : r.idents endpoint with
  | none =>
      exact
        { pending := rfl
          suspended := rfl
          future := fun _ _ => rfl
          running := rfl
          task := rfl }
  | some ident =>
      rcases Option.ne_none_iff_exists'.mp hAlive with
        ⟨number, hNumber⟩
      apply PoolRun.alike_cancelTaskGroup
      rw [hGrouped.group task other number hCreator hNumber]
      intro hEq
      rw [hEq] at hNumber
      exact hOther
        (hGrouped.distinct other endpoint ident hNumber
          hEndpoint)

end Steps

------------------------------------------------------------
-- Groups of Their Own
------------------------------------------------------------

/-
  Along a run, closing a connection cancels only its own tasks
  exactly if each new endpoint gets a number that no live one
  has.
-/
theorem ownGroups_iff
    (groupId : T → Nat)
    (events : List (GroupEvent T)) :
    (∀ front, front <+: events →
      (start groupId).OwnGroups front) ↔
      ∀ front event back,
        events = front ++ event :: back →
          ((start groupId).run front).NumberFree event := by
  apply Runs.forall_prefix_iff
    fun front =>
      ((start groupId).run front).Grouped ∧
        (start groupId).OwnGroups front
  · refine ⟨grouped_start groupId,
      (grouped_start groupId).distinct, ?_⟩
    intro front endpoint other task hNil
    exact absurd hNil (by simp)
  · exact fun _ hBoth => hBoth.2
  · intro front event _ _ hBoth hFree
    have hNext := hBoth.1.step hFree
    rw [← run_snoc] at hNext
    refine ⟨hNext, hNext.distinct, ?_⟩
    intro most endpoint other task hSplit hOther hAlive hCreator
    have hParts := List.append_inj' hSplit rfl
    have hLast : event = .closed endpoint := by
      simpa using hParts.2
    subst hLast
    rw [← hParts.1] at hAlive hCreator ⊢
    rw [run_snoc]
    exact hBoth.1.alone hOther hAlive hCreator
  · intro front event _ _ hBoth hOwn hConstruct endpoint hTaken
    subst hConstruct
    have hDistinct := hOwn.distinct
    rw [run_snoc] at hDistinct
    have hOld :
        endpoint < ((start groupId).run front).constructed := by
      by_contra hLate
      have hNone := hBoth.1.constructed endpoint (by omega)
      rw [hNone] at hTaken
      cases hTaken
    have hEq := hDistinct endpoint
      ((start groupId).run front).constructed
      (((start groupId).run front).count + 1)
      (by
        simp only [step, construct]
        rw [Function.update_of_ne (by omega)]
        exact hTaken)
      (by simp [step, construct])
    omega

/- The first of two connections ends, and a third one gets the
   number of the second. -/
theorem not_ownGroups_of_reconnect :
    ¬ ∀ front, front <+:
      [.construct, .construct, .destruct 0, .construct] →
        (start fun _ : Unit => 0).OwnGroups front := by
  intro hAll
  have hOwn := hAll _ (List.prefix_refl _)
  have hEq := hOwn.distinct 1 2 2 rfl rfl
  cases hEq

end GroupRun

end OefCore
