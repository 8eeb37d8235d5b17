import Mathlib.Algebra.Order.Group.Multiset
import Mathlib.Tactic.Common

/-
  Priority queues of which only the behaviour is known: what
  is on top has a least key among the contents.

  Nothing is said of the order among equal keys.

  Main declarations:
    * `PriorityQueue`
    * `PriorityQueue.card_pop_lt`
-/

------------------------------------------------------------
-- Queues
------------------------------------------------------------

/- The operations of a queue of entries with keys, and what
   they do to its contents. -/
structure PriorityQueue
    {E K : Type}
    [LE K]
    (key : E → K) where
  Queue : Type
  empty : Queue
  push : Queue → E → Queue
  top : Queue → Option E
  pop : Queue → Queue
  contents : Queue → Multiset E
  contents_empty : contents empty = 0
  contents_push :
    ∀ queue entry,
      contents (push queue entry) = entry ::ₘ contents queue
  contents_of_none :
    ∀ queue, top queue = none → contents queue = 0
  contents_of_some :
    ∀ queue entry,
      top queue = some entry →
        contents queue = entry ::ₘ contents (pop queue)
  key_top_le :
    ∀ queue entry,
      top queue = some entry →
        ∀ other ∈ contents queue, key entry ≤ key other

namespace PriorityQueue

variable {E K : Type} [LE K] {key : E → K}
variable (self : PriorityQueue key)
variable {queue : self.Queue} {entry : E}

theorem card_pop_lt
    (hTop : self.top queue = some entry) :
    (self.contents (self.pop queue)).card <
      (self.contents queue).card := by
  rw [self.contents_of_some queue entry hTop,
    Multiset.card_cons]
  exact Nat.lt_succ_self _

end PriorityQueue
