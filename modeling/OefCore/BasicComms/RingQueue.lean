import OefCore.BasicComms.RingBuffer
import OefCore.Library.BoundedQueue
import OefCore.Library.Runs

/-
  `RingBuffer` as a first-in first-out queue of bytes.

  Bytes get in through the buffers for space and out through
  the buffers with data, each time as a prefix of what these
  offer.

  Main declarations:
    * `RingRun.step`, `RingRun.run`
    * `RingBuffer.Refines`
    * `RingRun.AsQueue`
    * `RingRun.asQueue_iff`
-/

------------------------------------------------------------
-- Runs
------------------------------------------------------------

namespace OefCore

inductive RingEvent where
  | fill (bytes : List UInt8)
  | read (count : Nat)
  deriving DecidableEq, Repr

/- A ring buffer, with the bytes that were read from it. -/
structure RingRun where
  ring : RingBuffer
  readOut : List UInt8

namespace RingRun

def ofSize (size : Nat) : RingRun :=
  { ring := RingBuffer.ofSize size, readOut := [] }

def step (self : RingRun) : RingEvent → RingRun
  | .fill bytes =>
      let space := addresses self.ring.getSpaceBuffers
      { self with
        ring := self.ring.filled (bytes.take space.length) }
  | .read count =>
      let bytes := self.ring.getDataBuffers.flatten.take count
      { ring := self.ring.markDataUsed bytes.length
        readOut := self.readOut ++ bytes }

def run (self : RingRun) (events : List RingEvent) : RingRun :=
  events.foldl step self

theorem run_snoc
    (self : RingRun)
    (events : List RingEvent)
    (event : RingEvent) :
    self.run (events ++ [event]) =
      (self.run events).step event := by
  simp only [run, List.foldl_append, List.foldl_cons,
    List.foldl_nil]

end RingRun

/- What an event means to a queue. -/
def RingEvent.toQueue : RingEvent → BoundedQueue.Event UInt8
  | .fill bytes => .put bytes
  | .read count => .get count

------------------------------------------------------------
-- Refinement
------------------------------------------------------------

namespace RingBuffer

/- The regions of the store that `getDataBuffers` shows. -/
def dataRegions (b : RingBuffer) : List MutableBuffer :=
  if b.getDataAvailable < b.size then
    let buffer1size :=
      min (b.readp + b.getDataAvailable) b.size - b.readp
    let buffer2size := b.getDataAvailable - buffer1size
    { data := b.readp, size := buffer1size } ::
      (if buffer2size = 0 then
        []
      else
        [{ data := 0, size := buffer2size }])
  else
    []

theorem getDataBuffers_eq_map (b : RingBuffer) :
    b.getDataBuffers =
      b.dataRegions.map
        (fun region => b.bytesAt region.data region.size) := by
  unfold getDataBuffers dataRegions
  split
  · simp only
    split
    · rfl
    · rfl
  · rfl

/- While the store is not full, they are the cells from the
   read position on. -/
theorem addresses_dataRegions
    {b : RingBuffer}
    (hValid : b.Valid)
    (hNotFull : b.getDataAvailable < b.size) :
    addresses b.dataRegions =
      Circular.interval b.size b.readp
        b.getDataAvailable := by
  have hSegments := Circular.segments_eq hValid.readp_lt
    (Nat.le_of_lt hNotFull)
  unfold dataRegions
  rw [if_pos hNotFull, ← hSegments]
  simp only
  split
  · rename_i hOne
    rw [hOne]
    simp [addresses]
  · simp [addresses]

/- A ring buffer of some size does as a queue would. -/
structure Refines
    (b : RingBuffer)
    (size : Nat)
    (queued : List UInt8) : Prop where
  data : b.getDataBuffers.flatten = queued
  space_length :
    (addresses b.getSpaceBuffers).length =
      size - queued.length
  space_nodup : (addresses b.getSpaceBuffers).Nodup
  space_apart :
    ∀ cell ∈ addresses b.getSpaceBuffers,
      cell ∉ addresses b.dataRegions
  space_inside :
    ∀ cell ∈ addresses b.getSpaceBuffers, cell < size
  amounts :
    b.getFreeSpace + b.getDataAvailable = size
  writep :
    b.writep = (b.readp + b.getDataAvailable) % size

/- A ring buffer that is not full does as the queue of its
   contents would. -/
theorem Valid.refines
    {b : RingBuffer}
    (hValid : b.Valid)
    (hNotFull : b.getDataAvailable < b.size) :
    b.Refines b.size b.contents where
  data := flatten_getDataBuffers hValid hNotFull
  space_length := by
    have hAll := hValid.available_add_free
    simp only [addresses_getSpaceBuffers hValid,
      Circular.length_interval, length_contents]
    omega
  space_nodup := by
    rw [addresses_getSpaceBuffers hValid]
    exact Circular.nodup_interval hValid.freeSpace_le
  space_apart := by
    have hAll := hValid.available_add_free
    have hNodup :
        (Circular.interval b.size b.readp
          (b.getDataAvailable + b.getFreeSpace)).Nodup :=
      Circular.nodup_interval (by omega)
    rw [Circular.interval_add] at hNodup
    rcases List.nodup_append.mp hNodup with ⟨-, -, hApart⟩
    rw [addresses_getSpaceBuffers hValid,
      hValid.interval_writep,
      addresses_dataRegions hValid hNotFull]
    intro cell hSpace hData
    exact hApart cell hData cell hSpace rfl
  space_inside := by
    rw [addresses_getSpaceBuffers hValid]
    intro cell hCell
    rcases List.mem_map.mp hCell with ⟨i, -, rfl⟩
    exact Nat.mod_lt _
      (Nat.zero_lt_of_lt hValid.readp_lt)
  amounts := by
    have hAll := hValid.available_add_free
    omega
  writep := hValid.writep_eq

/- A full one does not. -/
theorem Refines.lt
    {b : RingBuffer}
    {size : Nat}
    {queued : List UInt8}
    (hRefines : b.Refines size queued)
    (hSize : b.size = size)
    (hQueued : b.getDataAvailable = queued.length)
    (hPos : 0 < size) :
    b.getDataAvailable < b.size := by
  by_contra hFull
  have hNone := hRefines.data
  rw [getDataBuffers_of_full hFull] at hNone
  have hLength : queued.length = 0 := by
    simp [← hNone]
  omega

end RingBuffer

namespace RingRun

/- The free space is not used up to the last byte. -/
def LeavesSpace (self : RingRun) : RingEvent → Prop
  | .fill bytes => bytes.length < self.ring.getFreeSpace
  | .read _ => True

/- The ring buffer does as a queue, and what was read from it
   and what it shows are the bytes in order of arrival. -/
structure AsQueue
    (ringRun : RingRun)
    (size : Nat)
    (q : BoundedQueue UInt8) : Prop where
  ring : ringRun.ring.Refines size q.queued
  order :
    ringRun.readOut ++ ringRun.ring.getDataBuffers.flatten =
      q.arrived

/- The ring buffer of a run represents the queue of its
   events, and has not been filled up. -/
structure Sound
    (ringRun : RingRun)
    (size : Nat)
    (q : BoundedQueue UInt8) : Prop where
  size_eq : ringRun.ring.size = size
  valid : ringRun.ring.Valid
  contents : ringRun.ring.contents = q.queued
  notFull : ringRun.ring.getDataAvailable < ringRun.ring.size
  readOut : ringRun.readOut = q.taken

theorem sound_ofSize
    {size : Nat}
    (hPos : 0 < size) :
    (ofSize size).Sound size BoundedQueue.empty where
  size_eq := rfl
  valid := RingBuffer.valid_ofSize hPos
  contents := RingBuffer.contents_ofSize size
  notFull := by
    simpa [ofSize, RingBuffer.ofSize,
      RingBuffer.getDataAvailable] using hPos
  readOut := rfl

namespace Sound

variable {ringRun : RingRun}
variable {size : Nat}
variable {q : BoundedQueue UInt8}

theorem available_eq (hSound : ringRun.Sound size q) :
    ringRun.ring.getDataAvailable = q.queued.length := by
  simp only [← hSound.contents, RingBuffer.length_contents]

theorem freeSpace_eq (hSound : ringRun.Sound size q) :
    ringRun.ring.getFreeSpace = size - q.queued.length := by
  have hAll := hSound.valid.available_add_free
  have hAvailable := hSound.available_eq
  have hSize := hSound.size_eq
  omega

theorem refines (hSound : ringRun.Sound size q) :
    ringRun.ring.Refines size q.queued := by
  have hRefines := hSound.valid.refines hSound.notFull
  rwa [hSound.size_eq, hSound.contents] at hRefines

theorem asQueue
    (hSound : ringRun.Sound size q)
    (hArrived : q.arrived = q.taken ++ q.queued) :
    ringRun.AsQueue size q where
  ring := hSound.refines
  order := by
    rw [hSound.refines.data, hSound.readOut, hArrived]

/- What a `fill` lets in. -/
theorem ring_fill
    (hSound : ringRun.Sound size q)
    (bytes : List UInt8) :
    (ringRun.step (.fill bytes)).ring =
      ringRun.ring.filled
        (bytes.take (size - q.queued.length)) := by
  simp only [step, hSound.refines.space_length]

/- After any event the amount of data is that of the queue. -/
theorem available_step
    (hSound : ringRun.Sound size q)
    (event : RingEvent) :
    (ringRun.step event).ring.getDataAvailable =
      (q.step size event.toQueue).queued.length := by
  have hAvailable := hSound.available_eq
  have hFree := hSound.freeSpace_eq
  cases event with
  | fill bytes =>
      rw [hSound.ring_fill,
        RingBuffer.getDataAvailable_filled hSound.valid
          (by rw [hFree]; exact List.length_take_le _ _)]
      simp only [RingEvent.toQueue, BoundedQueue.step,
        BoundedQueue.put, List.length_append, hAvailable]
  | read count =>
      have hAll := hSound.valid.available_add_free
      simp only [RingEvent.toQueue, BoundedQueue.step,
        BoundedQueue.get, RingRun.step,
        RingBuffer.getDataAvailable, RingBuffer.markDataUsed,
        hSound.refines.data, List.length_take,
        List.length_drop] at hAvailable ⊢
      simp only [RingBuffer.getDataAvailable,
        RingBuffer.getFreeSpace] at hAll
      omega

/- An event that leaves space does to the ring buffer what it
   does to the queue. -/
theorem step
    (hSound : ringRun.Sound size q)
    {event : RingEvent}
    (hLeaves : ringRun.LeavesSpace event) :
    (ringRun.step event).Sound size
      (q.step size event.toQueue) := by
  have hFree := hSound.freeSpace_eq
  have hAvailable := hSound.available_step event
  cases event with
  | fill bytes =>
      have hFits :
          (bytes.take (size - q.queued.length)).length ≤
            ringRun.ring.getFreeSpace := by
        rw [hFree]
        exact List.length_take_le _ _
      constructor
      · rw [hSound.ring_fill]
        exact hSound.size_eq
      · rw [hSound.ring_fill]
        exact RingBuffer.valid_filled hSound.valid hFits
      · rw [hSound.ring_fill,
          RingBuffer.contents_filled hSound.valid hFits,
          hSound.contents]
        rfl
      · have hAll := hSound.valid.available_add_free
        have hQueued := hSound.available_eq
        simp only [LeavesSpace] at hLeaves
        simp only [hAvailable, RingEvent.toQueue,
          BoundedQueue.step, BoundedQueue.put,
          List.length_append, List.length_take]
        rw [hSound.ring_fill, RingBuffer.size_filled]
        omega
      · exact hSound.readOut
  | read count =>
      have hLe :
          (q.queued.take count).length ≤
            ringRun.ring.getDataAvailable := by
        rw [hSound.available_eq]
        exact List.length_take_le' _ _
      have hData := hSound.refines.data
      constructor
      · exact hSound.size_eq
      · simp only [RingRun.step, hData]
        exact RingBuffer.valid_markDataUsed hSound.valid hLe
      · have hDropped :
            q.queued.drop (q.queued.take count).length =
              q.queued.drop count := by
          rcases Nat.le_total count q.queued.length with
            hSome | hMore
          · rw [List.length_take, Nat.min_eq_left hSome]
          · rw [List.length_take, Nat.min_eq_right hMore,
              List.drop_length,
              List.drop_of_length_le hMore]
        have hContents :=
          RingBuffer.contents_markDataUsed hLe
        rw [hSound.contents, hDropped] at hContents
        simpa only [RingRun.step, hData, RingEvent.toQueue,
          BoundedQueue.step, BoundedQueue.get]
          using hContents
      · have hQueued := hSound.available_eq
        have hNotFull := hSound.notFull
        simp only [hAvailable, RingEvent.toQueue,
          BoundedQueue.step, BoundedQueue.get,
          List.length_drop]
        change _ < ringRun.ring.size
        omega
      · simp only [RingRun.step, hData, hSound.readOut,
          RingEvent.toQueue, BoundedQueue.step,
          BoundedQueue.get]

/- An event after which the ring buffer still does as the
   queue does has left space. -/
theorem leavesSpace
    (hSound : ringRun.Sound size q)
    (hPos : 0 < size)
    {event : RingEvent}
    (hRefines :
      (ringRun.step event).ring.Refines size
        (q.step size event.toQueue).queued) :
    ringRun.LeavesSpace event := by
  cases event with
  | read count => exact True.intro
  | fill bytes =>
      have hSize :
          (ringRun.step (.fill bytes)).ring.size = size := by
        rw [hSound.ring_fill]
        exact hSound.size_eq
      have hLt := hRefines.lt hSize
        (hSound.available_step (.fill bytes)) hPos
      rw [hSize, hSound.available_step (.fill bytes)] at hLt
      simp only [RingEvent.toQueue, BoundedQueue.step,
        BoundedQueue.put, List.length_append,
        List.length_take] at hLt
      rw [LeavesSpace, hSound.freeSpace_eq]
      omega

end Sound

/-
  A ring buffer does all along a run as the bounded queue of
  the same events would exactly if no event fills it up.
-/
theorem asQueue_iff
    {size : Nat}
    (hPos : 0 < size)
    (events : List RingEvent) :
    (∀ front, front <+: events →
      ((ofSize size).run front).AsQueue size
        (BoundedQueue.run size
          (front.map RingEvent.toQueue))) ↔
      ∀ front event back, events = front ++ event :: back →
        ((ofSize size).run front).LeavesSpace event := by
  apply Runs.forall_prefix_iff fun front =>
    ((ofSize size).run front).Sound size
      (BoundedQueue.run size (front.map RingEvent.toQueue))
  · exact sound_ofSize hPos
  · intro front hSound
    exact hSound.asQueue (BoundedQueue.arrived_run _ _)
  · intro front event back _ hSound hLeaves
    rw [run_snoc, List.map_append, List.map_singleton,
      BoundedQueue.run_snoc]
    exact hSound.step hLeaves
  · intro front event back _ hSound hAsQueue
    rw [run_snoc, List.map_append, List.map_singleton,
      BoundedQueue.run_snoc] at hAsQueue
    exact hSound.leavesSpace hPos hAsQueue.ring

/- Three cells that the third and the fourth byte go around. -/
theorem asQueue_iff_around :
    (∀ front,
      front <+: [.fill [1, 2], .read 2, .fill [3, 4]] →
        ((ofSize 3).run front).AsQueue 3
          (BoundedQueue.run 3
            (front.map RingEvent.toQueue))) ↔
      ∀ front event back,
        [.fill [1, 2], .read 2, .fill [3, 4]] =
            front ++ event :: back →
          ((ofSize 3).run front).LeavesSpace event :=
  asQueue_iff (by decide) _

/- A full ring buffer shows nothing of its data. -/
theorem not_asQueue_of_full :
    ¬ ∀ front, front <+: [RingEvent.fill [1, 2]] →
      ((ofSize 2).run front).AsQueue 2
        (BoundedQueue.run 2
          (front.map RingEvent.toQueue)) := by
  intro hAll
  have hData := (hAll _ (List.prefix_refl _)).ring.data
  revert hData
  decide +kernel

end RingRun

end OefCore
