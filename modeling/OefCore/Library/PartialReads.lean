import OefCore.Library.Memory

/-
  Reads that are made in parts, until enough has come or a
  part fails.

  A part is of any type, with the values that it brings and
  whether it fails.

  Main declarations:
    * `PartialReads.Progress`, `PartialReads.progress`
    * `PartialReads.Transfer`, `PartialReads.transfer_eq`
-/

namespace PartialReads

variable {ρ α β : Type}
variable (values : ρ → List β)
variable (fails : ρ → Bool)
variable (needed : Nat)

------------------------------------------------------------
-- Progress
------------------------------------------------------------

/- How far a read has come: all that was received, and the
   part that ended it. -/
structure Progress (ρ β : Type) where
  received : List β
  last : Option ρ

namespace Progress

def start : Progress ρ β where
  received := []
  last := none

/- What comes after the last part is not for this read. -/
def next
    (self : Progress ρ β)
    (part : ρ) : Progress ρ β :=
  match self.last with
  | some _ => self
  | none =>
      let received := self.received ++ values part
      { received := received
        last :=
          if fails part ∨ needed ≤ received.length then
            some part
          else
            none }

end Progress

def progress (parts : List ρ) : Progress ρ β :=
  parts.foldl (Progress.next values fails needed) .start

@[simp]
theorem progress_nil :
    progress values fails needed [] = .start :=
  rfl

theorem progress_snoc
    (parts : List ρ)
    (part : ρ) :
    progress values fails needed (parts ++ [part]) =
      (progress values fails needed parts).next values fails
        needed part := by
  simp [progress]

section Steps

variable
  {values : ρ → List β}
  {fails : ρ → Bool}
  {needed : Nat}
  {self : Progress ρ β}

@[simp]
theorem Progress.next_of_last
    {last : ρ}
    (hLast : self.last = some last)
    (part : ρ) :
    self.next values fails needed part = self := by
  simp [next, hLast]

theorem Progress.received_next
    (hNone : self.last = none)
    (part : ρ) :
    (self.next values fails needed part).received =
      self.received ++ values part := by
  simp [next, hNone]

/- A part ends the read if it fails or brings enough. -/
theorem Progress.last_next
    (hNone : self.last = none)
    (part : ρ) :
    (self.next values fails needed part).last =
      if fails part ∨
          needed ≤ self.received.length + (values part).length
      then
        some part
      else
        none := by
  simp [next, hNone]

end Steps

------------------------------------------------------------
-- Transfers
------------------------------------------------------------

/- A read into cells: each part goes where the one before it
   has ended. -/
structure Transfer (ρ α β : Type) where
  memory : α → β
  cells : List α
  total : Nat
  last : Option ρ

namespace Transfer

variable [DecidableEq α]

def start
    (memory : α → β)
    (cells : List α) : Transfer ρ α β where
  memory := memory
  cells := cells
  total := 0
  last := none

/- The read ends as well where no cell is left. -/
def next
    (self : Transfer ρ α β)
    (part : ρ) : Transfer ρ α β :=
  match self.last with
  | some _ => self
  | none =>
      let brought := values part
      let total := self.total + brought.length
      let cells := self.cells.drop brought.length
      { memory := Memory.fill self.memory self.cells brought
        cells := cells
        total := total
        last :=
          if fails part ∨ needed ≤ total ∨ cells.isEmpty then
            some part
          else
            none }

/- The transfer that has come as far as a read. -/
def reaching
    (memory : α → β)
    (cells : List α)
    (read : Progress ρ β) : Transfer ρ α β where
  memory := Memory.fill memory cells read.received
  cells := cells.drop read.received.length
  total := read.received.length
  last := read.last

/- With cells enough for what was asked, running out of them
   is no other way to end. -/
theorem next_reaching
    (memory : α → β)
    {cells : List α}
    (hNeeded : needed ≤ cells.length)
    (read : Progress ρ β)
    (part : ρ) :
    (reaching memory cells read).next values fails needed
        part =
      reaching memory cells
        (read.next values fails needed part) := by
  cases hLast : read.last with
  | some last =>
      rw [Progress.next_of_last hLast]
      simp [next, reaching, hLast]
  | none =>
      have hEnough :
          (needed ≤
                read.received.length + (values part).length ∨
              cells.length ≤
                read.received.length + (values part).length) ↔
            needed ≤
              read.received.length + (values part).length := by
        omega
      simp only [next, reaching, hLast, Progress.next,
        Memory.fill_append, List.drop_drop,
        List.length_append, List.isEmpty_iff,
        List.drop_eq_nil_iff, hEnough]

end Transfer

variable [DecidableEq α]

def transfer
    (memory : α → β)
    (cells : List α)
    (parts : List ρ) : Transfer ρ α β :=
  parts.foldl (Transfer.next values fails needed)
    (.start memory cells)

theorem transfer_snoc
    (memory : α → β)
    (cells : List α)
    (parts : List ρ)
    (part : ρ) :
    transfer values fails needed memory cells
        (parts ++ [part]) =
      (transfer values fails needed memory cells parts).next
        values fails needed part := by
  simp [transfer]

/-
  Such a transfer fills its cells in order with all that is
  received, and ends with the part that the read ends with.
-/
theorem transfer_eq
    (memory : α → β)
    {cells : List α}
    (hNeeded : needed ≤ cells.length)
    (parts : List ρ) :
    transfer values fails needed memory cells parts =
      .reaching memory cells
        (progress values fails needed parts) := by
  induction parts using List.reverseRecOn with
  | nil =>
      simp [transfer, Transfer.start, Transfer.reaching,
        Progress.start]
  | append_singleton front part ih =>
      rw [progress_snoc, transfer_snoc, ih,
        Transfer.next_reaching _ _ _ _ hNeeded]

end PartialReads
