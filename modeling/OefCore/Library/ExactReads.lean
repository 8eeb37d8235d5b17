import OefCore.Library.FrameFormat

/-
  Readers that ask for a number of symbols and go on when
  exactly so many have come.

  What such a reader makes of a stream does not depend on the
  pieces in which the stream comes; and a reader that asks
  for the head of a frame, and then for the body that it
  announces, makes the frames of a scan.

  Main declarations:
    * `Reader`, `Reader.drain`, `Reader.drain_append`
    * `Reading.arriveAll_eq`
    * `Framing.Format.reader`
    * `Framing.Format.drain_reader`
-/

namespace ExactReads

------------------------------------------------------------
-- Readers
------------------------------------------------------------

/- In a state a read of `need` symbols is outstanding, or none
   is any more; after one of no symbols comes another one. -/
structure Reader (S α β : Type) where
  need : S → Option Nat
  take : S → List α → S × Option β
  moves : ∀ s symbols,
    need s = some 0 → need (take s symbols).1 ≠ some 0

/- The state that a reader has come to, the symbols that wait
   for its read, and what it has made. -/
structure Reading (S α β : Type) where
  state : S
  left : List α
  made : List β

variable {S α β : Type}

/- What was made before comes first. -/
def Reading.after
    (r : Reading S α β)
    (made : List β) : Reading S α β :=
  { r with made := made ++ r.made }

@[simp]
theorem Reading.after_state
    (r : Reading S α β)
    (made : List β) :
    (r.after made).state = r.state := rfl

@[simp]
theorem Reading.after_left
    (r : Reading S α β)
    (made : List β) :
    (r.after made).left = r.left := rfl

@[simp]
theorem Reading.after_made
    (r : Reading S α β)
    (made : List β) :
    (r.after made).made = made ++ r.made := rfl

@[simp]
theorem Reading.after_nil (r : Reading S α β) :
    r.after [] = r := rfl

theorem Reading.after_after
    (r : Reading S α β)
    (first second : List β) :
    (r.after second).after first =
      r.after (first ++ second) := by
  simp [Reading.after]

namespace Reader

/- The reads that the symbols suffice for, one after the
   other. -/
def drain
    (self : Reader S α β)
    (s : S)
    (input : List α) : Reading S α β :=
  match _hNeed : self.need s with
  | none =>
      { state := s
        left := input
        made := [] }
  | some n =>
      if input.length < n then
        { state := s
          left := input
          made := [] }
      else
        let next := self.take s (input.take n)
        (self.drain next.1 (input.drop n)).after
          next.2.toList
termination_by
  2 * input.length + if self.need s = some 0 then 1 else 0
decreasing_by
  cases n with
  | zero =>
      rw [if_pos _hNeed, if_neg (self.moves s _ _hNeed)]
      simp
  | succ n =>
      rw [List.length_drop]
      split
      · split
        · omega
        · omega
      · split
        · omega
        · omega

section Equations

variable (self : Reader S α β)
variable {s : S}

theorem drain_of_none
    (hNeed : self.need s = none)
    (input : List α) :
    self.drain s input =
      { state := s
        left := input
        made := [] } := by
  rw [drain]
  split
  · rfl
  · next hSome => simp [hNeed] at hSome

theorem drain_of_short
    {n : Nat}
    (hNeed : self.need s = some n)
    {input : List α}
    (hShort : input.length < n) :
    self.drain s input =
      { state := s
        left := input
        made := [] } := by
  rw [drain]
  split
  · rfl
  · next m hSome =>
      rw [hNeed, Option.some.injEq] at hSome
      rw [if_pos (by omega)]

theorem drain_of_enough
    {front : List α}
    (hNeed : self.need s = some front.length)
    (rest : List α) :
    self.drain s (front ++ rest) =
      (self.drain (self.take s front).1 rest).after
        (self.take s front).2.toList := by
  rw [drain]
  split
  · next hNone => simp [hNeed] at hNone
  · next m hSome =>
      rw [hNeed, Option.some.injEq] at hSome
      have hEnough : ¬ (front ++ rest).length < m := by
        rw [List.length_append]
        omega
      rw [if_neg hEnough, List.take_left' hSome,
        List.drop_left' hSome]

/- The ways in which a reader can go on. -/
theorem drain_cases
    (s : S)
    (input : List α) :
    (self.need s = none ∨
      ∃ n, self.need s = some n ∧ input.length < n) ∨
      ∃ front rest,
        self.need s = some front.length ∧
          input = front ++ rest := by
  cases hNeed : self.need s with
  | none => exact .inl (.inl rfl)
  | some n =>
      by_cases hShort : input.length < n
      · exact .inl (.inr ⟨n, rfl, hShort⟩)
      · refine .inr ⟨input.take n, input.drop n, ?_,
          (List.take_append_drop n input).symm⟩
        rw [List.length_take, Nat.min_eq_left (by omega)]

theorem drain_of_waiting
    {input : List α}
    (hWaits : self.need s = none ∨
      ∃ n, self.need s = some n ∧ input.length < n) :
    self.drain s input =
      { state := s
        left := input
        made := [] } := by
  rcases hWaits with hNeed | ⟨n, hNeed, hShort⟩
  · exact self.drain_of_none hNeed input
  · exact self.drain_of_short hNeed hShort

end Equations

/-
  Symbols that come later find the reader where those before
  have left it.
-/
theorem drain_append
    (self : Reader S α β)
    (s : S)
    (seen later : List α) :
    self.drain s (seen ++ later) =
      (self.drain (self.drain s seen).state
        ((self.drain s seen).left ++ later)).after
          (self.drain s seen).made := by
  -- the reads that the first symbols suffice for
  induction s, seen using Reader.drain.induct self with
  | case1 s seen hNeed =>
      simp [self.drain_of_waiting (.inl hNeed)]
  | case2 s seen n hNeed hShort =>
      simp [self.drain_of_waiting (.inr ⟨n, hNeed, hShort⟩)]
  | case3 s seen n hNeed hEnough next ih =>
      have hFront :
          self.need s = some (seen.take n).length := by
        rw [hNeed, List.length_take,
          Nat.min_eq_left (by omega)]
      have hSplit := List.take_append_drop n seen
      have hSeen := self.drain_of_enough hFront (seen.drop n)
      have hAll := self.drain_of_enough hFront
        (seen.drop n ++ later)
      rw [hSplit] at hSeen
      rw [← List.append_assoc, hSplit] at hAll
      rw [hAll, hSeen, ih, Reading.after_after]
      rfl

end Reader

------------------------------------------------------------
-- Arrivals
------------------------------------------------------------

namespace Reading

def start (s : S) : Reading S α β :=
  { state := s
    left := []
    made := [] }

/- A piece arrives behind those that wait. -/
def arrive
    (reader : Reader S α β)
    (r : Reading S α β)
    (piece : List α) : Reading S α β :=
  (reader.drain r.state (r.left ++ piece)).after r.made

def arriveAll
    (reader : Reader S α β)
    (r : Reading S α β)
    (pieces : List (List α)) : Reading S α β :=
  pieces.foldl (arrive reader) r

/- The pieces bring what the whole stream brings at once. -/
theorem arriveAll_eq
    (reader : Reader S α β)
    (s : S)
    (pieces : List (List α)) :
    (reader.drain s []).arriveAll reader pieces =
      reader.drain s pieces.flatten := by
  induction pieces using List.reverseRecOn with
  | nil => rfl
  | append_singleton pieces piece ih =>
      rw [arriveAll] at ih ⊢
      rw [List.foldl_append, ih, List.flatten_append,
        List.flatten_singleton, reader.drain_append]
      rfl

end Reading

end ExactReads

------------------------------------------------------------
-- Readers of Frames
------------------------------------------------------------

namespace Framing

open ExactReads

/- Which part of a frame comes next, if any does. -/
inductive FramePart (α : Type) where
  | head
  | body (head : List α)
  | ended

/- What is made of the frames up to the first one of which
   nothing is made. -/
def upTo
    {F β : Type}
    (deliver : F → Option β) : List F → List β
  | [] => []
  | f :: frames =>
      match deliver f with
      | some made => made :: upTo deliver frames
      | none => []

theorem upTo_eq_filterMap
    {F β : Type}
    (deliver : F → Option β)
    {frames : List F}
    (hAll : ∀ f ∈ frames, deliver f ≠ none) :
    upTo deliver frames = frames.filterMap deliver := by
  induction frames with
  | nil => rfl
  | cons f frames ih =>
      obtain ⟨made, hMade⟩ := Option.ne_none_iff_exists'.mp
        (hAll f List.mem_cons_self)
      rw [upTo, hMade, List.filterMap_cons_some hMade,
        ih (fun g hMem => hAll g (List.mem_cons_of_mem _ hMem))]

theorem upTo_map
    {F G β : Type}
    (deliver : G → Option β)
    (g : F → G)
    (frames : List F) :
    upTo deliver (frames.map g) =
      upTo (fun f => deliver (g f)) frames := by
  induction frames with
  | nil => rfl
  | cons f frames ih =>
      rw [List.map_cons, upTo, upTo, ih]

theorem upTo_congr
    {F β : Type}
    {deliver deliver' : F → Option β}
    {frames : List F}
    (hAll : ∀ f ∈ frames, deliver f = deliver' f) :
    upTo deliver frames = upTo deliver' frames := by
  induction frames with
  | nil => rfl
  | cons f frames ih =>
      rw [upTo, upTo, hAll f List.mem_cons_self,
        ih (fun g hMem => hAll g (List.mem_cons_of_mem _ hMem))]

namespace Format

variable {α F β : Type}

/- A head is read, and then the body that it announces; the
   first frame of which nothing is made is the last one. -/
def reader
    (fmt : Format α F)
    (deliver : F → Option β) : Reader (FramePart α) α β where
  need
    | .head => some fmt.width
    | .body head => some (fmt.announced head)
    | .ended => none
  take
    | .head, head => (.body head, none)
    | .body head, body =>
        match deliver (fmt.decode head body) with
        | some made => (.head, some made)
        | none => (.ended, none)
    | .ended, _ => (.ended, none)
  moves part symbols hNeed := by
    have hWidth := fmt.width_pos
    cases part with
    | head =>
        simp only [Option.some.injEq] at hNeed
        omega
    | body head =>
        dsimp only
        cases deliver (fmt.decode head symbols) with
        | some made =>
            simp only [ne_eq, Option.some.injEq]
            omega
        | none => simp
    | ended => simp

/- Formats whose frames are as long complete the same. -/
theorem complete_map
    {G : Type}
    (fmt : Format α F)
    (fmt' : Format α G)
    (g : F → G)
    {frames : List F}
    (hLength : ∀ f ∈ frames,
      (fmt'.encode (g f)).length = (fmt.encode f).length)
    (n : Nat) :
    fmt'.complete (frames.map g) n =
      (fmt.complete frames n).map g := by
  induction frames generalizing n with
  | nil => rfl
  | cons f frames ih =>
      rw [List.map_cons, complete, complete,
        hLength f List.mem_cons_self]
      split
      · rw [ih (fun h hMem =>
          hLength h (List.mem_cons_of_mem _ hMem))]
        rfl
      · rfl

section Drains

variable (fmt : Format α F)
variable (deliver : F → Option β)

theorem drain_ended (input : List α) :
    (fmt.reader deliver).drain .ended input =
      { state := .ended
        left := input
        made := [] } :=
  (fmt.reader deliver).drain_of_none rfl input

theorem drain_short_head
    {input : List α}
    (hShort : input.length < fmt.width) :
    (fmt.reader deliver).drain .head input =
      { state := .head
        left := input
        made := [] } :=
  (fmt.reader deliver).drain_of_short rfl hShort

theorem drain_head
    {head : List α}
    (hHead : head.length = fmt.width)
    (rest : List α) :
    (fmt.reader deliver).drain .head (head ++ rest) =
      (fmt.reader deliver).drain (.body head) rest := by
  have hNeed :
      (fmt.reader deliver).need .head = some head.length := by
    rw [hHead]
    rfl
  exact (fmt.reader deliver).drain_of_enough hNeed rest

theorem drain_body
    {head body : List α}
    (hBody : fmt.announced head = body.length)
    (rest : List α) :
    (fmt.reader deliver).drain (.body head) (body ++ rest) =
      match deliver (fmt.decode head body) with
      | some made =>
          ((fmt.reader deliver).drain .head rest).after [made]
      | none =>
          { state := .ended
            left := rest
            made := [] } := by
  have hNeed :
      (fmt.reader deliver).need (.body head) =
        some body.length := by
    rw [← hBody]
    rfl
  rw [(fmt.reader deliver).drain_of_enough hNeed rest]
  simp only [reader]
  cases deliver (fmt.decode head body) with
  | some made => rfl
  | none => exact fmt.drain_ended deliver rest

/-
  Where no head announces more than the limit, a reader makes
  what is made of the frames that a scan finds.
-/
theorem drain_reader
    {limit : Nat}
    (hLimit : ∀ head, fmt.announced head ≤ limit)
    (input : List α) :
    ((fmt.reader deliver).drain .head input).made =
      upTo deliver (fmt.scan limit input).frames := by
  have hWidth := fmt.width_pos
  -- induction on what is left of the input
  induction hLength : input.length using
    Nat.strong_induction_on generalizing input with
  | _ length ih =>
      rcases fmt.scan_cases limit input with
        hHead | ⟨head, rest, rfl, hHead, hLong⟩ |
        ⟨head, rest, rfl, hHead, hFits, hBody⟩ |
        ⟨head, body, rest, rfl, hHead, hBody, hFits⟩
      · rw [fmt.drain_short_head deliver hHead,
          fmt.scan_short_head limit hHead]
        rfl
      · have hMost := hLimit head
        omega
      · have hNeed :
            (fmt.reader deliver).need (.body head) =
              some (fmt.announced head) := rfl
        rw [fmt.drain_head deliver hHead,
          (fmt.reader deliver).drain_of_short hNeed hBody,
          fmt.scan_short_body hHead hFits hBody]
        rfl
      · rw [List.append_assoc, fmt.drain_head deliver hHead,
          fmt.drain_body deliver hBody, ← List.append_assoc,
          fmt.scan_whole hHead hBody hFits]
        dsimp only
        have hRest := ih rest.length
          (by
            rw [← hLength, List.length_append,
              List.length_append]
            omega)
          rest rfl
        rw [upTo]
        cases deliver (fmt.decode head body) with
        | some made =>
            rw [Reading.after_made, hRest]
            rfl
        | none => rfl

/-
  In whatever pieces a front of a stream arrives, what is
  made is made of the frames that have come as a whole.
-/
theorem arriveAll_reader
    {limit : Nat}
    (hLimit : ∀ head, fmt.announced head ≤ limit)
    {frames : List F}
    (hReads : ∀ f ∈ frames, fmt.Reads limit f)
    {pieces : List (List α)}
    (hPrefix : pieces.flatten <+: fmt.stream frames) :
    ((Reading.start .head).arriveAll (fmt.reader deliver)
        pieces).made =
      upTo deliver
        (fmt.complete frames pieces.flatten.length) := by
  have hStart :
      (fmt.reader deliver).drain .head [] =
        Reading.start .head :=
    fmt.drain_short_head deliver fmt.width_pos
  rw [← hStart, Reading.arriveAll_eq,
    fmt.drain_reader deliver hLimit,
    fmt.scan_of_prefix hReads hPrefix]

end Drains

end Format

end Framing
