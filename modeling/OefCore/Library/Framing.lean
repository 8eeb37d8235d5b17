import Mathlib.Data.List.Infix
import Mathlib.Tactic.Common

/-
  Length-prefixed framing over an arbitrary alphabet.

  A frame is a fixed-width length header followed by a body
  of that length.  `complete` and `missing` say, from the
  bodies alone, what a receiver can know after `n` symbols;
  `scan` is the receiver, which sees only the symbols.

  Main declarations:
    * `Header`, `Header.frame`, `Header.stream`
    * `Header.complete` and `Header.missing`
    * `Header.scan` and `Header.scan_of_prefix`
-/

------------------------------------------------------------
-- Headers and Frames
------------------------------------------------------------

namespace Framing

/- A piece that goes on where `n` symbols of a stream ended. -/
theorem take_append_of_prefix
    {α : Type}
    {stream piece : List α}
    {n : Nat}
    (hWithin : n ≤ stream.length)
    (hPiece : stream.take n ++ piece <+: stream) :
    n + piece.length ≤ stream.length ∧
      stream.take n ++ piece =
        stream.take (n + piece.length) := by
  have hTaken : (stream.take n).length = n := by
    rw [List.length_take, Nat.min_eq_left hWithin]
  have hLength := hPiece.length_le
  have hTake := List.prefix_iff_eq_take.mp hPiece
  rw [List.length_append, hTaken] at hLength hTake
  exact ⟨hLength, hTake⟩

/- A length header of fixed width, exact below `bound`. -/
structure Header (α : Type) where
  width : Nat
  bound : Nat
  encode : Nat → List α
  decode : List α → Nat
  width_pos : 0 < width
  encode_length : ∀ n, (encode n).length = width
  decode_encode : ∀ n, n < bound → decode (encode n) = n

namespace Header

variable {α : Type}

/- One body behind its header. -/
def frame (h : Header α) (body : List α) : List α :=
  h.encode body.length ++ body

/- The frames of several bodies, back to back. -/
def stream
    (h : Header α)
    (bodies : List (List α)) : List α :=
  (bodies.map h.frame).flatten

@[simp] theorem length_frame
    (h : Header α)
    (body : List α) :
    (h.frame body).length = h.width + body.length := by
  simp [frame, h.encode_length]

@[simp] theorem stream_nil (h : Header α) :
    h.stream [] = [] := rfl

@[simp] theorem stream_cons
    (h : Header α)
    (body : List α)
    (bodies : List (List α)) :
    h.stream (body :: bodies) =
      h.frame body ++ h.stream bodies := by
  simp [stream]

@[simp] theorem stream_append
    (h : Header α)
    (front back : List (List α)) :
    h.stream (front ++ back) =
      h.stream front ++ h.stream back := by
  simp [stream]

/- Only the width of its headers counts for the length of a
   stream. -/
theorem length_stream_congr
    {h h' : Header α}
    (hWidth : h.width = h'.width)
    (bodies : List (List α)) :
    (h.stream bodies).length = (h'.stream bodies).length := by
  induction bodies with
  | nil => rfl
  | cons body bodies ih =>
      simp only [stream_cons, List.length_append,
        length_frame, ih, hWidth]

/- A stream is at least as long as the bodies it carries. -/
theorem width_mul_le_length_stream
    (h : Header α)
    (bodies : List (List α)) :
    h.width * bodies.length ≤ (h.stream bodies).length := by
  induction bodies with
  | nil => simp
  | cons body bodies ih =>
      simp only [stream_cons, List.length_append,
        length_frame, List.length_cons, Nat.mul_succ]
      omega

------------------------------------------------------------
-- Frames Complete at a Position
------------------------------------------------------------

/- The bodies whose frames end within the first `n` symbols. -/
def complete (h : Header α) :
    List (List α) → Nat → List (List α)
  | [], _ => []
  | body :: bodies, n =>
      if h.width + body.length ≤ n then
        body :: h.complete bodies (n - (h.width + body.length))
      else
        []

/-
  How many symbols the header or the body being received at
  position `n` still misses.
-/
def missing (h : Header α) : List (List α) → Nat → Nat
  | [], n => h.width - n
  | body :: bodies, n =>
      if h.width + body.length ≤ n then
        h.missing bodies (n - (h.width + body.length))
      else if n < h.width then
        h.width - n
      else
        h.width + body.length - n

@[simp] theorem complete_nil (h : Header α) (n : Nat) :
    h.complete [] n = [] := rfl

theorem complete_cons
    (h : Header α)
    (body : List α)
    (bodies : List (List α))
    (n : Nat) :
    h.complete (body :: bodies) n =
      if h.width + body.length ≤ n then
        body :: h.complete bodies (n - (h.width + body.length))
      else
        [] := rfl

@[simp] theorem missing_nil (h : Header α) (n : Nat) :
    h.missing [] n = h.width - n := rfl

theorem missing_cons
    (h : Header α)
    (body : List α)
    (bodies : List (List α))
    (n : Nat) :
    h.missing (body :: bodies) n =
      if h.width + body.length ≤ n then
        h.missing bodies (n - (h.width + body.length))
      else if n < h.width then
        h.width - n
      else
        h.width + body.length - n := rfl

/- No frame of `bodies` is whole within `n` symbols. -/
theorem complete_eq_nil_cons
    (h : Header α)
    {body : List α}
    {bodies : List (List α)}
    {n : Nat}
    (hShort : n < h.width + body.length) :
    h.complete (body :: bodies) n = [] := by
  have hNot : ¬ h.width + body.length ≤ n := by omega
  rw [complete_cons, if_neg hNot]

/- A position behind some frames is behind the first one. -/
theorem position_cons
    (h : Header α)
    (body : List α)
    (front : List (List α))
    (n : Nat) :
    h.width + body.length ≤
        (h.stream (body :: front)).length + n ∧
      (h.stream (body :: front)).length + n -
          (h.width + body.length) =
        (h.stream front).length + n := by
  constructor
  · simp
    omega
  · simp
    omega

/- Whole frames in front shift the position. -/
theorem complete_append
    (h : Header α)
    (front back : List (List α))
    (n : Nat) :
    h.complete (front ++ back)
        ((h.stream front).length + n) =
      front ++ h.complete back n := by
  induction front with
  | nil => simp
  | cons body front ih =>
      rcases h.position_cons body front n with ⟨hFits, hRest⟩
      rw [List.cons_append, complete_cons, if_pos hFits, hRest,
        ih, List.cons_append]

theorem missing_append
    (h : Header α)
    (front back : List (List α))
    (n : Nat) :
    h.missing (front ++ back)
        ((h.stream front).length + n) =
      h.missing back n := by
  induction front with
  | nil => simp
  | cons body front ih =>
      rcases h.position_cons body front n with ⟨hFits, hRest⟩
      rw [List.cons_append, missing_cons, if_pos hFits, hRest, ih]

/- The complete bodies come first in the list. -/
theorem complete_prefix
    (h : Header α)
    (bodies : List (List α))
    (n : Nat) :
    h.complete bodies n <+: bodies := by
  induction bodies generalizing n with
  | nil => simp
  | cons body bodies ih =>
      by_cases hFits : h.width + body.length ≤ n
      · rw [complete_cons, if_pos hFits]
        exact List.cons_prefix_cons.mpr ⟨rfl, ih _⟩
      · rw [complete_cons, if_neg hFits]
        exact List.nil_prefix

/- The frames of the complete bodies fit the position. -/
theorem length_stream_complete_le
    (h : Header α)
    (bodies : List (List α))
    (n : Nat) :
    (h.stream (h.complete bodies n)).length ≤ n := by
  induction bodies generalizing n with
  | nil => simp
  | cons body bodies ih =>
      by_cases hFits : h.width + body.length ≤ n
      · have hTail := ih (n - (h.width + body.length))
        rw [complete_cons, if_pos hFits]
        simp only [stream_cons, List.length_append,
          length_frame]
        omega
      · simp [complete_cons, if_neg hFits]

/- From the end of the stream on, every body is complete. -/
theorem complete_of_le
    (h : Header α)
    {bodies : List (List α)}
    {n : Nat}
    (hLe : (h.stream bodies).length ≤ n) :
    h.complete bodies n = bodies := by
  have hAll := h.complete_append bodies []
    (n - (h.stream bodies).length)
  rw [Nat.add_sub_cancel' hLe] at hAll
  simpa using hAll

/- Bodies in front whose frames fit are complete. -/
theorem length_stream_le_complete
    (h : Header α)
    {front bodies : List (List α)}
    {n : Nat}
    (hFront : front <+: bodies)
    (hFits : (h.stream front).length ≤ n) :
    (h.stream front).length ≤
      (h.stream (h.complete bodies n)).length := by
  rcases hFront with ⟨back, rfl⟩
  have hComplete := h.complete_append front back
    (n - (h.stream front).length)
  rw [Nat.add_sub_cancel' hFits] at hComplete
  rw [hComplete, stream_append, List.length_append]
  exact Nat.le_add_right _ _

/- Up to the end of the stream something is missing. -/
theorem missing_pos
    (h : Header α)
    {bodies : List (List α)}
    {n : Nat}
    (hWithin : n ≤ (h.stream bodies).length) :
    0 < h.missing bodies n := by
  induction bodies generalizing n with
  | nil =>
      have hZero : n = 0 := by simpa using hWithin
      simp [hZero, h.width_pos]
  | cons body bodies ih =>
      rw [stream_cons, List.length_append, length_frame]
        at hWithin
      by_cases hFits : h.width + body.length ≤ n
      · rw [missing_cons, if_pos hFits]
        exact ih (by omega)
      · by_cases hHead : n < h.width
        · rw [missing_cons, if_neg hFits, if_pos hHead]
          omega
        · rw [missing_cons, if_neg hFits, if_neg hHead]
          omega

/- What is held behind the complete frames and what is
   missing stay within one frame of the largest body. -/
theorem held_add_missing_le
    (h : Header α)
    {bodies : List (List α)}
    {n limit : Nat}
    (hWithin : n ≤ (h.stream bodies).length)
    (hLimit : ∀ body ∈ bodies, body.length ≤ limit) :
    n - (h.stream (h.complete bodies n)).length +
        h.missing bodies n ≤
      h.width + limit := by
  induction bodies generalizing n with
  | nil =>
      have hZero : n = 0 := by simpa using hWithin
      simp [hZero]
  | cons body bodies ih =>
      have hBody := hLimit body (by simp)
      rw [stream_cons, List.length_append, length_frame]
        at hWithin
      by_cases hFits : h.width + body.length ≤ n
      · have hRest := ih (n := n - (h.width + body.length))
          (by omega) (fun b hb => hLimit b (by simp [hb]))
        rw [complete_cons, missing_cons, if_pos hFits,
          if_pos hFits, stream_cons, List.length_append,
          length_frame]
        omega
      · rw [h.complete_eq_nil_cons (by omega), missing_cons,
          if_neg hFits, stream_nil, List.length_nil]
        by_cases hHead : n < h.width
        · rw [if_pos hHead]
          omega
        · rw [if_neg hHead]
          omega

------------------------------------------------------------
-- Scanning an Input
------------------------------------------------------------

/-
  Why a scan ends: the next header or body misses symbols, or
  a header announces a body that is refused.
-/
inductive Stop where
  | short (needed : Nat)
  | tooLong (length : Nat)
  deriving DecidableEq, Repr

/-
  The bodies of the whole frames at the front of an input,
  and why the scan ended.
-/
def scan
    (h : Header α)
    (limit : Nat)
    (input : List α) : List (List α) × Stop :=
  if input.length < h.width then
    ([], .short (h.width - input.length))
  else
    let length := h.decode (input.take h.width)
    let rest := input.drop h.width
    if limit < length then
      ([], .tooLong length)
    else if rest.length < length then
      ([], .short (length - rest.length))
    else
      let next := h.scan limit (rest.drop length)
      (rest.take length :: next.1, next.2)
termination_by input.length
decreasing_by
  have hWidth := h.width_pos
  simp only [List.length_drop]
  omega

/- What a scan returns never exceeds what it was given. -/
theorem length_stream_scan_le
    (h : Header α)
    (limit : Nat)
    (input : List α) :
    (h.stream (h.scan limit input).1).length ≤
      input.length := by
  induction input using scan.induct h limit with
  | case1 input hShort =>
      rw [scan, if_pos hShort]
      simp
  | case2 input hHead length hLong =>
      rw [scan, if_neg hHead]
      simp only
      rw [if_pos hLong]
      simp
  | case3 input hHead length rest hFit hBody =>
      rw [scan, if_neg hHead]
      simp only
      rw [if_neg hFit, if_pos hBody]
      simp
  | case4 input hHead length rest hFit hBody ih =>
      rw [scan, if_neg hHead]
      simp only
      rw [if_neg hFit, if_neg hBody]
      simp only [stream_cons, List.length_append,
        length_frame, List.length_take]
      simp only [rest, length, List.length_drop]
        at ih hBody ⊢
      omega

/- The first header of a stream prefix can be read back. -/
theorem decode_take_of_prefix
    (h : Header α)
    {body : List α}
    {bodies : List (List α)}
    {input : List α}
    (hPrefix : input <+: h.stream (body :: bodies))
    (hHead : h.width ≤ input.length)
    (hBound : body.length < h.bound) :
    h.decode (input.take h.width) = body.length := by
  have hTake :
      input.take h.width =
        (h.stream (body :: bodies)).take h.width := by
    rcases hPrefix with ⟨tail, hTail⟩
    rw [← hTail, List.take_append_of_le_length hHead]
  have hEncode :
      (h.stream (body :: bodies)).take h.width =
        h.encode body.length := by
    rw [stream_cons, frame, List.append_assoc]
    exact List.take_left' (h.encode_length _)
  rw [hTake, hEncode, h.decode_encode _ hBound]

/- What follows a header in a prefix is a prefix of what
   follows it in the stream. -/
theorem drop_width_prefix
    (h : Header α)
    {body : List α}
    {bodies : List (List α)}
    {input : List α}
    (hPrefix : input <+: h.stream (body :: bodies)) :
    input.drop h.width <+: body ++ h.stream bodies := by
  have hDrop := hPrefix.drop h.width
  rw [stream_cons, frame, List.append_assoc,
    List.drop_left' (h.encode_length _)] at hDrop
  exact hDrop

/-
  On a prefix of a stream the receiver sees exactly the
  complete bodies and asks for exactly what is missing.
-/
theorem scan_of_prefix
    (h : Header α)
    {limit : Nat}
    {bodies : List (List α)}
    {input : List α}
    (hBound : limit < h.bound)
    (hLimit : ∀ body ∈ bodies, body.length ≤ limit)
    (hPrefix : input <+: h.stream bodies) :
    h.scan limit input =
      (h.complete bodies input.length,
        .short (h.missing bodies input.length)) := by
  induction bodies generalizing input with
  | nil =>
      have hEmpty : input = [] := by simpa using hPrefix
      have hWidth := h.width_pos
      rw [scan, if_pos (by simp [hEmpty, hWidth])]
      simp
  | cons body bodies ih =>
      have hBody : body.length ≤ limit := hLimit body (by simp)
      by_cases hHead : input.length < h.width
      · have hNot : ¬ h.width + body.length ≤ input.length := by
          omega
        rw [scan, if_pos hHead]
        simp [complete_cons, missing_cons, hNot, hHead]
      · have hLength :=
          h.decode_take_of_prefix hPrefix (by omega)
            (by omega)
        have hRest := h.drop_width_prefix hPrefix
        rw [scan, if_neg hHead]
        simp only [hLength]
        rw [if_neg (by omega)]
        by_cases hShort :
            (input.drop h.width).length < body.length
        · have hNot :
              ¬ h.width + body.length ≤ input.length := by
            simp only [List.length_drop] at hShort
            omega
          rw [if_pos hShort]
          simp only [List.length_drop] at hShort ⊢
          simp only [complete_cons, missing_cons, if_neg hNot,
            if_neg hHead, Prod.mk.injEq,
            Stop.short.injEq, true_and]
          omega
        · have hFits :
              h.width + body.length ≤ input.length := by
            simp only [List.length_drop] at hShort
            omega
          have hTake :
              (input.drop h.width).take body.length = body := by
            rcases hRest with ⟨tail, hTail⟩
            have hLeft :
                ((input.drop h.width ++ tail).take
                    body.length) =
                  body := by
              rw [hTail]
              exact List.take_left' rfl
            rwa [List.take_append_of_le_length
              (by omega)] at hLeft
          have hNext :
              (input.drop h.width).drop body.length <+:
                h.stream bodies := by
            have hDrop := hRest.drop body.length
            rwa [List.drop_left' rfl] at hDrop
          rw [if_neg hShort, hTake,
            ih (fun b hb => hLimit b (by simp [hb])) hNext]
          simp only [complete_cons, missing_cons, if_pos hFits,
            List.length_drop, Nat.sub_sub]

/-
  Dropping the complete frames from a stream prefix leaves a
  prefix of the remaining stream.
-/
theorem drop_stream_prefix
    (h : Header α)
    (front back : List (List α))
    {input : List α}
    (hPrefix : input <+: h.stream (front ++ back)) :
    input.drop (h.stream front).length <+:
      h.stream back := by
  have hDrop := hPrefix.drop (h.stream front).length
  rwa [stream_append, List.drop_left' rfl] at hDrop

/-
  A receiver that dropped the frames of some bodies in front
  and now has the symbols up to `m` sees exactly the further
  bodies complete at `m`, and what `m` misses.
-/
theorem scan_resume
    (h : Header α)
    (limit : Nat)
    {front bodies : List (List α)}
    {m : Nat}
    (hBound : limit < h.bound)
    (hLimit : ∀ body ∈ bodies, body.length ≤ limit)
    (hFront : front <+: bodies)
    (hFits : (h.stream front).length ≤ m)
    (hWithin : m ≤ (h.stream bodies).length) :
    ∃ further,
      h.complete bodies m = front ++ further ∧
        h.scan limit
            (((h.stream bodies).take m).drop
              (h.stream front).length) =
          (further, .short (h.missing bodies m)) := by
  rcases hFront with ⟨back, rfl⟩
  have hLength :
      (((h.stream (front ++ back)).take m).drop
          (h.stream front).length).length =
        m - (h.stream front).length := by
    rw [List.length_drop, List.length_take,
      Nat.min_eq_left hWithin]
  have hComplete := h.complete_append front back
    (m - (h.stream front).length)
  have hMissing := h.missing_append front back
    (m - (h.stream front).length)
  rw [Nat.add_sub_cancel' hFits] at hComplete hMissing
  have hPrefix :=
    h.drop_stream_prefix front back
      (List.take_prefix m (h.stream (front ++ back)))
  refine ⟨_, hComplete, ?_⟩
  rw [h.scan_of_prefix hBound
      (fun b hb => hLimit b (List.mem_append_right _ hb))
      hPrefix,
    hLength, hMissing]

end Header

end Framing
