import Mathlib.Algebra.Order.Ring.Nat
import OefCore.Library.Framing

/-
  Framing with heads of a fixed width that announce how much
  follows, whatever else they say.

  A receiver sees symbols in pieces; what it makes of them
  does not depend on how they are cut.

  Main declarations:
    * `Format`, `Format.Reads`, `Format.scan`
    * `Format.scan_append`, `Format.scan_of_prefix`
    * `Receiver`, `Receiver.synced_arriveAll`
-/

------------------------------------------------------------
-- Formats
------------------------------------------------------------

namespace Framing

/- `announced` is what a head says of the length of its body,
   and `decode` makes the frame of both. -/
structure Format (α F : Type) where
  width : Nat
  announced : List α → Nat
  decode : List α → List α → F
  encode : F → List α
  width_pos : 0 < width

/- What a scan finds: whole frames, their symbols, and why it
   ended. -/
structure Scanned (F : Type) where
  frames : List F
  consumed : Nat
  stop : Header.Stop

namespace Format

variable {α F : Type}

/- A frame that can be read back, and is not too long. -/
def Reads
    (fmt : Format α F)
    (limit : Nat)
    (f : F) : Prop :=
  ∃ head body,
    fmt.encode f = head ++ body ∧
      head.length = fmt.width ∧
        fmt.announced head = body.length ∧
          body.length ≤ limit ∧
            fmt.decode head body = f

def stream
    (fmt : Format α F)
    (frames : List F) : List α :=
  frames.flatMap fmt.encode

@[simp] theorem stream_nil (fmt : Format α F) :
    fmt.stream [] = [] := rfl

@[simp] theorem stream_cons
    (fmt : Format α F)
    (f : F)
    (frames : List F) :
    fmt.stream (f :: frames) =
      fmt.encode f ++ fmt.stream frames := by
  simp [stream]

theorem stream_append
    (fmt : Format α F)
    (front back : List F) :
    fmt.stream (front ++ back) =
      fmt.stream front ++ fmt.stream back :=
  List.flatMap_append

/- The frames that end within the first `n` symbols. -/
def complete (fmt : Format α F) : List F → Nat → List F
  | [], _ => []
  | f :: frames, n =>
      if (fmt.encode f).length ≤ n then
        f :: fmt.complete frames (n - (fmt.encode f).length)
      else
        []

/- How many symbols the head or the body at position `n`
   still misses. -/
def missing (fmt : Format α F) : List F → Nat → Nat
  | [], n => fmt.width - n
  | f :: frames, n =>
      if (fmt.encode f).length ≤ n then
        fmt.missing frames (n - (fmt.encode f).length)
      else if n < fmt.width then
        fmt.width - n
      else
        (fmt.encode f).length - n

@[simp] theorem complete_nil (fmt : Format α F) (n : Nat) :
    fmt.complete [] n = [] := rfl

theorem complete_cons
    (fmt : Format α F)
    (f : F)
    (frames : List F)
    (n : Nat) :
    fmt.complete (f :: frames) n =
      if (fmt.encode f).length ≤ n then
        f :: fmt.complete frames (n - (fmt.encode f).length)
      else
        [] := rfl

@[simp] theorem missing_nil (fmt : Format α F) (n : Nat) :
    fmt.missing [] n = fmt.width - n := rfl

theorem missing_cons
    (fmt : Format α F)
    (f : F)
    (frames : List F)
    (n : Nat) :
    fmt.missing (f :: frames) n =
      if (fmt.encode f).length ≤ n then
        fmt.missing frames (n - (fmt.encode f).length)
      else if n < fmt.width then
        fmt.width - n
      else
        (fmt.encode f).length - n := rfl

def scan
    (fmt : Format α F)
    (limit : Nat)
    (input : List α) : Scanned F :=
  if input.length < fmt.width then
    { frames := []
      consumed := 0
      stop := .short (fmt.width - input.length) }
  else
    let head := input.take fmt.width
    let rest := input.drop fmt.width
    let length := fmt.announced head
    if limit < length then
      { frames := []
        consumed := 0
        stop := .tooLong length }
    else if rest.length < length then
      { frames := []
        consumed := 0
        stop := .short (length - rest.length) }
    else
      let next := fmt.scan limit (rest.drop length)
      { frames :=
          fmt.decode head (rest.take length) :: next.frames
        consumed := fmt.width + length + next.consumed
        stop := next.stop }
termination_by input.length
decreasing_by
  have hWidth := fmt.width_pos
  simp only [List.length_drop]
  omega

------------------------------------------------------------
-- Complete Frames
------------------------------------------------------------

theorem complete_prefix
    (fmt : Format α F)
    (frames : List F)
    (n : Nat) :
    fmt.complete frames n <+: frames := by
  induction frames generalizing n with
  | nil => simp
  | cons f frames ih =>
      by_cases hFits : (fmt.encode f).length ≤ n
      · rw [complete_cons, if_pos hFits]
        exact List.cons_prefix_cons.mpr ⟨rfl, ih _⟩
      · rw [complete_cons, if_neg hFits]
        exact List.nil_prefix

theorem length_stream_complete_le
    (fmt : Format α F)
    (frames : List F)
    (n : Nat) :
    (fmt.stream (fmt.complete frames n)).length ≤ n := by
  induction frames generalizing n with
  | nil => simp
  | cons f frames ih =>
      by_cases hFits : (fmt.encode f).length ≤ n
      · have hTail := ih (n - (fmt.encode f).length)
        rw [complete_cons, if_pos hFits, stream_cons,
          List.length_append]
        omega
      · simp [complete_cons, if_neg hFits]

/- From the end of the stream on, every frame is complete. -/
theorem complete_of_le
    (fmt : Format α F)
    {frames : List F}
    {n : Nat}
    (hLe : (fmt.stream frames).length ≤ n) :
    fmt.complete frames n = frames := by
  induction frames generalizing n with
  | nil => rfl
  | cons f frames ih =>
      rw [stream_cons, List.length_append] at hLe
      rw [complete_cons, if_pos (by omega), ih (by omega)]

/- Up to the end of the stream something is missing. -/
theorem missing_pos
    (fmt : Format α F)
    {frames : List F}
    {n : Nat}
    (hWithin : n ≤ (fmt.stream frames).length) :
    0 < fmt.missing frames n := by
  have hWidth := fmt.width_pos
  induction frames generalizing n with
  | nil =>
      have hZero : n = 0 := by simpa using hWithin
      rw [missing_nil, hZero]
      omega
  | cons f frames ih =>
      rw [stream_cons, List.length_append] at hWithin
      by_cases hFits : (fmt.encode f).length ≤ n
      · rw [missing_cons, if_pos hFits]
        exact ih (by omega)
      · rw [missing_cons, if_neg hFits]
        split
        · omega
        · omega

/- At its end the next head is all that is missing. -/
theorem missing_length_stream
    (fmt : Format α F)
    (frames : List F) :
    fmt.missing frames (fmt.stream frames).length =
      fmt.width := by
  induction frames with
  | nil => rfl
  | cons f frames ih =>
      rw [stream_cons, List.length_append, missing_cons,
        if_pos (Nat.le_add_right _ _), Nat.add_sub_cancel_left]
      exact ih

------------------------------------------------------------
-- Scans
------------------------------------------------------------

theorem scan_short_head
    (fmt : Format α F)
    (limit : Nat)
    {input : List α}
    (hShort : input.length < fmt.width) :
    fmt.scan limit input =
      { frames := []
        consumed := 0
        stop := .short (fmt.width - input.length) } := by
  rw [scan, if_pos hShort]

/- Behind a whole head. -/
theorem scan_head
    (fmt : Format α F)
    (limit : Nat)
    {head : List α}
    (hHead : head.length = fmt.width)
    (rest : List α) :
    fmt.scan limit (head ++ rest) =
      if limit < fmt.announced head then
        { frames := []
          consumed := 0
          stop := .tooLong (fmt.announced head) }
      else if rest.length < fmt.announced head then
        { frames := []
          consumed := 0
          stop := .short (fmt.announced head - rest.length) }
      else
        let next :=
          fmt.scan limit (rest.drop (fmt.announced head))
        { frames :=
            fmt.decode head (rest.take (fmt.announced head)) ::
              next.frames
          consumed :=
            fmt.width + fmt.announced head + next.consumed
          stop := next.stop } := by
  have hEnough : ¬ (head ++ rest).length < fmt.width := by
    rw [List.length_append]
    omega
  rw [scan, if_neg hEnough]
  simp only [List.take_left' hHead, List.drop_left' hHead]

theorem scan_tooLong
    (fmt : Format α F)
    {limit : Nat}
    {head : List α}
    (hHead : head.length = fmt.width)
    (hLong : limit < fmt.announced head)
    (rest : List α) :
    fmt.scan limit (head ++ rest) =
      { frames := []
        consumed := 0
        stop := .tooLong (fmt.announced head) } := by
  rw [fmt.scan_head limit hHead, if_pos hLong]

theorem scan_short_body
    (fmt : Format α F)
    {limit : Nat}
    {head rest : List α}
    (hHead : head.length = fmt.width)
    (hLimit : fmt.announced head ≤ limit)
    (hShort : rest.length < fmt.announced head) :
    fmt.scan limit (head ++ rest) =
      { frames := []
        consumed := 0
        stop := .short (fmt.announced head - rest.length) } := by
  rw [fmt.scan_head limit hHead, if_neg (by omega),
    if_pos hShort]

theorem scan_whole
    (fmt : Format α F)
    {limit : Nat}
    {head body : List α}
    (hHead : head.length = fmt.width)
    (hBody : fmt.announced head = body.length)
    (hLimit : body.length ≤ limit)
    (rest : List α) :
    fmt.scan limit (head ++ body ++ rest) =
      { frames :=
          fmt.decode head body ::
            (fmt.scan limit rest).frames
        consumed :=
          fmt.width + body.length +
            (fmt.scan limit rest).consumed
        stop := (fmt.scan limit rest).stop } := by
  have hFits : ¬ (body ++ rest).length < body.length := by
    rw [List.length_append]
    omega
  rw [List.append_assoc, fmt.scan_head limit hHead, hBody,
    if_neg (by omega), if_neg hFits]
  simp only [List.take_left' rfl, List.drop_left' rfl]

/- The four ways a scan can go on. -/
theorem scan_cases
    (fmt : Format α F)
    (limit : Nat)
    (input : List α) :
    input.length < fmt.width ∨
      (∃ head rest,
        input = head ++ rest ∧
          head.length = fmt.width ∧
            limit < fmt.announced head) ∨
        (∃ head rest,
          input = head ++ rest ∧
            head.length = fmt.width ∧
              fmt.announced head ≤ limit ∧
                rest.length < fmt.announced head) ∨
          ∃ head body rest,
            input = head ++ body ++ rest ∧
              head.length = fmt.width ∧
                fmt.announced head = body.length ∧
                  body.length ≤ limit := by
  by_cases hHead : input.length < fmt.width
  · exact .inl hHead
  right
  have hSplit := (List.take_append_drop fmt.width input).symm
  have hTake : (input.take fmt.width).length = fmt.width := by
    rw [List.length_take]
    omega
  generalize input.take fmt.width = head at hSplit hTake
  generalize input.drop fmt.width = rest at hSplit
  by_cases hLong : limit < fmt.announced head
  · exact .inl ⟨head, rest, hSplit, hTake, hLong⟩
  right
  by_cases hShort : rest.length < fmt.announced head
  · left
    exact ⟨head, rest, hSplit, hTake, by omega, hShort⟩
  · right
    have hLength :
        (rest.take (fmt.announced head)).length =
          fmt.announced head := by
      rw [List.length_take]
      omega
    refine ⟨head, rest.take (fmt.announced head),
      rest.drop (fmt.announced head), ?_, hTake, hLength.symm,
      by omega⟩
    rw [List.append_assoc, List.take_append_drop]
    exact hSplit

/-
  Scanning what has been seen, and then what is left of it
  with what comes later, is scanning all at once.
-/
theorem scan_append
    (fmt : Format α F)
    (limit : Nat)
    {seen : List α}
    {needed : Nat}
    (hShort : (fmt.scan limit seen).stop = .short needed)
    (later : List α) :
    fmt.scan limit (seen ++ later) =
      { frames :=
          (fmt.scan limit seen).frames ++
            (fmt.scan limit
              (seen.drop (fmt.scan limit seen).consumed ++
                later)).frames
        consumed :=
          (fmt.scan limit seen).consumed +
            (fmt.scan limit
              (seen.drop (fmt.scan limit seen).consumed ++
                later)).consumed
        stop :=
          (fmt.scan limit
            (seen.drop (fmt.scan limit seen).consumed ++
              later)).stop } := by
  have hWidth := fmt.width_pos
  -- induction on what has been seen
  induction hLength : seen.length using
    Nat.strong_induction_on generalizing seen with
  | _ length ih =>
      rcases fmt.scan_cases limit seen with
        hHead | ⟨head, rest, rfl, hHead, hLong⟩ |
        ⟨head, rest, rfl, hHead, hLimit, hBody⟩ |
        ⟨head, body, rest, rfl, hHead, hBody, hLimit⟩
      · simp [fmt.scan_short_head limit hHead]
      · rw [fmt.scan_tooLong hHead hLong] at hShort
        cases hShort
      · simp [fmt.scan_short_body hHead hLimit hBody]
      · have hSeen := fmt.scan_whole hHead hBody hLimit rest
        have hAll := fmt.scan_whole hHead hBody hLimit
          (rest ++ later)
        rw [hSeen] at hShort
        have hRest := ih rest.length
          (by
            rw [← hLength, List.length_append,
              List.length_append]
            omega)
          hShort rfl
        have hDrop : ∀ n,
            (head ++ body ++ rest).drop
                (fmt.width + body.length + n) =
              rest.drop n := by
          intro n
          rw [← List.drop_drop, List.drop_left'
            (by rw [List.length_append, hHead])]
        rw [List.append_assoc (head ++ body), hAll, hRest,
          hSeen]
        simp only [hDrop, List.cons_append]
        congr 1
        omega

/-
  On a prefix of a stream a scan finds exactly the complete
  frames and asks for exactly what is missing.
-/
theorem scan_of_prefix
    (fmt : Format α F)
    {limit : Nat}
    {frames : List F}
    (hReads : ∀ f ∈ frames, fmt.Reads limit f)
    {input : List α}
    (hPrefix : input <+: fmt.stream frames) :
    fmt.scan limit input =
      { frames := fmt.complete frames input.length
        consumed :=
          (fmt.stream
            (fmt.complete frames input.length)).length
        stop := .short (fmt.missing frames input.length) } := by
  have hWidth := fmt.width_pos
  induction frames generalizing input with
  | nil =>
      have hEmpty : input = [] := by simpa using hPrefix
      rw [fmt.scan_short_head limit (by simp [hEmpty, hWidth])]
      simp
  | cons f frames ih =>
      rcases hReads f (by simp) with
        ⟨head, body, hEncode, hHead, hBody, hLimit, hDecode⟩
      have hSize : (fmt.encode f).length =
          fmt.width + body.length := by
        rw [hEncode, List.length_append, hHead]
      rw [stream_cons, hEncode, List.append_assoc] at hPrefix
      by_cases hShort : input.length < fmt.width
      · rw [fmt.scan_short_head limit hShort, complete_cons,
          missing_cons, if_neg (by omega), if_neg (by omega),
          if_pos hShort]
        simp
      -- the head is there
      have hHeadIn : head <+: input :=
        List.prefix_of_prefix_length_le
          (List.prefix_append head _) hPrefix (by omega)
      rcases hHeadIn with ⟨rest, rfl⟩
      have hRest := (List.prefix_append_right_inj head).mp hPrefix
      have hLength : (head ++ rest).length =
          fmt.width + rest.length := by
        rw [List.length_append, hHead]
      by_cases hWhole : rest.length < body.length
      · rw [fmt.scan_short_body hHead (by omega) (by omega),
          complete_cons, missing_cons, if_neg (by omega),
          if_neg (by omega), if_neg hShort, hBody, hLength,
          hSize, Nat.add_sub_add_left]
        simp
      · -- so is the body
        have hBodyIn : body <+: rest :=
          List.prefix_of_prefix_length_le
            (List.prefix_append body _) hRest (by omega)
        rcases hBodyIn with ⟨later, rfl⟩
        have hNext :=
          (List.prefix_append_right_inj body).mp hRest
        have hLeft :
            (head ++ (body ++ later)).length -
                (fmt.encode f).length =
              later.length := by
          rw [hLength, hSize, List.length_append]
          omega
        rw [complete_cons, missing_cons, if_pos (by omega),
          if_pos (by omega), hLeft, ← List.append_assoc,
          fmt.scan_whole hHead hBody hLimit,
          ih (fun g hMem => hReads g (by simp [hMem])) hNext,
          hDecode, stream_cons, List.length_append, hSize]

end Format

------------------------------------------------------------
-- Receivers
------------------------------------------------------------

/- What is held back, what has been received, and for each
   piece the symbols consumed and the symbols asked for. -/
structure Receiver (α F : Type) where
  rest : List α
  got : List F
  answers : List (Nat × Nat)

namespace Receiver

variable {α F : Type}

def start : Receiver α F :=
  { rest := [], got := [], answers := [] }

/- A piece arrives, unless more comes to be held back than
   there is room for, or too much is announced. -/
def arrive
    (fmt : Format α F)
    (limit capacity : Nat)
    (r : Receiver α F)
    (piece : List α) : Option (Receiver α F) :=
  if (r.rest ++ piece).length < capacity then
    match (fmt.scan limit (r.rest ++ piece)).stop with
    | .short needed =>
        some
          { rest := (r.rest ++ piece).drop
              (fmt.scan limit (r.rest ++ piece)).consumed
            got := r.got ++
              (fmt.scan limit (r.rest ++ piece)).frames
            answers := r.answers ++
              [((fmt.scan limit (r.rest ++ piece)).consumed,
                needed)] }
    | .tooLong _ => none
  else
    none

def arriveAll
    (fmt : Format α F)
    (limit capacity : Nat)
    (r : Receiver α F)
    (pieces : List (List α)) : Option (Receiver α F) :=
  pieces.foldlM (arrive fmt limit capacity) r

theorem arriveAll_snoc
    (fmt : Format α F)
    (limit capacity : Nat)
    (r : Receiver α F)
    (front : List (List α))
    (piece : List α) :
    r.arriveAll fmt limit capacity (front ++ [piece]) =
      (r.arriveAll fmt limit capacity front).bind
        (fun r => r.arrive fmt limit capacity piece) := by
  simp [arriveAll, List.foldlM_append]

/- What a piece that arrives leaves. -/
theorem arrive_eq_some
    {fmt : Format α F}
    {limit capacity : Nat}
    {r r' : Receiver α F}
    {piece : List α}
    (hArrive : r.arrive fmt limit capacity piece = some r') :
    (r.rest ++ piece).length < capacity ∧
      ∃ needed,
        (fmt.scan limit (r.rest ++ piece)).stop =
            .short needed ∧
          r' =
            { rest := (r.rest ++ piece).drop
                (fmt.scan limit (r.rest ++ piece)).consumed
              got := r.got ++
                (fmt.scan limit (r.rest ++ piece)).frames
              answers := r.answers ++
                [((fmt.scan limit (r.rest ++ piece)).consumed,
                  needed)] } := by
  unfold arrive at hArrive
  split at hArrive
  · rename_i hRoom
    split at hArrive
    · rename_i needed hStop
      exact ⟨hRoom, needed, hStop,
        (Option.some.inj hArrive).symm⟩
    · cases hArrive
  · cases hArrive

/- There is always room for what a stream cut into pieces
   leaves to be held back. -/
def Fits
    (fmt : Format α F)
    (capacity : Nat)
    (frames : List F)
    (pieces : List (List α)) : Prop :=
  ∀ front piece back,
    pieces = front ++ piece :: back →
      front.flatten.length + piece.length <
        (fmt.stream (fmt.complete frames
          front.flatten.length)).length + capacity

theorem fits_nil
    (fmt : Format α F)
    (capacity : Nat)
    (frames : List F) :
    Fits fmt capacity frames [] := by
  intro front piece back hSplit
  simp at hSplit

theorem Fits.snoc
    {fmt : Format α F}
    {capacity : Nat}
    {frames : List F}
    {pieces : List (List α)}
    (hFits : Fits fmt capacity frames pieces)
    {last : List α}
    (hRoom :
      pieces.flatten.length + last.length <
        (fmt.stream (fmt.complete frames
          pieces.flatten.length)).length + capacity) :
    Fits fmt capacity frames (pieces ++ [last]) := by
  intro front piece back hSplit
  induction back using List.reverseRecOn with
  | nil =>
      rcases List.append_inj' hSplit rfl with ⟨rfl, hLast⟩
      cases hLast
      exact hRoom
  | append_singleton most other _ =>
      rw [← List.cons_append, ← List.append_assoc] at hSplit
      exact hFits front piece most
        (List.append_inj_left' hSplit rfl)

theorem Fits.front
    {fmt : Format α F}
    {capacity : Nat}
    {frames : List F}
    {front back : List (List α)}
    (hFits : Fits fmt capacity frames (front ++ back)) :
    Fits fmt capacity frames front := by
  intro most piece between hSplit
  exact hFits most piece (between ++ back)
    (by rw [hSplit, List.append_assoc, List.cons_append])

/- What has been received of a stream of which `n` symbols
   have arrived. -/
structure Synced
    (fmt : Format α F)
    (frames : List F)
    (n : Nat)
    (r : Receiver α F) : Prop where
  got_eq : r.got = fmt.complete frames n
  rest_eq :
    r.rest =
      ((fmt.stream frames).take n).drop
        (fmt.stream (fmt.complete frames n)).length
  consumed_eq :
    (r.answers.map Prod.fst).sum =
      (fmt.stream (fmt.complete frames n)).length
  needed_eq : ∀ answer ∈ r.answers.getLast?,
    answer.2 = fmt.missing frames n

variable {fmt : Format α F}
variable {limit capacity : Nat}
variable {frames : List F}

theorem synced_start
    (hReads : ∀ f ∈ frames, fmt.Reads limit f) :
    Synced fmt frames 0 start := by
  have hWidth := fmt.width_pos
  have hNone : fmt.complete frames 0 = [] := by
    cases frames with
    | nil => rfl
    | cons f frames =>
        rcases hReads f (by simp) with
          ⟨head, body, hEncode, hHead, -⟩
        have hSize : (fmt.encode f).length =
            fmt.width + body.length := by
          rw [hEncode, List.length_append, hHead]
        rw [Format.complete_cons, if_neg (by omega)]
  constructor
  · exact hNone.symm
  · simp [start]
  · simp [start, hNone]
  · simp [start]

/-
  However the symbols of a stream are cut, the frames that
  have come in whole have been received, and what is asked
  for is what is missing.
-/
theorem Synced.arrive
    (hReads : ∀ f ∈ frames, fmt.Reads limit f)
    {n : Nat}
    {r : Receiver α F}
    (hSynced : Synced fmt frames n r)
    {piece : List α}
    (hPiece :
      (fmt.stream frames).take n ++ piece <+:
        fmt.stream frames)
    (hWithin : n ≤ (fmt.stream frames).length)
    (hRoom :
      n + piece.length <
        (fmt.stream (fmt.complete frames n)).length +
          capacity) :
    ∃ r',
      r.arrive fmt limit capacity piece = some r' ∧
        Synced fmt frames (n + piece.length) r' := by
  have hLength : ((fmt.stream frames).take n).length = n := by
    rw [List.length_take, Nat.min_eq_left hWithin]
  have hSeen := fmt.scan_of_prefix hReads
    (List.take_prefix n (fmt.stream frames))
  have hAll := fmt.scan_of_prefix hReads hPiece
  rw [hLength] at hSeen
  rw [List.length_append, hLength] at hAll
  have hTogether := fmt.scan_append limit
    (congrArg Scanned.stop hSeen) piece
  simp only [hSeen, ← hSynced.rest_eq] at hTogether
  rw [hAll] at hTogether
  simp only [Scanned.mk.injEq] at hTogether
  rcases hTogether with ⟨hFrames, hConsumed, hStop⟩
  have hTake :
      (fmt.stream frames).take (n + piece.length) =
        (fmt.stream frames).take n ++ piece :=
    (Framing.take_append_of_prefix hWithin hPiece).2.symm
  have hHeld :
      (fmt.stream (fmt.complete frames n)).length ≤
        ((fmt.stream frames).take n).length := by
    rw [hLength]
    exact fmt.length_stream_complete_le frames n
  have hShort : (r.rest ++ piece).length < capacity := by
    have hUpTo := fmt.length_stream_complete_le frames n
    rw [List.length_append, hSynced.rest_eq, List.length_drop,
      hLength]
    omega
  have hArrive : r.arrive fmt limit capacity piece = some
      { rest := (r.rest ++ piece).drop
          (fmt.scan limit (r.rest ++ piece)).consumed
        got := r.got ++
          (fmt.scan limit (r.rest ++ piece)).frames
        answers := r.answers ++
          [((fmt.scan limit (r.rest ++ piece)).consumed,
            fmt.missing frames (n + piece.length))] } := by
    rw [Receiver.arrive, if_pos hShort, ← hStop]
  refine ⟨_, hArrive, ?_⟩
  constructor
  · rw [hFrames, hSynced.got_eq]
  · rw [hTake, hConsumed, ← List.drop_drop,
      List.drop_append_of_le_length hHeld, hSynced.rest_eq]
  · rw [List.map_append, List.sum_append, hSynced.consumed_eq,
      hConsumed]
    simp
  · simp

theorem synced_arriveAll
    (hReads : ∀ f ∈ frames, fmt.Reads limit f)
    {pieces : List (List α)}
    (hPieces : pieces.flatten <+: fmt.stream frames)
    (hFits : Fits fmt capacity frames pieces) :
    ∃ r,
      start.arriveAll fmt limit capacity pieces = some r ∧
        Synced fmt frames pieces.flatten.length r := by
  induction pieces using List.reverseRecOn with
  | nil => exact ⟨start, rfl, synced_start hReads⟩
  | append_singleton front piece ih =>
      have hFlat :
          (front ++ [piece]).flatten = front.flatten ++ piece := by
        simp
      rw [hFlat] at hPieces ⊢
      have hFront := (List.prefix_append _ _).trans hPieces
      rcases ih hFront hFits.front with ⟨r, hRun, hSynced⟩
      have hTake :
          (fmt.stream frames).take front.flatten.length =
            front.flatten :=
        (List.prefix_iff_eq_take.mp hFront).symm
      rcases hSynced.arrive hReads
          (by rw [hTake]; exact hPieces) hFront.length_le
          (hFits front piece [] rfl) with ⟨r', hArrive, hNext⟩
      refine ⟨r', ?_, ?_⟩
      · rw [arriveAll_snoc, hRun]
        exact hArrive
      · rw [List.length_append]
        exact hNext

end Receiver

end Framing
