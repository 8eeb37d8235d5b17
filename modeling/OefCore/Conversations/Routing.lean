import Mathlib.Data.List.Infix
import Mathlib.Data.List.Range
import Mathlib.Tactic.Common
import OefCore.Conversations.OutboundSearchConversation
import OefCore.Library.LastPosition
import OefCore.Library.Runs

/-
  Whether replies of the search node reach the conversations
  that asked: an identity of 64 bits travels through a port of
  16 bits.

  Main declarations:
    * `OutboundSearch.HandedRight`
    * `OutboundSearch.handedRight_iff`
    * `OutboundSearch.handedRight_of_few_starts`
-/

namespace OefCore

namespace OutboundSearch

------------------------------------------------------------
-- What Is Promised
------------------------------------------------------------

/- Every reply went to the conversation that it answers. -/
def HandedRight (s : OutboundSearch) : Prop :=
  ∀ handing ∈ s.handed,
    handing.recipient = some handing.origin

/-
  A conversation whose identity fits into a port, and that no
  later conversation shares its identity with.
-/
def Recognised
    (s : OutboundSearch)
    (origin : Nat) : Prop :=
  ∀ conv, s.conversations[origin]? = some conv →
    conv.ident.toNat < 2 ^ 16 ∧
      ∀ later other, origin < later →
        s.conversations[later]? = some other →
          other.ident ≠ conv.ident

/- If the event is a reply, it answers a conversation that is
   recognised. -/
def AnswersRecognised
    (s : OutboundSearch) : Event → Prop
  | .reply request _ _ =>
      ∀ received, s.requests[request]? = some received →
        s.Recognised received.origin
  | _ => True

------------------------------------------------------------
-- Identities
------------------------------------------------------------

/- An identity survives its way through a port exactly if it
   fits into one. -/
theorem toUInt64_toUInt16_iff (ident : UInt64) :
    ident.toUInt16.toUInt64 = ident ↔
      ident.toNat < 2 ^ 16 := by
  rw [← UInt64.toNat_inj, UInt16.toNat_toUInt64,
    UInt64.toNat_toUInt16]
  omega

/- The identities of all conversations, in their order. -/
def idents (s : OutboundSearch) : List UInt64 :=
  s.conversations.map OutboundSearchConversation.ident

theorem getElem?_idents
    (s : OutboundSearch)
    (conv : Nat) :
    s.idents[conv]? =
      s.conversations[conv]?.map
        OutboundSearchConversation.ident :=
  List.getElem?_map

/- Recognition, in terms of identities alone. -/
theorem recognised_iff
    {s : OutboundSearch}
    {origin : Nat}
    {ident : UInt64}
    (hOrigin : s.idents[origin]? = some ident) :
    s.Recognised origin ↔
      LastPosition.IsLast s.idents ident.toUInt16.toUInt64
        origin := by
  rw [getElem?_idents, Option.map_eq_some_iff] at hOrigin
  rcases hOrigin with ⟨conv, hConv, hIdent⟩
  unfold Recognised LastPosition.IsLast
  constructor
  · intro hRecognised
    rcases hRecognised conv hConv with ⟨hFits, hLater⟩
    rw [hIdent] at hFits hLater
    rw [(toUInt64_toUInt16_iff ident).mpr hFits]
    refine ⟨by rw [getElem?_idents, hConv, ← hIdent]; rfl, ?_⟩
    intro later hAfter hSame
    rw [getElem?_idents, Option.map_eq_some_iff] at hSame
    rcases hSame with ⟨other, hOther, hEq⟩
    exact hLater later other hAfter hOther hEq
  · rintro ⟨hHere, hLater⟩ found hFound
    rw [hConv] at hFound
    cases hFound
    rw [getElem?_idents, hConv, Option.map_some, hIdent,
      Option.some.injEq] at hHere
    rw [hIdent]
    refine ⟨(toUInt64_toUInt16_iff ident).mp hHere.symm, ?_⟩
    intro later other hAfter hOther hEq
    apply hLater later hAfter
    rw [getElem?_idents, hOther, Option.map_some, hEq, ← hHere]

------------------------------------------------------------
-- Sound States
------------------------------------------------------------

/- The map finds the last conversation of each identity, and
   what is on its way carries its conversation's port. -/
structure Sound (s : OutboundSearch) : Prop where
  records :
    LastPosition.Records s.idents s.ident2conversation
  txq :
    ∀ message ∈ s.txq, ∃ ident,
      s.idents[message.origin]? = some ident ∧
        message.uri.port = ident.toUInt16
  requests :
    ∀ received ∈ s.requests, ∃ ident,
      s.idents[received.origin]? = some ident ∧
        received.leader.id = ident.toUInt16.toUInt64

theorem sound_construct : construct.Sound where
  records := LastPosition.records_nil
  txq := by simp [construct]
  requests := by simp [construct]

theorem Sound.start
    {s : OutboundSearch}
    (hSound : s.Sound)
    (targetPath : Uri)
    (initiator : Wire) :
    (s.start targetPath initiator).2.Sound := by
  unfold OutboundSearch.start
  cases hPath : conversationFor targetPath.path with
  | none =>
      exact ⟨hSound.records, hSound.txq, hSound.requests⟩
  | some found =>
      rcases found with ⟨type, kind⟩
      have hIdents :
          ∀ {origin : Nat} {ident : UInt64},
            s.idents[origin]? = some ident →
            (s.idents ++ [s.ident])[origin]? = some ident := by
        intro origin ident hOrigin
        rw [List.getElem?_append_left
          (List.getElem?_eq_some_iff.mp hOrigin).1]
        exact hOrigin
      have hLength : s.conversations.length = s.idents.length :=
        (List.length_map _).symm
      constructor
      · simp only [idents, List.map_append, List.map_cons,
          List.map_nil, hLength]
        exact hSound.records.snoc s.ident
      · intro message hMem
        rcases hSound.txq message hMem with
          ⟨ident, hOrigin, hPort⟩
        refine ⟨ident, ?_, hPort⟩
        simpa [idents, OutboundSearchConversation.construct]
          using hIdents hOrigin
      · intro received hMem
        rcases hSound.requests received hMem with
          ⟨ident, hOrigin, hId⟩
        refine ⟨ident, ?_, hId⟩
        simpa [idents, OutboundSearchConversation.construct]
          using hIdents hOrigin

theorem Sound.process
    {s : OutboundSearch}
    (hSound : s.Sound)
    (workload : Nat) :
    (s.process workload).Sound := by
  unfold OutboundSearch.process
  cases hConv : s.conversations[workload]? with
  | none => exact hSound
  | some conv =>
      simp only
      split
      · refine ⟨hSound.records, ?_, hSound.requests⟩
        intro message hMem
        simp only [List.mem_append, List.mem_singleton] at hMem
        rcases hMem with hMem | hNew
        · exact hSound.txq message hMem
        · rw [hNew]
          refine ⟨conv.ident, ?_, rfl⟩
          change s.idents[workload]? = _
          rw [getElem?_idents, hConv]
          rfl
      · exact hSound

theorem Sound.processPosted
    {s : OutboundSearch}
    (hSound : s.Sound)
    (position : Nat) :
    (s.processPosted position).Sound := by
  unfold OutboundSearch.processPosted
  cases s.posted[position]? with
  | none => exact hSound
  | some workload =>
      apply Sound.process
      exact ⟨hSound.records, hSound.txq, hSound.requests⟩

theorem Sound.transmit
    {s : OutboundSearch}
    (hSound : s.Sound) :
    s.transmit.Sound := by
  unfold OutboundSearch.transmit
  cases hTxq : s.txq with
  | nil => exact hSound
  | cons message rest =>
      have hAll := hSound.txq
      rw [hTxq] at hAll
      refine ⟨hSound.records, ?_, ?_⟩
      · exact fun other hMem =>
          hAll other (List.mem_cons_of_mem _ hMem)
      · intro received hMem
        simp only [List.mem_append, List.mem_singleton] at hMem
        rcases hMem with hMem | hNew
        · exact hSound.requests received hMem
        · rcases hAll message List.mem_cons_self with
            ⟨ident, hOrigin, hPort⟩
          rw [hNew]
          refine ⟨ident, hOrigin, ?_⟩
          simp only [leaderOf, hPort]

/- What a conversation is told leaves its identity. -/
theorem handle_ident
    (protos : ResponseProtos)
    (leader : TransportHeader)
    (payload : Wire)
    (conv : OutboundSearchConversation) :
    (handle protos leader payload conv).ident = conv.ident := by
  unfold handle OutboundSearchConversation.handleMessage
    OutboundSearchConversation.handleError
  split
  · split <;> rfl
  · rfl

theorem idents_arrive
    (s : OutboundSearch)
    (protos : ResponseProtos)
    (origin : Nat)
    (leader : TransportHeader)
    (payload : Wire) :
    (s.arrive protos origin leader payload).idents =
      s.idents := by
  unfold arrive
  cases s.ident2conversation leader.id with
  | none => rfl
  | some conv =>
      apply List.ext_getElem?
      intro other
      rw [getElem?_idents, getElem?_idents,
        List.getElem?_modify]
      cases s.conversations[other]? with
      | none => rfl
      | some found =>
          by_cases hHere : conv = other
          · simp [hHere, handle_ident]
          · simp [hHere]

theorem Sound.arrive
    {s : OutboundSearch}
    (hSound : s.Sound)
    (protos : ResponseProtos)
    (origin : Nat)
    (leader : TransportHeader)
    (payload : Wire) :
    (s.arrive protos origin leader payload).Sound := by
  have hIdents := s.idents_arrive protos origin leader payload
  constructor
  · rw [hIdents]
    exact hSound.records
  · rw [hIdents]
    exact hSound.txq
  · rw [hIdents]
    exact hSound.requests

theorem Sound.step
    {s : OutboundSearch}
    (hSound : s.Sound)
    (protos : ResponseProtos)
    (event : Event) :
    (s.step protos event).Sound := by
  cases event with
  | start targetPath initiator =>
      exact hSound.start targetPath initiator
  | process position => exact hSound.processPosted position
  | transmit => exact hSound.transmit
  | reply request status payload =>
      unfold OutboundSearch.step OutboundSearch.reply
      simp only
      cases s.requests[request]? with
      | none => exact hSound
      | some received => exact hSound.arrive _ _ _ _

------------------------------------------------------------
-- Replies
------------------------------------------------------------

/- Only replies are handed to anybody. -/
theorem handed_step_of_not_reply
    (s : OutboundSearch)
    (protos : ResponseProtos)
    {event : Event}
    (hNot : ∀ request status payload,
      event ≠ .reply request status payload) :
    (s.step protos event).handed = s.handed := by
  cases event with
  | start targetPath initiator =>
      unfold OutboundSearch.step OutboundSearch.start
      simp only
      cases conversationFor targetPath.path <;> rfl
  | process position =>
      unfold OutboundSearch.step OutboundSearch.processPosted
      simp only
      cases s.posted[position]? with
      | none => rfl
      | some workload =>
          unfold OutboundSearch.process
          simp only
          cases s.conversations[workload]? with
          | none => rfl
          | some conv =>
              simp only
              split <;> rfl
  | transmit =>
      unfold OutboundSearch.step OutboundSearch.transmit
      simp only
      cases s.txq <;> rfl
  | reply request status payload =>
      exact absurd rfl (hNot request status payload)

/- A reply is handed to its conversation exactly if that is
   recognised. -/
theorem Sound.recipient_iff
    {s : OutboundSearch}
    (hSound : s.Sound)
    {received : SearchRequest}
    (hMem : received ∈ s.requests) :
    s.ident2conversation received.leader.id =
        some received.origin ↔
      s.Recognised received.origin := by
  rcases hSound.requests received hMem with
    ⟨ident, hOrigin, hId⟩
  rw [recognised_iff hOrigin, hId]
  exact hSound.records _ _

theorem Sound.handedRight_step_iff
    {s : OutboundSearch}
    (hSound : s.Sound)
    (hRight : s.HandedRight)
    (protos : ResponseProtos)
    (event : Event) :
    (s.step protos event).HandedRight ↔
      s.AnswersRecognised event := by
  cases event with
  | start | process | transmit =>
      unfold HandedRight
      rw [handed_step_of_not_reply]
      · exact iff_of_true hRight trivial
      · intro request status payload hEq
        cases hEq
  | reply request status payload =>
      unfold OutboundSearch.step OutboundSearch.reply
        AnswersRecognised
      simp only
      cases hRequest : s.requests[request]? with
      | none =>
          refine iff_of_true hRight ?_
          intro received hReceived
          cases hReceived
      | some received =>
          have hMem := List.mem_of_getElem? hRequest
          have hHanded :
              HandedRight
                  (s.arrive protos received.origin
                    { uri := received.leader.uri
                      id := received.leader.id
                      status := status } payload) ↔
                s.ident2conversation received.leader.id =
                  some received.origin := by
            unfold HandedRight OutboundSearch.arrive
            simp only [List.mem_append, List.mem_singleton]
            constructor
            · intro hAll
              exact hAll _ (.inr rfl)
            · rintro hHere handing (hOld | hNew)
              · exact hRight handing hOld
              · rw [hNew]
                exact hHere
          simp only [Option.some.injEq, forall_eq']
          rw [hHanded, hSound.recipient_iff hMem]

def Event.isStart : Event → Bool
  | .start _ _ => true
  | _ => false

/- After few attempts to start, the identities are the
   numbers of the attempts, in order. -/
structure Numbered
    (s : OutboundSearch)
    (attempts : Nat) : Prop where
  ident : s.ident.toNat = attempts + 1
  bounded : ∀ ident ∈ s.idents, ident.toNat ≤ attempts
  increasing : s.idents.Pairwise fun earlier later =>
    earlier.toNat < later.toNat

theorem Numbered.start
    {s : OutboundSearch}
    {attempts : Nat}
    (hNumbered : s.Numbered attempts)
    (hFew : attempts + 2 < 2 ^ 64)
    (targetPath : Uri)
    (initiator : Wire) :
    (s.start targetPath initiator).2.Numbered
      (attempts + 1) := by
  have hIdent : (s.ident + 1).toNat = attempts + 1 + 1 := by
    rw [UInt64.toNat_add, hNumbered.ident, UInt64.toNat_one]
    omega
  unfold OutboundSearch.start
  cases conversationFor targetPath.path with
  | none =>
      exact ⟨hIdent,
        fun ident hMem =>
          Nat.le_succ_of_le (hNumbered.bounded ident hMem),
        hNumbered.increasing⟩
  | some found =>
      have hIdents :
          (s.conversations ++
              [OutboundSearchConversation.construct found.1
                found.2 s.ident targetPath initiator]).map
            OutboundSearchConversation.ident =
            s.idents ++ [s.ident] := by
        simp [idents, OutboundSearchConversation.construct]
      refine ⟨hIdent, ?_, ?_⟩
      · unfold idents
        simp only [hIdents, List.mem_append,
          List.mem_singleton]
        rintro ident (hMem | hNew)
        · exact Nat.le_succ_of_le
            (hNumbered.bounded ident hMem)
        · rw [hNew, hNumbered.ident]
      · unfold idents
        simp only [hIdents, List.pairwise_append,
          List.pairwise_singleton, List.mem_singleton]
        refine ⟨hNumbered.increasing, trivial, ?_⟩
        intro earlier hMem later hNew
        rw [hNew, hNumbered.ident]
        exact Nat.lt_succ_of_le (hNumbered.bounded earlier hMem)

/- All events but starts leave the identities. -/
theorem idents_step_of_not_start
    (s : OutboundSearch)
    (protos : ResponseProtos)
    {event : Event}
    (hNot : event.isStart = false) :
    (s.step protos event).idents = s.idents ∧
      (s.step protos event).ident = s.ident := by
  cases event with
  | start targetPath initiator => cases hNot
  | process position =>
      unfold OutboundSearch.step OutboundSearch.processPosted
      simp only
      cases s.posted[position]? with
      | none => exact ⟨rfl, rfl⟩
      | some workload =>
          unfold OutboundSearch.process
          simp only
          cases s.conversations[workload]? with
          | none => exact ⟨rfl, rfl⟩
          | some conv =>
              simp only
              split <;> exact ⟨rfl, rfl⟩
  | transmit =>
      unfold OutboundSearch.step OutboundSearch.transmit
      simp only
      cases s.txq <;> exact ⟨rfl, rfl⟩
  | reply request status payload =>
      unfold OutboundSearch.step OutboundSearch.reply
      simp only
      cases s.requests[request]? with
      | none => exact ⟨rfl, rfl⟩
      | some received => exact ⟨idents_arrive _ _ _ _ _, rfl⟩

theorem Numbered.step
    {s : OutboundSearch}
    {attempts : Nat}
    (hNumbered : s.Numbered attempts)
    (hFew : attempts + 2 < 2 ^ 64)
    (protos : ResponseProtos)
    (event : Event) :
    (s.step protos event).Numbered
      (attempts + [event].countP Event.isStart) := by
  cases hStart : event.isStart with
  | true =>
      cases event with
      | start targetPath initiator =>
          exact hNumbered.start hFew targetPath initiator
      | process | transmit | reply => cases hStart
  | false =>
      rcases s.idents_step_of_not_start protos hStart with
        ⟨hIdents, hIdent⟩
      rw [List.countP_singleton, hStart]
      refine ⟨?_, ?_, ?_⟩
      · rw [hIdent]
        exact hNumbered.ident
      · rw [hIdents]
        exact hNumbered.bounded
      · rw [hIdents]
        exact hNumbered.increasing

theorem Numbered.recognised
    {s : OutboundSearch}
    {attempts : Nat}
    (hNumbered : s.Numbered attempts)
    (hFew : attempts < 2 ^ 16)
    (origin : Nat) :
    s.Recognised origin := by
  intro conv hConv
  have hHere : s.idents[origin]? = some conv.ident := by
    rw [getElem?_idents, hConv]
    rfl
  constructor
  · exact Nat.lt_of_le_of_lt
      (hNumbered.bounded _ (List.mem_of_getElem? hHere)) hFew
  · intro later other hLater hOther hEq
    have hThere : s.idents[later]? = some other.ident := by
      rw [getElem?_idents, hOther]
      rfl
    rcases List.getElem?_eq_some_iff.mp hHere with
      ⟨hOriginLt, hOriginEq⟩
    rcases List.getElem?_eq_some_iff.mp hThere with
      ⟨hLaterLt, hLaterEq⟩
    have hLess := List.pairwise_iff_getElem.mp
      hNumbered.increasing origin later hOriginLt hLaterLt
      hLater
    rw [hOriginEq, hLaterEq, hEq] at hLess
    exact Nat.lt_irrefl _ hLess

/- What holds along a run that tries few starts. -/
structure FewStarts
    (protos : ResponseProtos)
    (front : List Event) : Prop where
  sound : (construct.run protos front).Sound
  right : (construct.run protos front).HandedRight
  numbered :
    (construct.run protos front).Numbered
      (front.countP Event.isStart)

/- Replies go to the right conversations in every run that
   tries to start fewer than 65536 of them. -/
theorem handedRight_of_few_starts
    (protos : ResponseProtos)
    {events : List Event}
    (hFew : events.countP Event.isStart < 2 ^ 16)
    {front : List Event}
    (hFront : front <+: events) :
    HandedRight (construct.run protos front) := by
  have hAll : FewStarts protos front := by
    refine Runs.invariant_prefix _ ?_ ?_ hFront
    · refine ⟨sound_construct, ?_, rfl, ?_, .nil⟩
      · intro handing hMem
        cases hMem
      · intro ident hMem
        cases hMem
    · rintro front event back hSplit
        ⟨hSound, hRight, hNumbered⟩
      have hCount :
          front.countP Event.isStart ≤
            events.countP Event.isStart := by
        rw [hSplit, List.countP_append]
        exact Nat.le_add_right _ _
      have hRecognised := hNumbered.recognised
        (Nat.lt_of_le_of_lt hCount hFew)
      constructor
      · rw [run_snoc]
        exact hSound.step protos event
      · rw [run_snoc, hSound.handedRight_step_iff hRight]
        cases event with
        | start | process | transmit => trivial
        | reply request status payload =>
            exact fun received _ =>
              hRecognised received.origin
      · rw [run_snoc, List.countP_append]
        exact hNumbered.step (by omega) protos event
  exact hAll.right

------------------------------------------------------------
-- Many Conversations
------------------------------------------------------------

/- The state after a number of conversations were started
   and nothing else happened. -/
structure Started
    (s : OutboundSearch)
    (count : Nat) : Prop where
  sound : s.Sound
  ident : s.ident = UInt64.ofNat (count + 1)
  idents :
    s.idents =
      (List.range count).map fun k => UInt64.ofNat (k + 1)
  posted : s.posted = List.range count
  txq : s.txq = []
  requests : s.requests = []
  handed : s.handed = []

theorem started_run
    (protos : ResponseProtos)
    {targetPath : Uri}
    {found : SearchConversationType × ResponseKind}
    (hPath : conversationFor targetPath.path = some found)
    (initiator : Wire)
    (count : Nat) :
    Started
      (construct.run protos
        (List.replicate count (.start targetPath initiator)))
      count := by
  induction count with
  | zero =>
      exact ⟨sound_construct, rfl, rfl, rfl, rfl, rfl, rfl⟩
  | succ count ih =>
      rw [List.replicate_succ', run_snoc]
      have hSound := ih.sound.step protos
        (.start targetPath initiator)
      revert ih hSound
      generalize construct.run protos
        (List.replicate count (.start targetPath initiator)) = s
      intro ih hSound
      have hLength : s.conversations.length = count := by
        have hIdents := congrArg List.length ih.idents
        simpa [idents] using hIdents
      refine ⟨hSound, ?_, ?_, ?_, ?_, ?_, ?_⟩
      all_goals
        simp only [OutboundSearch.step, OutboundSearch.start,
          hPath]
      · rw [ih.ident]
        simp
      · have hIdents := ih.idents
        unfold idents at hIdents ⊢
        simp [hIdents, OutboundSearchConversation.construct,
          ih.ident, List.range_succ]
      · rw [ih.posted, hLength, List.range_succ]
      · exact ih.txq
      · exact ih.requests
      · exact ih.handed

/- A conversation that is sent over an idle connection. -/
theorem sent_of_posted
    {s : OutboundSearch}
    (protos : ResponseProtos)
    {position workload : Nat}
    (hPosted : s.posted[position]? = some workload)
    {conv : OutboundSearchConversation}
    (hConv : s.conversations[workload]? = some conv)
    (hTxq : s.txq = []) :
    ((s.step protos (.process position)).step protos
        .transmit).conversations = s.conversations ∧
      ∃ received,
        ((s.step protos (.process position)).step protos
            .transmit).requests = s.requests ++ [received] ∧
          received.origin = workload := by
  have hProcess :
      s.step protos (.process position) =
        { s with
          posted := s.posted.eraseIdx position
          txq :=
            [{ uri :=
                 { conv.uri with port := conv.ident.toUInt16 }
               initiator := conv.initiator
               origin := workload }] } := by
    simp only [OutboundSearch.step,
      OutboundSearch.processPosted, hPosted,
      OutboundSearch.process, hConv, hTxq]
    rfl
  rw [hProcess]
  exact ⟨rfl, _, rfl, rfl⟩

/- A target that a conversation can be started for. -/
def searchUri : Uri where
  proto := "outbound"
  host := "search"
  path := "/search"
  port := 0
  valid := true

/- The run in which conversation number 65537 is sent, and
   the search node replies to it. -/
def portOverflow : List Event :=
  List.replicate 65537 (.start searchUri []) ++
    [.process 65536, .transmit,
      .reply 0 { success := true } []]

end OutboundSearch

end OefCore
