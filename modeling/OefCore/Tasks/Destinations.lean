import OefCore.Tasks.AgentToAgentMessageTask
import OefCore.Tasks.Splitting

/-
  Which agent a destination stands for, and whom a message
  with that destination goes to.

  Main declarations:
    * `Destination.Addresses`
    * `URI.addresses_iff`
    * `AgentToAgentMessageTask.Routed`
    * `AgentToAgentMessageTask.routed_iff`
-/

namespace OefCore

------------------------------------------------------------
-- Destinations
------------------------------------------------------------

/- A destination stands for the agent of a key, if it is the
   key, or the key and a slash and an alias. -/
def Addresses (destination key : String) : Prop :=
  destination = key ∨
    ∃ agentAlias : String, '/' ∉ agentAlias.toList ∧
      destination = key ++ "/" ++ agentAlias

/- No destination of two slashes or more is well formed. -/
def Malformed (destination : String) : Prop :=
  2 ≤ destination.toList.count '/'

/- A text with a slash, up to the first one. -/
theorem exists_first_slash
    {text : List Char}
    (hSlash : '/' ∈ text) :
    ∃ key rest, '/' ∉ key ∧ text = key ++ '/' :: rest := by
  rcases List.eq_append_cons_of_mem hSlash with
    ⟨key, rest, hText, hKey⟩
  exact ⟨key, rest, hKey, hText⟩

theorem split_of_one_slash
    {key rest : List Char}
    (hKey : '/' ∉ key)
    (hRest : '/' ∉ rest) :
    split (String.ofList (key ++ '/' :: rest)) '/' =
      [String.ofList key, String.ofList rest] := by
  have hSome : String.ofList (key ++ '/' :: rest) ≠ "" := by
    simp [← String.toList_inj]
  rw [split_eq_splitOn hSome, String.toList_ofList,
    List.splitOn_append_cons_self_of_not_mem hKey,
    List.splitOn_eq_singleton hRest]
  simp

namespace URI

theorem parseAgent_of_noSlash
    {destination : String}
    (hNone : '/' ∉ destination.toList) :
    (({} : URI).parseAgent destination).agentKey =
      destination := by
  simp [parseAgent, hNone]

theorem parseAgent_of_one_slash
    {key rest : List Char}
    (hKey : '/' ∉ key)
    (hRest : '/' ∉ rest) :
    (({} : URI).parseAgent
      (String.ofList (key ++ '/' :: rest))).agentKey =
        String.ofList key := by
  unfold parseAgent
  rw [split_of_one_slash hKey hRest]
  simp

/- A malformed destination leaves the key at its default. -/
theorem parseAgent_of_malformed
    {destination : String}
    (hMalformed : Malformed destination) :
    (({} : URI).parseAgent destination).agentKey = "" := by
  unfold Malformed at hMalformed
  have hSlash : '/' ∈ destination.toList := by
    apply List.count_pos_iff.mp
    omega
  have hSome : destination ≠ "" := by
    intro hEmpty
    rw [hEmpty] at hSlash
    simp at hSlash
  have hParts :=
    ((splitsExactly_split_iff destination).mpr
      hSome).length_eq
  unfold parseAgent
  rw [if_neg (not_not.mpr hSlash)]
  split
  · rename_i hTwo
    rw [hTwo] at hParts
    simp only [List.length_cons, List.length_nil] at hParts
    omega
  · rfl

/- Any other destination yields the only key without a slash
   that it stands for. -/
theorem addresses_iff
    {destination key : String}
    (hKey : '/' ∉ key.toList) :
    Addresses destination key ↔
      ¬ Malformed destination ∧
        (({} : URI).parseAgent destination).agentKey = key := by
  unfold Malformed
  constructor
  · rintro (hSame | ⟨agentAlias, hAlias, hText⟩)
    · subst hSame
      rw [List.count_eq_zero_of_not_mem hKey]
      exact ⟨by decide, parseAgent_of_noSlash hKey⟩
    · have hList :
          destination =
            String.ofList
              (key.toList ++ '/' :: agentAlias.toList) := by
        rw [hText, ← String.toList_inj]
        simp
      have hCount : destination.toList.count '/' = 1 := by
        rw [hList, String.toList_ofList, List.count_append,
          List.count_cons_self,
          List.count_eq_zero_of_not_mem hKey,
          List.count_eq_zero_of_not_mem hAlias]
      refine ⟨by omega, ?_⟩
      rw [hList, parseAgent_of_one_slash hKey hAlias,
        String.ofList_toList]
  · rintro ⟨hFormed, hParsed⟩
    by_cases hSlash : '/' ∈ destination.toList
    · right
      rcases exists_first_slash hSlash with
        ⟨front, rest, hFront, hText⟩
      have hRest : '/' ∉ rest := by
        rw [hText, List.count_append,
          List.count_cons_self] at hFormed
        intro hMem
        have hPos := List.count_pos_iff.mpr hMem
        omega
      have hList :
          destination =
            String.ofList (front ++ '/' :: rest) := by
        rw [← hText, String.ofList_toList]
      rw [hList, parseAgent_of_one_slash hFront hRest]
        at hParsed
      refine ⟨String.ofList rest, by simpa using hRest, ?_⟩
      rw [hList, ← hParsed, ← String.toList_inj]
      simp
    · left
      rw [← hParsed, parseAgent_of_noSlash hSlash]

end URI

------------------------------------------------------------
-- Routing
------------------------------------------------------------

section Registry

variable {E : Type}

/- Agents under their own keys, which have no slashes. -/
structure Agents.Keyed (agents : Agents E) : Prop where
  key_eq :
    ∀ {key : String} {agent : Agent E},
      agents.find key = some agent → agent.key = key
  slashFree :
    ∀ {key : String} {agent : Agent E},
      agents.find key = some agent → '/' ∉ key.toList

theorem Agents.keyed_construct :
    (construct : Agents E).Keyed where
  key_eq := by
    intro key agent hFind
    cases hFind
  slashFree := by
    intro key agent hFind
    cases hFind

theorem Agents.Keyed.add
    {agents : Agents E}
    (hKeyed : agents.Keyed)
    {key : String}
    (hKey : '/' ∉ key.toList)
    (endpoint : E) :
    (agents.add key endpoint).Keyed where
  key_eq := by
    intro other agent hFind
    by_cases hOther : other = key
    · subst hOther
      rw [Agents.find_add_self] at hFind
      cases hFind
      rfl
    · rw [Agents.find_add_of_ne _ hOther] at hFind
      exact hKeyed.key_eq hFind
  slashFree := by
    intro other agent hFind
    by_cases hOther : other = key
    · rw [hOther]
      exact hKey
    · rw [Agents.find_add_of_ne _ hOther] at hFind
      exact hKeyed.slashFree hFind

end Registry

namespace AgentToAgentMessageTask

variable {E : Type}

/-
  The message of the task goes to the agent that the
  destination stands for, and if there is none, an error goes
  back to the sender.
-/
structure Routed
    (task : AgentToAgentMessageTask E)
    (agents : Agents E)
    (source : Agent E)
    (messageId : Int)
    (pb : AgentMessage) : Prop where
  addressed :
    ∀ {key : String} {agent : Agent E},
      agents.find key = some agent →
        (task.agent = agent ∧
          task.message.payload =
            .content pb.dialogueId source.key pb.payload ↔
          Addresses pb.destination key)
  returned :
    (∀ key agent, agents.find key = some agent →
      ¬ Addresses pb.destination key) →
      task.agent = source ∧
        task.message.answerId = messageId ∧
        task.message.payload =
          .dialogueError pb.dialogueId pb.destination

section Routing

variable {agents : Agents E}
variable {source : Agent E}
variable {messageId : Int}
variable {pb : AgentMessage}

theorem exec_construct_of_none
    (hNone :
      agents.find
        (({} : URI).parseAgent pb.destination).agentKey =
          none)
    (core : MtCore E) :
    (construct (some source) messageId pb agents).exec core =
      (.ok
        { agent := source
          message := createDialogueError messageId pb
          sourceKey := source.key },
        core) := by
  simp only [construct, hNone]
  rfl

theorem exec_construct_of_some
    {agent : Agent E}
    (hFind :
      agents.find
        (({} : URI).parseAgent pb.destination).agentKey =
          some agent)
    (core : MtCore E) :
    (construct (some source) messageId pb agents).exec core =
      (.ok
        { agent := agent
          message :=
            createMessage messageId
              (({} : URI).parseAgent pb.destination) source.key
              pb
          sourceKey := source.key },
        core) := by
  simp only [construct, hFind]
  rfl

/- An error goes back if nobody has the key. -/
theorem routed_of_none
    (hKeyed : agents.Keyed)
    (hNone :
      agents.find
        (({} : URI).parseAgent pb.destination).agentKey =
          none) :
    Routed
      { agent := source
        message := createDialogueError messageId pb
        sourceKey := source.key }
      agents source messageId pb where
  addressed := by
    intro key agent hFind
    constructor
    · rintro ⟨-, hContent⟩
      cases hContent
    · intro hAddresses
      have hParsed := (URI.addresses_iff
        (hKeyed.slashFree hFind)).mp hAddresses
      rw [hParsed.2, hFind] at hNone
      cases hNone
  returned := by
    intro _
    exact ⟨rfl, rfl, rfl⟩

/- To whoever has the key the message goes, rightly if the
   destination is well formed. -/
theorem routed_of_some
    (hKeyed : agents.Keyed)
    {agent : Agent E}
    (hFind :
      agents.find
        (({} : URI).parseAgent pb.destination).agentKey =
          some agent)
    (uri : URI) :
    Routed
        { agent := agent
          message :=
            createMessage messageId uri source.key pb
          sourceKey := source.key }
        agents source messageId pb ↔
      ¬ Malformed pb.destination := by
  constructor
  · intro hRouted hMalformed
    have hAddresses :=
      (hRouted.addressed hFind).mp ⟨rfl, rfl⟩
    have hParsed := (URI.addresses_iff
      (hKeyed.slashFree hFind)).mp hAddresses
    exact hParsed.1 hMalformed
  · intro hFormed
    have hOwn : Addresses pb.destination
        (({} : URI).parseAgent pb.destination).agentKey :=
      (URI.addresses_iff (hKeyed.slashFree hFind)).mpr
        ⟨hFormed, rfl⟩
    constructor
    · intro key other hOther
      constructor
      · rintro ⟨hSame, -⟩
        have hKey : agent.key = other.key :=
          congrArg Agent.key hSame
        rw [hKeyed.key_eq hFind, hKeyed.key_eq hOther] at hKey
        rw [← hKey]
        exact hOwn
      · intro hAddresses
        have hParsed := (URI.addresses_iff
          (hKeyed.slashFree hOther)).mp hAddresses
        rw [hParsed.2, hOther] at hFind
        cases hFind
        exact ⟨rfl, rfl⟩
    · intro hNobody
      exact (hNobody _ _ hFind hOwn).elim

end Routing

/-
  A message is routed rightly exactly if its destination is
  well formed, or no agent is registered under the empty key.
-/
theorem routed_iff
    {agents : Agents E}
    (hKeyed : agents.Keyed)
    (source : Agent E)
    (messageId : Int)
    (pb : AgentMessage) :
    ∃ task,
      (∀ core,
        (construct (some source) messageId pb agents).exec
            core =
          (.ok task, core)) ∧
        (Routed task agents source messageId pb ↔
          ¬ Malformed pb.destination ∨
            agents.find "" = none) := by
  cases hFind :
      agents.find
        (({} : URI).parseAgent pb.destination).agentKey with
  | none =>
      refine ⟨_, exec_construct_of_none hFind, ?_⟩
      constructor
      · intro _
        by_cases hMalformed : Malformed pb.destination
        · right
          rwa [URI.parseAgent_of_malformed hMalformed]
            at hFind
        · exact .inl hMalformed
      · intro _
        exact routed_of_none hKeyed hFind
  | some agent =>
      refine ⟨_, exec_construct_of_some hFind, ?_⟩
      rw [routed_of_some hKeyed hFind]
      constructor
      · exact .inl
      · rintro (hFormed | hEmpty)
        · exact hFormed
        · intro hMalformed
          rw [URI.parseAgent_of_malformed hMalformed, hEmpty]
            at hFind
          cases hFind

/- A message to an agent under an alias, with nobody under
   the empty key. -/
theorem routed_iff_of_alias :
    let agents := (Agents.construct : Agents Unit).add "K" ()
    let source : Agent Unit := { key := "S", endpoint := () }
    let pb : AgentMessage :=
      { dialogueId := 7
        destination := "K/alias"
        targetUri := ""
        sourceUri := ""
        payload := .notSet }
    ∃ task,
      (∀ core,
        (construct (some source) 1 pb agents).exec core =
          (.ok task, core)) ∧
        (Routed task agents source 1 pb ↔
          ¬ Malformed pb.destination ∨
            agents.find "" = none) :=
  routed_iff (Agents.keyed_construct.add (by decide) ()) _ 1 _

/- Under the empty key an agent gets what is addressed to
   nobody. -/
theorem not_routed_of_empty_key :
    let agents := (Agents.construct : Agents Unit).add "" ()
    let source : Agent Unit := { key := "S", endpoint := () }
    let pb : AgentMessage :=
      { dialogueId := 7
        destination := "a/b/c"
        targetUri := ""
        sourceUri := ""
        payload := .notSet }
    ∃ task,
      (∀ core,
        (construct (some source) 1 pb agents).exec core =
          (.ok task, core)) ∧
        ¬ Routed task agents source 1 pb := by
  intro agents source pb
  have hKeyed : agents.Keyed :=
    Agents.keyed_construct.add (by decide) ()
  have hMalformed : Malformed pb.destination := by
    simp only [Malformed, pb]
    decide
  have hFind :
      agents.find
        (({} : URI).parseAgent pb.destination).agentKey =
          some { key := "", endpoint := () } := by
    rw [URI.parseAgent_of_malformed hMalformed]
    exact Agents.find_add_self _ _ _
  refine ⟨_, exec_construct_of_some hFind, ?_⟩
  rw [routed_of_some hKeyed hFind]
  exact not_not.mpr hMalformed

end AgentToAgentMessageTask

end OefCore
