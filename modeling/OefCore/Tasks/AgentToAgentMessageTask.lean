import Mathlib.Tactic.Common
import OefCore.Comms.MtCore
import OefCore.Tasks.OefUri

/-
  The task that carries a message from one agent to another.

  Main declarations:
    * `AgentToAgentMessageTask.construct`
-/

namespace OefCore

namespace AgentToAgentMessageTask

variable {E : Type}

def createMessage
    (messageId : Int)
    (uri : URI)
    (publicKey : String)
    (pb : AgentMessage) : ServerAgentMessage where
  answerId := messageId
  targetUri :=
    if pb.targetUri = "" then uri.toString else pb.targetUri
  sourceUri := pb.sourceUri
  payload := .content pb.dialogueId publicKey pb.payload

def createDialogueError
    (messageId : Int)
    (pb : AgentMessage) : ServerAgentMessage where
  answerId := messageId
  payload := .dialogueError pb.dialogueId pb.destination

/-
  Each branch asks the source agent for its key, so that one
  that is null crashes both.
-/
def construct
    (sourceAgent : Option (Agent E))
    (messageId : Int)
    (pb : AgentMessage)
    (agents : Agents E) :
    CoreM E (AgentToAgentMessageTask E) := do
  let uri := ({} : URI).parseAgent pb.destination
  match agents.find uri.agentKey, sourceAgent with
  | _, none => CoreM.crash
  | none, some source =>
      return {
        agent := source
        message := createDialogueError messageId pb
        sourceKey := source.key }
  | some agent, some source =>
      return {
        agent := agent
        message := createMessage messageId uri source.key pb
        sourceKey := source.key }

end AgentToAgentMessageTask

end OefCore
