import Mathlib.Tactic.Common
import OefCore.Protos.Search

/-
  The messages between agents and the core. What the core
  only passes on is kept in wire form.

  Main declarations:
    * `Envelope`, `ServerAgentMessage`
    * `AgentProtos`
-/

namespace OefCore

abbrev Wire := List UInt8

/- `Agent.Server.ID`. -/
structure AgentServerID where
  publicKey : String

/- `Agent.Server.Answer`. -/
structure AgentServerAnswer where
  willHeartbeat : Bool

inductive MessagePayload where
  | content (bytes : Wire)
  | fipa (message : Wire)
  | notSet

/- `Agent.Message`. -/
structure AgentMessage where
  dialogueId : Int
  destination : String
  targetUri : String
  sourceUri : String
  payload : MessagePayload

inductive EnvelopePayload where
  | sendMessage (message : AgentMessage)
  | registerService (description : Wire)
  | unregisterService (description : Wire)
  | registerDescription (description : Wire)
  | unregisterDescription
  | searchServices (search : Wire)
  | searchServicesWide (search : Wire)
  | searchAgents (search : Wire)
  | pong
  | notSet

structure Envelope where
  msgId : Int
  agentUri : String
  payload : EnvelopePayload

/- `Server.AgentMessage.OEFError.Operation`. -/
inductive Operation where
  | registerService
  | unregisterService
  | registerDescription
  | unregisterDescription
  | searchServices
  | searchServicesWide
  | searchAgents
  | sendMessage
  | other
  deriving DecidableEq, Repr

inductive ServerPayload where
  | content
      (dialogueId : Int)
      (origin : String)
      (payload : MessagePayload)
  | oefError
      (operation : Operation)
      (cause detail : String)
  | dialogueError
      (dialogueId : Int)
      (origin : String)
  | agents (agents : List String)
  | agentsWide (result : List SearchItem)

/- `Server.AgentMessage`. -/
structure ServerAgentMessage where
  answerId : Int
  targetUri : String := ""
  sourceUri : String := ""
  payload : ServerPayload

/- The parsers that protobuf generates. -/
structure AgentProtos where
  agentServerID : Wire → Option AgentServerID
  agentServerAnswer : Wire → Option AgentServerAnswer
  envelope : Wire → Option Envelope

end OefCore
