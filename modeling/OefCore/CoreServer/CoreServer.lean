import Mathlib.Data.List.AList
import OefCore.Protos.Agent
import OefCore.SearchClient.OefSearchClient
import OefCore.Tasks.OefUri

/-
  The core server over `asio`: agents log in, and each has a
  session that reads its messages, reaches the sessions of
  other agents through the directory, and asks the search
  node through the client.

  The handlers of different connections run at the same time.
  A step is what a handler does up to its next access to the
  directory or to a connection.

  Main declarations:
    * `AgentDirectory`
    * `AgentSession`, `AgentRequest`
    * `CoreServer`, `CoreServerEvent`
    * `CoreServer.newSession`, `secretHandshake`, `process`
    * `CoreServer.step`, `CoreServer.run`
-/

namespace OefCore

------------------------------------------------------------
-- The Directory
------------------------------------------------------------

/- A session is known by its connection. -/
structure AgentDirectory (C : Type) where
  sessions : AList fun _ : String => C

namespace AgentDirectory

variable {C : Type}

def construct : AgentDirectory C where
  sessions := ∅

def exist
    (self : AgentDirectory C)
    (id : String) : Bool :=
  (self.sessions.lookup id).isSome

def add
    (self : AgentDirectory C)
    (id : String)
    (session : C) : Bool × AgentDirectory C :=
  if self.exist id then
    (false, self)
  else
    (true, { sessions := self.sessions.insert id session })

def remove
    (self : AgentDirectory C)
    (id : String) : Bool × AgentDirectory C :=
  (self.exist id, { sessions := self.sessions.erase id })

def session
    (self : AgentDirectory C)
    (id : String) : Option C :=
  self.sessions.lookup id

def size (self : AgentDirectory C) : Nat :=
  self.sessions.keys.length

end AgentDirectory

------------------------------------------------------------
-- Sessions
------------------------------------------------------------

/- Where the read loop of a session is; `sending` is behind the
   look-up of the session that a message is for. -/
inductive ReadStage (C : Type) where
  | reading
  | sending (other : C) (message : ServerAgentMessage)
  | ended

structure AgentSession (C : Type) where
  publicKey : String
  description : Option Wire
  stage : ReadStage C

/-
  Where the server is with a connection: before the read of an
  ID or of an answer, behind an `add` that entered the session
  or did not, or with a session that reads. A session that is
  not `greeted` is yet to be told its status.
-/
inductive AgentConnection (C : Type) where
  | awaitsId
  | awaitsAnswer (publicKey : String)
  | starting (publicKey : String)
  | refusing (publicKey : String)
  | started (session : AgentSession C) (greeted : Bool)
  | closed

/- The operations of `AgentSession` that ask the search node. -/
inductive AgentRequestKind where
  | registerDescription
  | unregisterDescription
  | registerService
  | unregisterService
  | searchAgents
  | searchService
  | searchServiceWide
  deriving DecidableEq, Repr

namespace AgentRequestKind

/- The client has two operations for the first four, and two
   for the rest. -/
def operation : AgentRequestKind → SearchOperation
  | .registerDescription => .update
  | .unregisterDescription => .remove
  | .registerService => .update
  | .unregisterService => .remove
  | .searchAgents => .searchLocal
  | .searchService => .searchLocal
  | .searchServiceWide => .searchWide

/- The operation that a failure is reported for; a search
   reports that of a registration. -/
def errorOperation : AgentRequestKind → Operation
  | .registerDescription => .registerDescription
  | .unregisterDescription => .unregisterDescription
  | .registerService => .registerService
  | .unregisterService => .unregisterService
  | .searchAgents => .registerService
  | .searchService => .registerService
  | .searchServiceWide => .registerService

end AgentRequestKind

/- `number` tells requests apart. -/
structure AgentRequest (C : Type) where
  connection : C
  number : Nat
  kind : AgentRequestKind
  agent : String
  msgId : UInt32
  deriving DecidableEq

namespace AgentRequest

variable {C : Type}

def clientRequest (r : AgentRequest C) : ClientRequest where
  operation := r.kind.operation
  agent := r.agent
  msgId := r.msgId

/- `set_answer_id`. -/
def answerId (r : AgentRequest C) : Int :=
  r.msgId.toInt32.toInt

end AgentRequest

------------------------------------------------------------
-- The Server
------------------------------------------------------------

/- What protobuf generates. A text that is not parsed gives a
   message all the same. -/
structure CoreServerProtos where
  agentServerID : Wire → AgentServerID
  envelope : Wire → Envelope
  searchResponse : Wire → SearchResponse
  hash : String → UInt64

inductive ServerOutput where
  | phrase (phrase : String)
  | failure
  | connected (status : Bool)
  | message (message : ServerAgentMessage)

/- What a handler of the connection `source` gave to
   `send_async` of the connection `target`. -/
structure ServerSend (C : Type) where
  source : C
  target : C
  output : ServerOutput

/-
  `accepted` are the connections so far, `requests` what was
  asked of the client, and `writing` those of them whose write
  has not completed; `received` are the envelopes that
  sessions have read, and `sends` what was sent.
-/
structure CoreServer (C : Type) where
  directory : AgentDirectory C
  accepted : List C
  connections : C → Option (AgentConnection C)
  client : OefSearchClient (AgentRequest C)
  requests : List (AgentRequest C)
  writing : List (AgentRequest C)
  received : List (C × Envelope)
  sends : List (ServerSend C)

/-
  A connection is accepted; a read on it completes; the
  handler of its login or of its session goes on; a write to
  the search node completes; the search node answers.
-/
inductive CoreServerEvent (C : Type) where
  | accepts (c : C)
  | receives (c : C) (buffer : Option Wire)
  | logsIn (c : C)
  | forwards (c : C)
  | written
      (r : AgentRequest C)
      (ec : Option SearchErrorCode)
  | responds
      (header : TransportHeader)
      (payload : Option Wire)

namespace CoreServer

variable {C : Type} [DecidableEq C]

def construct : CoreServer C where
  directory := .construct
  accepted := []
  connections := fun _ => none
  client := .init
  requests := []
  writing := []
  received := []
  sends := []

/- `nb_agents`. -/
def nbAgents (s : CoreServer C) : Nat :=
  s.directory.size

def setConnection
    (s : CoreServer C)
    (c : C)
    (connection : AgentConnection C) : CoreServer C :=
  { s with
    connections :=
      Function.update s.connections c (some connection) }

/- A failed write has no effect: the continuation of
   `AsioComm::send_async` is called only on success, and then
   does nothing. -/
def send
    (s : CoreServer C)
    (source target : C)
    (output : ServerOutput) : CoreServer C :=
  { s with sends := s.sends ++ [⟨source, target, output⟩] }

------------------------------------------------------------
-- Logging In
------------------------------------------------------------

def newSession
    (protos : CoreServerProtos)
    (s : CoreServer C)
    (c : C) : Option Wire → CoreServer C
  | none => s.setConnection c .closed
  | some buffer =>
      let id := protos.agentServerID buffer
      if s.directory.exist id.publicKey then
        (s.setConnection c .closed).send c c .failure
      else
        (s.setConnection c (.awaitsAnswer id.publicKey)).send c c
          (.phrase "RandomlyGeneratedString")

/- The answer is printed only. -/
def secretHandshake
    (s : CoreServer C)
    (c : C)
    (publicKey : String) : Option Wire → CoreServer C
  | none => s.setConnection c .closed
  | some _ =>
      let added := s.directory.add publicKey c
      { s with directory := added.2 }.setConnection c
        (if added.1 then .starting publicKey
         else .refusing publicKey)

/- What is left of the handler of the answer: the session is
   started if it was added, and told its status. -/
def logIn
    (s : CoreServer C)
    (c : C) : CoreServer C :=
  match s.connections c with
  | some (.starting publicKey) =>
      s.setConnection c
        (.started ⟨publicKey, none, .reading⟩ false)
  | some (.started session false) =>
      (s.setConnection c (.started session true)).send c c
        (.connected true)
  | some (.refusing _) =>
      (s.setConnection c .closed).send c c (.connected false)
  | _ => s

------------------------------------------------------------
-- Sessions
------------------------------------------------------------

/- `process_message`, to a session that was found. -/
def messageContent
    (msgId : Int)
    (publicKey : String)
    (msg : AgentMessage) : ServerAgentMessage where
  answerId := msgId
  targetUri :=
    if msg.targetUri = "" then
      (({} : URI).parseAgent msg.destination).toString
    else
      msg.targetUri
  sourceUri := msg.sourceUri
  payload := .content msg.dialogueId publicKey msg.payload

/- `send_dialog_error`. -/
def dialogError
    (msgId : Int)
    (dialogueId : Int)
    (origin : String) : ServerAgentMessage where
  answerId := msgId
  payload := .dialogueError dialogueId origin

def setStage
    (s : CoreServer C)
    (c : C)
    (stage : ReadStage C) : CoreServer C :=
  match s.connections c with
  | some (.started session greeted) =>
      s.setConnection c
        (.started { session with stage := stage } greeted)
  | _ => s

def setDescription
    (s : CoreServer C)
    (c : C)
    (description : Option Wire) : CoreServer C :=
  match s.connections c with
  | some (.started session greeted) =>
      s.setConnection c
        (.started { session with description := description }
          greeted)
  | _ => s

def processMessage
    (s : CoreServer C)
    (c : C)
    (publicKey : String)
    (msgId : Int)
    (msg : AgentMessage) : CoreServer C :=
  let uri := ({} : URI).parseAgent msg.destination
  match s.directory.session uri.agentKey with
  | some other =>
      s.setStage c
        (.sending other (messageContent msgId publicKey msg))
  | none =>
      s.send c c
        (.message
          (dialogError msgId msg.dialogueId msg.destination))

/- A call of the client; the write is started. -/
def request
    (s : CoreServer C)
    (c : C)
    (kind : AgentRequestKind)
    (agent : String)
    (msgId : Int) : CoreServer C :=
  let r : AgentRequest C :=
    ⟨c, s.requests.length, kind, agent, UInt32.ofInt msgId⟩
  { s with
    requests := s.requests ++ [r]
    writing := s.writing ++ [r] }

/- What a service is registered for. -/
def serviceAgent
    (publicKey : String)
    (agentUri : String) : String :=
  { ({} : URI).parse agentUri with
    agentKey := publicKey }.agentPartAsString

def process
    (s : CoreServer C)
    (c : C)
    (session : AgentSession C)
    (envelope : Envelope) : CoreServer C :=
  let publicKey := session.publicKey
  let msgId := envelope.msgId
  let s := { s with received := s.received ++ [(c, envelope)] }
  match envelope.payload with
  | .sendMessage msg => s.processMessage c publicKey msgId msg
  | .registerService _ =>
      s.request c .registerService
        (serviceAgent publicKey envelope.agentUri) msgId
  | .unregisterService _ =>
      s.request c .unregisterService
        (serviceAgent publicKey envelope.agentUri) msgId
  | .registerDescription description =>
      (s.setDescription c (some description)).request c
        .registerDescription publicKey msgId
  | .unregisterDescription =>
      match session.description with
      | none => s
      | some _ =>
          s.request c .unregisterDescription publicKey msgId
  | .searchAgents _ =>
      s.request c .searchAgents publicKey msgId
  | .searchServices _ =>
      s.request c .searchService publicKey msgId
  | .searchServicesWide _ =>
      s.request c .searchServiceWide publicKey msgId
  | .pong | .notSet => s

/- The handler of `read`; on an error the key of the session is
   taken off the directory. -/
def read
    (protos : CoreServerProtos)
    (s : CoreServer C)
    (c : C)
    (session : AgentSession C) : Option Wire → CoreServer C
  | none =>
      { s with
        directory :=
          (s.directory.remove session.publicKey).2 }.setStage c
            .ended
  | some buffer =>
      s.process c session (protos.envelope buffer)

def forward
    (s : CoreServer C)
    (c : C) : CoreServer C :=
  match s.connections c with
  | some (.started ⟨_, _, .sending other message⟩ _) =>
      (s.send c other (.message message)).setStage c .reading
  | _ => s

------------------------------------------------------------
-- Answers of the Search Node
------------------------------------------------------------

/- `response.agents`, which is empty unless it was set. -/
def agentsOf : SearchOutcome → List String
  | .agents agents => agents
  | _ => []

def agentsWideOf : SearchOutcome → List SearchItem
  | .agentsWide result => result
  | _ => []

/- The names of a local result, by the parts that name an
   agent. -/
def agentNames (agents : List String) : List String :=
  agents.map fun a =>
    (({} : URI).parseAgent a).agentPartAsString

/- What the continuation of a request sends to the agent, if
   anything. -/
def replyTo
    (call : ContinuationCall (AgentRequest C)) :
    Option ServerAgentMessage :=
  let r := call.continuation
  match call.ec with
  | some _ =>
      some ⟨r.answerId, "", "",
        .oefError r.kind.errorOperation "" ""⟩
  | none =>
      match r.kind with
      | .searchAgents | .searchService =>
          some ⟨r.answerId, "", "",
            .agents (agentNames (agentsOf call.outcome))⟩
      | .searchServiceWide =>
          some ⟨r.answerId, "", "",
            .agentsWide (agentsWideOf call.outcome)⟩
      | _ => none

/- A continuation of a request is called. -/
def resume
    (s : CoreServer C)
    (call : ContinuationCall (AgentRequest C)) :
    CoreServer C :=
  let r := call.continuation
  let s :=
    if r.kind = .unregisterDescription ∧ call.ec = none then
      s.setDescription r.connection none
    else
      s
  match replyTo call with
  | some reply =>
      s.send r.connection r.connection (.message reply)
  | none => s

/- The client goes on, and calls continuations. -/
def withClient
    (s : CoreServer C)
    (client : OefSearchClient (AgentRequest C)) :
    CoreServer C :=
  (client.calls.drop s.client.calls.length).foldl resume
    { s with client := client }

def completeWrite
    (protos : CoreServerProtos)
    (s : CoreServer C)
    (r : AgentRequest C)
    (ec : Option SearchErrorCode) : CoreServer C :=
  if r ∈ s.writing then
    { s with writing := s.writing.erase r }.withClient
      (s.client.sendCompleted protos.hash r r.clientRequest ec)
  else
    s

/- The handle found is that of the number in the header. -/
def respond
    (protos : CoreServerProtos)
    (s : CoreServer C)
    (header : TransportHeader)
    (payload : Option Wire) : CoreServer C :=
  match (s.client.msgHandleGet header.id.toUInt32).continuation
  with
  | some r =>
      s.withClient
        (s.client.processMessage protos.searchResponse header
          payload r)
  | none =>
      { s with
        client := s.client.msgHandleErase header.id.toUInt32 }

------------------------------------------------------------
-- Runs
------------------------------------------------------------

/- What a read on a connection is handed to. -/
def receive
    (protos : CoreServerProtos)
    (s : CoreServer C)
    (c : C)
    (buffer : Option Wire) : CoreServer C :=
  match s.connections c with
  | some .awaitsId => s.newSession protos c buffer
  | some (.awaitsAnswer publicKey) =>
      s.secretHandshake c publicKey buffer
  | some (.started session _) =>
      match session.stage with
      | .reading => s.read protos c session buffer
      | _ => s
  | _ => s

def accept
    (s : CoreServer C)
    (c : C) : CoreServer C :=
  match s.connections c with
  | some _ => s
  | none =>
      { s with accepted := s.accepted ++ [c] }.setConnection c
        .awaitsId

def step
    (protos : CoreServerProtos)
    (s : CoreServer C) :
    CoreServerEvent C → CoreServer C
  | .accepts c => s.accept c
  | .receives c buffer => s.receive protos c buffer
  | .logsIn c => s.logIn c
  | .forwards c => s.forward c
  | .written r ec => s.completeWrite protos r ec
  | .responds header payload => s.respond protos header payload

def run
    (protos : CoreServerProtos)
    (events : List (CoreServerEvent C)) : CoreServer C :=
  events.foldl (step protos) construct

theorem run_snoc
    (protos : CoreServerProtos)
    (events : List (CoreServerEvent C))
    (event : CoreServerEvent C) :
    run protos (events ++ [event]) =
      (run protos events).step protos event := by
  simp [run]

/- What every step keeps holds after every run. -/
theorem run_induction
    {protos : CoreServerProtos}
    {Invariant : CoreServer C → Prop}
    (hStart : Invariant construct)
    (hStep : ∀ s event,
      Invariant s → Invariant (s.step protos event))
    (events : List (CoreServerEvent C)) :
    Invariant (run protos events) := by
  induction events using List.reverseRecOn with
  | nil => exact hStart
  | append_singleton events event ih =>
      rw [run_snoc]
      exact hStep _ event ih

end CoreServer

end OefCore
