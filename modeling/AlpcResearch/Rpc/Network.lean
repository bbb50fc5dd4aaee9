import AlpcResearch.Program.Parties
import AlpcResearch.Rpc.Worker

/-!
# One worker and its clients

Each party is a process of its own; what they have in common is the kernel. It
copies a message when the call that sends it is issued: a client's goes to the
end of the queue under a `MessageId` of its own, the worker's to the client
that waits for the `MessageId` in its header. A receive takes the oldest
message of the queue; a synchronous request returns with the reply that came
for it. Either may fail instead, and the kernel may turn a message down.
-/

namespace AlpcResearch.Rpc

open Resource Program Process Ua

inductive Party (ι : Type)
  | server
  | client (i : ι)
  deriving DecidableEq

structure Packet (ι : Type) where
  sender : ι
  kind : UInt8
  messageId : Nat
  bytes : List UInt8

/-- A message the kernel has copied. -/
structure Posted where
  messageId : Nat
  taken : List UInt8

structure Net (ι : Type) where
  process : Party ι → Process
  /-- The oldest first. -/
  queue : List (Packet ι)
  /-- What the worker has received, the latest first, each with the bytes it
  arrived as. -/
  received : List (Packet ι × List UInt8)
  /-- The request a client waits to be answered. -/
  waiting : ι → Option (Packet ι)
  /-- The reply that came for it. -/
  mail : ι → Option (List UInt8)

abbrev RpcWorld (ι : Type) := Shared (Party ι) (Phase Op) (Phase.Ret Ret (Option Posted)) (Net ι)

abbrev RpcEvent (ι : Type) :=
  Event (Party ι × Phase Op) fun o => Phase.Ret Ret (Option Posted) o.2

/-- A call that waits for the reply. -/
def isSync (a : SendWaitReceive) : Bool := a.flags &&& alpcMsgflgSyncRequest ≠ 0

def kindSent (a : SendWaitReceive) : UInt8 := if isSync a then lpcRequest else lpcDatagram

structure Packet.ArrivesAs (pl : Platform) (m : Packet ι) (written : List UInt8) : Prop where
  delivers : Delivers pl m.bytes written
  kind : kindOf pl written = m.kind
  messageId : (headerOf pl written).messageId = m.messageId

namespace Net

variable {ι : Type}

def packets (N : Net ι) : List (Packet ι) := N.received.map Prod.fst ++ N.queue

-- ---------------------------------------------------------------------------
-- Sending
-- ---------------------------------------------------------------------------

/-- What is posted is what the kernel takes from the caller's block; `none` if
it turns the message down, or there is none. -/
def Accepts (N : Net ι) (p : Party ι) : Op → Option Posted → Prop
  | .alpcSendWaitReceivePort a, some m =>
    a.sendMessage ≠ none ∧ (N.process p).Takes a.sendMessage m.taken ∧
      ∀ i, p = .client i → ∀ q ∈ N.packets, q.messageId ≠ m.messageId
  | _, some _ => False
  | _, none => True

section Update

variable [DecidableEq ι]

def send (N : Net ι) (i : ι) (a : SendWaitReceive) (posted : Option Posted) : Net ι :=
  let packet := posted.map fun m => ⟨i, kindSent a, m.messageId, m.taken⟩
  { N with
    queue := N.queue ++ packet.toList
    waiting := Function.update N.waiting i (if isSync a then packet else none)
    mail := Function.update N.mail i none }

/-- The one client waiting for this `MessageId` gets the message. -/
def route (N : Net ι) (pl : Platform) (msg : List UInt8) : Net ι :=
  { N with
    mail := fun i =>
      if (N.waiting i).map Packet.messageId = some (headerOf pl msg).messageId then some msg
      else N.mail i }

def post (N : Net ι) (pl : Platform) : Party ι → Op → Option Posted → Net ι
  | .client i, .alpcSendWaitReceivePort a, posted => N.send i a posted
  | .server, .alpcSendWaitReceivePort _, some m => N.route pl m.taken
  | _, _, _ => N

-- ---------------------------------------------------------------------------
-- Receiving
-- ---------------------------------------------------------------------------

/-- A successful receive brings the oldest message; a synchronous request that
succeeds brings the reply to it. -/
def Brings (N : Net ι) (pl : Platform) : Party ι → (o : Op) → Ret o → Prop
  | .server, .alpcSendWaitReceivePort a, r => Ledger.isReceive a = true →
    ntSuccess r.status = true → ∃ m rest, N.queue = m :: rest ∧ m.ArrivesAs pl r.written
  | .client i, .alpcSendWaitReceivePort a, r => isSync a = true → ntSuccess r.status = true →
    ∃ m reply, N.waiting i = some m ∧ r.taken = m.bytes ∧ N.mail i = some reply ∧
      Delivers pl reply r.written
  | _, _, _ => True

def deliver (N : Net ι) (written : List UInt8) : Net ι :=
  match N.queue with
  | m :: rest => { N with queue := rest, received := (m, written) :: N.received }
  | [] => N

def finish (N : Net ι) : Party ι → (o : Op) → Ret o → Net ι
  | .server, .alpcSendWaitReceivePort a, r =>
    if Ledger.isReceive a && ntSuccess r.status then N.deliver r.written else N
  | .client i, .alpcSendWaitReceivePort _, _ =>
    { N with waiting := Function.update N.waiting i none, mail := Function.update N.mail i none }
  | _, _, _ => N

def effectPhase (N : Net ι) (pl : Platform) (p : Party ι) :
    (o : Phase Op) → Phase.Ret Ret (Option Posted) o → Net ι
  | .issue o, posted => N.post pl p o posted
  | .await o, r =>
    { N.finish p o r with
      process := Function.update N.process p ((N.process p).effect pl o r) }

end Update

end Net

-- ---------------------------------------------------------------------------
-- The component
-- ---------------------------------------------------------------------------

section Component

variable {ι S : Type} [DecidableEq ι]

def eventsOf (p : Party ι) (log : List (RpcEvent ι)) : List Ev :=
  log.filterMap fun
    | ⟨(q, .await o), r⟩ => if q = p then some ⟨o, r⟩ else none
    | ⟨(_, .issue _), _⟩ => none

def view (p : Party ι) (w : RpcWorld ι) : World := ⟨w.state.process p, eventsOf p w.log⟩

def behaviour (svc : Service S) (pl : Platform) : Party ι → Assumption
  | .server => svc.behaves pl
  | .client _ => anyKernel

def LegalPhase (svc : Service S) (pl : Platform) (w : RpcWorld ι) (p : Party ι) :
    (o : Phase Op) → Phase.Ret Ret (Option Posted) o → Prop
  | .issue o, posted => w.state.Accepts p o posted
  | .await o, r => (w.state.process p).Legal pl o r ∧ behaviour svc pl p (view p w) o r ∧
    w.state.Brings pl p o r

def network (ι : Type) [DecidableEq ι] (pl : Platform) (svc : Service S) :
    System (Party ι × Phase Op) (fun o => Phase.Ret Ret (Option Posted) o.2) (Net ι) where
  legal w o r := LegalPhase svc pl w o.1 o.2 r
  effect N o r := N.effectPhase pl o.1 o.2 r

/-- A round of the worker, or a call of a client, made when its process was
`before`. -/
inductive Task
  | serve
  | request (before : Process) (communicationPortHandle : Handle) (data : PVoid) (length : UInt16)
  | datagram (before : Process) (communicationPortHandle : Handle) (data : PVoid) (length : UInt16)

def Task.code (pl : Platform) (server : ServerObject) : Task → Proc (Control NtStatus)
  | .serve => uaServerWorker pl server
  | .request _ handle data length => do
    let status ← uaSendSynchronousRequest pl handle data length
    return .leave status
  | .datagram _ handle data length => do
    let status ← uaSendDatagram pl handle data length
    return .leave status

def Task.before : Task → Option Process
  | .serve => none
  | .request P .. | .datagram P .. => some P

/-- The caller has the data in a buffer, and it is not too long to send. -/
def Task.Ready (pl : Platform) : Task → Prop
  | .serve => False
  | .request P _ data length | .datagram P _ data length => ∃ bs, P.Holds data bs ∧
    bs.length = length.toNat ∧
    pl.sizeofPortMessage + length.toNat ≤ pl.alpcMaxAllowedMessageLength

/-- The worker goes on until it leaves its loop. Between its calls a client
does what it likes in its own process. -/
def Begins (pl : Platform) (w : RpcWorld ι) :
    Party ι → Task × Control NtStatus → Task → RpcWorld ι → Prop
  | .server, (_, ended), task, w' => ended = .again ∧ task = .serve ∧ w' = w
  | .client i, _, task, w' => ∃ P, task.before = some P ∧ task.Ready pl ∧
    w' = { w with state := { w.state with
      process := Function.update w.state.process (.client i) P } }

/-- `UaServerWorker` on `server`, with the service behind its callbacks, and
its clients. -/
def rpc (ι : Type) [DecidableEq ι] (pl : Platform) (server : ServerObject) (svc : Service S) :
    Component (Party ι) Task (Phase Op) (Phase.Ret Ret (Option Posted)) (Net ι)
      (Control NtStatus) where
  system := network ι pl svc
  code _ task := (task.code pl server).phased (Option Posted)
  starts := Begins pl

abbrev RpcPool (ι : Type) :=
  Pool (Party ι) Task (Phase Op) (Phase.Ret Ret (Option Posted)) (Net ι) (Control NtStatus)

/-- The worker is about to enter its loop, and no client has made a call. -/
structure Opens (pl : Platform) (server : ServerObject) (P : RpcPool ι) : Prop where
  serving : Serving (endpoint pl server) (P.world.state.process .server)
  history : P.world.log = []
  packets : P.world.state.packets = []
  waiting : ∀ i, P.world.state.waiting i = none
  mail : ∀ i, P.world.state.mail i = none
  worker : ∃ task, P.threads .server = (task, .ret .again)
  clients : ∀ i, ∃ ended, P.threads (.client i) = (.serve, .ret ended)

end Component

end AlpcResearch.Rpc
