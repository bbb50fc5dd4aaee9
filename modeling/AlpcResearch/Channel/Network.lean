import AlpcResearch.Rpc.Network

/-!
# A server and its clients, connections included

Each party is a process of its own: a server whose worker goes round by round,
and clients that run any programs at all, one after the other. The kernel
queues a connection request when a client's connect is issued, and lets the
connect return once the server has accepted the request it presents; from then
on it knows the connection by the port context given at the accept. What the
client sends over its handle is queued under that context, and when it closes
the handle one last message says so. Messages and answers take effect when the
call is issued, so that the other side may see them before the call returns.
-/

namespace AlpcResearch.Channel

open Resource Program Process
open Rpc (Party Posted isSync kindSent)

/-- A message on its way to the server, with the context of the connection it
came over. -/
structure Packet (ι : Type) where
  sender : ι
  kind : UInt8
  messageId : Nat
  bytes : List UInt8
  context : PVoid

/-- A connection the server has accepted. -/
structure Connection (ι : Type) where
  client : ι
  context : PVoid
  /-- What the client's connect returned, once it has. -/
  handle : Option Handle
  closed : Bool

/-- What a call has led to in the kernel by the time it is issued. -/
inductive Ticket (ι : Type)
  | nothing
  | posted (m : Posted)
  /-- The call has answered the connection request of the client. -/
  | answered (i : ι)

structure Net (ι : Type) where
  process : Party ι → Process
  /-- The call a party is in. -/
  inCall : Party ι → Option (Op × Ticket ι)
  /-- The oldest first. -/
  queue : List (Packet ι)
  /-- What the server has received, the latest first, each with the bytes it
  arrived as. -/
  received : List (Packet ι × List UInt8)
  /-- The connection request of a client that has not been answered. -/
  connecting : ι → Option Nat
  /-- The latest first. -/
  connections : List (Connection ι)
  /-- The reply that came for a client's request. -/
  mail : ι → Option (List UInt8)

/-- What is on either side of the kernel. -/
structure Site (ι : Type) where
  portName : String
  /-- A round of the server's worker. -/
  worker : Proc (Control NtStatus)
  /-- Who the kernel says a client is. -/
  clientId : ι → ClientId

abbrev NetWorld (ι : Type) := Shared (Party ι) (Phase Op) (Phase.Ret Ret (Ticket ι)) (Net ι)

abbrev NetEvent (ι : Type) :=
  Event (Party ι × Phase Op) fun o => Phase.Ret Ret (Ticket ι) o.2

structure Packet.ArrivesAs {ι : Type} (pl : Platform) (site : Site ι) (m : Packet ι)
    (written : List UInt8) : Prop where
  delivers : Delivers pl m.bytes written
  kind : kindOf pl written = m.kind
  clientId : (headerOf pl written).clientId = site.clientId m.sender
  messageId : (headerOf pl written).messageId = m.messageId

/-- A message has a header, and is as long as it says. -/
def Sized (pl : Platform) (msg : List UInt8) : Prop :=
  pl.sizeofPortMessage ≤ msg.length ∧ (headerOf pl msg).totalLength = msg.length

instance (pl : Platform) (msg : List UInt8) : Decidable (Sized pl msg) :=
  inferInstanceAs (Decidable (_ ∧ _))

/-- The message that says that a connection was closed. -/
def Packet.isNotice {ι : Type} (m : Packet ι) : Bool := m.kind = lpcPortClosed

def Packet.isRequest {ι : Type} (m : Packet ι) : Bool := m.kind = lpcConnectionRequest

def presentedId (pl : Platform) (P : Process) (p : PVoid) : Option Nat :=
  match p, P.at? p with
  | some q, some (.buffer _ data) =>
    some (leNat (data.slice (q.offset + PortMessage.offMessageId pl) 4))
  | _, _ => none

namespace Net

variable {ι : Type}

/-- All messages there have been, the oldest first. -/
def packets (N : Net ι) : List (Packet ι) := (N.received.map Prod.fst).reverse ++ N.queue

section Update

variable [DecidableEq ι]

def portOf (N : Net ι) (i : ι) (h : Handle) : Option (Connection ι) :=
  N.connections.find? fun c => c.client = i && c.handle = some h && !c.closed

-- ---------------------------------------------------------------------------
-- Issuing a call
-- ---------------------------------------------------------------------------

def New (N : Net ι) (messageId : Nat) : Prop := ∀ m ∈ N.packets, m.messageId ≠ messageId

/-- What may come of a call. A client's message is what the kernel takes from
its block, if that is a message, and goes over a connection that is open; only
a connection request that has been received can be answered. -/
def Accepts (N : Net ι) (pl : Platform) (site : Site ι) : Party ι → Op → Ticket ι → Prop
  | _, _, .nothing => True
  | .client i, .alpcConnectPort a, .posted m =>
    a.portName = site.portName ∧ (N.process (.client i)).Takes a.connectionMessage m.taken ∧
      N.New m.messageId ∧ Sized pl m.taken
  | .client i, .alpcSendWaitReceivePort a, .posted m =>
    a.sendMessage ≠ none ∧ (N.process (.client i)).Takes a.sendMessage m.taken ∧
      N.New m.messageId ∧ N.portOf i a.portHandle ≠ none ∧ Sized pl m.taken
  | .client i, .close h, .posted m => N.New m.messageId ∧ N.portOf i h ≠ none
  | .server, .alpcSendWaitReceivePort a, .posted m =>
    a.sendMessage ≠ none ∧ (N.process .server).Takes a.sendMessage m.taken
  | .server, .alpcAcceptConnectPort a, .answered i => ∃ id, N.connecting i = some id ∧
    presentedId pl (N.process .server) a.connectionRequest = some id ∧
      ∃ x ∈ N.received, x.1.messageId = id
  | _, _, _ => False

def request (N : Net ι) (i : ι) (m : Posted) : Net ι :=
  { N with
    queue := N.queue ++ [⟨i, lpcConnectionRequest, m.messageId, m.taken, none⟩]
    connecting := Function.update N.connecting i (some m.messageId) }

def send (N : Net ι) (i : ι) (a : SendWaitReceive) (m : Posted) : Net ι :=
  match N.portOf i a.portHandle with
  | some c => { N with queue := N.queue ++ [⟨i, kindSent a, m.messageId, m.taken, c.context⟩] }
  | none => N

def close (N : Net ι) (i : ι) (h : Handle) (m : Posted) : Net ι :=
  match N.portOf i h with
  | some c =>
    { N with
      queue := N.queue ++ [⟨i, lpcPortClosed, m.messageId, m.taken, c.context⟩]
      connections := N.connections.map fun d =>
        if d.context = c.context then { d with closed := true } else d }
  | none => N

def answer (N : Net ι) (i : ι) (a : AcceptConnectPort) : Net ι :=
  { N with
    connecting := Function.update N.connecting i none
    connections := if a.acceptConnection then ⟨i, a.portContext, none, false⟩ :: N.connections
      else N.connections }

/-- The client that waits for a reply to this `MessageId`. -/
def waitsFor (N : Net ι) (i : ι) (messageId : Nat) : Bool :=
  match N.inCall (.client i) with
  | some (.alpcSendWaitReceivePort a, .posted m) => isSync a && m.messageId == messageId
  | _ => false

def route (N : Net ι) (pl : Platform) (msg : List UInt8) : Net ι :=
  { N with
    mail := fun i => if N.waitsFor i (headerOf pl msg).messageId then some msg else N.mail i }

def post (N : Net ι) (pl : Platform) : Party ι → Op → Ticket ι → Net ι
  | .client i, .alpcConnectPort _, .posted m => N.request i m
  | .client i, .alpcSendWaitReceivePort a, .posted m => N.send i a m
  | .client i, .close h, .posted m => N.close i h m
  | .server, .alpcSendWaitReceivePort _, .posted m => N.route pl m.taken
  | .server, .alpcAcceptConnectPort a, .answered i => N.answer i a
  | _, _, _ => N

-- ---------------------------------------------------------------------------
-- Its return
-- ---------------------------------------------------------------------------

/-- What a call returns with. A successful receive brings the oldest message
and the context of its connection; a connect succeeds if the server has
accepted; a request that succeeds brings the reply to it; an open connection
is not closed without notice. The context attribute is found where it has been
allocated, and a server can close what it has open. -/
def Brings (N : Net ι) (pl : Platform) (site : Site ι) (t : Ticket ι) :
    Party ι → (o : Op) → Ret o → Prop
  | .server, .alpcSendWaitReceivePort a, r => Ledger.isReceive a = true →
    ntSuccess r.status = true → ∃ m rest, N.queue = m :: rest ∧
      m.ArrivesAs pl site r.written ∧ r.portContext = m.context
  | .server, .alpcAcceptConnectPort a, r =>
    a.acceptConnection = true → (ntSuccess r.status = true ↔ ∃ i, t = .answered i)
  | .server, .alpcGetMessageAttribute buffer flag, r =>
    Allocated (N.process .server) buffer flag = true → r ≠ none
  | .server, .close h, r => ntSuccess r ↔ (h.bind (N.process .server).handles.get?).isSome
  | .client i, .alpcConnectPort _, r =>
    ntSuccess r.status = true ↔ ∃ c ∈ N.connections, c.client = i ∧ c.handle = none
  | .client i, .alpcSendWaitReceivePort a, r =>
    (∀ m, t = .posted m → r.taken = m.taken) ∧
      (ntSuccess r.status = true → (∃ m, t = .posted m) ∧
        (isSync a = true → ∃ reply, N.mail i = some reply ∧ Delivers pl reply r.written))
  | .client i, .close h, r =>
    (∀ m, t = .posted m → ntSuccess r = true) ∧
      (t = .nothing → ntSuccess r = true → N.portOf i h = none)
  | _, _, _ => True

def deliver (N : Net ι) (written : List UInt8) : Net ι :=
  match N.queue with
  | m :: rest => { N with queue := rest, received := (m, written) :: N.received }
  | [] => N

def connect (N : Net ι) (i : ι) (r : ConnectReply) : Net ι :=
  { N with
    connecting := Function.update N.connecting i none
    connections := if ntSuccess r.status then
        N.connections.map fun c =>
          if c.client = i ∧ c.handle = none then { c with handle := some r.handle } else c
      else N.connections }

def finish (N : Net ι) : Party ι → (o : Op) → Ret o → Net ι
  | .server, .alpcSendWaitReceivePort a, r =>
    if Ledger.isReceive a && ntSuccess r.status then N.deliver r.written else N
  | .client i, .alpcConnectPort _, r => N.connect i r
  | .client i, .alpcSendWaitReceivePort _, _ => { N with mail := Function.update N.mail i none }
  | _, _, _ => N

def effectPhase (N : Net ι) (pl : Platform) (p : Party ι) :
    (o : Phase Op) → Phase.Ret Ret (Ticket ι) o → Net ι
  | .issue o, t =>
    { N.post pl p o t with inCall := Function.update N.inCall p (some (o, t)) }
  | .await o, r =>
    { N.finish p o r with
      process := Function.update N.process p ((N.process p).effect pl o r)
      inCall := Function.update N.inCall p none }

end Update

end Net

-- ---------------------------------------------------------------------------
-- The component
-- ---------------------------------------------------------------------------

section Component

variable {ι κ : Type} [DecidableEq ι]

def eventsOf (p : Party ι) (log : List (NetEvent ι)) : List Ev :=
  log.filterMap fun
    | ⟨(q, .await o), r⟩ => if q = p then some ⟨o, r⟩ else none
    | ⟨(_, .issue _), _⟩ => none

def view (p : Party ι) (w : NetWorld ι) : World := ⟨w.state.process p, eventsOf p w.log⟩

/-- A party makes one call at a time, and an answer comes to the call it is
in. -/
def LegalPhase (pl : Platform) (site : Site ι) (N : Net ι) (p : Party ι) :
    (o : Phase Op) → Phase.Ret Ret (Ticket ι) o → Prop
  | .issue o, t => N.inCall p = none ∧ N.Accepts pl site p o t
  | .await o, r => (N.process p).Legal pl o r ∧ ∃ t, N.inCall p = some (o, t) ∧
    N.Brings pl site t p o r

def network (pl : Platform) (site : Site ι) :
    System (Party ι × Phase Op) (fun o => Phase.Ret Ret (Ticket ι) o.2) (Net ι) where
  legal w o r := LegalPhase pl site w.state o.1 o.2 r
  effect N o r := N.effectPhase pl o.1 o.2 r

/-- A round of the worker, or one of the programs a client may run. -/
inductive Task (κ : Type)
  | serve
  | run (c : κ)

def Task.code (site : Site ι) (program : κ → Proc NtStatus) : Task κ → Proc (Control NtStatus)
  | .serve => site.worker
  | .run c => do
    let status ← program c
    return .leave status

/-- The worker goes on until it leaves its loop; a client that has finished a
program may run another. -/
def Begins (w : NetWorld ι) : Party ι → Task κ × Control NtStatus → Task κ → NetWorld ι → Prop
  | .server, (_, ended), task, w' => ended = .again ∧ task = .serve ∧ w' = w
  | .client _, _, task, w' => (∃ c, task = .run c) ∧ w' = w

def channel (pl : Platform) (site : Site ι) (program : κ → Proc NtStatus) :
    Component (Party ι) (Task κ) (Phase Op) (Phase.Ret Ret (Ticket ι)) (Net ι)
      (Control NtStatus) where
  system := network pl site
  code _ task := (task.code site program).phased (Ticket ι)
  starts := Begins

abbrev NetPool (ι κ : Type) :=
  Pool (Party ι) (Task κ) (Phase Op) (Phase.Ret Ret (Ticket ι)) (Net ι) (Control NtStatus)

/-- The server is about to enter its loop, and nobody has connected. -/
structure Opens (P₀ : Process) (P : NetPool ι κ) : Prop where
  process : P.world.state.process .server = P₀
  history : P.world.log = []
  inCall : ∀ p, P.world.state.inCall p = none
  queue : P.world.state.queue = []
  received : P.world.state.received = []
  connecting : ∀ i, P.world.state.connecting i = none
  connections : P.world.state.connections = []
  mail : ∀ i, P.world.state.mail i = none
  worker : ∃ task, P.threads .server = (task, .ret .again)
  clients : ∀ i, ∃ task ended, P.threads (.client i) = (task, .ret ended)

end Component

end AlpcResearch.Channel
