import AlpcResearch.Process.Memory

/-!
# The ledger of connections

What the history of a server says about its connections: who was accepted
with which port context, whom a disconnect message named, and how each
connection request was answered. The assumptions about the kernel's side of
this are conditions on the history too.
-/

namespace AlpcResearch

open Resource Program

/-- A connection as the kernel records it at the accept. -/
structure Session where
  context : PVoid
  clientId : ClientId
  handle : Handle
  deriving DecidableEq, Repr

structure Ledger where
  /-- The message received last. -/
  message : List UInt8
  /-- The connections accepted so far, the latest first. -/
  accepted : List Session
  /-- The kind and the port context of each disconnect message. -/
  disconnects : List (UInt8 × PVoid)
  /-- Successful accepts and rejects for each connection request, the latest
  first. -/
  answers : List (Nat × Nat)

/-- The two message types that end a connection. -/
def isDisconnect (kind : UInt8) : Bool := kind = lpcPortClosed || kind = lpcClientDied

namespace Ledger

def empty : Ledger := ⟨[], [], [], []⟩

/-- The port contexts of all connections accepted so far. -/
def contexts (L : Ledger) : List PVoid := L.accepted.map Session.context

def disconnected (L : Ledger) : List PVoid := L.disconnects.map Prod.snd

def sessions (L : Ledger) : List Session :=
  L.accepted.filter fun s => s.context ∉ L.disconnected

/-- Correct the answers to the latest connection request. -/
def answer (L : Ledger) (f : Nat × Nat → Nat × Nat) : Ledger :=
  { L with answers := match L.answers with
    | [] => []
    | a :: rest => f a :: rest }

def receive (pl : Platform) (L : Ledger) (msg : List UInt8) (ctx : PVoid) : Ledger :=
  let kind := kindOf pl msg
  { L with
    message := msg
    disconnects := if isDisconnect kind then (kind, ctx) :: L.disconnects else L.disconnects
    answers := if kind = lpcConnectionRequest then (0, 0) :: L.answers else L.answers }

def accept (pl : Platform) (L : Ledger) (ctx : PVoid) (h : Handle) : Ledger :=
  { L with accepted := ⟨ctx, (headerOf pl L.message).clientId, h⟩ :: L.accepted }.answer
    fun a => (a.1 + 1, a.2)

def reject (L : Ledger) : Ledger := L.answer fun a => (a.1, a.2 + 1)

/-- A receive, as opposed to a send or a request that waits for its reply. -/
def isReceive (a : SendWaitReceive) : Bool := a.sendMessage.isNone && a.receiveMessage.isSome

def add (pl : Platform) (L : Ledger) : Ev → Ledger
  | ⟨.alpcSendWaitReceivePort a, r⟩ =>
    if isReceive a && ntSuccess r.status then L.receive pl r.written r.portContext else L
  | ⟨.alpcAcceptConnectPort a, r⟩ =>
    if a.acceptConnection then
      if ntSuccess r.status then L.accept pl a.portContext r.handle else L
    else L.reject
  | _ => L

end Ledger

/-- The ledger of a history, which has the latest event first. -/
def ledger (pl : Platform) : List Ev → Ledger
  | [] => .empty
  | e :: log => (ledger pl log).add pl e

-- ---------------------------------------------------------------------------
-- What is assumed of the kernel
-- ---------------------------------------------------------------------------

def Allocated (P : Process) (buffer : PVoid) (flag : UInt32) : Bool :=
  match P.at? buffer with
  | some (.attributes _ a) => a.allocatedAttributes &&& flag ≠ 0
  | _ => false

/-- A disconnect message carries the port context of a connection accepted
before, of which `may` allows another such message; an attribute that has been
allocated is found. -/
def sessionKernel (pl : Platform) (may : Ledger → UInt8 → PVoid → Bool) : Assumption
  | w, .alpcSendWaitReceivePort a, r =>
    Ledger.isReceive a && ntSuccess r.status && isDisconnect (kindOf pl r.written) →
      r.portContext ∈ (ledger pl w.log).contexts ∧
        may (ledger pl w.log) (kindOf pl r.written) r.portContext
  | w, .alpcGetMessageAttribute buffer flag, r => Allocated w.state buffer flag → r ≠ none
  | _, _, _ => True

def oncePerConnection (L : Ledger) (_ : UInt8) (ctx : PVoid) : Bool := ctx ∉ L.disconnected

/-- At most one of each kind: the client died, and the port was closed later. -/
def oncePerKind (L : Ledger) (kind : UInt8) (ctx : PVoid) : Bool := (kind, ctx) ∉ L.disconnects

def exactClose : Assumption
  | w, .close h, r => ntSuccess r ↔ (h.bind w.state.handles.get?).isSome
  | _, _, _ => True

def closesOpen : Assumption
  | w, .close h, r => (h.bind w.state.handles.get?).isSome → ntSuccess r = true
  | _, _, _ => True

def Assumption.and (A B : Assumption) : Assumption := fun w o r => A w o r ∧ B w o r

instance (pl : Platform) (may : Ledger → UInt8 → PVoid → Bool) (w : World) (o : Op) (r : Ret o) :
    Decidable (sessionKernel pl may w o r) := by
  cases o with
  | alpcSendWaitReceivePort => exact inferInstanceAs (Decidable (_ → _ ∧ _))
  | alpcGetMessageAttribute => exact inferInstanceAs (Decidable (_ → _ ≠ _))
  | _ => exact isTrue trivial

instance (w : World) (o : Op) (r : Ret o) : Decidable (exactClose w o r) := by
  cases o with
  | close => exact inferInstanceAs (Decidable (_ ↔ _))
  | _ => exact isTrue trivial

instance (w : World) (o : Op) (r : Ret o) : Decidable (closesOpen w o r) := by
  cases o with
  | close => exact inferInstanceAs (Decidable (_ → _))
  | _ => exact isTrue trivial

instance (A B : Assumption) [∀ w o r, Decidable (A w o r)] [∀ w o r, Decidable (B w o r)]
    (w : World) (o : Op) (r : Ret o) : Decidable (A.and B w o r) :=
  inferInstanceAs (Decidable (_ ∧ _))

end AlpcResearch
