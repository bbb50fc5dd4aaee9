import AlpcResearch.Process.Script
import AlpcResearch.Program.Schedules
import AlpcResearch.Channel.Network
import AlpcResearch.Rpc.Delivery
import AlpcResearch.Ua

/-!
# An exchange

A kernel in which everything succeeds that can: messages are taken, requests
that have been received are answered as the server says, and each call returns
what has come for it. Under a schedule it plays one run of the network.
-/

namespace AlpcResearch.Channel

open Resource Program Process
open Rpc (Party Posted isSync)

deriving instance DecidableEq for Op

variable {ι : Type} {pl : Platform} {site : Site ι}

instance (m : Packet ι) (written : List UInt8) : Decidable (m.ArrivesAs pl site written) :=
  decidable_of_iff (Delivers pl m.bytes written ∧ kindOf pl written = m.kind ∧
      (headerOf pl written).clientId = site.clientId m.sender ∧
      (headerOf pl written).messageId = m.messageId)
    ⟨fun ⟨h, h', h'', h'''⟩ => ⟨h, h', h'', h'''⟩, fun ⟨h, h', h'', h'''⟩ => ⟨h, h', h'', h'''⟩⟩

def Packet.written (pl : Platform) (site : Site ι) (m : Packet ι) : List UInt8 :=
  ((m.bytes.set 4 m.kind).set 5 0).take PortMessage.offClientId ++
    leBytes pl.pointerSize (site.clientId m.sender).uniqueProcess ++
    leBytes pl.pointerSize (site.clientId m.sender).uniqueThread ++
    leBytes 4 m.messageId ++ m.bytes.drop (PortMessage.offMessageId pl + 4)

variable [DecidableEq ι]

namespace Net

instance (N : Net ι) (messageId : Nat) : Decidable (N.New messageId) :=
  inferInstanceAs (Decidable (∀ m ∈ N.packets, _))

def shown (N : Net ι) (pl : Platform) (clients : List ι) (a : AcceptConnectPort) : Option ι :=
  clients.find? fun i => (N.connecting i).any fun id =>
    presentedId pl (N.process .server) a.connectionRequest = some id ∧
      ∃ x ∈ N.received, x.1.messageId = id

def posting (N : Net ι) (i : ι) (p : PVoid) : Posted :=
  ⟨N.packets.length, Environment.takenFrom (N.process (.client i)) p⟩

def ticket (N : Net ι) (pl : Platform) (site : Site ι) (clients : List ι) :
    Party ι → Op → Ticket ι
  | .client i, .alpcConnectPort a =>
    if a.portName = site.portName ∧ N.New N.packets.length ∧
        Sized pl (N.posting i a.connectionMessage).taken then
      .posted (N.posting i a.connectionMessage)
    else .nothing
  | .client i, .alpcSendWaitReceivePort a =>
    if a.sendMessage ≠ none ∧ N.New N.packets.length ∧ (N.portOf i a.portHandle).isSome ∧
        Sized pl (N.posting i a.sendMessage).taken then
      .posted (N.posting i a.sendMessage)
    else .nothing
  | .client i, .close h =>
    if N.New N.packets.length ∧ (N.portOf i h).isSome then
      .posted ⟨N.packets.length, List.replicate pl.sizeofPortMessage 0⟩
    else .nothing
  | .server, .alpcSendWaitReceivePort a =>
    if a.sendMessage ≠ none then
      .posted ⟨0, Environment.takenFrom (N.process .server) a.sendMessage⟩
    else .nothing
  | .server, .alpcAcceptConnectPort a => match N.shown pl clients a with
    | some i => .answered i
    | none => .nothing
  | _, _ => .nothing

theorem ticket_accepted {N : Net ι} {clients : List ι} {p : Party ι} {o : Op} :
    N.Accepts pl site p o (N.ticket pl site clients p o) := by
  cases p with
  | client i =>
    cases o with
    | alpcConnectPort a =>
      simp only [ticket]
      split
      · rename_i h
        exact ⟨h.1, Environment.takes_takenFrom, h.2⟩
      · trivial
    | alpcSendWaitReceivePort a =>
      simp only [ticket]
      split
      · rename_i h
        exact ⟨h.1, Environment.takes_takenFrom, h.2.1, Option.isSome_iff_ne_none.mp h.2.2.1, h.2.2.2⟩
      · trivial
    | close x =>
      simp only [ticket]
      split
      · rename_i h
        exact ⟨h.1, Option.isSome_iff_ne_none.mp h.2⟩
      · trivial
    | _ => trivial
  | server =>
    cases o with
    | alpcSendWaitReceivePort a =>
      simp only [ticket]
      split
      · rename_i h
        exact ⟨h, Environment.takes_takenFrom⟩
      · trivial
    | alpcAcceptConnectPort a =>
      simp only [ticket]
      split
      · rename_i i h
        have hshown := List.find?_some h
        simp only [Option.any_eq_true, decide_eq_true_eq] at hshown
        exact hshown
      · trivial
    | _ => trivial

def canBring (N : Net ι) (pl : Platform) (site : Site ι) (t : Ticket ι) :
    Party ι → (o : Op) → Ret o → Bool
  | .server, .alpcSendWaitReceivePort a, r => !Ledger.isReceive a ||
    N.queue.head?.any fun m => m.ArrivesAs pl site r.written ∧ r.portContext = m.context
  | .server, .alpcAcceptConnectPort a, r => !a.acceptConnection ||
    ntSuccess r.status == match t with
      | .answered _ => true
      | _ => false
  | .server, .alpcGetMessageAttribute _ _, r => r.isSome
  | .server, .close h, r => ntSuccess r == (h.bind (N.process .server).handles.get?).isSome
  | .client i, .alpcConnectPort _, r =>
    ntSuccess r.status == N.connections.any fun c => c.client = i && c.handle.isNone
  | .client i, .alpcSendWaitReceivePort a, r => match t with
    | .posted m => r.taken = m.taken && (!ntSuccess r.status || !isSync a ||
      (N.mail i).any fun reply => Delivers pl reply r.written)
    | _ => !ntSuccess r.status
  | .client i, .close h, r => match t with
    | .posted _ => ntSuccess r
    | _ => (N.portOf i h).isNone
  | _, _, _ => true

theorem brings_of_canBring {N : Net ι} {t : Ticket ι} {p : Party ι} {o : Op} {r : Ret o}
    (h : N.canBring pl site t p o r = true) : N.Brings pl site t p o r := by
  cases p with
  | server =>
    cases o with
    | alpcSendWaitReceivePort a =>
      intro hreceive _
      simp only [canBring, hreceive, Bool.not_true, Bool.false_or, Option.any_eq_true,
        decide_eq_true_eq] at h
      obtain ⟨m, hm, harrives, hcontext⟩ := h
      obtain ⟨rest, hqueue⟩ := List.head?_eq_some_iff.mp hm
      exact ⟨m, rest, hqueue, harrives, hcontext⟩
    | alpcAcceptConnectPort a =>
      intro ha
      simp only [canBring, ha, Bool.not_true, Bool.false_or, beq_iff_eq] at h
      rw [h]
      cases t <;> simp
    | alpcGetMessageAttribute buffer flag =>
      exact fun _ => Option.isSome_iff_ne_none.mp h
    | close x =>
      simp only [canBring, beq_iff_eq] at h
      simp [Brings, h]
    | _ => trivial
  | client i =>
    cases o with
    | alpcConnectPort a =>
      simp only [canBring, beq_iff_eq] at h
      simp [Brings, h]
    | alpcSendWaitReceivePort a =>
      cases t with
      | posted m =>
        simp only [canBring, Bool.and_eq_true, decide_eq_true_eq, Bool.or_eq_true,
          Bool.not_eq_true', Option.any_eq_true] at h
        refine ⟨fun m' he => ?_, fun hs => ⟨⟨m, rfl⟩, fun hsync => ?_⟩⟩
        · cases he
          exact h.1
        · exact h.2.resolve_left (by simp [hs, hsync])
      | nothing | answered =>
        simp only [canBring, Bool.not_eq_true'] at h
        exact ⟨by rintro _ ⟨⟩, fun hs => absurd (h.symm.trans hs) Bool.false_ne_true⟩
    | close x =>
      cases t with
      | posted m => exact ⟨fun _ _ => h, by rintro ⟨⟩⟩
      | nothing =>
        exact ⟨by rintro _ ⟨⟩, fun _ _ => Option.isNone_iff_eq_none.mp h⟩
      | answered => exact ⟨by rintro _ ⟨⟩, by rintro ⟨⟩⟩
    | _ => trivial

def brought (N : Net ι) (pl : Platform) (site : Site ι) : Party ι → Option (List UInt8)
  | .server => N.queue.head?.map (Packet.written pl site)
  | .client i => N.mail i

def outcome (N : Net ι) : Party ι → NtStatus
  | .server => match N.inCall .server with
    | some (.alpcAcceptConnectPort a, .nothing) =>
      if a.acceptConnection then statusUnsuccessful else statusSuccess
    | _ => statusSuccess
  | .client i => match N.inCall (.client i) with
    | some (.alpcConnectPort _, _) =>
      if N.connections.any fun c => c.client = i && c.handle.isNone then statusSuccess
      else statusUnsuccessful
    | some (.alpcSendWaitReceivePort _, .nothing) => statusUnsuccessful
    | _ => statusSuccess

end Net

/-- Everything comes out as the kernel has it; the callbacks accept everybody
and leave requests as they are. -/
def postman (pl : Platform) (site : Site ι) (N : Net ι) (p : Party ι) : Environment :=
  { Environment.calm with
    outcome := fun kind _ => match kind with
      | .receive | .send | .accept | .connectPort =>
        { status := N.outcome p, message := (N.brought pl site p).getD [] }
      | _ => {} }

def Net.stamp (N : Net ι) : (o : Op) → Ret o → Ret o
  | .alpcSendWaitReceivePort _, r => { r with portContext := N.queue.head?.bind Packet.context }
  | _, r => r

def exchange (κ : Type) (pl : Platform) (site : Site ι) (clients : List ι) :
    Director (Party ι) (Task κ) (Phase Op) (Phase.Ret Ret (Ticket ι)) (Net ι) (Control NtStatus) where
  begins w p last task := match p, last, task with
    | .server, (_, .again), .serve => some w
    | .client _, _, .run _ => some w
    | _, _, _ => none
  answer P p o :=
    let N := P.world.state
    match o with
    | .issue o => if (N.inCall p).isNone then some (N.ticket pl site clients p o) else none
    | .await o =>
      let E := postman pl site N p
      let r := N.stamp o (E.answer (view p P.world) o)
      match N.inCall p with
      | some (o', t) =>
        if o' = o ∧ E.canAnswer pl (view p P.world) o ∧ N.canBring pl site t p o r then some r
        else none
      | none => none

omit [DecidableEq ι] in
theorem Net.stamp_legal {N : Net ι} {P : Process} {o : Op} {r : Ret o} (h : P.Legal pl o r) :
    P.Legal pl o (N.stamp o r) := by
  cases o with
  | alpcSendWaitReceivePort a => exact h
  | _ => exact h

theorem exchange_sound {κ : Type} {program : κ → Proc NtStatus} {clients : List ι} :
    (exchange κ pl site clients).Sound (channel pl site program) anyStep where
  begins := by
    intro w p last task w' h
    obtain ⟨earlier, ended⟩ := last
    cases p with
    | server =>
      cases ended with
      | again =>
        cases task with
        | serve =>
          cases h
          exact ⟨rfl, rfl, rfl⟩
        | run c => cases h
      | leave => cases h
    | client i =>
      cases task with
      | serve => cases h
      | run c =>
        cases h
        exact ⟨⟨c, rfl⟩, rfl⟩
  answer := by
    intro P p o r h
    refine ⟨?_, trivial⟩
    cases o with
    | issue o =>
      simp only [exchange, Option.ite_none_right_eq_some, Option.some.injEq] at h
      obtain ⟨hidle, rfl⟩ := h
      exact ⟨Option.isNone_iff_eq_none.mp hidle, Net.ticket_accepted⟩
    | await o =>
      simp only [exchange] at h
      split at h
      · rename_i o' t hcall
        simp only [Option.ite_none_right_eq_some, Option.some.injEq] at h
        obtain ⟨⟨rfl, hcan, hbrings⟩, rfl⟩ := h
        exact ⟨Net.stamp_legal (Environment.answer_legal hcan), t, hcall,
          Net.brings_of_canBring hbrings⟩
      · cases h

-- ---------------------------------------------------------------------------
-- Two clients
-- ---------------------------------------------------------------------------

/-- A client that connects, and leaves again if it is told to. -/
def visit (pl : Platform) (leaves : Bool) : Proc NtStatus := do
  let (status, handle) ← Ua.uaConnectServer pl "port" none 0
  if leaves then
    Ua.uaDisconnectServer handle
    return status
  else
    return status

def portOfTwo (worker : Proc (Control NtStatus)) : Site Bool where
  portName := "port"
  worker := worker
  clientId i := if i then ⟨8, 9⟩ else ⟨4, 5⟩

def beforeTwo (P₀ : Process) : NetPool Bool Bool where
  world :=
    ⟨⟨fun | .server => P₀ | .client _ => .empty, fun _ => none, [], [], fun _ => none, [], fun _ => none⟩, []⟩
  threads _ := (.serve, .ret .again)

theorem beforeTwo_opens (P₀ : Process) : Opens P₀ (beforeTwo P₀) :=
  ⟨rfl, rfl, fun _ => rfl, rfl, rfl, fun _ => rfl, rfl, fun _ => rfl, ⟨_, rfl⟩,
    fun _ => ⟨_, _, rfl⟩⟩

end AlpcResearch.Channel
