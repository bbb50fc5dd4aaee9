import AlpcResearch.Process.Threads
import AlpcResearch.Program.Schedules
import AlpcResearch.Ua.Handlers
import AlpcResearch.Ua.Lengths

/-!
# What the kernel may write

Any number of threads of one process call into `ua.c` and run its workers, in
any interleaving. A call that lets the kernel write a message announces how
much; `WithinCapacity` says that the buffer was allocated with at least that
many bytes. All calls keep to it but one: `UaConnectServer` announces the
maximum for a block that is only as large as its own message.
-/

namespace AlpcResearch.Ua

open Resource Program Process

variable {ι : Type} {pl : Platform}

-- ---------------------------------------------------------------------------
-- The component
-- ---------------------------------------------------------------------------

/-- A call of an entry point of `ua.c`, or one round of a worker. -/
inductive Entry
  | createServer (portName : String) (onRequest onDatagram onConnect : Procedure)
  | serverWorker (server : ServerObject)
  | terminateServer (server : ServerObject)
  | send (e : EntryPoint) (data : PVoid) (length : UInt16)
  | disconnectServer (communicationPortHandle : Handle)

def Entry.call (pl : Platform) : Entry → Proc Unit
  | .createServer portName onRequest onDatagram onConnect => do
    let _ ← uaCreateServer pl portName onRequest onDatagram onConnect
  | .serverWorker server => do
    let _ ← uaServerWorker pl server
  | .terminateServer server => uaTerminateServer server
  | .send e data length => do
    let _ ← e.call pl data length
  | .disconnectServer handle => uaDisconnectServer handle

def WorkerStarted (log : List (CrowdEvent ι)) (server : ServerObject) : Prop :=
  ∃ (i : ι) (status : NtStatus) (h : Ref),
    ⟨(i, .await (.createThread (some server))), (status, some h)⟩ ∈ log

/-- Callers send messages that are not too long; workers run where they were
started. -/
def Admissible (pl : Platform) (log : List (CrowdEvent ι)) : Entry → Prop
  | .serverWorker server => WorkerStarted log server
  | .send _ _ length => pl.sizeofPortMessage + length.toNat ≤ pl.alpcMaxAllowedMessageLength
  | _ => True

/-- The threads of a process that uses `ua.c`. -/
def component (ι : Type) (pl : Platform) :
    Component ι Entry (Phase Op) (Phase.Ret Ret Unit) Process Unit where
  system := crowd ι pl
  code _ c := (c.call pl).phased Unit
  starts w _ _ c w' := w' = w ∧ Admissible pl w.log c

structure Idle (P : Pool ι Entry (Phase Op) (Phase.Ret Ret Unit) Process Unit) : Prop where
  history : P.world.log = []
  faults : P.world.state.faults = []
  threads : ∀ i, ∃ c, P.threads i = (c, .ret ())

-- ---------------------------------------------------------------------------
-- The capacity of a call
-- ---------------------------------------------------------------------------

/-- The buffer a call lets the kernel write to was allocated with the capacity
it announces. -/
def WithinCapacity (pl : Platform) (log : List (CrowdEvent ι)) (o : Op) : Prop :=
  ∀ p capacity, receives o = some (p, capacity) →
    ∃ l, Obtained log p.block l ∧ p.offset + capacity ≤ l.size pl

/-- A connection message as long as the capacity `UaConnectServer` announces. -/
def FillsMaximum (pl : Platform) : Entry → Prop
  | .send (.connectServer _) _ length =>
    pl.sizeofPortMessage + length.toNat = pl.alpcMaxAllowedMessageLength
  | _ => True

/-- A connection message that does not is not even allocated. -/
def connectsFilled (pl : Platform) (c : Entry) : (o : Phase Op) → Phase.Ret Ret Unit o → Prop
  | .await (.allocate _ _), r => r.pointer ≠ none → FillsMaximum pl c
  | _, _ => True

-- ---------------------------------------------------------------------------
-- The contract of a thread
-- ---------------------------------------------------------------------------

def Prepared (pl : Platform) (log : List (CrowdEvent ι)) (server : ServerObject) : Prop :=
  ∃ m, server.portMessage = some ⟨m, 0⟩ ∧
    Obtained log m (.buffer pl.alpcMaxAllowedMessageLength)

def startsOn : Op → Option ServerObject
  | .createThread argument => argument
  | _ => none

/-- A call within its capacity; a worker is only started on a prepared server. -/
structure Sound (pl : Platform) (log : List (CrowdEvent ι)) (o : Op) : Prop where
  capacity : WithinCapacity pl log o
  prepared : ∀ server, startsOn o = some server → Prepared pl log server

structure CapacityInv (pl : Platform) (w : Crowd ι) : Prop where
  accounted : Accounted w
  workers : ∀ server, WorkerStarted w.log server → Prepared pl w.log server
  faults : ∀ p length, .kernelOverflow p length ∉ w.state.faults

def capacityContract (ι : Type) (pl : Platform) :
    Contract ι Entry (Phase Op) (Phase.Ret Ret Unit) Process Unit where
  inv := CapacityInv pl
  rely _ w v := w.log <:+ v.log
  may _ w o := Sound pl w.log (opOf o)
  given _ c _ o r := connectsFilled pl c o r
  owes _ _ _ _ := True

theorem Prepared.mono {log log' : List (CrowdEvent ι)} {server : ServerObject}
    (h : Prepared pl log server) (hlog : log <:+ log') : Prepared pl log' server := by
  obtain ⟨m, hm, ha⟩ := h
  exact ⟨m, hm, ha.mono hlog⟩

variable {w : Crowd ι}

theorem CapacityInv.act {o : ι × Phase Op} {r : Phase.Ret Ret Unit o.2} (h : CapacityInv pl w)
    (hmay : Sound pl w.log (opOf o.2)) (hr : (crowd ι pl).legal w o r) :
    CapacityInv pl ((crowd ι pl).next w o r) := by
  obtain ⟨i, o⟩ := o
  have hlog : w.log <:+ ((crowd ι pl).next w (i, o) r).log := List.suffix_cons _ _
  refine ⟨h.accounted.act hr, fun server ⟨j, status, t, hmem⟩ => ?_, fun p length hmem => ?_⟩
  · rcases List.mem_cons.mp hmem with he | hmem
    · cases he
      exact (hmay.prepared server rfl).mono hlog
    · exact (h.workers server ⟨j, status, t, hmem⟩).mono hlog
  · cases o with
    | issue o => exact h.faults p length hmem
    | await o =>
      rcases List.mem_append.mp hmem with hmem | hmem
      · obtain ⟨q, cap, l, hq, hl, hlt⟩ := kernelOverflow_receives hr hmem
        obtain ⟨l', ha, hle⟩ := hmay.capacity q cap hq
        cases (h.accounted q.block l' ha).2 l hl
        omega
      · exact h.faults p length hmem

-- ---------------------------------------------------------------------------
-- The entry points
-- ---------------------------------------------------------------------------

/-- An operation that receives, if at all, into the block `q` of layout `l`,
and starts a worker, if at all, on a server with that message buffer. -/
structure On (pl : Platform) (q : Ref) (l : Layout) (o : Op) : Prop where
  receives : ∀ p capacity, receives o = some (p, capacity) →
    p.block = q ∧ p.offset + capacity ≤ l.size pl
  starts : ∀ server, startsOn o = some server →
    server.portMessage = some ⟨q, 0⟩ ∧ l = .buffer pl.alpcMaxAllowedMessageLength

def waitsForMessage : Op → Bool
  | .alpcSendWaitReceivePort a => a.bufferLength.isSome
  | _ => false

structure Plain (o : Op) : Prop where
  receives : receives o = none
  starts : startsOn o = none
  waits : waitsForMessage o = false

theorem Plain.on {o : Op} (h : Plain o) (pl : Platform) (q : Ref) (l : Layout) : On pl q l o :=
  ⟨fun p n he => by simp [h.receives] at he, fun server he => by simp [h.starts] at he⟩

variable {K : Contract ι Entry (Phase Op) (Phase.Ret Ret Unit) Process Unit} {i : ι} {c : Entry}

theorem amid_on {p : Proc α} {q : Ref} {l : Layout} (hp : p.Uses (On pl q l))
    (hq : Obtained w.log q l) :
    (p.phased Unit).amid (component ι pl) (capacityContract ι pl) i c (fun _ _ => True) w := by
  refine amid_of_uses (I := fun v => Obtained v.log q l) (uses_phased hp) (fun v o hv ho => ?_)
    (fun v o r hv _ _ => hv.mono (List.suffix_cons _ _)) (fun v v' hv hr => hv.mono hr)
    (fun _ _ _ => trivial) hq
  refine ⟨fun p n hn => ?_, fun server hs => ?_⟩
  · obtain ⟨rfl, hle⟩ := ho.receives p n hn
    exact ⟨l, hv, hle⟩
  · obtain ⟨hm, rfl⟩ := ho.starts server hs
    exact ⟨q, hm, hv⟩

theorem amid_plain {p : Proc α} {Q : α → Crowd ι → Prop} (hp : p.Uses Plain) (hQ : ∀ a v, Q a v) :
    (p.phased Unit).amid (component ι pl) (capacityContract ι pl) i c Q w := by
  refine amid_of_uses (I := fun _ => True) (uses_phased hp) (fun v o _ ho => ?_)
    (fun _ _ _ _ _ _ => trivial) (fun _ _ _ _ => trivial) (fun a v _ => hQ a v) trivial
  exact ⟨fun p n hn => by simp [ho.receives] at hn, fun server hs => by simp [ho.starts] at hs⟩

theorem Plain.sound {o : Op} {log : List (CrowdEvent ι)} (h : Plain o) : Sound pl log o :=
  ⟨fun p n hn => by simp [h.receives] at hn, fun server hs => by simp [h.starts] at hs⟩

theorem amid_call {o : Op} {k : Ret o → Proc α} {Q : α → Crowd ι → Prop} (ho : Plain o)
    (hk : ∀ r v, v.state.Legal pl o r → connectsFilled pl c (.await o) r →
      ((k r).phased Unit).amid (component ι pl) (capacityContract ι pl) i c Q
        ((crowd ι pl).next v (i, .await o) r)) :
    ((Prog.call o k).phased Unit).amid (component ι pl) (capacityContract ι pl) i c Q w :=
  fun _ _ _ => ⟨ho.sound, fun _ _ _ _ => fun v _ _ => ⟨ho.sound, fun r hr hg _ => hk r v hr hg⟩⟩

theorem amid_allocate {f : PVoid → Proc α} {Q : α → Crowd ι → Prop}
    (hnone : ∀ v, ((f none).phased Unit).amid (component ι pl) (capacityContract ι pl) i c Q v)
    (hsome : ∀ q v, Obtained v.log q layout → FillsMaximum pl c →
      ((f (some ⟨q, 0⟩)).phased Unit).amid (component ι pl) (capacityContract ι pl) i c Q v) :
    ((allocateZeroHeap api pl layout >>= f).phased Unit).amid (component ι pl)
      (capacityContract ι pl) i c Q w := by
  rw [allocateZeroHeap_bind]
  refine amid_call ⟨rfl, rfl, rfl⟩ fun r v hr hg => ?_
  cases hp : r.pointer with
  | none => exact hnone _
  | some p =>
    obtain ⟨q, rfl, -⟩ := newBlock_allocate hr hp
    have hfills : FillsMaximum pl c := hg (by simp [hp])
    have halloc : Obtained ((crowd ι pl).next v (i, .await (.allocate api layout)) r).log q
        layout := ⟨i, api, r, List.mem_cons_self, hp⟩
    -- the zeroing leaves the history of the allocation as it is
    refine fun v' _ hrely => ⟨Plain.sound ⟨rfl, rfl, rfl⟩, fun _ _ _ _ => fun v'' _ hrely' =>
      ⟨Plain.sound ⟨rfl, rfl, rfl⟩, fun _ _ _ _ => hsome q _ ?_ hfills⟩⟩
    have hlog := hrely.trans ((List.suffix_cons _ v'.log).trans hrely')
    exact halloc.mono (hlog.trans (List.suffix_cons _ v''.log))

theorem uaCleanup_plain {server : ServerObject} : (uaCleanup server).Uses Plain := by
  have hfree : ∀ p, (uaFreeHeap p).Uses Plain := fun p => ⟨⟨rfl, rfl, rfl⟩, fun _ => trivial⟩
  have hclose : (ntClose server.connectionPortHandle >>= fun _ => pure ()).Uses Plain :=
    ⟨⟨rfl, rfl, rfl⟩, fun _ => trivial⟩
  exact uses_bind (uses_unlessNull hclose) fun _ => uses_bind (uses_unlessNull (hfree _)) fun _ =>
    uses_bind (uses_unlessNull (hfree _)) fun _ => uses_bind (hfree _) fun _ => trivial

theorem uaCreateServer_amid :
    ((uaCreateServer pl portName f g k).phased Unit).amid (component ι pl)
      (capacityContract ι pl) i c (fun _ _ => True) w := by
  have cleanup : ∀ {server v}, ((uaCleanup server).phased Unit).amid (component ι pl)
      (capacityContract ι pl) i c (fun _ _ => True) v := amid_plain uaCleanup_plain fun _ _ => trivial
  refine amid_allocate (fun _ => ?_) fun b _ _ _ => ?_
  · exact fun _ _ _ => trivial
  refine amid_call ⟨rfl, rfl, rfl⟩ fun size _ _ _ => ?_
  refine amid_allocate (fun _ => cleanup) fun a _ _ _ => ?_
  refine amid_call ⟨rfl, rfl, rfl⟩ fun status _ _ _ => ?_
  simp only [Prog.ret_bind]
  split
  · exact cleanup
  refine amid_allocate (fun _ => cleanup) fun m v hm _ => ?_
  -- from here on the message buffer is there
  refine amid_on ?_ hm
  have cleanup : ∀ {server}, (uaCleanup server).Uses
      (On pl m (.buffer pl.alpcMaxAllowedMessageLength)) :=
    uaCleanup_plain.mono fun _ ho => ho.on pl _ _
  refine ⟨(Plain.mk rfl rfl rfl).on pl _ _, fun created => ?_⟩
  simp only [Prog.ret_bind]
  split
  · exact cleanup
  refine ⟨⟨fun _ _ he => (Option.some_ne_none _ he.symm).elim, fun server hs => ?_⟩, fun thread => ?_⟩
  · cases hs
    exact ⟨rfl, rfl⟩
  simp only [Prog.ret_bind]
  split
  · exact cleanup
  · trivial

theorem withPortMessage_amid {fail : NtStatus → α} {send : PVoid → Proc α}
    (hsend : ∀ q, FillsMaximum pl c →
      (send (some ⟨q, 0⟩)).Uses (On pl q (.buffer (totalLengthOf pl n).toNat))) :
    ((withPortMessage .crt pl data n fail send).phased Unit).amid (component ι pl)
      (capacityContract ι pl) i c (fun _ _ => True) w := by
  simp only [withPortMessage]
  split
  · exact fun _ _ _ => trivial
  refine amid_allocate (fun _ => ?_) fun q v hq hfills => ?_
  · exact fun _ _ _ => trivial
  refine amid_on ?_ hq
  have plain : ∀ {o}, Plain o → On pl q (.buffer (totalLengthOf pl n).toNat) o :=
    fun ho => ho.on pl _ _
  refine ⟨plain ⟨rfl, rfl, rfl⟩, fun _ => ⟨plain ⟨rfl, rfl, rfl⟩, fun _ =>
    ⟨plain ⟨rfl, rfl, rfl⟩, fun _ => ?_⟩⟩⟩
  simp only [Prog.ret_bind]
  exact uses_bind (hsend q hfills) fun _ => uses_call.mpr ⟨plain ⟨rfl, rfl, rfl⟩, fun _ => trivial⟩

theorem send_amid {e : EntryPoint} (hc : c = .send e data n)
    (hn : pl.sizeofPortMessage + n.toNat ≤ pl.alpcMaxAllowedMessageLength) :
    ((e.call pl data n).phased Unit).amid (component ι pl) (capacityContract ι pl) i c
      (fun _ _ => True) w := by
  have htotal : (totalLengthOf pl n).toNat = pl.sizeofPortMessage + n.toNat :=
    totalLengthOf_fits (Nat.lt_of_le_of_lt hn pl.alpcMax_lt)
  cases e with
  | sendSynchronousRequest handle =>
    refine withPortMessage_amid fun q _ => ?_
    refine ⟨⟨fun p cap he => ?_, fun _ he => (Option.some_ne_none _ he.symm).elim⟩,
      fun _ => ⟨(Plain.mk rfl rfl rfl).on pl _ _, fun _ => trivial⟩⟩
    cases he
    exact ⟨rfl, by simp [Layout.size]⟩
  | sendDatagram handle =>
    refine withPortMessage_amid fun q _ => ?_
    exact ⟨(Plain.mk rfl rfl rfl).on pl _ _, fun _ => trivial⟩
  | connectServer name =>
    subst hc
    have hconnect : ((uaConnectServer pl name data n).phased Unit).amid (component ι pl)
        (capacityContract ι pl) i (.send (.connectServer name) data n) (fun _ _ => True) w := by
      refine withPortMessage_amid fun q hfills => ?_
      refine ⟨⟨fun p cap he => ?_, fun _ he => (Option.some_ne_none _ he.symm).elim⟩, fun _ => trivial⟩
      cases he
      exact ⟨rfl, by simpa [Layout.size, htotal] using Nat.le_of_eq hfills.symm⟩
    rw [EntryPoint.call, phased_bind]
    refine amid_bind (fun _ _ => List.suffix_refl _) (amid_imp hconnect fun _ _ _ _ => ?_)
    exact fun _ _ _ => trivial

-- The worker's only receive is the one at the head of its loop.

theorem Plain.of_answersConnect (o : Op) (h : AnswersConnect o) : Plain o := by
  cases o with
  | alpcSendWaitReceivePort | alpcConnectPort | createThread | psCreateSystemThread
  | ntCreateThreadEx | waitForSingleObject => exact h.elim
  | _ => exact ⟨rfl, rfl, rfl⟩

theorem Plain.of_tearsDown (o : Op) (h : TearsDown o) : Plain o := by
  cases o with
  | alpcSendWaitReceivePort | alpcConnectPort | createThread | psCreateSystemThread
  | ntCreateThreadEx | waitForSingleObject => exact h.elim
  | _ => exact ⟨rfl, rfl, rfl⟩

theorem uaProcessMessage_plain {server : ServerObject} :
    (uaProcessMessage pl server).Uses Plain := by
  refine ⟨⟨rfl, rfl, rfl⟩, fun bs => ?_⟩
  simp only [Prog.ret_bind, uaDispatch]
  split
  · exact ⟨⟨rfl, rfl, rfl⟩, fun _ => ⟨⟨rfl, rfl, rfl⟩, fun _ => trivial⟩⟩
  split
  · refine ⟨⟨rfl, rfl, rfl⟩, fun contextAttribute => ?_⟩
    simp only [Prog.ret_bind]
    split
    · trivial
    refine ⟨⟨rfl, rfl, rfl⟩, fun _ => ⟨⟨rfl, rfl, rfl⟩, fun bs => ?_⟩⟩
    simp only [Prog.ret_bind]
    split
    · exact ⟨⟨rfl, rfl, rfl⟩, fun _ => trivial⟩
    · trivial
  split
  · exact uaAlpcDisconnect_uses.mono Plain.of_tearsDown
  split
  · exact uaAlpcDisconnect_uses.mono Plain.of_tearsDown
  split
  · obtain ⟨k, hconnect, hanswers⟩ :
        ∃ k, uaAlpcConnect pl server = .call (.onConnect server.onConnect server.portMessage) k ∧
          ∀ answer, (k answer).Uses AnswersConnect := uaAlpcConnect_uses
    rw [hconnect]
    exact ⟨⟨rfl, rfl, rfl⟩, fun answer => (hanswers answer).mono Plain.of_answersConnect⟩
  · trivial

theorem uaServerWorker_on {server : ServerObject} {m : Ref}
    (hm : server.portMessage = some ⟨m, 0⟩) :
    (uaServerWorker pl server).Uses (On pl m (.buffer pl.alpcMaxAllowedMessageLength)) := by
  have hplain : ∀ o, Plain o → On pl m (.buffer pl.alpcMaxAllowedMessageLength) o :=
    fun _ ho => ho.on pl _ _
  refine ⟨⟨fun p capacity he => ?_, fun _ he => (Option.some_ne_none _ he.symm).elim⟩, fun reply => ?_⟩
  · simp only [receives, uaReceive, hm, Option.map_some, Option.getD_some, Option.some.injEq,
      Prod.mk.injEq] at he
    obtain ⟨rfl, rfl⟩ := he
    exact ⟨rfl, by simp [Layout.size]⟩
  simp only [Prog.ret_bind]
  split
  · trivial
  refine uses_bind (uaProcessMessage_plain.mono hplain) fun status => ?_
  split
  · trivial
  · trivial

theorem entry_amid (hw : CapacityInv pl w) (hc : Admissible pl w.log c) :
    ((c.call pl).phased Unit).amid (component ι pl) (capacityContract ι pl) i c
      (fun _ _ => True) w := by
  have discard : ∀ {α : Type} {p : Proc α}, (p.phased Unit).amid (component ι pl)
      (capacityContract ι pl) i c (fun _ _ => True) w →
      ((p >>= fun _ => pure ()).phased Unit).amid (component ι pl) (capacityContract ι pl) i c
        (fun _ _ => True) w := by
    intro α p hp
    rw [phased_bind]
    refine amid_bind (fun _ _ => List.suffix_refl _) (amid_imp hp fun _ _ _ _ => ?_)
    exact fun _ _ _ => trivial
  cases c with
  | createServer portName f g k => exact discard uaCreateServer_amid
  | serverWorker server =>
    obtain ⟨m, hm, halloc⟩ := hw.workers server hc
    exact discard (amid_on (uaServerWorker_on hm) halloc)
  | terminateServer server =>
    refine amid_plain ?_ fun _ _ => trivial
    exact ⟨⟨rfl, rfl, rfl⟩, fun _ => ⟨⟨rfl, rfl, rfl⟩, fun _ => ⟨⟨rfl, rfl, rfl⟩, fun _ =>
      ⟨⟨rfl, rfl, rfl⟩, fun _ => ⟨⟨rfl, rfl, rfl⟩, fun _ => trivial⟩⟩⟩⟩⟩
  | send e data n =>
    exact discard (send_amid rfl hc)
  | disconnectServer handle =>
    exact amid_plain ⟨⟨rfl, rfl, rfl⟩, fun _ => trivial⟩ fun _ _ => trivial

theorem capacityContract_valid : (capacityContract ι pl).Valid (component ι pl) where
  refl _ _ := List.suffix_refl _
  trans := List.IsSuffix.trans
  act_inv h hmay hl _ := h.act hmay hl
  act_rely _ _ _ _ _ := List.suffix_cons _ _
  start_inv := by
    rintro i c a c' w w' hw - ⟨rfl, -⟩
    exact hw
  start_rely := by
    rintro i j c a c' w w' - - - ⟨rfl, -⟩
    exact List.suffix_refl _
  start_code := by
    rintro i c a c' w w' hw - ⟨rfl, hc⟩
    exact entry_amid hw hc

-- ---------------------------------------------------------------------------
-- The law
-- ---------------------------------------------------------------------------

/-- Every call is within its capacity, and the kernel has written nothing past
the end of a block. -/
structure CapacityLaw (pl : Platform)
    (P : Pool ι Entry (Phase Op) (Phase.Ret Ret Unit) Process Unit) : Prop where
  calls : ∀ i c o k, P.threads i = (c, .call (.issue o) k) → WithinCapacity pl P.world.log o
  writes : ∀ p length, .kernelOverflow p length ∉ P.world.state.faults

variable {P₀ P : Pool ι Entry (Phase Op) (Phase.Ret Ret Unit) Process Unit}

theorem Idle.kept (h : Idle P₀) : (capacityContract ι pl).Kept (component ι pl) P₀ where
  inv := by
    refine ⟨fun q l ⟨_, _, _, hmem, _⟩ => ?_, fun server ⟨_, _, hmem⟩ => ?_, ?_⟩
    · simp [h.history] at hmem
    · simp [h.history] at hmem
    · simp [h.faults]
  thread i := by
    obtain ⟨c, hc⟩ := h.threads i
    rw [hc]
    exact fun _ _ _ => trivial

/-- In every interleaving of any calls in which no connection message gets a
block shorter than the maximum. -/
theorem capacity_law [DecidableEq ι] (h₀ : Idle P₀)
    (h : (component ι pl).Reaches (fun P i o r => connectsFilled pl (P.threads i).1 o r) P₀ P) :
    CapacityLaw pl P := by
  have hkept := capacityContract_valid.reaches (fun _ _ _ _ hr => hr) h₀.kept h
  exact ⟨fun i c o k ht => (hkept.may capacityContract_valid ht).capacity, hkept.inv.faults⟩

-- ---------------------------------------------------------------------------
-- Runs
-- ---------------------------------------------------------------------------

instance (c : Entry) : Decidable (FillsMaximum pl c) :=
  match c with
  | .send (.connectServer _) _ _ => inferInstanceAs (Decidable (_ = _))
  | .send (.sendSynchronousRequest _) _ _ | .send (.sendDatagram _) _ _ | .createServer ..
  | .serverWorker _ | .terminateServer _ | .disconnectServer _ => isTrue trivial

/-- Callers that only send, under `E`; `filled` keeps to connection messages as
long as the maximum. -/
def director (E : Environment) (pl : Platform) (filled : Bool) :
    Director Unit Entry (Phase Op) (Phase.Ret Ret Unit) Process Unit where
  begins w _ _ c := match c with
    | .send _ _ n =>
      if pl.sizeofPortMessage + n.toNat ≤ pl.alpcMaxAllowedMessageLength then some w else none
    | _ => none
  answer P i o := if filled = true ∧ ¬ FillsMaximum pl (P.threads i).1 then none else match o with
    | .issue _ => some ()
    | .await o =>
      let w : World := ⟨P.world.state, responses P.world.log⟩
      if E.canAnswer pl w o then some (E.answer w o) else none

theorem director_sound {E : Environment} {filled : Bool} :
    (director E pl filled).Sound (component Unit pl) fun P i o r =>
      filled = true → connectsFilled pl (P.threads i).1 o r where
  begins := by
    intro w i last c w' h
    cases c with
    | send e data n =>
      simp only [director, Option.ite_none_right_eq_some, Option.some.injEq] at h
      exact ⟨h.2.symm, h.1⟩
    | createServer | serverWorker | terminateServer | disconnectServer => cases h
  answer := by
    intro P i o r h
    simp only [director] at h
    split at h
    · cases h
    rename_i hfilled
    have hok : filled = true → FillsMaximum pl (P.threads i).1 := fun hf =>
      not_not.mp fun hno => hfilled ⟨hf, hno⟩
    cases o with
    | issue o => exact ⟨trivial, fun _ => trivial⟩
    | await o =>
      simp only [Option.ite_none_right_eq_some, Option.some.injEq] at h
      obtain ⟨hcan, rfl⟩ := h
      refine ⟨Environment.answer_legal hcan, fun hf => ?_⟩
      cases o with
      | allocate => exact fun _ => hok hf
      | _ => trivial

def oneCaller (n : Nat) : Pool Unit Entry (Phase Op) (Phase.Ret Ret Unit) Process Unit where
  world := ⟨(callerWith n).state, []⟩
  threads _ := (.disconnectServer none, .ret ())

theorem oneCaller_idle (n : Nat) : Idle (oneCaller n) := ⟨rfl, rfl, fun _ => ⟨_, rfl⟩⟩

def connecting (n : UInt16) (filled : Bool) (steps : Nat) :
    Option (Pool Unit Entry (Phase Op) (Phase.Ret Ret Unit) Process Unit) :=
  let E : Environment := { Environment.calm with
    outcome := fun k _ => if k = .connectPort then { message := List.replicate 100 0 } else {} }
  (component Unit .x64).play (director E .x64 filled)
    (.start () (.send (.connectServer "port") callerData n) :: List.replicate steps (.act ()))
    (oneCaller n.toNat)

/-- A connection message with as many bytes as fit, up to the reply of the
peer. -/
theorem capacity_law_connect : ∃ P, (component Unit .x64).Reaches
      (fun P i o r => connectsFilled .x64 (P.threads i).1 o r) (oneCaller 65495) P ∧
    P.world.log.length = 12 ∧ CapacityLaw .x64 P := by
  have hrun : (connecting 65495 true 12).any (fun P => P.world.log.length = 12) := by
    decide +kernel
  obtain ⟨P, hP, hlog⟩ := (Option.any_eq_true _ _).mp hrun
  have hreach := (play_reaches director_sound hP).imp fun _ _ _ _ hok => hok rfl
  exact ⟨P, hreach, by simpa using hlog, capacity_law (oneCaller_idle 65495) hreach⟩

/-- A connection message of three bytes has a block of 43; the peer's 100
bytes do not fit, though `UaConnectServer` allows for 65535. -/
theorem capacity_law_connects_short : ∃ P,
    (component Unit .x64).Reaches anyStep (oneCaller 3) P ∧ ¬ CapacityLaw .x64 P := by
  have hrun : (connecting 3 false 12).any
      (fun P => .kernelOverflow ⟨⟨1, 1⟩, 0⟩ 100 ∈ P.world.state.faults) := by decide +kernel
  obtain ⟨P, hP, hfault⟩ := (Option.any_eq_true _ _).mp hrun
  refine ⟨P, (play_reaches director_sound hP).imp fun _ _ _ _ _ => trivial, fun law => ?_⟩
  exact law.writes _ _ (by simpa using hfault)

end AlpcResearch.Ua
