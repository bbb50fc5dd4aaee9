import AlpcResearch.AdvancedServer.Datagrams
import AlpcResearch.Channel.Records

/-!
# A client's visit

A client of the older library connects, sends one datagram after the other and
disconnects. Whatever comes of its calls, what it hands over to be sent are the
frames of its datagrams, in order, and its data stays where it is.
-/

namespace AlpcResearch.AdvancedServer

open Resource Program Process
open Rpc (isSync kindSent)
open Channel (Parcel HandsOver handedOver offerOf offers offers_cons offers_of_adds)

/-- What a call is given, and the bytes that lie there. -/
structure Payload where
  buffer : PVoid
  length : Int16
  bytes : List UInt8

structure Visit where
  portName : String
  connection : Payload
  datagrams : List Payload

def Visit.payloads (v : Visit) : List Payload := v.connection :: v.datagrams

/-- The results are not looked at. -/
def srvSendAll (pl : Platform) (client : ClientObject) : List Payload → Proc Unit
  | [] => return ()
  | p :: rest => do
    let _ ← srvSendDatagram pl client p.buffer p.length
    srvSendAll pl client rest

def Visit.run (pl : Platform) (v : Visit) : Proc NtStatus := do
  let client ← srvConnectServer pl v.portName v.connection.buffer v.connection.length
  match client with
  | none => return statusUnsuccessful
  | some client =>
    srvSendAll pl client v.datagrams
    srvDisconnectServer client
    return statusSuccess

def Payload.parcel (pl : Platform) (p : Payload) : Parcel := (lpcDatagram, frame pl p.bytes)

def Visit.parcels (pl : Platform) (v : Visit) : List Parcel := v.datagrams.map (Payload.parcel pl)

/-- The bytes are there, zeros with a `NULL` buffer, and with the header they
stay below 2^15. -/
structure Payload.Ready (pl : Platform) (P : Process) (p : Payload) : Prop where
  nonneg : 0 ≤ p.length.toInt
  length : p.bytes.length = p.length.toInt.toNat
  short : pl.sizeofPortMessage + p.bytes.length ≤ 32767
  data : if p.buffer = none then p.bytes = List.replicate p.length.toInt.toNat 0
    else P.Holds p.buffer p.bytes

def Payload.Beside (q : Ref) (p : Payload) : Prop :=
  ∀ r, p.buffer = some r → p.bytes ≠ [] → r.block ≠ q

def OnlyAt (q : Ref) (P P' : Process) : Prop := ∀ b, b ≠ q → P'.heap.get? b = P.heap.get? b

variable {κ : Type} {pl : Platform} {A : Assumption} {visits : κ → Visit} {client : ClientObject}
variable {w v u : World} {P P' : Process} {b q : Ref} {p : Payload} {ps : List Payload}
variable {dataBuffer : PVoid} {n : Int16}

theorem Payload.Ready.of_heap (h : p.Ready pl P)
    (hheap : ∀ r, p.buffer = some r → p.bytes ≠ [] → P'.heap.get? r.block = P.heap.get? r.block) :
    p.Ready pl P' where
  nonneg := h.nonneg
  length := h.length
  short := h.short
  data := by
    have hdata := h.data
    split
    · rename_i hnone
      rwa [if_pos hnone] at hdata
    · rename_i hsome
      rw [if_neg hsome] at hdata
      by_cases hbytes : p.bytes = []
      · exact .inl hbytes
      · exact hdata.mono fun r _ _ hr hget => (hheap r hr hbytes).trans hget

theorem Payload.Ready.onlyAt (h : p.Ready pl P) (hq : p.Beside q) (hP : OnlyAt q P P') :
    p.Ready pl P' :=
  h.of_heap fun r hr hbytes => hP _ (hq r hr hbytes)

theorem Payload.Ready.supplies (h : p.Ready pl P) (hq : p.Beside q) :
    Supplies P q p.buffer p.length p.bytes := ⟨⟨h.length, h.data⟩, hq⟩

/-- A block that is not live holds no bytes. -/
theorem Payload.Ready.beside (h : p.Ready pl P) (hq : P.heap.get? q = none) : p.Beside q := by
  rintro r hr hbytes rfl
  have hdata := h.data
  rw [if_neg (by simp [hr])] at hdata
  rcases hdata with hnil | ⟨r', size, data, hr', hlive, -⟩
  · exact hbytes hnil
  · cases hr.symm.trans hr'
    cases hq.symm.trans hlive

-- ---------------------------------------------------------------------------
-- A datagram
-- ---------------------------------------------------------------------------

theorem offerOf_silent (e : Ev) (h : Silent e) : offerOf e = none := by
  obtain ⟨o, r⟩ := e
  cases o with
  | alpcSendWaitReceivePort a =>
    simp only [Silent, handed] at h
    split at h
    · rename_i hnone
      simp [offerOf, hnone]
    · cases h
  | _ => rfl

def datagramCall (client : ClientObject) : SendWaitReceive where
  portHandle := client.communicationPortHandle
  flags := alpcMsgflgReleaseMessage
  sendMessage := client.portMessage
  receiveMessage := none
  bufferLength := none
  receiveMessageAttributes := none

theorem datagramCall_kind : kindSent (datagramCall client) = lpcDatagram := by
  have hflag : alpcMsgflgReleaseMessage &&& alpcMsgflgSyncRequest = 0 := by decide
  simp [kindSent, isSync, datagramCall, hflag]

theorem srvSendDatagram_eq : srvSendDatagram pl client dataBuffer n =
    initializePortMessage pl client.portMessage dataBuffer n >>= fun _ =>
      .call (.alpcSendWaitReceivePort (datagramCall client)) fun r => .ret (ntSuccess r.status) := by
  rw [srvSendDatagram, srvInitializePortMessage_eq, bind_assoc]
  rfl

/-- One message is handed over at most, and when the call has returned, one. -/
theorem srvSendDatagram_offers (hport : client.portMessage = some ⟨q, 0⟩)
    (hq : HasPortMessage q w) (hp : p.Ready pl w.state) (hbeside : p.Beside q) :
    (srvSendDatagram pl client p.buffer p.length).safe (system pl A)
      (fun u => offers u.log = offers w.log ∨ offers u.log = offers w.log ++ [p.parcel pl])
      (fun _ v => HasPortMessage q v ∧ OnlyAt q w.state v.state ∧
        offers v.log = offers w.log ++ [p.parcel pl]) w := by
  obtain ⟨c, hc⟩ := hq
  have hshort := hp.short
  have hfit : pl.sizeofPortMessage + p.bytes.length ≤ alpcMaxAllowedMessageLength := by
    simp only [alpcMaxAllowedMessageLength]
    omega
  have hsilent : ∀ u, Adds Silent w u → offers u.log = offers w.log := fun u hu =>
    offers_of_adds (hu.mono offerOf_silent)
  have hinit := initializePortMessage_safe (A := A)
    (I := fun u => offers u.log = offers w.log ∨ offers u.log = offers w.log ++ [p.parcel pl])
    hc hfit hp.nonneg (by omega) (hp.supplies hbeside) fun u hu => .inl (hsilent u hu)
  rw [srvSendDatagram_eq, hport]
  refine safe_bind (safe_mono hinit fun _ u hu => ⟨.inl (hsilent u hu.2), fun r hr => ?_⟩)
  obtain ⟨hbuilt, hadds⟩ := hu
  let v := (system pl A).next u (.alpcSendWaitReceivePort (datagramCall client)) r
  have htakes : u.state.Takes client.portMessage r.taken := hr.1.1
  have htaken : r.taken = frame pl p.bytes := by
    rw [hport] at htakes
    exact takes_framed (by omega) hbuilt.block htakes
  have hoffers : offers v.log = offers w.log ++ [p.parcel pl] := by
    have hoffer : offerOf ⟨.alpcSendWaitReceivePort (datagramCall client), r⟩ =
        some (p.parcel pl) := by
      simp only [offerOf, datagramCall_kind, htaken]
      simp [datagramCall, hport, Payload.parcel]
    rw [next_log, offers_cons, hoffer, hsilent u hadds]
    rfl
  have hheap : v.state.heap = u.state.heap := by
    simp [v, system, effect, heapAfter, Process.modify, datagramCall]
  exact ⟨.inr hoffers, ⟨framed pl c p.bytes, hheap ▸ hbuilt.block⟩,
    fun b hb => hheap ▸ hbuilt.other hb, hoffers⟩

-- ---------------------------------------------------------------------------
-- A connected client
-- ---------------------------------------------------------------------------

def AllReady (pl : Platform) (visits : κ → Visit) (P : Process) : Prop :=
  ∀ c, ∀ p ∈ (visits c).payloads, p.Ready pl P

structure Visiting (pl : Platform) (visits : κ → Visit) (b q : Ref) (v : World) : Prop where
  ready : AllReady pl visits v.state
  beside : ∀ c, ∀ p ∈ (visits c).payloads, p.Beside b ∧ p.Beside q
  block : v.state.layoutOf b = some .clientObject
  message : HasPortMessage q v

theorem OnlyAt.trans {P'' : Process} (h : OnlyAt q P P') (h' : OnlyAt q P' P'') : OnlyAt q P P'' :=
  fun b hb => (h' b hb).trans (h b hb)

theorem AllReady.onlyAt (h : AllReady pl visits P) (hq : ∀ c, ∀ p ∈ (visits c).payloads, p.Beside q)
    (hP : OnlyAt q P P') : AllReady pl visits P' :=
  fun c p hp => (h c p hp).onlyAt (hq c p hp) hP

theorem Visiting.distinct (h : Visiting pl visits b q v) : b ≠ q := by
  rintro rfl
  obtain ⟨c, hc⟩ := h.message
  cases h.block.symm.trans (layoutOf_get? hc)

theorem Visiting.onlyAt (h : Visiting pl visits b q v) (hq : HasPortMessage q u)
    (hu : OnlyAt q v.state u.state) : Visiting pl visits b q u where
  ready := h.ready.onlyAt (fun c p hp => (h.beside c p hp).2) hu
  beside := h.beside
  block := by
    have hblock := h.block
    rw [layoutOf, ← hu b h.distinct] at hblock
    exact hblock
  message := hq

/-- What has been handed over is the beginning of the datagrams. -/
theorem srvSendAll_safe {c : κ} (hport : client.portMessage = some ⟨q, 0⟩)
    (hps : ∀ p ∈ ps, p ∈ (visits c).payloads) (h : Visiting pl visits b q w) :
    (srvSendAll pl client ps).safe (system pl A)
      (fun u => ∃ n, offers u.log = offers w.log ++ (ps.map (Payload.parcel pl)).take n)
      (fun _ v => Visiting pl visits b q v ∧
        offers v.log = offers w.log ++ ps.map (Payload.parcel pl)) w := by
  induction ps generalizing w with
  | nil => exact ⟨⟨0, by simp⟩, h, by simp⟩
  | cons p rest ih =>
    obtain ⟨hp, hrest⟩ := List.forall_mem_cons.mp hps
    have hsend := srvSendDatagram_offers (A := A) hport h.message (h.ready c p hp)
      (h.beside c p hp).2
    refine safe_bind (safe_imp hsend ?_ fun _ v _ hv => ?_)
    · rintro u (hu | hu)
      · exact ⟨0, by simp [hu]⟩
      · exact ⟨1, by simp [hu]⟩
    · obtain ⟨hmessage, honly, hoffers⟩ := hv
      refine safe_imp (ih hrest (h.onlyAt hmessage honly)) ?_ ?_
      · rintro u ⟨n, hu⟩
        exact ⟨n + 1, by simp [hu, hoffers]⟩
      · rintro _ u - ⟨hvisiting, hu⟩
        exact ⟨hvisiting, by simp [hu, hoffers]⟩

theorem onlyAt_free {api : HeapApi} {l : Layout} (h : P.layoutOf b = some l) :
    OnlyAt b P (P.effect pl (.free api (some ⟨b, 0⟩)) ()) := by
  intro r hr
  obtain ⟨obj, hobj, -⟩ := layoutOf_some.mp h
  simp only [effect, heapAfter, Table.get?_release hobj, if_neg hr]

/-- The two blocks are released, the message buffer first. -/
theorem Visiting.release {α : Type} (h : Visiting pl visits b q v) (a : α) :
    (do
      free .processHeap (some ⟨q, 0⟩)
      free .processHeap (some ⟨b, 0⟩)
      return a : Proc α).safe (system pl A) (fun u => offers u.log = offers v.log)
      (fun r u => r = a ∧ AllReady pl visits u.state ∧ offers u.log = offers v.log) v := by
  obtain ⟨c, hc⟩ := h.message
  have hmessage : OnlyAt q v.state (v.state.effect pl (.free .processHeap (some ⟨q, 0⟩)) ()) :=
    onlyAt_free (layoutOf_get? hc)
  have hready := h.ready.onlyAt (fun c p hp => (h.beside c p hp).2) hmessage
  have hlive : (v.state.effect pl (.free .processHeap (some ⟨q, 0⟩)) ()).layoutOf b =
      some .clientObject := by
    rw [layoutOf, hmessage b h.distinct]
    exact h.block
  refine ⟨rfl, fun _ _ => ⟨by simp [offers_cons, offerOf], fun _ _ => ?_⟩⟩
  refine ⟨by simp [offers_cons, offerOf], rfl, ?_, by simp [offers_cons, offerOf]⟩
  exact hready.onlyAt (fun c p hp => (h.beside c p hp).1) (onlyAt_free hlive)

theorem srvDisconnectServer_safe (hblock : client.block = some ⟨b, 0⟩)
    (hport : client.portMessage = some ⟨q, 0⟩) (h : Visiting pl visits b q v) :
    (do
      srvDisconnectServer client
      return statusSuccess : Proc NtStatus).safe (system pl A) (fun u => offers u.log = offers v.log)
      (fun status u => AllReady pl visits u.state ∧ offers u.log = offers v.log ∧
        status = statusSuccess) v := by
  refine ⟨rfl, fun r _ => ?_⟩
  let u := (system pl A).next v (.close client.communicationPortHandle) r
  have hoffers : offers u.log = offers v.log := by simp [u, offers_cons, offerOf]
  have hu : Visiting pl visits b q u := h.onlyAt h.message fun _ _ => rfl
  rw [← hoffers]
  have hrelease := hu.release (A := A) statusSuccess
  rw [← hport, ← hblock] at hrelease
  exact safe_imp hrelease (fun _ hv => hv) fun _ _ _ hv => ⟨hv.2.1, hv.2.2, hv.1⟩

-- ---------------------------------------------------------------------------
-- Connecting
-- ---------------------------------------------------------------------------

def Connected (pl : Platform) (visits : κ → Visit) : Option ClientObject → World → Prop
  | none, v => AllReady pl visits v.state
  | some client, v => ∃ b q, client.block = some ⟨b, 0⟩ ∧ client.portMessage = some ⟨q, 0⟩ ∧
    Visiting pl visits b q v

theorem onlyAt_newBlock {obj : Object} (h : NewBlock P P' q obj) : OnlyAt q P P' := by
  intro b hb
  simp [h.heap, hb]

theorem AllReady.beside (h : AllReady pl visits P) (hq : P.heap.get? q = none) (c : κ)
    (p : Payload) (hp : p ∈ (visits c).payloads) : p.Beside q :=
  (h c p hp).beside hq

theorem Visiting.start (h : AllReady pl visits u.state)
    (hbeside : ∀ c, ∀ p ∈ (visits c).payloads, p.Beside b)
    (hblock : u.state.layoutOf b = some .clientObject)
    (hq : NewBlock u.state v.state q (.buffer alpcMaxAllowedMessageLength data)) :
    Visiting pl visits b q v where
  ready := h.onlyAt (h.beside hq.free) (onlyAt_newBlock hq)
  beside c p hp := ⟨hbeside c p hp, h.beside hq.free c p hp⟩
  block := by
    have hne : b ≠ q := by
      rintro rfl
      cases (layoutOf_none.mpr hq.free).symm.trans hblock
    rw [hq.layouts, if_neg hne, hblock]
  message := ⟨data, hq.block⟩

/-- The kernel writes into the message buffer only. -/
theorem Visiting.connect {a : ConnectPort} {r : ConnectReply} (h : Visiting pl visits b q v)
    (ha : a.connectionMessage = some ⟨q, 0⟩) :
    Visiting pl visits b q ((system pl A).next v (.alpcConnectPort a) r) := by
  obtain ⟨c, hc⟩ := h.message
  let u := (system pl A).next v (.alpcConnectPort a) r
  have hheap : ∀ r', u.state.heap.get? r' = if r' = q then
      some (.buffer alpcMaxAllowedMessageLength (c.write 0 r.written))
      else v.state.heap.get? r' := by
    intro r'
    simp only [u, next_state, system, effect, heapAfter, ha, Process.modify, offsetOf,
      Table.get?_modify hc]
    rfl
  exact h.onlyAt ⟨_, (hheap q).trans (if_pos rfl)⟩ fun r' hr => (hheap r').trans (if_neg hr)

theorem srvConnectServer_safe {c : κ} (name : String) (h : AllReady pl visits w.state)
    (hp : p ∈ (visits c).payloads) :
    (srvConnectServer pl name p.buffer p.length).safe (system pl A)
      (fun u => offers u.log = offers w.log)
      (fun r v => Connected pl visits r v ∧ offers v.log = offers w.log) w := by
  refine ⟨rfl, fun r₁ hr₁ => ?_⟩
  let w₁ := (system pl A).next w (.allocate .processHeap .clientObject) r₁
  have o₁ : offers w₁.log = offers w.log := by simp [w₁, offers_cons, offerOf]
  change Prog.safe _ _ (if r₁.pointer = none then _ else _) _ _
  cases hp₁ : r₁.pointer with
  | none =>
    refine ⟨o₁, fun c p hp => (h c p hp).of_heap fun _ _ _ => ?_, o₁⟩
    simp [system, effect, heapAfter, hp₁]
  | some p₁ =>
  obtain ⟨b, rfl, hb⟩ : ∃ b, p₁ = ⟨b, 0⟩ ∧ NewBlock w.state w₁.state b r₁.residue :=
    newBlock_allocate hr₁.1 hp₁
  have hbeside := h.beside hb.free
  have h₁ : AllReady pl visits w₁.state := h.onlyAt hbeside (onlyAt_newBlock hb)
  have hblock : w₁.state.layoutOf b = some .clientObject := by
    rw [hb.layouts, if_pos rfl, hr₁.1.1]
  simp only [reduceCtorEq, if_false]
  refine ⟨o₁, fun r₂ hr₂ => ?_⟩
  let w₂ := (system pl A).next w₁ (.allocate .processHeap (.buffer alpcMaxAllowedMessageLength)) r₂
  have o₂ : offers w₂.log = offers w.log := by simp [w₂, offers_cons, offerOf, o₁]
  change Prog.safe _ _ (if r₂.pointer = none then _ else _) _ _
  cases hp₂ : r₂.pointer with
  | none =>
    have hheap : w₂.state.heap = w₁.state.heap := by simp [w₂, system, effect, heapAfter, hp₂]
    have hlive : w₂.state.layoutOf b = some .clientObject := by
      rw [layoutOf, hheap]
      exact hblock
    have h₂ : AllReady pl visits w₂.state := fun c p hp =>
      (h₁ c p hp).of_heap fun _ _ _ => by rw [hheap]
    have o₃ : offers ((system pl A).next w₂ (.free .processHeap (some ⟨b, 0⟩)) ()).log =
        offers w.log := by simp [offers_cons, offerOf, o₂]
    refine ⟨o₂, fun _ _ => ⟨o₃, ?_, o₃⟩⟩
    exact h₂.onlyAt hbeside (onlyAt_free hlive)
  | some p₂ =>
  obtain ⟨q, rfl, hq⟩ : ∃ q, p₂ = ⟨q, 0⟩ ∧ NewBlock w₁.state w₂.state q r₂.residue :=
    newBlock_allocate hr₂.1 hp₂
  obtain ⟨data, hdata⟩ := layout_buffer hr₂.1.1
  rw [hdata] at hq
  have h₂ : Visiting pl visits b q w₂ := .start h₁ hbeside hblock hq
  have hready := h₂.ready c p hp
  have hshort := hready.short
  have hfit : pl.sizeofPortMessage + p.bytes.length ≤ alpcMaxAllowedMessageLength := by
    simp only [alpcMaxAllowedMessageLength]
    omega
  have hinit := initializePortMessage_safe (A := A) (I := fun u => offers u.log = offers w.log)
    hq.block hfit hready.nonneg (by omega)
    (hready.supplies (h₂.beside c p hp).2)
    fun u hu => (offers_of_adds (hu.mono offerOf_silent)).trans o₂
  simp only [reduceCtorEq, if_false]
  rw [srvInitializePortMessage_eq, Program.bind_assoc]
  refine safe_bind (safe_mono hinit fun _ u hu => ?_)
  obtain ⟨hbuilt, hadds⟩ := hu
  have o₃ : offers u.log = offers w.log := (offers_of_adds (hadds.mono offerOf_silent)).trans o₂
  have h₃ : Visiting pl visits b q u := h₂.onlyAt ⟨_, hbuilt.block⟩ fun _ hr => hbuilt.other hr
  refine ⟨o₃, fun reply _ => ?_⟩
  let u₁ := (system pl A).next u (.alpcConnectPort _) reply
  have h₄ : Visiting pl visits b q u₁ := h₃.connect rfl
  have o₄ : offers u₁.log = offers w.log := by simp [u₁, offers_cons, offerOf, o₃]
  refine safe_ifFailed (fun hs => ?_) fun _ => ?_
  · exact ⟨o₄, ⟨b, q, rfl, rfl, h₄⟩, o₄⟩
  · refine safe_imp (h₄.release none) (fun _ hu => hu.trans o₄) ?_
    rintro _ v - ⟨rfl, hready, hoffers⟩
    exact ⟨hready, hoffers.trans o₄⟩

-- ---------------------------------------------------------------------------
-- A whole visit
-- ---------------------------------------------------------------------------

abbrev scripts (pl : Platform) (visits : κ → Visit) (c : κ) : List Parcel := (visits c).parcels pl

/-- A visit hands over its datagrams, in order, and when it ends all of them or,
if it has not connected, none. -/
theorem Visit.run_hands :
    HandsOver pl (scripts pl visits) (fun v => AllReady pl visits v.state)
      fun c => (visits c).run pl := by
  intro c w h
  have hconnect := srvConnectServer_safe (A := anyKernel) (c := c) (p := (visits c).connection)
    (visits c).portName h List.mem_cons_self
  refine safe_bind (safe_imp hconnect (fun u hu => ⟨0, by simp [hu]⟩) fun r v _ hv => ?_)
  obtain ⟨hconnected, hv⟩ := hv
  cases r with
  | none =>
    have hfailed : handedOver (scripts pl visits) c statusUnsuccessful = [] := if_neg (by decide)
    exact ⟨⟨0, by simp [hv]⟩, hconnected, by simp [hv, hfailed]⟩
  | some client =>
    obtain ⟨b, q, hblock, hport, hvisiting⟩ := hconnected
    have hall := srvSendAll_safe (A := anyKernel) (c := c) hport
      (fun p hp => List.mem_cons_of_mem _ hp) hvisiting
    rw [hv] at hall
    refine safe_bind (safe_imp hall (fun _ hu => hu) fun _ u hu hsent => ?_)
    obtain ⟨hvisiting, hoffers⟩ := hsent
    refine safe_imp (srvDisconnectServer_safe hblock hport hvisiting) ?_ ?_
    · intro x hx
      rwa [hx]
    · rintro status x - ⟨hready, hx, rfl⟩
      have hsucceeded : handedOver (scripts pl visits) c statusSuccess = (visits c).parcels pl :=
        if_pos (by decide)
      exact ⟨hready, hx.trans (hoffers.trans (by rw [hsucceeded]; rfl))⟩

end AlpcResearch.AdvancedServer
