import AlpcResearch.AdvancedServer.Service
import AlpcResearch.Runtime.Creation
import AlpcResearch.Sessions.Rounds
import AlpcResearch.Ua.Service

/-!
# The sessions of the older library

Its worker releases the context of a client it turns down, so the contexts are
those of the connections throughout. But what a handler returns is what its
last call for the client returned: where a reply or a reject fails, the loop is
left for everybody.
-/

namespace AlpcResearch.AdvancedServer

open Resource Program Process
open Server (kernel)
open Ua (SessionLedger)

variable {pl : Platform} {A : Assumption} {server : ServerObject} {w₀ w v u : World}
variable {msg : List UInt8} {ctx : PVoid} {status : NtStatus}

/-- No reply and no reject that failed. -/
def Granted : Ev → Prop
  | ⟨.alpcSendWaitReceivePort a, r⟩ => a.sendMessage = none ∨ ntSuccess r.status = true
  | ⟨.alpcAcceptConnectPort a, r⟩ => a.acceptConnection = true ∨ ntSuccess r.status = true
  | _ => True

/-- The status says whether a call made for a client has failed. -/
def Settled (w : World) (status : NtStatus) (v : World) : Prop :=
  ntSuccess status = true ↔ Adds Granted w v

def Outgoing (o : Op) : Prop := ∀ a, o = .alpcSendWaitReceivePort a → a.sendMessage ≠ none

def Harmless : Op → Prop
  | .alpcSendWaitReceivePort _ | .alpcAcceptConnectPort _ => False
  | _ => True

theorem granted_of_harmless (e : Ev) (h : Harmless e.op) : Granted e := by
  obtain ⟨o, r⟩ := e
  cases o with
  | alpcSendWaitReceivePort | alpcAcceptConnectPort => exact h.elim
  | _ => trivial

theorem Settled.of_success (hs : ntSuccess status = true) (h : Adds Granted w v) :
    Settled w status v :=
  ⟨fun _ => h, fun _ => hs⟩

-- ---------------------------------------------------------------------------
-- Requests and datagrams
-- ---------------------------------------------------------------------------

theorem type_inside (server : ServerObject) :
    PortMessage.offType + 2 ≤ (endpoint server).capacity := by
  simp [endpoint, PortMessage.offType, alpcMaxAllowedMessageLength]

theorem dataLength_inside (server : ServerObject) :
    PortMessage.offDataLength + 2 ≤ (endpoint server).capacity := by
  simp [endpoint, PortMessage.offDataLength, alpcMaxAllowedMessageLength]

theorem clientId_inside (pl : Platform) (server : ServerObject) :
    PortMessage.offClientId + sizeofClientId pl ≤ (endpoint server).capacity := by
  have hheader : PortMessage.offClientId + sizeofClientId pl ≤ pl.sizeofPortMessage :=
    clientId_in_header
  refine hheader.trans ?_
  cases pl <;> simp [endpoint, alpcMaxAllowedMessageLength, Platform.sizeofPortMessage]

/-- The reply decides. -/
theorem srvAlpcRequest_settles (h : Serving (endpoint server) w.state) :
    (srvAlpcRequest server).safe (system pl A) (fun v => v.state.faults = w.state.faults)
      (fun status v => Quiet pl w v ∧ Settled w status v) w := by
  refine ⟨rfl, fun r _ => ?_⟩
  have hq : Quiet pl w ((system pl A).next w (.alpcSendWaitReceivePort (endpoint server).reply) r) :=
    (Quiet.refl w).same (effect_reply h r) fun L => by
      simp [Ledger.add, Ledger.isReceive, Endpoint.reply]
  refine ⟨hq.1.faults, hq, ?_⟩
  have hsent : server.portMessage ≠ none := h.message_ne
  rw [Settled, adds_next (List.suffix_refl _)]
  simp [Granted, hsent, Adds.refl]

theorem srvAlpcDatagram_uses : (srvAlpcDatagram pl server).Uses Harmless := by
  refine ⟨trivial, fun r => ?_⟩
  change Prog.Uses _ (if r = none then _ else _)
  split
  · trivial
  refine ⟨trivial, fun _ => ⟨trivial, fun _ => ⟨trivial, fun bs => ?_⟩⟩⟩
  simp only [Prog.ret_bind]
  split
  · exact ⟨trivial, fun _ => trivial⟩
  · trivial

theorem srvAlpcDatagram_settles (hA : ∀ w o r, A w o r → sessionKernel pl anyDisconnect w o r)
    (h : Serving (endpoint server) w.state) :
    (srvAlpcDatagram pl server).safe (system pl A) (fun v => v.state.faults = w.state.faults)
      (fun status v => Quiet pl w v ∧ Settled w status v) w := by
  have hquiet : (srvAlpcDatagram pl server).safe (system pl A)
      (fun v => v.state.faults = w.state.faults)
      (fun status v => status = statusSuccess ∧ Quiet pl w v) w := by
    refine ⟨rfl, fun r hr => ?_⟩
    obtain ⟨p, b, rfl, hb, hblock⟩ := getMessageAttribute_found hA h.allocated hr
    have q₁ := (Quiet.refl w).same (A := A)
      (effect_getMessageAttribute pl alpcMessageContextAttribute h (some p)) fun _ => rfl
    refine ⟨q₁.1.faults, fun bs _ => ?_⟩
    have q₂ := q₁.same (A := A) (effect_load pl (q₁.serving h) (dataLength_inside server) bs)
      fun _ => rfl
    refine ⟨q₂.1.faults, fun c _ => ?_⟩
    have q₃ := q₂.same (A := A) (o := .onDatagramBuffer server.onDatagram
      (messageBody pl server.portMessage) (UInt16.ofNat (leNat bs)).toInt16) (r := c) rfl
      fun _ => rfl
    refine ⟨q₃.1.faults, fun bs' _ => ?_⟩
    have q₄ := q₃.same (A := A) (effect_load pl (q₃.serving h) (type_inside server) bs') fun _ => rfl
    change Prog.safe _ _ (if UInt16.ofNat (leNat bs') &&& lpcContinuationRequired ≠ 0 then _ else _)
      _ _
    split
    · refine ⟨q₄.1.faults, fun rc _ => ?_⟩
      have q₅ := q₄.same (A := A) (effect_cancel (q₄.serving h) hb hblock rc) fun _ => rfl
      exact ⟨q₅.1.faults, rfl, q₅⟩
    · exact ⟨q₄.1.faults, rfl, q₄⟩
  refine safe_mono (safe_and hquiet fun _ _ he =>
    Adds.of_uses srvAlpcDatagram_uses granted_of_harmless he) ?_
  rintro status v ⟨⟨rfl, hq⟩, hadds⟩
  exact ⟨hq, .of_success rfl hadds⟩

-- ---------------------------------------------------------------------------
-- Connections
-- ---------------------------------------------------------------------------

theorem srvReject_same (h : Serving (endpoint server) P) {r : AcceptReply}
    (hr : P.Legal pl (.alpcAcceptConnectPort (srvReject server)) r) :
    P.effect pl (.alpcAcceptConnectPort (srvReject server)) r = P :=
  effect_reject h rfl rfl (by rintro _ ⟨⟩) hr

theorem srvReject_settles (h : Serving (endpoint server) w.state) (hq : Quiet pl w v)
    (ha : Adds Granted w v) :
    (alpcAcceptConnectPort (srvReject server)).safe (system pl A)
      (fun u => u.state.faults = w.state.faults)
      (fun status u => Answered pl w u ∧ Settled w status u) v := by
  refine ⟨hq.1.faults, fun r hr => ?_⟩
  have hk := hq.1.of_eq (srvReject_same (hq.serving h) hr.1)
  refine ⟨hk.faults, .inr ⟨hk, congrArg Ledger.reject hq.2⟩, ?_⟩
  rw [Settled, adds_next ha.suffix]
  simp [Granted, srvReject, ha]

theorem srvAlpcConnect_settles (h : Serving (endpoint server) w.state)
    (hm : Shows (endpoint server) (ledger pl w.log).message w.state)
    (hlen : pl.sizeofPortMessage ≤ (ledger pl w.log).message.length) :
    (srvAlpcConnect pl server).safe (system pl A) (fun v => v.state.faults = w.state.faults)
      (fun status v => Answered pl w v ∧ Settled w status v) w := by
  refine ⟨rfl, fun bs _ => ?_⟩
  have e₁ := effect_load pl h (dataLength_inside server) bs
  refine ⟨congrArg _ e₁, fun answer _ => ?_⟩
  let w₂ := (system pl A).next ((system pl A).next w (.load server.portMessage _ _) bs)
    (.onConnectBuffer server.onConnect (messageBody pl server.portMessage)
      (UInt16.ofNat (leNat bs)).toInt16) answer
  have e₂ : w₂.state = w.state := e₁
  have q₂ : Quiet pl w w₂ := ⟨(Keeps.refl _).of_eq e₂, rfl⟩
  have a₂ : Adds Granted w w₂ := 
    ((Adds.refl w).next (S := system pl A) (o := .load server.portMessage _ _) (r := bs) trivial).next
      trivial
  change Prog.safe _ _ (if answer.accept = true then _ else _) _ w₂
  split
  swap
  · exact srvReject_settles h q₂ a₂
  refine ⟨q₂.1.faults, fun ra hra => ?_⟩
  change Prog.safe _ _ (if ra.pointer ≠ none then _ else _) _ _
  cases hp : ra.pointer with
  | none =>
    have q₃ : Quiet pl w ((system pl A).next w₂ (.allocate .processHeap .portContext) ra) :=
      q₂.same (effect_eq_self (by simp [heapAfter, hp]) rfl rfl) fun _ => rfl
    simp only [ne_eq, not_true_eq_false, if_false]
    exact srvReject_settles h q₃ (a₂.next trivial)
  | some p =>
    simp only [ne_eq, reduceCtorEq, not_false_eq_true, if_true]
    obtain ⟨q, c, rfl, p₃⟩ : ∃ q c, p = ⟨q, 0⟩ ∧ Pending w₂.state
        ((system pl A).next w₂ (.allocate .processHeap .portContext) ra).state q c :=
      pending_allocate hra.1 hp
    rw [e₂] at p₃
    refine ⟨p₃.faults, fun bs hbs => ?_⟩
    have hcid : ClientId.ofBytes pl bs = (headerOf pl (ledger pl w.log).message).clientId :=
      congrArg _ ((hm.pending p₃).load hbs.1 (clientId_in_header.trans hlen))
    have p₄ := p₃.of_eq (effect_load pl (h.pending p₃) (clientId_inside pl server) bs)
    refine ⟨p₄.faults, fun _ _ => ?_⟩
    have p₅ := Pending.setClientId pl p₄ (ClientId.ofBytes pl bs)
    refine ⟨p₅.faults, fun rc hrc => ?_⟩
    have a₅ := ((a₂.next (S := system pl A) (o := .allocate .processHeap .portContext) (r := ra)
      trivial).next (S := system pl A) (o := .load server.portMessage _ _) (r := bs) trivial).next
      (S := system pl A) (o := .setClientId (some ⟨q, 0⟩) (ClientId.ofBytes pl bs)) (r := ()) trivial
    refine safe_ifFailed (fun hs => ?_) fun hs => ?_
    · obtain ⟨x, hx, hg⟩ := Pending.accept p₅ h rfl rfl rfl hrc.1 hs
      refine ⟨hg.faults, .inl ⟨q, x, hcid ▸ hg, ?_⟩, .of_success hs (a₅.next (.inl rfl))⟩
      simp [w₂, ledger, Ledger.add, hs, hx]
    · have p₆ := p₅.of_eq (Pending.accept_failed p₅ h rfl rfl rfl hrc.1 hs)
      refine ⟨p₆.faults, fun rj hrj => ?_⟩
      have p₇ := p₆.of_eq (srvReject_same (h.pending p₆) hrj.1)
      refine ⟨p₇.faults, fun _ _ => ?_⟩
      have hk := Pending.free pl .processHeap p₇
      refine ⟨hk.faults, .inr ⟨hk, ?_⟩, ?_⟩
      · simp [w₂, ledger, Ledger.add, hs, srvReject]
      · have a₆ := a₅.next (S := system pl A) (o := .alpcAcceptConnectPort _) (r := rc) (Or.inl rfl)
        rw [Settled, adds_next (a₆.suffix.trans (List.suffix_cons _ _)), adds_next a₆.suffix]
        simp [Granted, srvReject, a₆]

-- ---------------------------------------------------------------------------
-- Disconnections
-- ---------------------------------------------------------------------------

theorem srvAlpcDisconnect_eq : srvAlpcDisconnect server =
    withMessageContext server.messageAttributes (closeContext .processHeap) := rfl

theorem srvAlpcDisconnect_uses : (srvAlpcDisconnect server).Uses Harmless := by
  refine (srvAlpcDisconnect_eq ▸ disconnect_uses).mono fun o h => ?_
  cases o with
  | alpcSendWaitReceivePort | alpcAcceptConnectPort => exact h
  | _ => trivial

theorem srvAlpcDisconnect_settles (hA : ∀ w o r, A w o r → kernel pl w o r)
    (h : Between pl (endpoint server) w₀ w) (hr : Received pl (endpoint server) msg ctx w v)
    (hk : isDisconnect (kindOf pl msg) = true) (hctx : ctx ∈ (ledger pl w.log).contexts)
    (honce : ctx ∉ (ledger pl w.log).disconnected) :
    (srvAlpcDisconnect server).safe (system pl A) (fun u => u.state.faults = w₀.state.faults)
      (fun status u => Between pl (endpoint server) w₀ u ∧ Settled v status u) v := by
  have hfaults : v.state.faults = w₀.state.faults := hr.keeps.faults.trans h.faults
  obtain ⟨s, hopen, rfl, q, x, hat, hq, hx⟩ := (h.consistent.keeps hr.keeps).named hctx honce
  rw [srvAlpcDisconnect_eq]
  refine safe_imp (safe_and (disconnect_safe (fun _ _ _ h => once_any (hA _ _ _ h).1)
    (h.consistent.serving.keeps hr.keeps) (hat.context ▸ hr.carries) hq hx) fun _ _ he =>
      Adds.of_uses srvAlpcDisconnect_uses granted_of_harmless he)
    (fun u hu => hu.trans hfaults) ?_
  rintro status u - ⟨ht, hadds⟩
  have hclosed := ht.closed fun _ _ _ h => (hA _ _ _ h).2
  exact ⟨h.disconnected hr hk hopen rfl hat ht hclosed, .of_success hclosed hadds⟩

-- ---------------------------------------------------------------------------
-- A round of the worker
-- ---------------------------------------------------------------------------

theorem srvDispatch_settles (hA : ∀ w o r, A w o r → kernel pl w o r)
    (h : Between pl (endpoint server) w₀ w) (hr : Received pl (endpoint server) msg ctx w v)
    (hknown : isDisconnect (kindOf pl msg) = true →
      ctx ∈ (ledger pl w.log).contexts ∧ ctx ∉ (ledger pl w.log).disconnected) :
    (srvDispatch pl server (kindOf pl msg)).safe (system pl A)
      (fun u => u.state.faults = w₀.state.faults)
      (fun status u => Between pl (endpoint server) w₀ u ∧ Settled v status u) v := by
  have hserving := h.consistent.serving.keeps hr.keeps
  have hfaults : v.state.faults = w₀.state.faults := hr.keeps.faults.trans h.faults
  have hany : ∀ w o r, A w o r → sessionKernel pl anyDisconnect w o r := fun _ _ _ h =>
    once_any (hA _ _ _ h).1
  refine safe_dispatch (fun he => ?_) (fun he => ?_) (fun hk => ?_) (fun he => ?_)
    fun _ _ hk he => ?_
  · refine safe_imp (srvAlpcRequest_settles hserving) (fun u hu => hu.trans hfaults) ?_
    rintro status u - ⟨hq, hs⟩
    exact ⟨h.quiet hr (by rw [he]; decide) (by rw [he]; decide) hq, hs⟩
  · refine safe_imp (srvAlpcDatagram_settles hany hserving) (fun u hu => hu.trans hfaults) ?_
    rintro status u - ⟨hq, hs⟩
    exact ⟨h.quiet hr (by rw [he]; decide) (by rw [he]; decide) hq, hs⟩
  · exact srvAlpcDisconnect_settles hA h hr hk (hknown hk).1 (hknown hk).2
  · have hmessage : (ledger pl v.log).message = msg := by rw [hr.ledger]; rfl
    refine safe_imp (srvAlpcConnect_settles hserving (hmessage ▸ hr.shows_)
      (hmessage ▸ hr.length)) (fun u hu => hu.trans hfaults) ?_
    rintro status u - ⟨ha, hs⟩
    exact ⟨h.answers hr he ha, hs⟩
  · exact ⟨hfaults, h.quiet hr hk he (.refl v), .of_success rfl (.refl v)⟩

theorem outgoing_of_harmless (o : Op) (h : Harmless o) : Outgoing o := by
  rintro a rfl
  exact h.elim

theorem outgoing_of_answersConnect (o : Op) (h : AnswersConnect o) : Outgoing o := by
  rintro a rfl
  exact h.elim

/-- The callback comes first, with the length read from the message. -/
theorem srvAlpcConnect_uses : ∃ k : List UInt8 → Answer → Proc NtStatus,
    srvAlpcConnect pl server =
      .call (.load server.portMessage PortMessage.offDataLength 2) (fun bs =>
        .call (.onConnectBuffer server.onConnect (messageBody pl server.portMessage)
          (UInt16.ofNat (leNat bs)).toInt16) (k bs)) ∧
      ∀ bs answer, (k bs answer).Uses AnswersConnect := by
  refine ⟨_, rfl, fun _ answer => ?_⟩
  simp only [Prog.ret_bind]
  split
  swap
  · exact ⟨trivial, fun _ => trivial⟩
  refine ⟨trivial, fun r => ?_⟩
  simp only [Prog.ret_bind]
  split
  swap
  · exact ⟨trivial, fun _ => trivial⟩
  refine ⟨trivial, fun _ => ⟨trivial, fun _ => ⟨trivial, fun reply => ?_⟩⟩⟩
  simp only [Prog.ret_bind]
  split
  · exact ⟨trivial, fun _ => ⟨trivial, fun _ => trivial⟩⟩
  · trivial

theorem srvDispatch_uses (hm : server.portMessage ≠ none) (kind : UInt8) :
    (srvDispatch pl server kind).Uses Outgoing := by
  unfold srvDispatch
  split
  · refine ⟨?_, fun _ => trivial⟩
    rintro _ ⟨⟩
    exact hm
  split
  · exact srvAlpcDatagram_uses.mono outgoing_of_harmless
  split
  · exact srvAlpcDisconnect_uses.mono outgoing_of_harmless
  split
  · exact srvAlpcDisconnect_uses.mono outgoing_of_harmless
  split
  · obtain ⟨k, hconnect, hanswers⟩ := srvAlpcConnect_uses
    rw [hconnect]
    exact ⟨by rintro _ ⟨⟩, fun _ => ⟨by rintro _ ⟨⟩, fun answer =>
      (hanswers _ answer).mono outgoing_of_answersConnect⟩⟩
  · trivial

def ReceiveFailed (server : ServerObject) (status : NtStatus) (w : World) : Prop :=
  ∃ r rest, w.log = ⟨.alpcSendWaitReceivePort (srvReceive server), r⟩ :: rest ∧
    status = r.status ∧ ntSuccess status = false

/-- Between two rounds: nobody has been refused. -/
structure InService (pl : Platform) (server : ServerObject) (w₀ w : World) : Prop
    extends Between pl (endpoint server) w₀ w where
  granted : Adds Granted w₀ w

structure LeftBy (pl : Platform) (server : ServerObject) (w₀ : World) (status : NtStatus)
    (w : World) : Prop extends Between pl (endpoint server) w₀ w where
  failed : ntSuccess status = false
  suffix : w₀.log <:+ w.log
  cause : ReceiveFailed server status w ↔ Adds Granted w₀ w

theorem leaveUnless_safe (h : Between pl (endpoint server) w₀ u) (hs : Settled v status u)
    (hv : Adds Granted w₀ v) (hout : Adds (fun e => Outgoing e.op) v u) :
    (if !ntSuccess status then pure (.leave status) else pure .again :
      Proc (Control NtStatus)).safe (system pl A) (fun u => u.state.faults = w₀.state.faults)
      (After (InService pl server w₀) (LeftBy pl server w₀)) u := by
  refine safe_ifFailed (fun hsuccess => ?_) fun hfailed => ?_
  · exact ⟨h.faults, h, hv.trans (hs.mp hsuccess)⟩
  have hnot : ¬ Adds Granted w₀ u := fun hadds =>
    hfailed (hs.mpr ((adds_trans hv.suffix hout.suffix).mp hadds).2)
  refine ⟨h.faults, h, by simpa using hfailed, hv.suffix.trans hout.suffix, ?_⟩
  refine ⟨?_, fun hadds => absurd hadds hnot⟩
  rintro ⟨r, rest, hlog, -, -⟩
  obtain ⟨new, hnew, hgood⟩ := hout
  cases new with
  | nil => exact absurd (hs.mpr ⟨[], hnew, by simp⟩) hfailed
  | cons e new =>
    obtain ⟨rfl, -⟩ := List.cons.inj (hnew.symm.trans hlog)
    exact absurd rfl (hgood _ List.mem_cons_self _ rfl)

theorem srvServerWorker_settles (hA : ∀ w o r, A w o r → kernel pl w o r)
    (h : InService pl server w₀ w) :
    (srvServerWorker pl server).safe (system pl A) (fun u => u.state.faults = w₀.state.faults)
      (After (InService pl server w₀) (LeftBy pl server w₀)) w := by
  have hserving := h.consistent.serving
  refine ⟨h.faults, fun r hr => ?_⟩
  have hreceive : Granted ⟨.alpcSendWaitReceivePort (srvReceive server), r⟩ := .inl rfl
  refine safe_ifFailed (fun hs => ?_) fun hs => ?_
  · have hrec := received (A := A) hserving hr.1 hs
    refine safe_bind ⟨hrec.keeps.faults.trans h.faults, fun bs hbs => ?_⟩
    have hkind := hrec.kind hbs.1
    have e₁ := effect_load pl (hserving.keeps hrec.keeps) (type_inside server) bs
    have hrec := hrec.of_state (A := A) (o := .load server.portMessage _ _) e₁ fun _ => rfl
    have hgranted := (h.granted.next (S := system pl A) hreceive).next (S := system pl A)
      (o := .load server.portMessage PortMessage.offType 2) (r := bs) trivial
    change Prog.safe _ _ (srvDispatch pl server (lobyte (UInt16.ofNat (leNat bs)))) _ _
    rw [hkind]
    refine safe_imp (safe_and (srvDispatch_settles hA h.toBetween hrec fun hk => ?_)
      fun _ _ he => Adds.of_uses (srvDispatch_uses hserving.message_ne _) (fun _ ho => ho) he) (fun _ hu => hu) ?_
    · have hisReceive : Ledger.isReceive (srvReceive server) = true := Endpoint.receives hserving
      have hknown := (hA _ _ _ hr.2).1 (by simp [hs, hk, hisReceive])
      exact ⟨hknown.1, by simpa [oncePerConnection] using hknown.2⟩
    · rintro status u - ⟨⟨hbetween, hsettled⟩, hout⟩
      exact leaveUnless_safe hbetween hsettled hgranted hout
  · have hq : Quiet pl w ((system pl A).next w
        (.alpcSendWaitReceivePort (srvReceive server)) r) := receive_failed hserving hr.1 hs
    have hadds := h.granted.next (S := system pl A) hreceive
    refine ⟨hq.1.faults.trans h.faults, h.toBetween.still hq, by simpa using hs, hadds.suffix, ?_⟩
    exact ⟨fun _ => hadds, fun _ => ⟨r, w.log, rfl, rfl, by simpa using hs⟩⟩

-- ---------------------------------------------------------------------------
-- Runs
-- ---------------------------------------------------------------------------

def Started (pl : Platform) (A : Assumption) (server : ServerObject) (w₀ : World) : Prop :=
  ∃ P portName f k,
    Ends (system pl A) (srvCreateServer portName f k) ⟨P, []⟩ (some server) w₀

theorem Started.inService (h : Started pl A server w₀) : InService pl server w₀ w₀ := by
  obtain ⟨P, portName, f, k, hends⟩ := h
  have hcreated := createServer_created hends
  exact ⟨.start hcreated.serving hcreated.ledger, .refl w₀⟩

theorem newEvents_granted (h : w₀.log <:+ w.log) :
    (∀ e ∈ newEvents w₀ w, Granted e) ↔ Adds Granted w₀ w := by
  obtain ⟨new, hnew⟩ := h
  rw [newEvents_eq hnew.symm]
  refine ⟨fun hall => ⟨new, hnew.symm, hall⟩, ?_⟩
  rintro ⟨new', hlog, hall⟩
  obtain rfl := List.append_cancel_right (hnew.trans hlog)
  exact hall

/-- At every receive the process has the contexts and the handles of the
connections, and nobody has been refused; no operation is a fault. However the
loop is left, the former still holds; it is left on a receive that failed
exactly if nobody has been refused. -/
theorem older_library_sessions (hA : ∀ w o r, A w o r → kernel pl w o r)
    (hs : Started pl A server w₀) :
    (∀ w, Head (system pl A) (srvServerWorker pl server) w₀ w →
        SessionLedger pl w₀ w ∧ ∀ e ∈ newEvents w₀ w, Granted e) ∧
      (∀ w, Program.Passes (system pl A) (srvServerWorker pl server) w₀ w →
        w.state.faults = w₀.state.faults) ∧
      ∀ status w, Left (system pl A) (srvServerWorker pl server) w₀ status w →
        SessionLedger pl w₀ w ∧ ntSuccess status = false ∧
          (ReceiveFailed server status w ↔ ∀ e ∈ newEvents w₀ w, Granted e) := by
  refine ⟨fun w h => ?_, fun w h => ?_, fun status w h => ?_⟩
  · have hw : InService pl server w₀ w :=
      h.induct hs.inService fun _ hv => srvServerWorker_settles hA hv
    exact ⟨.of_framed hw.toInOrder hw.framed, (newEvents_granted hw.granted.suffix).mpr hw.granted⟩
  · exact h.induct hs.inService fun _ hv => srvServerWorker_settles hA hv
  · have hw : LeftBy pl server w₀ status w :=
      h.induct hs.inService fun _ hv => srvServerWorker_settles hA hv
    exact ⟨.of_framed hw.toInOrder hw.framed, hw.failed,
      hw.cause.trans (newEvents_granted hw.suffix).symm⟩

def serveUntil (E : Environment) (n : Nat) : Option (ServerObject × World × World × World × NtStatus) :=
  let S := system .x64 (kernel .x64)
  let O := E.oracle .x64 (kernel .x64)
  match (srvCreateServer "port" 1 2).replay S O ⟨.empty, []⟩ with
  | some (some server, w₀) =>
    (rounds S O (srvServerWorker .x64 server) n w₀).bind fun w =>
      match (srvServerWorker .x64 server).replay S O w with
      | some (.leave status, v) => some (server, w₀, w, v, status)
      | _ => none
  | _ => none

theorem serveUntil_left (h : serveUntil E n = some (server, w₀, w, v, status)) :
    Started .x64 (kernel .x64) server w₀ ∧
      Head (system .x64 (kernel .x64)) (srvServerWorker .x64 server) w₀ w ∧
      Left (system .x64 (kernel .x64)) (srvServerWorker .x64 server) w₀ status v := by
  have hsound : (E.oracle .x64 (kernel .x64)).Sound (system .x64 (kernel .x64)) :=
    Environment.oracle_sound (kernel .x64)
  simp only [serveUntil] at h
  split at h
  · rename_i server' w₀' hcreate
    obtain ⟨u, hu, h⟩ := Option.bind_eq_some_iff.mp h
    split at h
    · rename_i status' v' hleave
      cases h
      have hhead := rounds_head hsound hu
      exact ⟨⟨_, _, _, _, replay_ends hsound hcreate⟩, hhead, _, hhead, replay_ends hsound hleave⟩
    · cases h
  · cases h

def isFailedReply : Ev → Bool
  | ⟨.alpcSendWaitReceivePort a, r⟩ => a.sendMessage.isSome && !ntSuccess r.status
  | _ => false

theorem not_granted_of_failedReply {e : Ev} (h : isFailedReply e = true) : ¬ Granted e := by
  obtain ⟨o, r⟩ := e
  cases o with
  | alpcSendWaitReceivePort a =>
    obtain ⟨hsent, hfailed⟩ := Bool.and_eq_true .. ▸ h
    rintro (hnone | hs)
    · simp [hnone] at hsent
    · simp [hs] at hfailed
  | _ => cases h

/-- A client connects and stays; then the reply to a request fails. -/
theorem older_library_sessions_refused : ∃ server w₀ w v status,
    (ledger .x64 w.log).sessions.length = 1 ∧ SessionLedger .x64 w₀ w ∧
      (∀ e ∈ newEvents w₀ w, Granted e) ∧ SessionLedger .x64 w₀ v ∧
      ¬ ReceiveFailed server status v := by
  have hrun : (serveUntil (.failing (.visitedBy [Ua.messageOf lpcConnectionRequest none,
      Ua.messageOf lpcRequest none]) .send) 1).any (fun r =>
        (ledger .x64 r.2.2.1.log).sessions.length = 1 &&
          (newEvents r.2.1 r.2.2.2.1).any isFailedReply) := by decide +kernel
  obtain ⟨⟨server, w₀, w, v, status⟩, h, hrefused⟩ := (Option.any_eq_true _ _).mp hrun
  obtain ⟨hs, hhead, hleft⟩ := serveUntil_left h
  simp only [Bool.and_eq_true, decide_eq_true_eq, List.any_eq_true] at hrefused
  obtain ⟨hlen, e, he, hbad⟩ := hrefused
  have hsessions := older_library_sessions (fun _ _ _ h => h) hs
  obtain ⟨hledger, hgranted⟩ := hsessions.1 w hhead
  obtain ⟨hlast, -, hcause⟩ := hsessions.2.2 status v hleft
  exact ⟨server, w₀, w, v, status, hlen, hledger, hgranted, hlast, fun hreceive =>
    not_granted_of_failedReply hbad (hcause.mp hreceive e he)⟩

end AlpcResearch.AdvancedServer
