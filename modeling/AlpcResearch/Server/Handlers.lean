import AlpcResearch.Sessions.Disconnects
import AlpcResearch.Server

/-!
# What each handler of `server.c` returns

A handler fails only where a call made for a client does: a reply, the
allocation of a context, a reject. `Granted` says of one event that it is no
such failure; a handler that succeeds has added none, one that fails ends with
one (`Settled`).
-/

namespace AlpcResearch.Server

open Resource Program Process

/-- No reply, no context allocation and no reject that failed. -/
def Granted : Ev → Prop
  | ⟨.alpcSendWaitReceivePort a, r⟩ => a.sendMessage = none ∨ ntSuccess r.status = true
  | ⟨.allocate _ layout, r⟩ => layout = .portContext → r.pointer ≠ none
  | ⟨.alpcAcceptConnectPort a, r⟩ => a.acceptConnection = true ∨ ntSuccess r.status = true
  | _ => True

/-- The last thing that happened since `w` is a call that failed for a client. -/
def Refused (w v : World) : Prop := ∃ e new, v.log = e :: new ++ w.log ∧ ¬ Granted e

/-- What the status of a handler says about its calls. -/
structure Settled (w : World) (status : NtStatus) (v : World) : Prop where
  granted : ntSuccess status = true → Adds Granted w v
  refused : ntSuccess status = false → Refused w v

def Harmless : Op → Prop
  | .alpcSendWaitReceivePort _ | .allocate .. | .alpcAcceptConnectPort _ => False
  | _ => True

theorem granted_of_harmless (e : Ev) (h : Harmless e.op) : Granted e := by
  obtain ⟨o, r⟩ := e
  cases o with
  | alpcSendWaitReceivePort | allocate | alpcAcceptConnectPort => exact h.elim
  | _ => trivial

/-- The operations that leave every block as it is. -/
def Reads : Op → Prop
  | .load .. | .printf .. | .alpcCancelMessage .. => True
  | _ => False

theorem harmless_of_reads (o : Op) (h : Reads o) : Harmless o := by
  cases o with
  | alpcSendWaitReceivePort | allocate | alpcAcceptConnectPort => exact h
  | _ => trivial

theorem harmless_of_tearsDown (o : Op) (h : TearsDown o) : Harmless o := by
  cases o with
  | alpcSendWaitReceivePort | allocate | alpcAcceptConnectPort => exact h
  | _ => trivial

def endpoint (maxLength : Nat) (worker : Worker) : Endpoint where
  port := worker.connectionPortHandle
  message := worker.portMessage
  attributes := worker.messageAttributes
  capacity := maxLength

variable {pl : Platform} {A : Assumption} {maxLength : Nat} {worker : Worker} {w v : World}

-- ---------------------------------------------------------------------------
-- Requests and datagrams
-- ---------------------------------------------------------------------------

theorem reportCounter_eq : reportCounter pl portMessage text =
    .call (.load portMessage PortMessage.offDataLength 2) fun _ =>
      .call (.load portMessage pl.sizeofPortMessage 8) fun bs =>
        if isReported (quadPart bs) then printf text (quadPart bs) else .ret () := by
  simp only [reportCounter, getDataLength, getCounter, call_bind, ret_bind, pure_eq]

theorem reportCounter_uses (text : String) :
    (reportCounter pl portMessage text).Uses Reads := by
  rw [reportCounter_eq]
  refine uses_call.mpr ⟨trivial, fun _ => uses_call.mpr ⟨trivial, fun bs => ?_⟩⟩
  split
  · exact ⟨trivial, fun _ => trivial⟩
  · trivial

theorem reportCounter_harmless (text : String) :
    (reportCounter pl portMessage text).Uses Harmless :=
  (reportCounter_uses text).mono harmless_of_reads

theorem reportCounter_safe (hmax : pl.sizeofPortMessage + 8 ≤ maxLength)
    (h : Serving (endpoint maxLength worker) w.state) (text : String) :
    (reportCounter pl worker.portMessage text).safe (system pl A)
      (fun v => v.state.faults = w.state.faults) (fun _ v => Quiet pl w v) w := by
  rw [reportCounter_eq]
  refine safe_call.mpr ⟨rfl, fun bs _ => ?_⟩
  have hlength : PortMessage.offDataLength + 2 ≤ (endpoint maxLength worker).capacity := by
    change 0 + 2 ≤ maxLength
    omega
  have q₁ := (Quiet.refl w).same (A := A) (effect_load pl h hlength bs) fun _ => rfl
  refine safe_call.mpr ⟨q₁.1.faults, fun bs' _ => ?_⟩
  have q₂ := q₁.same (A := A) (effect_load pl (q₁.serving h) hmax bs') fun _ => rfl
  split
  · refine ⟨q₂.1.faults, fun _ _ => ?_⟩
    have q₃ := q₂.same (A := A) (o := .printf text (quadPart bs')) (r := ()) rfl fun _ => rfl
    exact ⟨q₃.1.faults, q₃⟩
  · exact ⟨q₂.1.faults, q₂⟩

/-- The reply decides. -/
theorem onAlpcRequest_safe (hmax : pl.sizeofPortMessage + 8 ≤ maxLength)
    (h : Serving (endpoint maxLength worker) w.state) (hm : worker.portMessage ≠ none) :
    (onAlpcRequest pl worker.connectionPortHandle worker.portMessage).safe (system pl A)
      (fun v => v.state.faults = w.state.faults)
      (fun status v => Settled w status v ∧ Quiet pl w v) w := by
  refine safe_bind ?_
  have hreport := safe_and (reportCounter_safe (A := A) hmax h "Request Receive Counter %lld.\n")
    fun _ _ he => Adds.of_uses (reportCounter_harmless _) granted_of_harmless he
  refine safe_mono hreport fun _ v ⟨hq, hadds⟩ => ⟨hq.1.faults, fun r _ => ?_⟩
  have hq' := hq.same (A := A) (effect_reply (hq.serving h) r) fun L => by
    simp [Ledger.add, Ledger.isReceive, Endpoint.reply]
  refine ⟨hq'.1.faults, ⟨fun hs => hadds.next (.inr hs), fun hf => ?_⟩, hq'⟩
  obtain ⟨new, hlog, -⟩ := hadds
  refine ⟨_, new, congrArg _ hlog, ?_⟩
  rintro (hnone | hs)
  · exact hm hnone
  · cases hf.symm.trans hs

theorem type_inside (hmax : pl.sizeofPortMessage + 8 ≤ maxLength) (worker : Worker) :
    PortMessage.offType + 2 ≤ (endpoint maxLength worker).capacity :=
  type_in_header.trans ((Nat.le_add_right _ _).trans hmax)

theorem datagramCase_eq : datagramCase pl worker contextAttribute =
    reportCounter pl worker.portMessage "Datagram Receive Counter %lld.\n" >>= fun _ =>
      .call (.load worker.portMessage PortMessage.offType 2) fun bs =>
        if UInt16.ofNat (leNat bs) &&& lpcContinuationRequired ≠ 0 then
          .call (.alpcCancelMessage worker.connectionPortHandle contextAttribute) fun _ =>
            .ret statusSuccess
        else .ret statusSuccess := by
  simp only [datagramCase, onAlpcDatagram, getType, alpcCancelMessage, bind_assoc, call_bind,
    ret_bind, pure_eq]

theorem datagramCase_uses : (datagramCase pl worker contextAttribute).Uses Reads := by
  rw [datagramCase_eq]
  refine uses_bind (reportCounter_uses _) fun _ => ⟨trivial, fun bs => ?_⟩
  beta_reduce
  split
  · exact ⟨trivial, fun _ => trivial⟩
  · trivial

theorem datagramCase_harmless : (datagramCase pl worker contextAttribute).Uses Harmless :=
  datagramCase_uses.mono harmless_of_reads

theorem datagramCase_safe (hmax : pl.sizeofPortMessage + 8 ≤ maxLength)
    (h : Serving (endpoint maxLength worker) w.state)
    (hq : worker.messageAttributes = some b) (hblock : p.block = b.block) :
    (datagramCase pl worker (some p)).safe (system pl A)
      (fun v => v.state.faults = w.state.faults)
      (fun status v => (status = statusSuccess ∧ Quiet pl w v) ∧ Adds Granted w v) w := by
  refine safe_and ?_ fun status v he => .of_uses datagramCase_harmless granted_of_harmless he
  rw [datagramCase_eq]
  refine safe_bind (safe_mono (reportCounter_safe hmax h _) fun _ v q₁ => ?_)
  refine ⟨q₁.1.faults, fun bs _ => ?_⟩
  have q₂ := q₁.same (A := A) (effect_load pl (q₁.serving h) (type_inside hmax worker) bs)
    fun _ => rfl
  beta_reduce
  split
  · refine ⟨q₂.1.faults, fun r _ => ?_⟩
    have q₃ := q₂.same (A := A) (effect_cancel (q₂.serving h) hq hblock r) fun _ => rfl
    exact ⟨q₃.1.faults, rfl, q₃⟩
  · exact ⟨q₂.1.faults, rfl, q₂⟩

theorem Settled.of_success (hs : status = statusSuccess) (h : Adds Granted w v) :
    Settled w status v where
  granted _ := h
  refused hf := by
    rw [hs] at hf
    cases hf

-- ---------------------------------------------------------------------------
-- Connections
-- ---------------------------------------------------------------------------

/-- What the answer to a connection request leaves: a session, or a context
that belongs to nobody. -/
def Connected (pl : Platform) (w v : World) : Prop :=
  (∃ q x, Gains w.state v.state q x (headerOf pl (ledger pl w.log).message).clientId ∧
      ledger pl v.log = (ledger pl w.log).accept pl (some ⟨q, 0⟩) (some x)) ∨
    (∃ q c, Pending w.state v.state q c) ∧ ledger pl v.log = (ledger pl w.log).reject

theorem onAlpcConnection_safe (hmax : pl.sizeofPortMessage + 8 ≤ maxLength)
    (h : Serving (endpoint maxLength worker) w.state)
    (hm : Shows (endpoint maxLength worker) (ledger pl w.log).message w.state)
    (hlen : pl.sizeofPortMessage ≤ (ledger pl w.log).message.length) :
    (onAlpcConnection pl maxLength worker.connectionPortHandle worker.portMessage).safe
      (system pl A) (fun v => v.state.faults = w.state.faults)
      (fun status v => Settled w status v ∧
        (Connected pl w v ∨ ntSuccess status = false ∧ Quiet pl w v)) w := by
  refine ⟨rfl, fun ra hra => ?_⟩
  change Prog.safe _ _ (if ra.pointer = none then _ else _) _ _
  cases hp : ra.pointer with
  | none =>
    have hquiet : Quiet pl w ((system pl A).next w (.allocate .processHeap .portContext) ra) :=
      (Quiet.refl w).same (effect_eq_self (by simp [heapAfter, hp]) rfl rfl) fun _ => rfl
    exact ⟨rfl, ⟨fun hs => Bool.noConfusion hs, fun _ => ⟨_, [], rfl, fun hg => hg rfl hp⟩⟩,
      .inr ⟨rfl, hquiet⟩⟩
  | some p =>
    simp only [reduceCtorEq, if_false]
    obtain ⟨q, c, rfl, p₁⟩ : ∃ q c, p = ⟨q, 0⟩ ∧ Pending w.state _ q c := pending_allocate hra.1 hp
    have a₁ : Adds Granted w ((system pl A).next w (.allocate .processHeap .portContext) ra) :=
      (Adds.refl w).next fun _ => by simp [hp]
    refine ⟨p₁.faults, fun bs hbs => ?_⟩
    have hcid : ClientId.ofBytes pl bs = (headerOf pl (ledger pl w.log).message).clientId :=
      congrArg _ ((hm.pending p₁).load hbs.1 (clientId_in_header.trans hlen))
    have hfits : PortMessage.offClientId + sizeofClientId pl ≤
        (endpoint maxLength worker).capacity :=
      clientId_in_header.trans ((Nat.le_add_right _ _).trans hmax)
    have p₂ := p₁.of_eq (effect_load pl (h.pending p₁) hfits bs)
    refine ⟨p₂.faults, fun _ _ => ?_⟩
    have p₃ := Pending.setClientId pl p₂ (ClientId.ofBytes pl bs)
    refine ⟨p₃.faults, fun rc hrc => ?_⟩
    have a₃ := (a₁.next (S := system pl A) (o := .load worker.portMessage _ _) (r := bs) trivial).next
      (S := system pl A) (o := .setClientId (some ⟨q, 0⟩) (ClientId.ofBytes pl bs)) (r := ()) trivial
    refine safe_ifFailed (fun hs => ?_) fun hs => ?_
    · obtain ⟨x, hx, hg⟩ := Pending.accept p₃ h rfl rfl rfl hrc.1 hs
      refine ⟨hg.faults, ⟨fun _ => a₃.next (.inl rfl), fun hf => ?_⟩, .inl (.inl ⟨q, x, hcid ▸ hg, ?_⟩)⟩
      · cases hf.symm.trans hs
      · simp [ledger, Ledger.add, hs, hx, acceptWith]
    · have p₄ := p₃.of_eq (Pending.accept_failed p₃ h rfl rfl rfl hrc.1 hs)
      refine ⟨p₄.faults, fun rj hrj => ?_⟩
      have p₅ := p₄.of_eq (effect_reject (h.pending p₄) rfl rfl
        (fun _ he => by cases he; exact structFault_live p₄.block) hrj.1)
      have a₄ := Adds.next (S := system pl A)
        (o := .alpcAcceptConnectPort (acceptWith maxLength worker.connectionPortHandle
          worker.portMessage (some ⟨q, 0⟩) true)) (r := rc) a₃ (Or.inl rfl)
      obtain ⟨new, hlog, -⟩ := id a₄
      refine ⟨p₅.faults, ⟨fun hsj => a₄.next (.inr hsj), fun hf => ⟨_, new, congrArg _ hlog, ?_⟩⟩,
        .inl (.inr ⟨⟨q, _, p₅⟩, ?_⟩)⟩
      · rintro (hfalse | hsj)
        · cases hfalse
        · cases hf.symm.trans hsj
      · simp [ledger, Ledger.add, hs, acceptWith]

theorem onAlpcConnection_uses :
    (onAlpcConnection pl maxLength connectionPortHandle portMessage).Uses AnswersConnect := by
  refine ⟨trivial, fun r => ?_⟩
  change Prog.Uses _ (if r.pointer = none then _ else _)
  split
  · trivial
  refine ⟨trivial, fun _ => ⟨trivial, fun _ => ⟨trivial, fun reply => ?_⟩⟩⟩
  change Prog.Uses _ (if (!ntSuccess reply.status) = true then _ else _)
  split
  · exact ⟨trivial, fun _ => trivial⟩
  · trivial

-- ---------------------------------------------------------------------------
-- Disconnections
-- ---------------------------------------------------------------------------

theorem onAlpcDisconnection_eq : onAlpcDisconnection attributes =
    withMessageContext attributes (closeContext .processHeap) := rfl

theorem onAlpcDisconnection_uses : (onAlpcDisconnection attributes).Uses TearsDown :=
  disconnect_uses

theorem onAlpcDisconnection_harmless : (onAlpcDisconnection attributes).Uses Harmless :=
  onAlpcDisconnection_uses.mono harmless_of_tearsDown

theorem onAlpcDisconnection_safe (hA : ∀ w o r, A w o r → sessionKernel pl anyDisconnect w o r)
    (h : Serving (endpoint maxLength worker) w.state)
    (hctx : Carries (endpoint maxLength worker) (some ⟨q, 0⟩) w.state)
    (hq : w.state.heap.get? q = some (.portContext ⟨cid, some x⟩))
    (hx : w.state.handles.get? x = some .communicationPort) :
    (onAlpcDisconnection worker.messageAttributes).safe (system pl A)
      (fun v => v.state.faults = w.state.faults)
      (fun status v => TornDown pl A q x w status v ∧ Adds Granted w v) w := by
  refine safe_and ?_ fun _ _ he => .of_uses onAlpcDisconnection_harmless granted_of_harmless he
  rw [onAlpcDisconnection_eq]
  exact disconnect_safe hA h hctx hq hx

end AlpcResearch.Server
