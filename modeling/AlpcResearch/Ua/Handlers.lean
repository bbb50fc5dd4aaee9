import AlpcResearch.Sessions.Steps
import AlpcResearch.Ua

/-!
# What each handler does

One statement for each handler of `ua.c`, under any kernel that finds the
attributes it allocated: from a server at work the handler runs without a
fault, and what it leaves behind is one step of the ledger.
-/

namespace AlpcResearch

open Resource Program Process

namespace Ua

def endpoint (pl : Platform) (server : ServerObject) : Endpoint where
  port := server.connectionPortHandle
  message := server.portMessage
  attributes := server.messageAttributes
  capacity := pl.alpcMaxAllowedMessageLength

variable {pl : Platform} {server : ServerObject} {A : Assumption} {w : World}

theorem uaAlpcRequest_safe (h : Serving (endpoint pl server) w.state) :
    (uaAlpcRequest server).safe (system pl A) (fun v => v.state.faults = w.state.faults)
      (fun status v => status = statusSuccess ∧ Quiet pl w v) w := by
  refine ⟨rfl, fun r _ => ?_⟩
  have q₁ : Quiet pl w ((system pl A).next w (.onRequest _ server.portMessage) r) :=
    (Quiet.refl w).next (keeps_onRequest h r) fun _ => rfl
  refine ⟨q₁.1.faults, fun r' _ => ?_⟩
  have q₂ := q₁.same (A := A) (effect_reply (q₁.serving h) r') fun L => by
    simp [Ledger.add, Ledger.isReceive, Endpoint.reply]
  exact ⟨q₂.1.faults, rfl, q₂⟩

theorem type_inside (pl : Platform) (server : ServerObject) :
    PortMessage.offType + 2 ≤ (endpoint pl server).capacity := by
  cases pl <;> simp [endpoint, PortMessage.offType, Platform.alpcMaxAllowedMessageLength]

theorem clientId_fits (pl : Platform) (server : ServerObject) :
    PortMessage.offClientId + sizeofClientId pl ≤ (endpoint pl server).capacity :=
  clientId_in_header.trans pl.header_le_max

theorem uaAlpcDatagram_safe (hA : ∀ w o r, A w o r → sessionKernel pl anyDisconnect w o r)
    (h : Serving (endpoint pl server) w.state) :
    (uaAlpcDatagram server).safe (system pl A) (fun v => v.state.faults = w.state.faults)
      (fun status v => status = statusSuccess ∧ Quiet pl w v) w := by
  refine ⟨rfl, fun r hr => ?_⟩
  obtain ⟨p, q, rfl, hq, hblock⟩ := getMessageAttribute_found hA h.allocated hr
  have q₁ := (Quiet.refl w).same (A := A)
    (effect_getMessageAttribute pl alpcMessageContextAttribute h (some p))
    fun _ => rfl
  refine ⟨q₁.1.faults, fun r' _ => ?_⟩
  have q₂ := q₁.same (A := A) (o := .onDatagram server.onDatagram server.portMessage) (r := r') rfl
    fun _ => rfl
  refine ⟨q₂.1.faults, fun bs _ => ?_⟩
  have q₃ := q₂.same (A := A) (effect_load pl (q₂.serving h) (type_inside pl server) bs) fun _ => rfl
  change Prog.safe _ _ (if UInt16.ofNat (leNat bs) &&& lpcContinuationRequired ≠ 0 then _ else _) _ _
  split
  · refine ⟨q₃.1.faults, fun r'' _ => ?_⟩
    have q₄ := q₃.same (A := A) (effect_cancel (q₃.serving h) hq hblock r'') fun _ => rfl
    exact ⟨q₄.1.faults, rfl, q₄⟩
  · exact ⟨q₃.1.faults, rfl, q₃⟩

theorem uaReject_quiet (h : Serving (endpoint pl server) P) {r : AcceptReply}
    (hr : P.Legal pl (.alpcAcceptConnectPort (uaReject server)) r) :
    P.effect pl (.alpcAcceptConnectPort (uaReject server)) r = P :=
  effect_reject h rfl rfl (fun _ hp => nomatch hp) hr

theorem uaReject_safe (h : Serving (endpoint pl server) w.state) (hq : Quiet pl w v) :
    (do let _ ← alpcAcceptConnectPort (uaReject server); return statusSuccess).safe
      (system pl A) (fun u => u.state.faults = w.state.faults)
      (fun status u => status = statusSuccess ∧ Answered pl w u) v := by
  refine ⟨hq.1.faults, fun r hr => ?_⟩
  have hk := hq.1.of_eq (uaReject_quiet (hq.serving h) hr.1)
  refine ⟨hk.faults, rfl, .inr ⟨hk, ?_⟩⟩
  exact congrArg Ledger.reject hq.2

theorem uaAlpcConnect_safe (h : Serving (endpoint pl server) w.state)
    (hm : Shows (endpoint pl server) (ledger pl w.log).message w.state)
    (hlen : pl.sizeofPortMessage ≤ (ledger pl w.log).message.length) :
    (uaAlpcConnect pl server).safe (system pl A) (fun v => v.state.faults = w.state.faults)
      (fun status v => status = statusSuccess ∧ Answered pl w v) w := by
  refine ⟨rfl, fun r _ => ?_⟩
  have q₁ : Quiet pl w ((system pl A).next w (.onConnect server.onConnect server.portMessage) r) :=
    (Quiet.refl w).same rfl fun _ => rfl
  change Prog.safe _ _ (if r.accept = true then _ else _) _ _
  split
  · unfold uaAllocateZeroHeap
    rw [allocateZeroHeap_bind]
    refine ⟨q₁.1.faults, fun ra hra => ?_⟩
    cases hp : ra.pointer with
    | none =>
      have q₂ := q₁.same (A := A) (o := .allocate .crt .portContext) (r := ra)
        (effect_eq_self (by simp [heapAfter, hp]) rfl rfl) fun _ => rfl
      simp only [hp, ne_eq, not_true_eq_false, if_false]
      exact uaReject_safe h q₂
    | some p =>
      simp only [hp, ne_eq, reduceCtorEq, not_false_eq_true, if_true]
      obtain ⟨q, c, rfl, p₁⟩ : ∃ q c, p = ⟨q, 0⟩ ∧ Pending w.state _ q c :=
        pending_allocate hra.1 hp
      refine ⟨p₁.faults, fun _ _ => ?_⟩
      have p₂ := Pending.zero pl p₁
      refine ⟨p₂.faults, fun bs hbs => ?_⟩
      have hcid : ClientId.ofBytes pl bs = (headerOf pl (ledger pl w.log).message).clientId :=
        congrArg _ ((hm.pending p₂).load hbs.1 (clientId_in_header.trans hlen))
      have p₃ := p₂.of_eq (effect_load pl (h.pending p₂) (clientId_fits pl server) bs)
      refine ⟨p₃.faults, fun _ _ => ?_⟩
      have p₄ := Pending.setClientId pl p₃ (ClientId.ofBytes pl bs)
      refine ⟨p₄.faults, fun rc hrc => ?_⟩
      refine safe_ifFailed (fun hs => ?_) fun hs => ?_
      · obtain ⟨x, hx, hg⟩ := Pending.accept p₄ h rfl rfl rfl hrc.1 hs
        refine ⟨hg.faults, rfl, .inl ⟨q, x, hcid ▸ hg, ?_⟩⟩
        simp [ledger, Ledger.add, hs, hx]
      · have p₅ := p₄.of_eq (Pending.accept_failed p₄ h rfl rfl rfl hrc.1 hs)
        refine ⟨p₅.faults, fun rj hrj => ?_⟩
        have p₆ := p₅.of_eq (uaReject_quiet (h.pending p₅) hrj.1)
        refine ⟨p₆.faults, fun _ _ => ?_⟩
        have hk := Pending.free pl .crt p₆
        refine ⟨hk.faults, rfl, .inr ⟨hk, ?_⟩⟩
        simp [ledger, Ledger.add, hs, uaReject]
  · exact uaReject_safe h q₁

theorem uaReject_uses :
    (alpcAcceptConnectPort (uaReject server) >>= fun _ => pure statusSuccess).Uses AnswersConnect :=
  ⟨trivial, fun _ => trivial⟩

/-- The callback comes first. -/
theorem uaAlpcConnect_uses : ∃ k,
    uaAlpcConnect pl server = .call (.onConnect server.onConnect server.portMessage) k ∧
      ∀ answer, (k answer).Uses AnswersConnect := by
  refine ⟨_, rfl, fun answer => ?_⟩
  simp only [Prog.ret_bind]
  split
  swap
  · exact uaReject_uses
  unfold uaAllocateZeroHeap
  rw [allocateZeroHeap_bind]
  refine ⟨trivial, fun r => ?_⟩
  cases hp : r.pointer with
  | none =>
    simp only [hp, ne_eq, not_true_eq_false, if_false]
    exact uaReject_uses
  | some p =>
    simp only [hp, ne_eq, reduceCtorEq, not_false_eq_true, if_true]
    refine ⟨trivial, fun _ => ⟨trivial, fun _ => ⟨trivial, fun _ => ⟨trivial, fun reply => ?_⟩⟩⟩⟩
    change Prog.Uses _ (if (!ntSuccess reply.status) = true then _ else _)
    split
    · exact ⟨trivial, fun _ => ⟨trivial, fun _ => trivial⟩⟩
    · trivial

theorem uaAlpcDisconnect_eq :
    uaAlpcDisconnect server = withMessageContext server.messageAttributes (closeContext .crt) := rfl

theorem uaAlpcDisconnect_uses : (uaAlpcDisconnect server).Uses TearsDown := disconnect_uses

theorem uaAlpcDisconnect_safe (hA : ∀ w o r, A w o r → sessionKernel pl anyDisconnect w o r)
    (h : Serving (endpoint pl server) w.state)
    (hctx : Carries (endpoint pl server) (some ⟨q, 0⟩) w.state)
    (hq : w.state.heap.get? q = some (.portContext ⟨cid, some x⟩))
    (hx : w.state.handles.get? x = some .communicationPort) :
    (uaAlpcDisconnect server).safe (system pl A) (fun v => v.state.faults = w.state.faults)
      (TornDown pl A q x w) w := by
  rw [uaAlpcDisconnect_eq]
  exact disconnect_safe hA h hctx hq hx

end Ua

end AlpcResearch
