import AlpcResearch.Process.Calls
import AlpcResearch.Sessions.Contexts

/-!
# Steps of the ledger

How a run of a server's code moves the ledger: not at all (`Quiet`), or by the
answer to a connection request (`Answered`). Finding the port context of a
disconnect message is quiet too, and comes first in every teardown
(`messageContext_safe`).
-/

namespace AlpcResearch

open Resource Program Process

variable {pl : Platform} {e : Endpoint} {A : Assumption} {w v : World}

def anyDisconnect (_ : Ledger) (_ : UInt8) (_ : PVoid) : Bool := true

theorem allocated_attributes (h : ∃ q size a, e.attributes = some ⟨q, 0⟩ ∧
      P.heap.get? q = some (.attributes size a) ∧
      a.allocatedAttributes &&& alpcMessageContextAttribute ≠ 0) :
    Allocated P e.attributes alpcMessageContextAttribute = true := by
  obtain ⟨q, size, a, ha, hq, hmask⟩ := h
  have hat : P.at? e.attributes = some (.attributes size a) := by
    rw [ha]
    exact at?_live hq
  simp [Allocated, hat, hmask]

theorem Serving.allocated (h : Serving e P) :
    Allocated P e.attributes alpcMessageContextAttribute = true :=
  allocated_attributes h.attributes

/-- From `w` to `v` the ledger, and everything the ledger is about, stayed as
it was. -/
def Quiet (pl : Platform) (w v : World) : Prop :=
  Keeps w.state v.state ∧ ledger pl v.log = ledger pl w.log

theorem Quiet.refl (w : World) : Quiet pl w w := ⟨.refl _, rfl⟩

theorem Quiet.next {o : Op} {r : Ret o} (hq : Quiet pl w v)
    (hk : Keeps v.state (v.state.effect pl o r)) (hl : ∀ L : Ledger, L.add pl ⟨o, r⟩ = L) :
    Quiet pl w ((system pl A).next v o r) :=
  ⟨hq.1.trans hk, (hl _).trans hq.2⟩

theorem Quiet.same {o : Op} {r : Ret o} (hq : Quiet pl w v) (he : v.state.effect pl o r = v.state)
    (hl : ∀ L : Ledger, L.add pl ⟨o, r⟩ = L) : Quiet pl w ((system pl A).next v o r) :=
  hq.next ((Keeps.refl _).of_eq he) hl

theorem Quiet.serving (hq : Quiet pl w v) (h : Serving e w.state) : Serving e v.state :=
  h.keeps hq.1

structure Received (pl : Platform) (e : Endpoint) (msg : List UInt8) (ctx : PVoid) (w v : World) :
    Prop where
  keeps : Keeps w.state v.state
  shows_ : Shows e msg v.state
  carries : Carries e ctx v.state
  ledger : ledger pl v.log = (ledger pl w.log).receive pl msg ctx
  length : pl.sizeofPortMessage ≤ msg.length

theorem Serving.message_ne (h : Serving e P) : e.message ≠ none := by
  obtain ⟨q, data, hm, -⟩ := h.message
  simp [hm]

theorem Endpoint.receives (h : Serving e P) : Ledger.isReceive e.receive = true := by
  simpa [Ledger.isReceive, Endpoint.receive, Option.isSome_iff_ne_none] using h.message_ne

/-- A successful receive brings a message with a whole header. -/
theorem received (h : Serving e w.state) {r : Reply}
    (hr : w.state.Legal pl (.alpcSendWaitReceivePort e.receive) r)
    (hs : ntSuccess r.status = true) :
    Received pl e r.written r.portContext w
      ((system pl A).next w (.alpcSendWaitReceivePort e.receive) r) := by
  obtain ⟨hk, hshows, hcarries⟩ := keeps_receive h hr
  obtain ⟨q, data, hm, -⟩ := h.message
  refine ⟨hk, hshows, hcarries hs, ?_, hr.2.2.2 hs ?_⟩
  · simp [AlpcResearch.ledger, Ledger.add, Endpoint.receives h, hs]
  · simp [Endpoint.receive, hm]

theorem receive_failed (h : Serving e w.state) {r : Reply}
    (hr : w.state.Legal pl (.alpcSendWaitReceivePort e.receive) r)
    (hs : ¬ ntSuccess r.status = true) :
    Quiet pl w ((system pl A).next w (.alpcSendWaitReceivePort e.receive) r) :=
  (Quiet.refl w).next (keeps_receive h hr).1 fun L => by simp [Ledger.add, hs]

theorem Received.of_state {o : Op} {r : Ret o} (hr : Received pl e msg ctx w v)
    (he : ((system pl A).next v o r).state = v.state) (hl : ∀ L : Ledger, L.add pl ⟨o, r⟩ = L) :
    Received pl e msg ctx w ((system pl A).next v o r) where
  keeps := hr.keeps.of_eq he
  shows_ := he.symm ▸ hr.shows_
  carries := he.symm ▸ hr.carries
  ledger := (hl _).trans hr.ledger
  length := hr.length

theorem totalLength_in_header : PortMessage.offTotalLength + 2 ≤ pl.sizeofPortMessage := by
  cases pl <;> decide

theorem type_in_header : PortMessage.offType + 2 ≤ pl.sizeofPortMessage := by
  cases pl <;> decide

theorem clientId_in_header :
    PortMessage.offClientId + sizeofClientId pl ≤ pl.sizeofPortMessage := by
  cases pl <;> decide

theorem messageId_in_header : PortMessage.offMessageId pl + 4 ≤ pl.sizeofPortMessage := by
  cases pl <;> decide

/-- The low byte of the type that is read is the kind of the message. -/
theorem Shows.kind (h : Shows e msg P) (hlen : pl.sizeofPortMessage ≤ msg.length)
    (hbs : P.Legal pl (.load e.message PortMessage.offType 2) bs) :
    lobyte (UInt16.ofNat (leNat bs)) = kindOf pl msg := by
  rw [h.load hbs (type_in_header.trans hlen)]
  rfl

theorem Received.kind (hr : Received pl e msg ctx w v)
    (hbs : v.state.Legal pl (.load e.message PortMessage.offType 2) bs) :
    lobyte (UInt16.ofNat (leNat bs)) = kindOf pl msg :=
  hr.shows_.kind hr.length hbs

theorem ne_of_disconnect {kind : UInt8} (h : isDisconnect kind = true) :
    kind ≠ lpcRequest ∧ kind ≠ lpcDatagram ∧ kind ≠ lpcConnectionRequest := by
  rw [isDisconnect, Bool.or_eq_true, decide_eq_true_eq, decide_eq_true_eq] at h
  rcases h with rfl | rfl
  · decide
  · decide

/-- A dispatcher does what it has for the kind of message, whatever that is. -/
theorem safe_dispatch {S : System Op Ret Process} {kind : UInt8} {I : World → Prop}
    {Q : NtStatus → World → Prop} {request datagram disconnect connection other : Proc NtStatus}
    (hrequest : kind = lpcRequest → request.safe S I Q w)
    (hdatagram : kind = lpcDatagram → datagram.safe S I Q w)
    (hdisconnect : isDisconnect kind = true → disconnect.safe S I Q w)
    (hconnection : kind = lpcConnectionRequest → connection.safe S I Q w)
    (hother : kind ≠ lpcRequest → kind ≠ lpcDatagram → ¬ isDisconnect kind = true →
      kind ≠ lpcConnectionRequest → other.safe S I Q w) :
    Prog.safe S I (if kind = lpcRequest then request
      else if kind = lpcDatagram then datagram
      else if kind = lpcPortClosed then disconnect
      else if kind = lpcClientDied then disconnect
      else if kind = lpcConnectionRequest then connection
      else other) Q w := by
  split
  · exact hrequest ‹_›
  split
  · exact hdatagram ‹_›
  split
  · rename_i hk
    exact hdisconnect (by rw [hk]; decide)
  split
  · rename_i hk
    exact hdisconnect (by rw [hk]; decide)
  split
  · exact hconnection ‹_›
  · rename_i h₁ h₂ h₃ h₄ h₅
    exact hother h₁ h₂ (by simp [isDisconnect, h₃, h₄]) h₅

/-- The answer to a connection request: accepted with a new context and
handle, or turned down and nothing kept. -/
def Answered (pl : Platform) (w v : World) : Prop :=
  (∃ q h, Gains w.state v.state q h (headerOf pl (ledger pl w.log).message).clientId ∧
      ledger pl v.log = (ledger pl w.log).accept pl (some ⟨q, 0⟩) (some h)) ∨
    Keeps w.state v.state ∧ ledger pl v.log = (ledger pl w.log).reject

theorem getMessageAttribute_found
    (hA : ∀ w o r, A w o r → sessionKernel pl anyDisconnect w o r)
    (h : Allocated w.state e.attributes alpcMessageContextAttribute = true)
    (hr : (system pl A).legal w
      (.alpcGetMessageAttribute e.attributes alpcMessageContextAttribute) r) :
    ∃ p q, r = some p ∧ e.attributes = some q ∧ p.block = q.block := by
  obtain ⟨hlegal, hassume⟩ := hr
  have hne : r ≠ none := hA _ _ _ hassume h
  obtain ⟨p, hp⟩ := Option.ne_none_iff_exists'.mp hne
  obtain ⟨q, hq, hblock⟩ := hlegal p hp
  exact ⟨p, q, hp, hq, hblock⟩

/-- What `ContextAttribute->PortContext` is read for, after the attribute has
been looked up in `MessageAttributes`. -/
def withMessageContext (attributes : PVoid) (f : PVoid → Proc NtStatus) : Proc NtStatus := do
  let contextAttribute ← alpcGetMessageAttribute attributes alpcMessageContextAttribute
  if contextAttribute = none then
    return statusUnsuccessful
  else
    let portContext ← getPortContext contextAttribute
    f portContext

theorem messageContext_safe {I : World → Prop} {Q : NtStatus → World → Prop}
    {f : PVoid → Proc NtStatus}
    (hA : ∀ w o r, A w o r → sessionKernel pl anyDisconnect w o r)
    (h : Serving e w.state) (hctx : Carries e ctx w.state)
    (hI : ∀ v, v.state = w.state → ledger pl v.log = ledger pl w.log → I v)
    (hf : ∀ v, v.state = w.state → ledger pl v.log = ledger pl w.log →
      (f ctx).safe (system pl A) I Q v) :
    (withMessageContext e.attributes f).safe (system pl A) I Q w := by
  refine ⟨hI w rfl rfl, fun r hr => ?_⟩
  obtain ⟨p, b, rfl, hb, hblock⟩ := getMessageAttribute_found hA h.allocated hr
  let v₁ := (system pl A).next w
    (.alpcGetMessageAttribute e.attributes alpcMessageContextAttribute) (some p)
  have e₁ : v₁.state = w.state := effect_getMessageAttribute pl _ h (some p)
  refine ⟨hI v₁ e₁ rfl, fun ctx' hread => ?_⟩
  have hc : ctx' = ctx := hctx.read hb hblock (e₁ ▸ hread.1)
  subst hc
  have h₁ : Serving e v₁.state := e₁ ▸ h
  exact hf _ ((effect_getPortContext h₁ hb hblock ctx').trans e₁) rfl

def closeContext (api : HeapApi) (portContext : PVoid) : Proc NtStatus := do
  let handle ← getCommunicationPortHandle portContext
  let status ← ntClose handle
  free api portContext
  return status

/-- What a teardown did: the context is gone, its handle closed as `status`
says. -/
def TornDown (pl : Platform) (A : Assumption) (q x : Ref) (w : World) (status : NtStatus)
    (v : World) : Prop :=
  Loses w.state v.state q (closeHandle status (some x)) ∧ ledger pl v.log = ledger pl w.log ∧
    ∃ u, (system pl A).legal u (.close (some x)) status ∧
      u.state.handles.get? x = some .communicationPort

theorem TornDown.loses (h : TornDown pl A q x w status v) (hs : ntSuccess status = true) :
    Loses w.state v.state q (some x) := by
  have hloss := h.1
  rwa [closeHandle, if_pos hs] at hloss

/-- An open handle can be closed. -/
theorem TornDown.closed (hA : ∀ w o r, A w o r → closesOpen w o r)
    (h : TornDown pl A q x w status v) : ntSuccess status = true := by
  obtain ⟨-, -, u, hlegal, hlive⟩ := h
  exact hA _ _ _ hlegal.2 (by simp [hlive])

theorem closeContext_safe (hq : w.state.heap.get? q = some (.portContext ⟨cid, some x⟩))
    (hx : w.state.handles.get? x = some .communicationPort) :
    (closeContext api (some ⟨q, 0⟩)).safe (system pl A)
      (fun v => v.state.faults = w.state.faults) (TornDown pl A q x w) w := by
  refine ⟨rfl, fun y hy => ?_⟩
  have hy : y = some x := hy.1.2 _ (at?_live hq)
  subst hy
  let v := (system pl A).next w (.getCommunicationPortHandle (some ⟨q, 0⟩)) (some x)
  have e : v.state = w.state := effect_eq_self rfl rfl (structFault_live hq)
  refine ⟨congrArg _ e, fun status hs => ?_⟩
  have hloss : Loses w.state ((v.state.effect pl (.close (some x)) status).effect pl
      (.free api (some ⟨q, 0⟩)) ()) q (closeHandle status (some x)) :=
    e ▸ loses_close_free hq hx status
  have hclose : (v.state.effect pl (.close (some x)) status).faults = w.state.faults := by
    rw [e, faults_effect]
    simp [faultsOf, handleFault_live hx]
  exact ⟨hclose, fun _ _ => ⟨hloss.faults, hloss, rfl, v, hs, e ▸ hx⟩⟩

theorem disconnect_safe (hA : ∀ w o r, A w o r → sessionKernel pl anyDisconnect w o r)
    (h : Serving e w.state) (hctx : Carries e (some ⟨q, 0⟩) w.state)
    (hq : w.state.heap.get? q = some (.portContext ⟨cid, some x⟩))
    (hx : w.state.handles.get? x = some .communicationPort) :
    (withMessageContext e.attributes (closeContext api)).safe (system pl A)
      (fun v => v.state.faults = w.state.faults) (TornDown pl A q x w) w := by
  refine messageContext_safe hA h hctx (fun v hv _ => congrArg _ hv) fun v hv hl => ?_
  have hv' : (closeContext api (some ⟨q, 0⟩)).safe (system pl A)
      (fun u => u.state.faults = v.state.faults) (TornDown pl A q x v) v :=
    closeContext_safe (hv ▸ hq) (hv ▸ hx)
  simp only [hv] at hv'
  exact safe_mono hv' fun _ _ ⟨hloss, hledger, hclose⟩ => ⟨hv ▸ hloss, hledger.trans hl, hclose⟩

-- ---------------------------------------------------------------------------
-- What the handlers ask for
-- ---------------------------------------------------------------------------

/-- The operations that answer a connection request, but for the callback. -/
def AnswersConnect : Op → Prop
  | .allocate .. | .rtlZeroMemory .. | .load .. | .setClientId .. | .alpcAcceptConnectPort _
  | .free .. => True
  | _ => False

def TearsDown : Op → Prop
  | .alpcGetMessageAttribute .. | .getPortContext _ | .getCommunicationPortHandle _ | .close _
  | .free .. => True
  | _ => False

theorem disconnect_uses : (withMessageContext attributes (closeContext api)).Uses TearsDown := by
  refine ⟨trivial, fun contextAttribute => ?_⟩
  change Prog.Uses _ (if contextAttribute = none then _ else _)
  split
  · trivial
  · exact ⟨trivial, fun _ => ⟨trivial, fun _ => ⟨trivial, fun _ => ⟨trivial, fun _ => trivial⟩⟩⟩⟩

end AlpcResearch
