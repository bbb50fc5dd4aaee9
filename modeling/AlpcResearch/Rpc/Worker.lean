import AlpcResearch.Rpc.Service
import AlpcResearch.Sessions.Placement
import AlpcResearch.Ua.Handlers

/-!
# The worker of a service

`UaServerWorker` receives, handles and replies in one buffer. Alone with a
kernel that hands it requests and datagrams it stays in step with the service
at every moment, and nothing is left to do when a round has ended
(`uaServerWorker_inStep`).
-/

namespace AlpcResearch.Rpc

open Resource Program Process Ua

variable {S : Type} {svc : Service S} {pl : Platform} {server : ServerObject} {w v : World}
variable {msg : List UInt8} {c : Contents}

-- ---------------------------------------------------------------------------
-- The message in the buffer
-- ---------------------------------------------------------------------------

/-- What arrived is what the buffer says it holds. -/
theorem Arrives.messageIn (ha : Arrives pl msg) (hc : Begins msg c) : messageIn c = msg := by
  obtain ⟨bs, hfit, hd⟩ := ha.framed
  have htransported := hd.transported hc (by simp)
  have hlen : msg.length = pl.sizeofPortMessage + bs.length := hd.length.trans length_frame
  have htotal : leNat (c.slice PortMessage.offTotalLength 2) = msg.length := by
    rw [htransported.lengths_eq.2, hlen]
    exact leNat_short (hfit.trans_lt pl.alpcMax_lt)
  rw [Rpc.messageIn, htotal, hc 0 msg.length (by omega), List.drop_zero, List.take_length]

theorem Arrives.length (ha : Arrives pl msg) : pl.sizeofPortMessage ≤ msg.length := by
  obtain ⟨bs, -, hd⟩ := ha.framed
  rw [hd.length, length_frame]
  omega

theorem Arrives.messageIn_write (ha : Arrives pl msg) (hc : Begins msg c) {body : List UInt8}
    (hlen : body.length = (bodyOf pl msg).length) :
    Rpc.messageIn (c.write pl.sizeofPortMessage body) = msg.take pl.sizeofPortMessage ++ body := by
  have hmsg := ha.length
  have htotal : leNat (c.slice PortMessage.offTotalLength 2) =
      pl.sizeofPortMessage + body.length := by
    have hwhole := congrArg List.length (ha.messageIn hc)
    rw [Rpc.messageIn, Contents.length_slice] at hwhole
    rw [hwhole, hlen, bodyOf, List.length_drop]
    omega
  rw [Rpc.messageIn, Contents.slice_write_disjoint (.inl totalLength_in_header), htotal,
    Contents.slice_append, Contents.slice_write_disjoint (.inl (Nat.le_of_eq (Nat.zero_add _))),
    hc 0 pl.sizeofPortMessage (by omega), List.drop_zero, Nat.zero_add,
    Contents.slice_write_of_length rfl]

-- ---------------------------------------------------------------------------
-- A round
-- ---------------------------------------------------------------------------

structure AtHead (pl : Platform) (svc : Service S) (server : ServerObject) (w : World) : Prop where
  serving : Serving (endpoint pl server) w.state
  settled : (historyOf w.log).Settled pl svc

/-- The message `msg` is in the buffer and its call is due. -/
structure Handling (pl : Platform) (svc : Service S) (server : ServerObject) (msg : List UInt8)
    (w : World) : Prop where
  serving : Serving (endpoint pl server) w.state
  shows_ : Shows (endpoint pl server) msg w.state
  arrives : Arrives pl msg
  history : ∃ h : History, h.Settled pl svc ∧
    historyOf w.log = { h with arrived := msg :: h.arrived }

theorem Handling.seen (hv : Handling pl svc server msg v)
    (hc : ∀ size data, v.state.at? server.portMessage = some (.buffer size data) → c = data) :
    Begins msg c := by
  obtain ⟨q, data, hm, hq, hdata⟩ := hv.shows_
  have hm : server.portMessage = some ⟨q, 0⟩ := hm
  rw [hc _ data (hm ▸ at?_live hq)]
  exact hdata

theorem Handling.aside {A : Assumption} {o : Op} {r : Ret o} (hv : Handling pl svc server msg v)
    (he : v.state.effect pl o r = v.state) (ho : Aside o) :
    Handling pl svc server msg ((system pl A).next v o r) where
  serving := hv.serving.keeps ((Keeps.refl _).of_eq he)
  shows_ := hv.shows_.same (congrArg Process.heap he)
  arrives := hv.arrives
  history := by
    rw [next_log, ho.history]
    exact hv.history

theorem Handling.inStep (hv : Handling pl svc server msg v) :
    (historyOf v.log).InStep pl svc := by
  obtain ⟨h, hs, hh⟩ := hv.history
  exact hh ▸ hs.arrive msg

def InStep (pl : Platform) (svc : Service S) (w : World) : Prop :=
  (historyOf w.log).InStep pl svc

theorem AtHead.inStep (hw : AtHead pl svc server w) : InStep pl svc w := hw.settled.inStep

theorem AtHead.aside {A : Assumption} {o : Op} {r : Ret o} (hw : AtHead pl svc server w)
    (he : w.state.effect pl o r = w.state) (ho : Aside o) :
    AtHead pl svc server ((system pl A).next w o r) where
  serving := hw.serving.keeps ((Keeps.refl _).of_eq he)
  settled := by
    rw [next_log, ho.history]
    exact hw.settled

theorem uaAlpcRequest_inStep (hv : Handling pl svc server msg v)
    (hkind : kindOf pl msg = lpcRequest) :
    (uaAlpcRequest server).safe (system pl (svc.kernel pl)) (InStep pl svc)
      (fun status u => status = statusSuccess ∧ AtHead pl svc server u) v := by
  obtain ⟨h, hs, hh⟩ := hv.history
  refine ⟨hv.inStep, fun r hr => ?_⟩
  have hbegins := hv.seen hr.1.2
  have hseen : messageIn r.seen = msg := hv.arrives.messageIn hbegins
  have hleft : messageIn r.left = svc.reply pl (svc.state pl h.calls) msg := by
    rw [show r.left = _ from hr.2.1, hseen, hh]
    exact hv.arrives.messageIn_write hbegins (svc.length _ _)
  let u := (system pl (svc.kernel pl)).next v (.onRequest server.onRequest server.portMessage) r
  have hu : historyOf u.log =
      { h with arrived := msg :: h.arrived, calls := .request msg :: h.calls } := by
    rw [next_log, historyOf_onRequest, hseen, hh]
  have hserving : Serving (endpoint pl server) u.state :=
    hv.serving.keeps (keeps_onRequest hv.serving r)
  have hstep : InStep pl svc u := by
    rw [InStep, hu]
    exact hs.request hkind
  refine ⟨hstep, fun reply hreply => ?_⟩
  obtain ⟨q, data, hm, hq, -⟩ := hv.shows_
  have hm : server.portMessage = some ⟨q, 0⟩ := hm
  have hbuffer : u.state.at? (some ⟨q, 0⟩) =
      some (.buffer (endpoint pl server).capacity r.left) := by
    refine at?_live (p := ⟨q, 0⟩) ?_
    simp only [u, next_state, system, effect, heapAfter, hm]
    exact (Table.get?_modify hq _).trans (if_pos rfl)
  have htaken : reply.taken = svc.reply pl (svc.state pl h.calls) msg := by
    have htakes : u.state.Takes (some ⟨q, 0⟩) reply.taken := hm ▸ hreply.1.1
    rw [htakes.2 ⟨q, 0⟩ _ r.left rfl hbuffer, ← hleft, Nat.zero_add]
    rfl
  have hend : AtHead pl svc server ((system pl (svc.kernel pl)).next u
      (.alpcSendWaitReceivePort (endpoint pl server).reply) reply) := by
    refine ⟨hserving.keeps ((Keeps.refl _).of_eq (effect_reply hserving reply)), ?_⟩
    have hsend : (endpoint pl server).reply.sendMessage ≠ none := by
      simp [Endpoint.reply, endpoint, hm]
    rw [next_log, historyOf_send hsend, hu, htaken]
    exact hs.reply hkind
  exact ⟨hend.inStep, rfl, hend⟩

theorem uaAlpcDatagram_inStep (hv : Handling pl svc server msg v)
    (hkind : kindOf pl msg ≠ lpcRequest) :
    (uaAlpcDatagram server).safe (system pl (svc.kernel pl)) (InStep pl svc)
      (fun status u => status = statusSuccess ∧ AtHead pl svc server u) v := by
  refine ⟨hv.inStep, fun r hr => ?_⟩
  have hne : r ≠ none := hr.2.1 hv.serving.allocated
  obtain ⟨p, rfl⟩ := Option.ne_none_iff_exists'.mp hne
  obtain ⟨q, hq, hblock⟩ := hr.1 p rfl
  have hv₁ := hv.aside (A := svc.kernel pl)
    (effect_getMessageAttribute pl alpcMessageContextAttribute hv.serving (some p)) trivial
  refine ⟨hv₁.inStep, fun c hc => ?_⟩
  obtain ⟨h, hs, hh⟩ := hv₁.history
  have hseen : messageIn c = msg := hv.arrives.messageIn (hv₁.seen hc.1.2)
  let u := (system pl (svc.kernel pl)).next v
    (.alpcGetMessageAttribute server.messageAttributes alpcMessageContextAttribute) (some p)
  have hu : AtHead pl svc server ((system pl (svc.kernel pl)).next u
      (.onDatagram server.onDatagram server.portMessage) c) := by
    refine ⟨hv₁.serving, ?_⟩
    have hh : historyOf u.log = _ := hh
    rw [next_log, historyOf_onDatagram, hseen, hh]
    exact hs.datagram hkind
  refine ⟨hu.inStep, fun bs _ => ?_⟩
  have hu₁ := hu.aside (A := svc.kernel pl)
    (effect_load pl hu.serving (type_inside pl server) bs) trivial
  change Prog.safe _ _
    (if UInt16.ofNat (leNat bs) &&& lpcContinuationRequired ≠ 0 then _ else _) _ _
  split
  · refine ⟨hu₁.inStep, fun status _ => ?_⟩
    have hu₂ := hu₁.aside (A := svc.kernel pl) (effect_cancel hu₁.serving hq hblock status) trivial
    exact ⟨hu₂.inStep, rfl, hu₂⟩
  · exact ⟨hu₁.inStep, rfl, hu₁⟩

theorem uaProcessMessage_inStep (hv : Handling pl svc server msg v) :
    (uaProcessMessage pl server).safe (system pl (svc.kernel pl)) (InStep pl svc)
      (fun status u => status = statusSuccess ∧ AtHead pl svc server u) v := by
  refine ⟨hv.inStep, fun bs hbs => ?_⟩
  have hkind := hv.shows_.kind hv.arrives.length hbs.1
  have hv₁ := hv.aside (A := svc.kernel pl)
    (effect_load pl hv.serving (type_inside pl server) bs) trivial
  change Prog.safe _ _ (uaDispatch pl server (lobyte (UInt16.ofNat (leNat bs)))) _ _
  rw [hkind]
  rcases hv.arrives.kind with hk | hk
  · simp only [uaDispatch, hk, if_true]
    exact uaAlpcRequest_inStep hv₁ hk
  · simp only [uaDispatch, hk, show ¬ lpcDatagram = lpcRequest by decide, if_true, if_false]
    exact uaAlpcDatagram_inStep hv₁ (hk ▸ by decide)

theorem uaServerWorker_inStep (hw : AtHead pl svc server w) :
    (uaServerWorker pl server).safe (system pl (svc.kernel pl)) (InStep pl svc)
      (fun _ => AtHead pl svc server) w := by
  refine ⟨hw.inStep, fun r hr => ?_⟩
  obtain ⟨hk, hshows, -⟩ := keeps_receive hw.serving hr.1
  have hreceive : Ledger.isReceive (endpoint pl server).receive = true :=
    Endpoint.receives hw.serving
  let u := (system pl (svc.kernel pl)).next w (.alpcSendWaitReceivePort (uaReceive pl server)) r
  have hserving : Serving (endpoint pl server) u.state := hw.serving.keeps hk
  have hlog : historyOf u.log = _ := historyOf_receive hreceive r w.log
  refine safe_ifFailed (fun hs => ?_) fun hs => ?_
  · rw [if_pos hs] at hlog
    have hu : Handling pl svc server r.written u :=
      ⟨hserving, hshows, hr.2.2 hreceive hs, _, hw.settled, hlog⟩
    refine safe_bind (safe_imp (uaProcessMessage_inStep hu) (fun _ hv => hv) ?_)
    rintro status v hv ⟨rfl, hend⟩
    exact ⟨hv, hend⟩
  · rw [if_neg hs] at hlog
    have hu : AtHead pl svc server u := ⟨hserving, hlog ▸ hw.settled⟩
    exact ⟨hu.inStep, hu⟩

end AlpcResearch.Rpc
