import AlpcResearch.Advanced.Renaming
import AlpcResearch.Ka
import AlpcResearch.Ua

/-!
# Where the code came from

Function by function, `AdvancedLocalProcedureCall.c` does what `ua.c` does on
the server's side and what `ka.c` does on the client's, under any kernel. Only
the status a worker ends with is its own.
-/

namespace AlpcResearch.Advanced

open Resource Program Process Ua Ka

variable {pl : Platform} {A : Assumption} {w : World} {server : ServerObject}

-- ---------------------------------------------------------------------------
-- The worker
-- ---------------------------------------------------------------------------

theorem srvAlpcRequest_behind :
    Behind pl A Eq (uaAlpcRequest server) (srvAlpcRequest server) w :=
  behind_shared trivial fun _ _ => behind_shared trivial fun _ _ => behind_ret rfl

theorem srvAlpcDatagram_behind :
    Behind pl A Eq (uaAlpcDatagram server) (srvAlpcDatagram server) w := by
  refine behind_shared trivial fun contextAttribute _ => ?_
  by_cases hc : contextAttribute = none
  · simp only [Prog.ret_bind, hc, if_true]
    exact behind_ret rfl
  simp only [Prog.ret_bind, hc, if_false]
  refine behind_shared trivial fun _ _ => behind_shared trivial fun bs _ => ?_
  by_cases ht : UInt16.ofNat (leNat bs) &&& lpcContinuationRequired ≠ 0
  · simp only [Prog.ret_bind, if_pos ht]
    exact behind_shared trivial fun _ _ => behind_ret rfl
  · simp only [Prog.ret_bind, if_neg ht]
    exact behind_ret rfl

theorem srvAlpcDisconnect_behind :
    Behind pl A Eq (uaAlpcDisconnect server) (srvAlpcDisconnect server) w := by
  refine behind_shared trivial fun contextAttribute _ => ?_
  by_cases hc : contextAttribute = none
  · simp only [Prog.ret_bind, hc, if_true]
    exact behind_ret rfl
  simp only [Prog.ret_bind, hc, if_false]
  refine behind_shared trivial fun _ _ => behind_shared trivial fun _ _ => ?_
  exact behind_shared trivial fun _ _ => behind_free fun _ => behind_ret rfl

theorem srvReject_behind : Behind pl A Eq
    (alpcAcceptConnectPort (uaReject server) >>= fun _ => .ret statusSuccess)
    (alpcAcceptConnectPort (srvReject server) >>= fun _ => .ret statusSuccess) w :=
  behind_shared trivial fun _ _ => behind_ret rfl

theorem srvAlpcConnect_behind :
    Behind pl A Eq (uaAlpcConnect pl server) (srvAlpcConnect pl server) w := by
  refine behind_shared trivial fun answer _ => ?_
  by_cases ha : answer.accept = true
  swap
  · simp only [Prog.ret_bind, ha, Bool.false_eq_true, if_false]
    exact srvReject_behind
  simp only [Prog.ret_bind, ha, if_true]
  refine behind_allocate fun portContext _ => ?_
  by_cases hp : portContext = none
  · simp only [hp, ne_eq, not_true, if_false]
    exact srvReject_behind
  simp only [hp, ne_eq, not_false_eq_true, if_true]
  refine behind_shared trivial fun _ _ => behind_shared trivial fun _ _ => ?_
  refine behind_shared trivial fun reply _ => ?_
  by_cases hs : ntSuccess reply.status = true
  · simp only [Prog.ret_bind, hs, Bool.not_true, Bool.false_eq_true, if_false]
    exact behind_ret rfl
  simp only [Prog.ret_bind, hs, Bool.not_false, if_true]
  exact behind_shared trivial fun _ _ => behind_free fun _ => behind_ret rfl

theorem srvProcessMessage_behind :
    Behind pl A Eq (uaProcessMessage pl server) (srvProcessMessage pl server) w := by
  refine behind_shared trivial fun bs _ => ?_
  simp only [Prog.ret_bind, uaDispatch, srvDispatch]
  split
  · exact srvAlpcRequest_behind
  split
  · exact srvAlpcDatagram_behind
  split
  · exact srvAlpcDisconnect_behind
  split
  · exact srvAlpcDisconnect_behind
  split
  · exact srvAlpcConnect_behind
  · exact behind_ret rfl

/-- The rounds go on together. -/
theorem srvServerWorker_behind :
    Behind pl A (Tied fun _ _ => True) (uaServerWorker pl server) (srvServerWorker pl server) w := by
  refine behind_shared trivial fun reply _ => ?_
  by_cases hs : ntSuccess reply.status = true
  swap
  · simp only [Prog.ret_bind, hs, Bool.not_false, if_true]
    exact behind_ret trivial
  simp only [Prog.ret_bind, hs, Bool.not_true, Bool.false_eq_true, if_false]
  refine srvProcessMessage_behind.bind ?_
  rintro status _ _ rfl
  split
  · exact behind_ret trivial
  · exact behind_ret trivial

-- ---------------------------------------------------------------------------
-- Creation
-- ---------------------------------------------------------------------------

theorem behind_unlessNull {p : Option β} {body body' : Proc Unit}
    (h : ∀ v, Behind pl A Eq body body' v) :
    Behind pl A Eq (unlessNull p body) (unlessNull p body') w := by
  unfold unlessNull
  split
  · exact h w
  · exact behind_ret rfl

theorem rtFreeHeap_behind {api : HeapApi} (p : PVoid) (w : World) :
    Behind pl A Eq (free api p) (rtFreeHeap p) w :=
  behind_free fun _ => behind_ret rfl

theorem createCleanup_behind : Behind pl A Eq (uaCleanup server) (createCleanup server) w := by
  have close : ∀ v, Behind pl A Eq (ntClose server.connectionPortHandle >>= fun _ => pure ())
      (ntClose server.connectionPortHandle >>= fun _ => pure ()) v := fun _ =>
    behind_shared trivial fun _ _ => behind_ret rfl
  refine (behind_unlessNull close).bind fun _ _ _ _ => ?_
  refine (behind_unlessNull (rtFreeHeap_behind _)).bind fun _ _ _ _ => ?_
  refine (behind_unlessNull (rtFreeHeap_behind _)).bind fun _ _ _ _ => ?_
  exact (rtFreeHeap_behind _ _).bind fun _ _ _ _ => behind_ret rfl

theorem srvCreateServer_behind (portName : String) (f g k : Procedure) :
    Behind pl A Eq (uaCreateServer pl portName f g k) (srvCreateServer pl portName f g k) w := by
  refine behind_allocate fun block _ => ?_
  by_cases hb : block = none
  · simp only [hb, if_true]
    exact behind_ret rfl
  simp only [hb, if_false]
  refine behind_shared trivial fun size _ => behind_allocate fun attributes _ => ?_
  by_cases ha : attributes = none
  · simp only [ha, if_true]
    exact createCleanup_behind
  simp only [ha, if_false]
  refine behind_shared trivial fun status _ => ?_
  simp only [Prog.ret_bind]
  by_cases hs : ntSuccess status = true
  swap
  · simp only [hs, Bool.not_false, if_true]
    exact createCleanup_behind
  simp only [hs, Bool.not_true, Bool.false_eq_true, if_false]
  refine behind_allocate fun message _ => ?_
  by_cases hm : message = none
  · simp only [hm, if_true]
    exact createCleanup_behind
  simp only [hm, if_false]
  refine behind_shared trivial fun created _ => ?_
  obtain ⟨status', port⟩ := created
  simp only [Prog.ret_bind]
  by_cases hs' : ntSuccess status' = true
  swap
  · simp only [hs', Bool.not_false, if_true]
    exact createCleanup_behind
  simp only [hs', Bool.not_true, Bool.false_eq_true, if_false]
  refine behind_createThread fun thread _ hthread => ?_
  obtain ⟨status'', handle⟩ := thread
  simp only [Prog.ret_bind]
  cases handle with
  | none =>
    simp only [Option.isSome_none] at hthread
    simp only [hthread, Bool.not_false, if_true]
    exact createCleanup_behind
  | some x =>
    simp only [Option.isSome_some] at hthread
    simp only [hthread, Bool.not_true, Bool.false_eq_true, reduceCtorEq, if_false]
    exact behind_ret rfl

theorem srvTerminateServer_behind :
    Behind pl A Eq (uaTerminateServer server) (srvTerminateServer server) w := by
  refine behind_shared trivial fun _ _ => behind_shared trivial fun _ _ => ?_
  refine (rtFreeHeap_behind _ _).bind fun _ _ _ _ => ?_
  refine (rtFreeHeap_behind _ _).bind fun _ _ _ _ => ?_
  exact rtFreeHeap_behind _ _

-- ---------------------------------------------------------------------------
-- The client's side
-- ---------------------------------------------------------------------------

/-- `KA_CLIENT_OBJECT` without the port flags. -/
def ported (client : KaClientObject) : ClientObject where
  block := client.block
  portName := client.portName
  portAttributes := unflagged client.portAttributes
  communicationPortHandle := client.communicationPortHandle

theorem withHeapMessage_behind {R : α → β → Prop} {data : PVoid} {n : UInt16}
    {fail : NtStatus → α} {fail' : β} {send : PVoid → Proc α} {send' : PVoid → Proc β}
    (hfail : ∀ status, R (fail status) fail')
    (hsend : ∀ p v, Behind pl A R (send p) (send' p) v) :
    Behind pl A R (withPortMessage .pool pl data n fail send) (withHeapMessage pl data n fail' send')
      w := by
  by_cases hlong : (totalLengthOf pl n).toNat > pl.alpcMaxAllowedMessageLength
  · simp only [withPortMessage, withHeapMessage, if_pos hlong]
    exact behind_ret (hfail _)
  simp only [withPortMessage, withHeapMessage, if_neg hlong]
  refine behind_allocate fun portMessage _ => ?_
  by_cases hp : portMessage = none
  · simp only [hp, if_true]
    exact behind_ret (hfail _)
  simp only [hp, if_false]
  refine behind_shared trivial fun _ _ => behind_shared trivial fun _ _ => ?_
  refine behind_shared trivial fun _ _ => (hsend portMessage _).bind fun result result' _ hR => ?_
  exact behind_free fun _ => behind_ret hR

theorem srvSendSynchronousRequest_behind (client : KaClientObject) (data : PVoid) (n : UInt16) :
    Behind pl A Eq (kaSendSynchronousRequest pl client data n)
      (srvSendSynchronousRequest pl (ported client) data n) w :=
  withHeapMessage_behind (fun _ => rfl) fun _ _ =>
    behind_shared trivial fun _ _ => behind_shared trivial fun _ _ => behind_ret rfl

theorem srvSendDatagram_behind (client : KaClientObject) (data : PVoid) (n : UInt16) :
    Behind pl A Eq (kaSendDatagram pl client data n)
      (srvSendDatagram pl (ported client) data n) w :=
  withHeapMessage_behind (fun _ => rfl) fun _ _ => behind_shared trivial fun _ _ => behind_ret rfl

theorem srvDisconnectServer_behind (client : KaClientObject) :
    Behind pl A Eq (kaDisconnectServer client) (srvDisconnectServer (ported client)) w :=
  behind_shared trivial fun _ _ => rtFreeHeap_behind _ _

/-- No client twice, or the same client. -/
def SameClient (c : Option KaClientObject) (c' : Option ClientObject) : Prop := c' = c.map ported

theorem srvConnectServer_behind (portName : String) (data : PVoid) (n : UInt16) :
    Behind pl A SameClient (kaConnectServer pl portName data n)
      (srvConnectServer pl portName data n) w := by
  have cleanup : ∀ (client : KaClientObject) v, Behind pl A SameClient (kaConnectCleanup client)
      (srvConnectCleanup (ported client)) v := fun client _ =>
    (rtFreeHeap_behind _ _).bind fun _ _ _ _ => behind_ret rfl
  refine behind_allocate fun block _ => ?_
  by_cases hb : block = none
  · simp only [hb, if_true]
    exact behind_ret rfl
  simp only [hb, if_false]
  refine (withHeapMessage_behind (R := Eq) (fun _ => rfl) fun p v =>
    behind_connect fun r v => behind_ret rfl).bind ?_
  rintro reply _ v rfl
  cases reply with
  | none => exact cleanup _ v
  | some reply =>
    by_cases hs : ntSuccess reply.status = true
    · simp only [hs, Bool.not_true, Bool.false_eq_true, if_false]
      exact behind_ret rfl
    · simp only [hs, Bool.not_false, if_true]
      exact cleanup _ v

end AlpcResearch.Advanced
