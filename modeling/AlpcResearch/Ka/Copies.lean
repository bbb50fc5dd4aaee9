import AlpcResearch.Ka
import AlpcResearch.Ka.Alike
import AlpcResearch.Ua

/-!
# Function by function

Every function on the server's side of `ka.c` is in step with the one of
`ua.c` it was copied from, on the same server object up to its port flags. The
thread the two creations start is not part of this: `KaCreateServer` starts it
on `NULL`.
-/

namespace AlpcResearch.Ka

open Resource Program Process Ua

def inKernel (server : ServerObject) : ServerObject :=
  { server with portAttributes := { server.portAttributes with flags := alpcPorflgSystemProcess } }

variable {pl : Platform} {s : Script} {w w' : World} {server : ServerObject}

-- ---------------------------------------------------------------------------
-- The worker
-- ---------------------------------------------------------------------------

theorem kaAlpcRequest_inStep (hw : Alike w w') :
    InStep pl s Together (uaAlpcRequest server) (kaAlpcRequest (inKernel server)) w w' := by
  refine inStep_call (.same _) hw fun _ _ _ hw => ?_
  exact inStep_call (.same _) hw fun _ _ _ hw => ⟨rfl, hw⟩

theorem kaAlpcDatagram_inStep (hw : Alike w w') :
    InStep pl s Together (uaAlpcDatagram server) (kaAlpcDatagram (inKernel server)) w w' := by
  refine inStep_call (.same _) hw fun contextAttribute _ _ hw => ?_
  by_cases hc : contextAttribute = none
  · simp only [id, Prog.ret_bind, hc, if_true]
    exact ⟨rfl, hw⟩
  simp only [id, Prog.ret_bind, hc, if_false]
  refine inStep_call (.same _) hw fun _ _ _ hw => ?_
  refine inStep_call (.same _) hw fun bs _ _ hw => ?_
  by_cases ht : UInt16.ofNat (leNat bs) &&& lpcContinuationRequired ≠ 0
  · simp only [id, Prog.ret_bind, if_pos ht]
    refine inStep_call (.same _) hw fun _ _ _ hw => ?_
    exact ⟨rfl, hw⟩
  · simp only [id, Prog.ret_bind, if_neg ht]
    exact ⟨rfl, hw⟩

theorem kaAlpcDisconnect_inStep (hw : Alike w w') :
    InStep pl s Together (uaAlpcDisconnect server) (kaAlpcDisconnect (inKernel server)) w w' := by
  refine inStep_call (.same _) hw fun contextAttribute _ _ hw => ?_
  by_cases hc : contextAttribute = none
  · simp only [id, Prog.ret_bind, hc, if_true]
    exact ⟨rfl, hw⟩
  simp only [id, Prog.ret_bind, hc, if_false]
  refine inStep_call (.same _) hw fun _ _ _ hw => ?_
  refine inStep_call (.same _) hw fun _ _ _ hw => ?_
  refine inStep_call (.same _) hw fun _ _ _ hw => ?_
  exact inStep_call .free hw fun _ _ _ hw => ⟨rfl, hw⟩

theorem kaReject_twin (server : ServerObject) :
    Twin (.alpcAcceptConnectPort (uaReject server))
      (.alpcAcceptConnectPort (kaReject (inKernel server))) id :=
  .accept (a := uaReject server) rfl

theorem kaAlpcConnect_inStep (hw : Alike w w') :
    InStep pl s Together (uaAlpcConnect pl server) (kaAlpcConnect pl (inKernel server)) w w' := by
  have reject : ∀ {v v'}, Alike v v' → InStep pl s Together
      (alpcAcceptConnectPort (uaReject server) >>= fun _ => .ret statusSuccess)
      (alpcAcceptConnectPort (kaReject (inKernel server)) >>= fun _ => .ret statusSuccess) v v' :=
    fun hv => inStep_call (kaReject_twin server) hv fun _ _ _ hv => ⟨rfl, hv⟩
  refine inStep_call (.same _) hw fun answer _ _ hw => ?_
  by_cases ha : answer.accept = true
  swap
  · simp only [id, Prog.ret_bind, ha, Bool.false_eq_true, if_false]
    exact reject hw
  simp only [id, Prog.ret_bind, ha, if_true]
  refine (inStep_allocateZeroHeap hw .portContext).bind ?_
  rintro _ v portContext v' ⟨rfl, hw⟩
  by_cases hp : portContext = none
  · simp only [hp, ne_eq, not_true, if_false]
    exact reject hw
  simp only [hp, ne_eq, not_false_eq_true, if_true]
  refine inStep_call (.same _) hw fun _ _ _ hw => ?_
  refine inStep_call (.same _) hw fun _ _ _ hw => ?_
  let accept : AcceptConnectPort := {
    portHandle := .portContext portContext
    connectionPortHandle := server.connectionPortHandle
    portAttributes := server.portAttributes
    portContext := portContext
    connectionRequest := server.portMessage
    acceptConnection := true }
  refine inStep_call (.accept (a := accept) (b := (inKernel server).portAttributes) rfl) hw
    fun reply _ _ hw => ?_
  by_cases hs : ntSuccess reply.status = true
  · simp only [id, Prog.ret_bind, hs, Bool.not_true, Bool.false_eq_true, if_false]
    exact ⟨rfl, hw⟩
  simp only [id, Prog.ret_bind, hs, Bool.not_false, if_true]
  refine inStep_call (kaReject_twin server) hw fun _ _ _ hw => ?_
  exact inStep_call .free hw fun _ _ _ hw => ⟨rfl, hw⟩

theorem kaProcessMessage_inStep (hw : Alike w w') :
    InStep pl s Together (uaProcessMessage pl server) (kaProcessMessage pl (inKernel server))
      w w' := by
  refine inStep_call (.same _) hw fun bs _ _ hw => ?_
  simp only [id, Prog.ret_bind, uaDispatch, kaDispatch]
  split
  · exact kaAlpcRequest_inStep hw
  split
  · exact kaAlpcDatagram_inStep hw
  split
  · exact kaAlpcDisconnect_inStep hw
  split
  · exact kaAlpcDisconnect_inStep hw
  split
  · exact kaAlpcConnect_inStep hw
  · exact ⟨rfl, hw⟩

theorem kaServerWorker_inStep (hw : Alike w w') :
    InStep pl s (fun c v c' v' => c = c' ∧ Alike v v') (uaServerWorker pl server)
      (kaServerWorker pl (inKernel server)) w w' := by
  refine inStep_call (.same _) hw fun reply _ _ hw => ?_
  by_cases hs : ntSuccess reply.status = true
  swap
  · simp only [id, Prog.ret_bind, hs, Bool.not_false, if_true]
    exact ⟨rfl, hw⟩
  simp only [id, Prog.ret_bind, hs, Bool.not_true, Bool.false_eq_true, if_false]
  refine (kaProcessMessage_inStep hw).bind ?_
  rintro _ v status v' ⟨rfl, hw⟩
  split
  · exact ⟨rfl, hw⟩
  · exact ⟨rfl, hw⟩

-- ---------------------------------------------------------------------------
-- Creation
-- ---------------------------------------------------------------------------

def Matching (r : Option ServerObject) (v : World) (r' : Option ServerObject) (v' : World) : Prop :=
  r' = r.map inKernel ∧ Alike v v'

theorem inStep_unlessNull {p : Option β} {body body' : Proc Unit} (hw : Alike w w')
    (h : ∀ {v v'}, Alike v v' → InStep pl s Together body body' v v') :
    InStep pl s Together (unlessNull p body) (unlessNull p body') w w' := by
  unfold unlessNull
  split
  · exact h hw
  · exact ⟨rfl, hw⟩

theorem inStep_free (p : PVoid) (hw : Alike w w') :
    InStep pl s Together (uaFreeHeap p) (kaFreeHeap p) w w' :=
  inStep_call .free hw fun _ _ _ hw => ⟨rfl, hw⟩

theorem kaCleanup_inStep (hw : Alike w w') (a : PortAttributes) :
    InStep pl s Matching (uaCleanup server) (kaCleanup { server with portAttributes := a })
      w w' := by
  have close : ∀ {v v'}, Alike v v' → InStep pl s Together
      (ntClose server.connectionPortHandle >>= fun _ => pure ())
      (ntClose server.connectionPortHandle >>= fun _ => pure ()) v v' :=
    fun hv => inStep_call (.same _) hv fun _ _ _ hv => ⟨rfl, hv⟩
  refine (inStep_unlessNull hw close).bind fun _ _ _ _ ⟨_, hw⟩ => ?_
  refine (inStep_unlessNull hw (inStep_free _)).bind fun _ _ _ _ ⟨_, hw⟩ => ?_
  refine (inStep_unlessNull hw (inStep_free _)).bind fun _ _ _ _ ⟨_, hw⟩ => ?_
  refine (inStep_free _ hw).bind fun _ _ _ _ ⟨_, hw⟩ => ?_
  exact ⟨rfl, hw⟩

/-- `CreateThread` returns a handle where `PsCreateSystemThread` succeeds. -/
theorem inStep_createThread (hw : Alike w w') (portName : String)
    (context context' : Option ServerObject) :
    InStep pl s (fun r v r' v' => r' = r ∧ ntSuccess r.1 = r.2.isSome ∧ Alike v v')
      (issue (.createThread context)) (issue (.psCreateSystemThread portName context')) w w' := by
  have hs := hw.state
  have hnext : s.next w'.log (.psCreateSystemThread portName context') =
      s.next w.log (.createThread context) := hw.toSameHistory.next_outcome rfl
  have alike : ∀ r : NtStatus × Handle,
      Alike ((system pl s.follows).next w (.createThread context) r)
        ((system pl s.follows).next w' (.psCreateSystemThread portName context') r) := by
    intro r
    refine hw.next ⟨rfl, rfl, rfl, ?_⟩ ?_
    · simp only [startContext]
      split <;> rfl
    · rw [hs]
      rfl
  have hlegal : ∀ r, (system pl s.follows).legal w (.createThread context) r ↔
      (system pl s.follows).legal w' (.psCreateSystemThread portName context') r := by
    intro r
    show (_ ∧ r.1 = _) ↔ (_ ∧ r.1 = _)
    rw [hnext]
    simp only [Legal, hs]
  refine ⟨rfl, fun r hr => ⟨r, (hlegal r).mp hr, rfl, opens_isSome hr.1, alike r⟩,
    fun r hr => ?_⟩
  have hr := (hlegal r).mpr hr
  exact ⟨r, hr, rfl, opens_isSome hr.1, alike r⟩

theorem kaCreateServer_inStep (hw : Alike w w') (portName : String) (f g k : Procedure) :
    InStep pl s Matching (uaCreateServer pl portName f g k) (kaCreateServer pl portName f g k)
      w w' := by
  refine (inStep_allocateZeroHeap hw _).bind ?_
  rintro _ v block v' ⟨rfl, hw⟩
  by_cases hb : block = none
  · simp only [hb, if_true]
    exact ⟨rfl, hw⟩
  simp only [hb, if_false]
  refine inStep_call (.same _) hw fun size _ _ hw => ?_
  simp only [id, Prog.ret_bind]
  refine (inStep_allocateZeroHeap hw _).bind ?_
  rintro _ v attributes v' ⟨rfl, hw⟩
  by_cases ha : attributes = none
  · simp only [ha, if_true]
    exact kaCleanup_inStep hw _
  simp only [ha, if_false]
  refine inStep_call (.same _) hw fun status _ _ hw => ?_
  simp only [id, Prog.ret_bind]
  by_cases hs : ntSuccess status = true
  swap
  · simp only [hs, Bool.not_false, if_true]
    exact kaCleanup_inStep hw _
  simp only [hs, Bool.not_true, Bool.false_eq_true, if_false]
  refine (inStep_allocateZeroHeap hw _).bind ?_
  rintro _ v message v' ⟨rfl, hw⟩
  by_cases hm : message = none
  · simp only [hm, if_true]
    exact kaCleanup_inStep hw _
  simp only [hm, if_false]
  have hport : Twin (.alpcCreatePort portName (uaInitializePortAttributes pl))
      (.alpcCreatePort portName (kaInitializePortAttributes pl)) id := .createPort rfl
  refine inStep_call hport hw fun created _ _ hw => ?_
  obtain ⟨status', port⟩ := created
  simp only [id, Prog.ret_bind]
  by_cases hs' : ntSuccess status' = true
  swap
  · simp only [hs', Bool.not_false, if_true]
    exact kaCleanup_inStep hw _
  simp only [hs', Bool.not_true, Bool.false_eq_true, if_false]
  refine (inStep_createThread hw portName _ _).bind ?_
  rintro ⟨status'', thread⟩ v _ v' ⟨rfl, hstatus, hw⟩
  cases thread with
  | none =>
    simp only [Option.isSome_none] at hstatus
    simp only [hstatus, Bool.not_false, if_true]
    exact kaCleanup_inStep hw _
  | some x =>
    simp only [Option.isSome_some] at hstatus
    simp only [hstatus, Bool.not_true, Bool.false_eq_true, reduceCtorEq, if_false]
    exact ⟨rfl, hw⟩

end AlpcResearch.Ka
