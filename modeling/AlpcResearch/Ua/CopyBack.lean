import AlpcResearch.Process.Inventory
import AlpcResearch.Process.Script
import AlpcResearch.Ua.Framing

/-!
# What a synchronous request leaves in the caller's buffer

The copy back takes as many bytes as were sent, whatever the length of the
reply. A call that fails leaves the caller's buffer as it was; one that
succeeds puts the body of the reply there, followed by the caller's own bytes
from where the reply ended. Nothing else in memory changes.
-/

namespace AlpcResearch.Ua

open Resource Program Process

def replies (log : List Ev) : List Reply :=
  log.filterMap fun
    | ⟨.alpcSendWaitReceivePort _, r⟩ => some r
    | _ => none

def allocated (log : List Ev) : List PVoid :=
  log.filterMap fun
    | ⟨.allocate .., r⟩ => if r.pointer = none then none else some r.pointer
    | _ => none

def freed (log : List Ev) : List PVoid :=
  log.filterMap fun
    | ⟨.free _ p, _⟩ => some p
    | _ => none

/-- A call that fails writes nothing to the message. -/
def leavesOnFailure : Assumption
  | _, .alpcSendWaitReceivePort _, r => ntSuccess r.status = false → r.written = []
  | _, _, _ => True

theorem leavesOnFailure_iff {w : World} {o : Op} {r : Ret o} : leavesOnFailure w o r ↔
    ∀ reply ∈ replies [⟨o, r⟩], ntSuccess reply.status = false → reply.written = [] := by
  cases o with
  | alpcSendWaitReceivePort => exact List.forall_mem_singleton.symm
  | _ => exact ⟨fun _ _ h => absurd h List.not_mem_nil, fun _ => trivial⟩

instance (w : World) (o : Op) (r : Ret o) : Decidable (leavesOnFailure w o r) :=
  decidable_of_iff _ leavesOnFailure_iff.symm

def LeavesAt (P P' : Process) (p : PVoid) (bs : List UInt8) : Prop :=
  ∀ b, P'.heap.get? b = (P.modify p (.writeBytes (offsetOf p) bs)).get? b

/-- What a call with the data `bs` at `data` does under any kernel: it is out of
memory, or it brings back what is in the message after the call, whatever the
status. -/
inductive CopiesBack (pl : Platform) (data : PVoid) (bs : List UInt8) (w w' : World) :
    NtStatus → Prop
  | unallocated : (newEvents w w').filterMap allocation = [none] → replies (newEvents w w') = [] →
      (∀ b, w'.state.heap.get? b = w.state.heap.get? b) →
      CopiesBack pl data bs w w' statusInsufficientResources
  | asked {r : Reply} : replies (newEvents w w') = [r] → r.taken = frame pl bs →
      (r.written.drop pl.sizeofPortMessage).length ≤ bs.length →
      LeavesAt w.state w'.state data (r.written.drop pl.sizeofPortMessage ++
        bs.drop (r.written.drop pl.sizeofPortMessage).length) →
      CopiesBack pl data bs w w' r.status

/-- The contract of a call with the data `bs` at `data`. -/
structure CopyBackLaw (pl : Platform) (data : PVoid) (bs : List UInt8) (w w' : World)
    (status : NtStatus) : Prop where
  /-- The status is the kernel's; where the kernel was not asked, the allocation
  has failed. -/
  returned : (∃ r, replies (newEvents w w') = [r] ∧ status = r.status) ∨
    replies (newEvents w w') = [] ∧ (newEvents w w').filterMap allocation = [none] ∧
      status = statusInsufficientResources
  failed : ntSuccess status = false → ∀ b, w'.state.heap.get? b = w.state.heap.get? b
  replied : ntSuccess status = true → ∃ r, replies (newEvents w w') = [r] ∧
    (r.written.drop pl.sizeofPortMessage).length ≤ bs.length ∧
    LeavesAt w.state w'.state data (r.written.drop pl.sizeofPortMessage ++
      bs.drop (r.written.drop pl.sizeofPortMessage).length)
  /-- What was allocated was freed, once. -/
  released : freed (newEvents w w') = allocated (newEvents w w')
  /-- No memory fault. -/
  faults : ∀ f ∈ newFaults w w', ∃ h, f = .staleHandle h

variable {pl : Platform} {A : Assumption} {w w' : World} {P P₄ : Process} {q : Ref}
variable {data : PVoid} {bs : List UInt8} {c : Contents}

-- ---------------------------------------------------------------------------
-- Memory
-- ---------------------------------------------------------------------------

theorem leavesAt_same (hd : P.Holds data bs) (h : LeavesAt P P' data bs) (b : Ref) :
    P'.heap.get? b = P.heap.get? b := by
  rw [h b]
  rcases hd with rfl | ⟨p, size, c, rfl, hp, -, hbs⟩
  · cases data with
    | none => rfl
    | some p =>
      have hid : Object.writeBytes (offsetOf (some p)) [] = id := by
        funext obj
        cases obj with
        | buffer size c =>
          refine congrArg (Object.buffer size) (funext fun i => ?_)
          simp [Contents.write]
        | attributes | portContext | serverObject | olderServerObject | clientObject | kaClientObject => rfl
      simp [Process.modify, Table.get?_modify_name, hid]
  · have hsame : Object.writeBytes p.offset bs (.buffer size c) = .buffer size c := by
      refine congrArg (Object.buffer size) ?_
      conv_lhs => rw [← hbs]
      exact Contents.write_slice
    simp only [Process.modify, offsetOf, Table.get?_modify hp, hsame]
    split
    · rename_i he
      rw [he, hp]
    · rfl

/-- After the reply, the copy back and the release of the block, what has
changed is the caller's buffer: it has the bytes from behind the header of the
block. -/
theorem leavesAt_copyBack (api : HeapApi) (data : PVoid) {a : SendWaitReceive} {r : Reply}
    (hq : NewBlock P P₄ q (.buffer (pl.sizeofPortMessage + bs.length) c))
    (hbody : c.slice pl.sizeofPortMessage bs.length = bs)
    (hreceive : a.receiveMessage = some ⟨q, 0⟩) (hattributes : a.receiveMessageAttributes = none)
    (hle : r.written.length ≤ pl.sizeofPortMessage + bs.length) :
    LeavesAt P (((P₄.effect pl (.alpcSendWaitReceivePort a) r).effect pl
      (.rtlCopyMemory data (some ⟨q, pl.sizeofPortMessage⟩) bs.length) ()).effect pl
        (.free api (some ⟨q, 0⟩)) ()) data
      (r.written.drop pl.sizeofPortMessage ++
        bs.drop (r.written.drop pl.sizeofPortMessage).length) := by
  let P₅ := P₄.effect pl (.alpcSendWaitReceivePort a) r
  have hheap : P₅.heap = P₄.heap.modify q.name (.writeBytes 0 r.written) := by
    simp only [P₅, effect, heapAfter, hreceive, hattributes]
    split <;> rfl
  have hblock : P₅.heap.get? q =
      some (.buffer (pl.sizeofPortMessage + bs.length) (c.write 0 r.written)) := by
    rw [hheap, Table.get?_modify hq.block, if_pos rfl, Object.writeBytes]
  have hother : ∀ b, b ≠ q → P₅.heap.get? b = P.heap.get? b := fun b hne => by
    rw [hheap, Table.get?_modify hq.block, if_neg hne, hq.heap, if_neg hne]
  have hback : P₅.bytesAt (some ⟨q, pl.sizeofPortMessage⟩) bs.length =
      r.written.drop pl.sizeofPortMessage ++
        bs.drop (r.written.drop pl.sizeofPortMessage).length := by
    have hat : P₅.at? (some ⟨q, pl.sizeofPortMessage⟩) = some (.buffer _ (c.write 0 r.written)) :=
      at?_live hblock
    simp only [Process.bytesAt, hat]
    rw [Contents.slice_write_front hle, hbody]
  let P₆ := P₅.effect pl (.rtlCopyMemory data (some ⟨q, pl.sizeofPortMessage⟩) bs.length) ()
  have hcopied : ∀ b, P₆.heap.get? b = (P₅.modify data (.writeBytes (offsetOf data)
      (P₅.bytesAt (some ⟨q, pl.sizeofPortMessage⟩) bs.length))).get? b := fun b => rfl
  have halive : ∃ obj, P₆.heap.get? q = some obj := by
    rw [hcopied]
    cases data with
    | none => exact ⟨_, hblock⟩
    | some p =>
      simp only [Process.modify, Table.get?_modify_name, hblock]
      split <;> exact ⟨_, rfl⟩
  obtain ⟨obj, halive⟩ := halive
  intro b
  have hfreed : (P₆.effect pl (.free api (some ⟨q, 0⟩)) ()).heap.get? b =
      if b = q then none else P₆.heap.get? b := Table.get?_release halive
  refine hfreed.trans ?_
  rw [hcopied, hback]
  by_cases hb : b = q
  · subst hb
    rw [if_pos rfl]
    cases data with
    | none => exact hq.free.symm
    | some p => simp [Process.modify, Table.get?_modify_name, hq.free]
  · rw [if_neg hb]
    cases data with
    | none => exact hother b hb
    | some p => simp only [Process.modify, Table.get?_modify_name, hother b hb]

-- ---------------------------------------------------------------------------
-- The call
-- ---------------------------------------------------------------------------

def syncRequest (pl : Platform) (handle : Handle) (n : UInt16) (p : PVoid) : SendWaitReceive where
  portHandle := handle
  flags := alpcMsgflgSyncRequest
  sendMessage := p
  receiveMessage := p
  bufferLength := some (totalLengthOf pl n).toNat
  receiveMessageAttributes := none

/-- What was allocated was freed, once, and no memory fault occurred. -/
structure Tidy (w w' : World) : Prop where
  released : freed (newEvents w w') = allocated (newEvents w w')
  faults : ∀ f ∈ newFaults w w', ∃ h, f = .staleHandle h

theorem effect_unallocated {r : Allocation} (hp : r.pointer = none) :
    P.effect pl (.allocate api l) r = P :=
  effect_eq_self (by simp [heapAfter, hp]) rfl rfl

theorem unallocated_events {r : Allocation} (api : HeapApi) (hp : r.pointer = none) :
    (newEvents w ((system pl A).next w (.allocate api l) r)).filterMap allocation = [none] ∧
      replies (newEvents w ((system pl A).next w (.allocate api l) r)) = [] := by
  rw [newEvents_eq (n := [_]) rfl]
  exact ⟨congrArg (List.cons · []) hp, rfl⟩

theorem copiesBack_unallocated {r : Allocation} (hp : r.pointer = none) :
    CopiesBack pl data bs w ((system pl A).next w (.allocate .crt l) r)
      statusInsufficientResources ∧ Tidy w ((system pl A).next w (.allocate .crt l) r) := by
  have hsame : w.state.effect pl (.allocate .crt l) r = w.state := effect_unallocated hp
  have hevents : newEvents w ((system pl A).next w (.allocate .crt l) r) = [⟨.allocate .crt l, r⟩] :=
    newEvents_eq rfl
  have hfaults : newFaults w ((system pl A).next w (.allocate .crt l) r) = [] :=
    newFaults_eq (congrArg Process.faults hsame)
  obtain ⟨hallocation, hreplies⟩ := unallocated_events (w := w) (A := A) (l := l) .crt hp
  refine ⟨.unallocated hallocation hreplies fun b => congrArg (fun P => P.heap.get? b) hsame, ?_, ?_⟩
  · simp [hevents, freed, allocated, hp]
  · simp [hfaults]

/-- Accesses that stay inside leave only the handle to blame. -/
theorem copyBack_faults (api : HeapApi) {a : SendWaitReceive} {r : Reply}
    (hq : P₄.layoutOf q = some (.buffer (pl.sizeofPortMessage + bs.length)))
    (hd : Inside pl P₄.layoutOf data bs.length) (hreceive : a.receiveMessage = some ⟨q, 0⟩)
    (hattributes : a.receiveMessageAttributes = none)
    (hle : r.written.length ≤ pl.sizeofPortMessage + bs.length) :
    (((P₄.effect pl (.alpcSendWaitReceivePort a) r).effect pl
      (.rtlCopyMemory data (some ⟨q, pl.sizeofPortMessage⟩) bs.length) ()).effect pl
        (.free api (some ⟨q, 0⟩)) ()).faults = P₄.handleFault a.portHandle ++ P₄.faults := by
  let P₅ := P₄.effect pl (.alpcSendWaitReceivePort a) r
  let P₆ := P₅.effect pl (.rtlCopyMemory data (some ⟨q, pl.sizeofPortMessage⟩) bs.length) ()
  have hlay₅ : P₅.layoutOf = P₄.layoutOf := funext fun _ => layoutOf_effect id
  have hlay₆ : P₆.layoutOf = P₄.layoutOf := (funext fun _ => layoutOf_effect id).trans hlay₅
  have hsend : P₄.faultsOf pl (.alpcSendWaitReceivePort a) r = P₄.handleFault a.portHandle := by
    have hwrite : P₄.kernelWriteFault pl (some ⟨q, 0⟩) r.written.length = [] :=
      kernelWriteFault_inside hq (by simpa [Layout.size] using hle)
    have hnone : P₄.structFault none = [] := rfl
    simp only [faultsOf, hreceive, hattributes, hwrite, hnone, List.append_nil]
  have hcopy : P₅.faultsOf pl
      (.rtlCopyMemory data (some ⟨q, pl.sizeofPortMessage⟩) bs.length) () = [] := by
    have hsrc : Inside pl P₅.layoutOf (some ⟨q, pl.sizeofPortMessage⟩) bs.length :=
      .inr (.inr ⟨_, _, rfl, (congrFun hlay₅ q).trans hq, by simp [Layout.size]⟩)
    simp only [faultsOf, accessFault_inside (hlay₅ ▸ hd), accessFault_inside hsrc, List.append_nil]
  have hfree : P₆.faultsOf pl (.free api (some ⟨q, 0⟩)) () = [] :=
    free_fault (p := ⟨q, 0⟩) ((congrFun hlay₆ q).trans hq) rfl
  calc _ = P₆.faultsOf pl (.free api (some ⟨q, 0⟩)) () ++ (P₅.faultsOf pl
          (.rtlCopyMemory data (some ⟨q, pl.sizeofPortMessage⟩) bs.length) () ++
        (P₄.faultsOf pl (.alpcSendWaitReceivePort a) r ++ P₄.faults)) := rfl
    _ = _ := by rw [hfree, hcopy, hsend, List.nil_append, List.nil_append]

theorem copiesBack_sent {r : Allocation} {handle : Handle} {n : UInt16} {v : World}
    (hfit : pl.sizeofPortMessage + n.toNat < 2 ^ 16) (hd : w.state.Holds data bs)
    (hn : bs.length = n.toNat)
    (hr : w.state.Legal pl (.allocate .crt (.buffer (totalLengthOf pl n).toNat)) r)
    (hp : r.pointer = some p)
    (h : Ends (system pl A) (useBlock pl data n (fun portMessage => do
        let status ← alpcSendWaitReceivePort (syncRequest pl handle n portMessage)
        rtlCopyMemory data (messageBody pl portMessage) n.toNat
        return status) (some p))
      ((system pl A).next w (.allocate .crt (.buffer (totalLengthOf pl n).toNat)) r) status v) :
    CopiesBack pl data bs w ((system pl A).next v (.free .crt (some p)) ()) status ∧
      Tidy w ((system pl A).next v (.free .crt (some p)) ()) := by
  obtain ⟨q, rfl, hblock⟩ := newBlock_allocate hr hp
  obtain ⟨c, hc⟩ := layout_buffer hr.1
  rw [hc] at hblock
  have hfilled := newBlock_filled hfit hd hn hblock
  have htotal := totalLengthOf_fits hfit
  obtain ⟨_, -, h⟩ := ends_call.mp h
  obtain ⟨_, -, h⟩ := ends_call.mp h
  obtain ⟨_, -, h⟩ := ends_call.mp h
  obtain ⟨_, -, h⟩ := ends_call.mp h
  obtain ⟨reply, hlegal, h⟩ := ends_call.mp h
  obtain ⟨_, -, h⟩ := ends_call.mp h
  obtain ⟨rfl, hv⟩ := ends_ret.mp h
  have htaken : reply.taken = frame pl bs := takes_framed (hn ▸ hfit) hfilled.block hlegal.1.1
  have hle : reply.written.length ≤ pl.sizeofPortMessage + bs.length := by
    rw [hn, ← htotal]
    exact hlegal.1.2.1
  have hleft := leavesAt_copyBack .crt data hfilled framed_body
    (a := syncRequest pl handle n (some ⟨q, 0⟩)) (r := reply) rfl rfl hle
  have hfaults := copyBack_faults .crt (a := syncRequest pl handle n (some ⟨q, 0⟩))
    (layoutOf_get? hfilled.block) (hfilled.holds hd).inside rfl rfl hle
  rw [hn, ← messageBody_start] at hleft hfaults
  rw [hfilled.faults] at hfaults
  have hevents := newEvents_eq (w := w) (v := (system pl A).next v
    (.free .crt (some ⟨q, 0⟩)) ()) (n := [_, _, _, _, _, _, _, _]) (by rw [hv]; rfl)
  have hreplies : replies (newEvents w ((system pl A).next v
      (.free .crt (some ⟨q, 0⟩)) ())) = [reply] := by rw [hevents]; rfl
  have hstate : v.state = ((afterFilling pl (w.state.effect pl (.allocate .crt _) r)
      (some ⟨q, 0⟩) data n).effect pl (.alpcSendWaitReceivePort
        (syncRequest pl handle n (some ⟨q, 0⟩))) reply).effect pl
          (.rtlCopyMemory data (messageBody pl (some ⟨q, 0⟩)) n.toNat) () :=
    congrArg Program.World.state hv
  rw [← hstate] at hleft hfaults
  refine ⟨.asked hreplies htaken ?_ hleft, ?_, ?_⟩
  · rw [List.length_drop]
    omega
  · simp [hevents, freed, allocated, hp]
  · intro f hf
    rw [newFaults_eq (f := w.state.handleFault handle) hfaults] at hf
    obtain ⟨x, -, rfl, -⟩ := mem_handleFault hf
    exact ⟨x, rfl⟩

/-- Under any kernel. -/
theorem uaSendSynchronousRequest_copiesBack
    (hfit : pl.sizeofPortMessage + n.toNat ≤ pl.alpcMaxAllowedMessageLength)
    (hd : w.state.Holds data bs) (hn : bs.length = n.toNat)
    (h : Ends (system pl A) (uaSendSynchronousRequest pl handle data n) w status w') :
    CopiesBack pl data bs w w' status ∧ Tidy w w' := by
  have hfit' : pl.sizeofPortMessage + n.toNat < 2 ^ 16 := hfit.trans_lt pl.alpcMax_lt
  have hle := totalLengthOf_fits hfit' ▸ hfit
  rcases ends_withPortMessage.mp h with ⟨hlt, -⟩ | ⟨-, r, hr, h⟩
  · omega
  rcases h with ⟨hp, rfl, rfl⟩ | ⟨p, v, hp, hrun, -, rfl⟩
  · exact copiesBack_unallocated hp
  · exact copiesBack_sent hfit' hd hn hr.1 hp hrun

theorem adds_leavesOnFailure {p : Proc α} (h : Ends (system pl leavesOnFailure) p w a w') :
    Adds (fun e => ∀ r ∈ replies [e], ntSuccess r.status = false → r.written = []) w w' := by
  induction h with
  | ret => exact .refl _
  | call hlegal _ ih => exact ((Adds.refl _).next (leavesOnFailure_iff.mp hlegal.2)).trans ih

theorem written_of_failure {p : Proc α} (h : Ends (system pl leavesOnFailure) p w a w')
    (hr : r ∈ replies (newEvents w w')) (hs : ntSuccess r.status = false) : r.written = [] := by
  obtain ⟨new, hlog, hnew⟩ := adds_leavesOnFailure h
  rw [newEvents_eq hlog] at hr
  obtain ⟨e, he, hreply⟩ := List.mem_filterMap.mp hr
  exact hnew e he r (List.mem_filterMap.mpr ⟨e, List.mem_singleton_self e, hreply⟩) hs

theorem copy_back (hfit : pl.sizeofPortMessage + n.toNat ≤ pl.alpcMaxAllowedMessageLength)
    (hd : w.state.Holds data bs) (hn : bs.length = n.toNat)
    (h : Ends (system pl leavesOnFailure) (uaSendSynchronousRequest pl handle data n) w status w') :
    CopyBackLaw pl data bs w w' status := by
  obtain ⟨hcopies, htidy⟩ := uaSendSynchronousRequest_copiesBack hfit hd hn h
  cases hcopies with
  | unallocated hallocation hreplies hsame =>
    exact {
      returned := .inr ⟨hreplies, hallocation, rfl⟩
      failed := fun _ => hsame
      replied := fun hs => absurd hs (by decide)
      released := htidy.released
      faults := htidy.faults }
  | @asked r hreplies _ hlen hleft =>
    refine ⟨.inl ⟨r, hreplies, rfl⟩, fun hs b => ?_, fun _ => ⟨r, hreplies, hlen, hleft⟩,
      htidy.released, htidy.faults⟩
    have hempty : r.written = [] := written_of_failure h (by rw [hreplies]; exact .head _) hs
    simp only [hempty, List.drop_nil, List.length_nil, List.drop_zero, List.nil_append] at hleft
    exact leavesAt_same hd hleft b

/-- Three bytes sent, and a reply with a body of two. -/
theorem copy_back_shorter_reply : ∃ status w',
    Ends (system .x64 leavesOnFailure) (uaSendSynchronousRequest .x64 none callerData 3)
      (callerWith 3) status w' ∧
    CopyBackLaw .x64 callerData [0, 0, 0] (callerWith 3) w' status ∧
    w'.state.bytesAt callerData 3 = [7, 7, 0] := by
  let E : Environment := { Environment.calm with
    outcome := fun k _ => if k = .send then { message := List.replicate 42 7 } else {} }
  have hrun : ((uaSendSynchronousRequest .x64 none callerData 3).replay
      (system .x64 leavesOnFailure) (E.oracle .x64 leavesOnFailure) (callerWith 3)).any
        fun r => r.2.state.bytesAt callerData 3 = [7, 7, 0] := by decide +kernel
  obtain ⟨⟨status, w'⟩, hr, hbytes⟩ := (Option.any_eq_true _ _).mp hrun
  have hends := replay_ends (Environment.oracle_sound leavesOnFailure) hr
  exact ⟨status, w', hends, copy_back (by decide) (callerWith_holds 3) rfl hends,
    by simpa using hbytes⟩

end AlpcResearch.Ua
