import AlpcResearch.Rpc.Parties
import AlpcResearch.Ua.CopyBack

/-!
# What the calls of the clients return

A client's call hands the kernel one frame, or nothing for want of memory, and
returns the kernel's status. What comes back for a synchronous request is the
answer to the message of that call (`Answered`); the call puts the body of it
into the caller's buffer. So a request that returns success has left its caller
what the service replies to it (`served`).
-/

namespace AlpcResearch.Rpc

open Resource Program Process Ua

variable {ι S : Type} {svc : Service S} {pl : Platform} {server : ServerObject}
variable {A : Assumption} {u v : World} {data : PVoid} {bs : List UInt8} {n : UInt16}

-- ---------------------------------------------------------------------------
-- The calls alone
-- ---------------------------------------------------------------------------

/-- What a datagram with the data `bs` does under any kernel: it is out of
memory, or it is handed over once. Nothing changes in memory. -/
inductive Posts (bs : List UInt8) (pl : Platform) (w w' : World) : NtStatus → Prop
  | unallocated : (newEvents w w').filterMap allocation = [none] → replies (newEvents w w') = [] →
      (∀ b, w'.state.heap.get? b = w.state.heap.get? b) →
      Posts bs pl w w' statusInsufficientResources
  | asked {r : Reply} : replies (newEvents w w') = [r] → r.taken = frame pl bs →
      (∀ b, w'.state.heap.get? b = w.state.heap.get? b) → Posts bs pl w w' r.status

theorem uaSendDatagram_posts {status : NtStatus}
    (hfit : pl.sizeofPortMessage + n.toNat ≤ pl.alpcMaxAllowedMessageLength)
    (hd : u.state.Holds data bs) (hn : bs.length = n.toNat)
    (h : Ends (system pl A) (uaSendDatagram pl handle data n) u status v) :
    Posts bs pl u v status := by
  have hfit' : pl.sizeofPortMessage + n.toNat < 2 ^ 16 := hfit.trans_lt pl.alpcMax_lt
  have hle := totalLengthOf_fits hfit' ▸ hfit
  rcases ends_withPortMessage.mp h with ⟨hlt, -⟩ | ⟨-, r, hr, ⟨hp, rfl, rfl⟩ | ⟨p, v', hp, hrun, -, rfl⟩⟩
  · omega
  · obtain ⟨hallocation, hreplies⟩ := unallocated_events .crt hp
    exact .unallocated hallocation hreplies fun b =>
      congrArg (fun P : Process => P.heap.get? b) (effect_unallocated hp)
  · obtain ⟨q, rfl, hblock⟩ := newBlock_allocate hr.1 hp
    obtain ⟨c, hc⟩ := layout_buffer hr.1.1
    rw [hc] at hblock
    have hfilled := newBlock_filled hfit' hd hn hblock
    obtain ⟨_, -, hrun⟩ := ends_call.mp hrun
    obtain ⟨_, -, hrun⟩ := ends_call.mp hrun
    obtain ⟨_, -, hrun⟩ := ends_call.mp hrun
    obtain ⟨_, -, hrun⟩ := ends_call.mp hrun
    obtain ⟨reply, hlegal, hrun⟩ := ends_call.mp hrun
    obtain ⟨rfl, hv⟩ := ends_ret.mp hrun
    have htaken : reply.taken = frame pl bs := takes_framed (hn ▸ hfit') hfilled.block hlegal.1.1
    have hevents := newEvents_eq (w := u) (v := (system pl A).next v'
      (.free .crt (some ⟨q, 0⟩)) ()) (n := [_, _, _, _, _, _, _]) (by rw [hv]; rfl)
    refine .asked (by rw [hevents]; rfl) htaken fun b => ?_
    have hheap : v'.state.heap = (afterFilling pl (u.state.effect pl (.allocate .crt _) r)
        (some ⟨q, 0⟩) data n).heap := by
      rw [hv]
      simp only [next_state, system, effect, heapAfter]
      split <;> rfl
    have hfreed : (v'.state.effect pl (.free .crt (some ⟨q, 0⟩)) ()).heap.get? b =
        if b = q then none else v'.state.heap.get? b :=
      Table.get?_release (hheap ▸ hfilled.block)
    refine hfreed.trans ?_
    rw [hheap, hfilled.heap]
    split
    · rename_i hb
      rw [hb, hfilled.free]
    · rfl

def OnlySync : Op → Prop
  | .alpcSendWaitReceivePort a => isSync a = true
  | _ => True

theorem uaSendSynchronousRequest_sync (handle : Handle) (data : PVoid) (n : UInt16) :
    (uaSendSynchronousRequest pl handle data n).Uses OnlySync := by
  have hflag : alpcMsgflgSyncRequest &&& alpcMsgflgSyncRequest ≠ 0 := by decide
  rw [uaSendSynchronousRequest, withPortMessage_eq]
  split
  · trivial
  refine ⟨trivial, fun r => ?_⟩
  dsimp only
  split
  · trivial
  · refine uses_bind ?_ fun _ => ⟨trivial, fun _ => trivial⟩
    refine ⟨trivial, fun _ => ⟨trivial, fun _ => ⟨trivial, fun _ => ⟨trivial, fun _ => ?_⟩⟩⟩⟩
    exact ⟨decide_eq_true hflag, fun _ => ⟨trivial, fun _ => trivial⟩⟩

-- ---------------------------------------------------------------------------
-- The calls among the others
-- ---------------------------------------------------------------------------

variable [DecidableEq ι] {w : RpcWorld ι}

structure MadeIn (i : ι) (before : Process) (w : RpcWorld ι) (u : World) : Prop where
  state : u.state = before
  history : u.log <:+ (view (.client i) w).log

/-- The message `m` of the request client `i` made in `u`, with the data `bs` at
`data`, has got the reply `reply`. -/
structure Served (pl : Platform) (svc : Service S) (i : ι) (data : PVoid) (bs : List UInt8)
    (u : World) (w : RpcWorld ι) (m : Packet ι) (reply : List UInt8) : Prop where
  /-- It was the last one the client had sent when the call came back. -/
  sent : ∃ a r later earlier,
    w.log = later ++ ⟨(.client i, .await (.alpcSendWaitReceivePort a)), r⟩ :: earlier ∧
    replies (newEvents u (view (.client i) w)) = [r] ∧ lastSent i earlier = some m
  bytes : m.bytes = frame pl bs
  replies : w.state.Replies pl svc m reply
  length : (bodyOf pl reply).length = bs.length
  /-- The caller finds the body in its buffer, and nothing else has changed. -/
  buffer : LeavesAt u.state (w.state.process (.client i)) data (bodyOf pl reply)

structure Returned (pl : Platform) (svc : Service S) (i : ι) (data : PVoid) (bs : List UInt8)
    (u : World) (w : RpcWorld ι) (status : NtStatus) : Prop where
  copies : CopiesBack pl data bs u (view (.client i) w) status
  served : ntSuccess status = true → ∃ m reply, Served pl svc i data bs u w m reply

omit [DecidableEq ι] in
theorem replies_length {N : Net ι} {m : Packet ι} {reply : List UInt8} (hN : N.Sound pl svc)
    (h : N.Replies pl svc m reply) : reply.length = m.bytes.length := by
  obtain ⟨msg, rest, hsuffix, -, rfl⟩ := h
  have hm : (m, msg) ∈ N.received := hsuffix.subset List.mem_cons_self
  have harrives : m.ArrivesAs pl msg := hN.arrived m msg hm
  have hframed : m.Framed pl := hN.framed m (List.mem_append_left _ (List.mem_map_of_mem hm))
  have hheader : pl.sizeofPortMessage ≤ msg.length := (hframed.arrives harrives).length
  rw [Service.reply, List.length_append, svc.length, List.length_take, bodyOf, List.length_drop,
    ← harrives.delivers.length]
  omega

/-- An event a party has seen came at some point of the run. -/
theorem exists_split {p : Party ι} {o : Op} {r : Ret o} (h : ⟨o, r⟩ ∈ (view p w).log) :
    ∃ later earlier, w.log = later ++ ⟨(p, .await o), r⟩ :: earlier := by
  obtain ⟨⟨⟨q, phase⟩, r'⟩, hmem, he⟩ := List.mem_filterMap.mp h
  cases phase with
  | issue => cases he
  | await o' =>
    simp only [Option.ite_none_right_eq_some, Option.some.injEq] at he
    obtain ⟨rfl, he⟩ := he
    cases he
    exact List.append_of_mem hmem

theorem mem_of_replies {log : List Ev} {r : Reply} (h : replies log = [r]) :
    ∃ a, (⟨.alpcSendWaitReceivePort a, r⟩ : Ev) ∈ log := by
  have hr : r ∈ replies log := h ▸ List.mem_singleton_self r
  obtain ⟨⟨o, r'⟩, hmem, he⟩ := List.mem_filterMap.mp hr
  cases o with
  | alpcSendWaitReceivePort a =>
    cases he
    exact ⟨a, hmem⟩
  | _ => cases he

theorem request_returned {i : ι} {status : NtStatus} (hw : Common pl svc w)
    (hfit : pl.sizeofPortMessage + n.toNat ≤ pl.alpcMaxAllowedMessageLength)
    (hd : u.state.Holds data bs) (hn : bs.length = n.toNat)
    (h : Ends (system pl anyKernel) (uaSendSynchronousRequest pl handle data n) u status
      (view (.client i) w)) :
    Returned pl svc i data bs u w status := by
  have hcopies := (uaSendSynchronousRequest_copiesBack hfit hd hn h).1
  refine ⟨hcopies, fun hs => ?_⟩
  cases hcopies with
  | unallocated => exact absurd hs (by decide)
  | @asked r hreplies htaken hlen hleft =>
    obtain ⟨new, hlog, hsync⟩ := h.log_grows (uaSendSynchronousRequest_sync handle data n)
    obtain ⟨a, hmem⟩ := mem_of_replies hreplies
    rw [newEvents_eq hlog] at hmem
    obtain ⟨later, earlier, hsplit⟩ :=
      exists_split (w := w) (hlog ▸ List.mem_append_left _ hmem)
    obtain ⟨m, reply, hm⟩ := hw.answered i a r later earlier hsplit (hsync _ hmem) hs
    have hbytes : m.bytes = frame pl bs := hm.bytes.trans htaken
    have hlength : (bodyOf pl reply).length = bs.length := by
      rw [bodyOf, List.length_drop, replies_length hw.sound hm.replies, hbytes, length_frame]
      omega
    have hbody : r.written.drop pl.sizeofPortMessage = bodyOf pl reply := hm.delivers.data
    refine ⟨m, reply, ⟨a, r, later, earlier, hsplit, hreplies, hm.last⟩, hbytes, hm.replies,
      hlength, ?_⟩
    rw [hbody, hlength, List.drop_length, List.append_nil] at hleft
    exact hleft

end AlpcResearch.Rpc
