import AlpcResearch.Process.Senders
import AlpcResearch.Process.Script
import AlpcResearch.Ua

/-!
# Message lengths

`TotalLength` is computed in `int` and narrowed to `USHORT` before it is
compared with the maximum. `LengthLaw` is what the check is there for: it
refuses exactly the messages that are too long, and a message it lets through
gets a block of its own size. The law holds of a call exactly when the sum
fits the `USHORT`.
-/

namespace AlpcResearch

open Resource Program Process

/-- The length law of a call with `n` bytes of data, from `w` to `w'`. -/
structure LengthLaw (pl : Platform) (n : Nat) (w w' : World) (status : NtStatus) : Prop where
  /-- Refused with nothing done, exactly when the message is too long. -/
  refuses : status = statusBufferOverflow ∧ newEvents w w' = [] ↔
    pl.alpcMaxAllowedMessageLength < pl.sizeofPortMessage + n
  /-- A block that was allocated has the size of the message. -/
  exact : ∀ api l r, ⟨.allocate api l, r⟩ ∈ newEvents w w' → r.pointer ≠ none →
    l = .buffer (pl.sizeofPortMessage + n)
  /-- The header writes and the copies stay inside their blocks. -/
  inside : ∀ p len, .outOfBounds p len ∉ newFaults w w'

variable {w w' : World} {pl : Platform} {n : UInt16} {data : PVoid} {api : HeapApi}

theorem Contained.newFaults (h : Contained w w') (p : Ptr) (len : Nat) :
    .outOfBounds p len ∉ newFaults w w' := by
  obtain ⟨fs, hfs, hout⟩ := h
  simpa [AlpcResearch.newFaults, since_eq hfs] using hout p len

theorem Process.Inside.allocate {P : Process} {r : Allocation} (h : Inside pl P.layoutOf p len)
    (hr : P.Legal pl (.allocate api l) r) :
    Inside pl (P.effect pl (.allocate api l) r).layoutOf p len := by
  rcases h with h | h | ⟨q, m, rfl, hq, hle⟩
  · exact .inl h
  · exact .inr (.inl h)
  · refine .inr (.inr ⟨q, m, rfl, ?_, hle⟩)
    cases hp : r.pointer with
    | none => simpa [effect, heapAfter, layoutOf, hp] using hq
    | some b =>
      obtain ⟨obj, hobj, -⟩ := layoutOf_some.mp hq
      rw [layoutOf_allocate hr hp, if_neg (Table.ne_of_fresh (hr.2.2.2 b hp).2 hobj)]
      exact hq

/-- A sender whose call on the filled block stays inside keeps the law exactly
below 2^16. -/
theorem withPortMessage_law {fail : NtStatus → α} {send : PVoid → Proc α} (status : α → NtStatus)
    (hfail : ∀ s, status (fail s) = s) (hdata : Inside pl w.state.layoutOf data n.toNat)
    (hsend : ∀ lay q, lay q.block = some (.buffer (totalLengthOf pl n).toNat) → q.offset = 0 →
      pl.sizeofPortMessage + n.toNat < 2 ^ 16 → Inside pl lay data n.toNat →
      (send (some q)).Uses (StaysInside pl lay))
    (h : Ends (system pl anyKernel) (withPortMessage api pl data n fail send) w a w') :
    LengthLaw pl n.toNat w w' (status a) ↔ pl.sizeofPortMessage + n.toNat < 2 ^ 16 := by
  have hpl := pl.header_le_max
  constructor
  · intro law
    by_contra hlarge
    have hwraps := totalLengthOf_wraps (Nat.le_of_not_lt hlarge)
    have hmax := pl.alpcMax_lt
    obtain ⟨-, hnone⟩ := law.refuses.mpr (by omega)
    rcases ends_withPortMessage.mp h with ⟨hlt, -⟩ | ⟨-, r, -, ⟨-, -, rfl⟩ | ⟨q, v, -, hv, -, rfl⟩⟩
    · omega
    · exact newEvents_ne (List.suffix_refl _) hnone
    · exact newEvents_ne (hv.log_suffix.trans (List.suffix_cons _ _)) hnone
  · intro hfit
    have htotal := totalLengthOf_fits hfit
    rcases ends_withPortMessage.mp h with
      ⟨hlt, rfl, rfl⟩ | ⟨hle, r, hr, ⟨hnone, rfl, rfl⟩ | ⟨q, v, hq, hv, -, rfl⟩⟩
    · exact {
        refuses := by simpa [hfail, newEvents] using htotal ▸ hlt
        exact := by simp [newEvents]
        inside := Contained.refl.newFaults }
    · exact {
        refuses := ⟨fun h => absurd h.2 (newEvents_ne (List.suffix_refl _)), fun h => by omega⟩
        exact := by
          rintro _ _ r' hmem hne
          have hlog : ((system pl anyKernel).next w _ r).log = [⟨_, r⟩] ++ w.log := rfl
          rw [newEvents_eq hlog] at hmem
          cases List.mem_singleton.mp hmem
          exact absurd hnone hne
        inside := (Contained.refl.next (by simp [accesses])).newFaults }
    · let lay := ((system pl anyKernel).next w _ r).state.layoutOf
      have hblock : lay q.block = some (.buffer (totalLengthOf pl n).toNat) := by
        simp [lay, system, layoutOf_allocate hr.1 hq]
      have hd : Inside pl lay data n.toNat := hdata.allocate hr.1
      have h0 := (hr.1.2.2.2 q hq).1
      have hp := useBlock_inside hfit hblock h0 hd (hsend lay q hblock h0 hfit hd)
      obtain ⟨new, hnew, hgood⟩ := hv.log_grows hp
      have hin : Contained w v := (Contained.refl.next (by simp [accesses])).run hv hp |>.1
      exact {
        refuses := ⟨fun h => absurd h.2
          (newEvents_ne (hv.log_suffix.trans (List.suffix_cons _ _))), fun h => by omega⟩
        exact := by
          rintro _ _ r' hmem hne
          have hlog : ((system pl anyKernel).next v (.free api (some q)) ()).log =
              (⟨.free api (some q), ()⟩ :: new ++ [⟨_, r⟩]) ++ w.log := by simp [hnew]
          rw [newEvents_eq hlog] at hmem
          simp only [List.cons_append, List.mem_cons, List.mem_append, List.not_mem_nil, or_false]
            at hmem
          rcases hmem with he | hmem | he
          · cases he
          · exact absurd trivial (hgood _ hmem).1
          · cases he
            rw [htotal]
        inside := (hin.next (by simp [accesses])).newFaults }

namespace Ua

inductive EntryPoint
  | sendSynchronousRequest (communicationPortHandle : Handle)
  | sendDatagram (communicationPortHandle : Handle)
  | connectServer (serverPortName : String)

def EntryPoint.call (pl : Platform) (data : PVoid) (length : UInt16) : EntryPoint → Proc NtStatus
  | .sendSynchronousRequest h => uaSendSynchronousRequest pl h data length
  | .sendDatagram h => uaSendDatagram pl h data length
  | .connectServer name => do
    let (status, _) ← uaConnectServer pl name data length
    return status

def callerWith (size : Nat) : World where
  state := { Process.empty with heap := Table.empty.acquire 0 (.buffer size fun _ => 0) }
  log := []

def callerData : PVoid := some ⟨⟨0, 0⟩, 0⟩

/-- The law holds of a call exactly when header and data together fit the
`USHORT` their sum is stored in. -/
theorem send_length_law (e : EntryPoint) (hdata : Inside pl w.state.layoutOf data n.toNat)
    (h : Ends (system pl anyKernel) (e.call pl data n) w status w') :
    LengthLaw pl n.toNat w w' status ↔ pl.sizeofPortMessage + n.toNat < 2 ^ 16 := by
  cases e with
  | sendSynchronousRequest handle =>
    refine withPortMessage_law id (fun _ => rfl) hdata ?_ h
    intro lay q hq h0 hfit hd
    refine ⟨⟨id, by simp [accesses]⟩, fun _ => ⟨stays_copy hd (inside_block hq h0 ?_), fun _ => trivial⟩⟩
    rw [totalLengthOf_fits hfit]
  | sendDatagram handle =>
    refine withPortMessage_law id (fun _ => rfl) hdata ?_ h
    intro lay q hq h0 hfit hd
    exact ⟨⟨id, by simp [accesses]⟩, fun _ => trivial⟩
  | connectServer name =>
    obtain ⟨r, v, hr, he⟩ := ends_bind.mp h
    obtain ⟨rfl, rfl⟩ := ends_ret.mp he
    refine withPortMessage_law Prod.fst (fun _ => rfl) hdata ?_ hr
    intro lay q hq h0 hfit hd
    exact ⟨⟨id, by simp [accesses]⟩, fun _ => trivial⟩

def sendBytes (n : UInt16) : Option (NtStatus × World) :=
  ((EntryPoint.sendDatagram none).call .x64 callerData n).replay (system .x64 anyKernel)
    (Environment.calm.oracle .x64 anyKernel) (callerWith n.toNat)

theorem sendBytes_ends (h : sendBytes n = some (status, w')) :
    Ends (system .x64 anyKernel) ((EntryPoint.sendDatagram none).call .x64 callerData n)
      (callerWith n.toNat) status w' :=
  replay_ends (Environment.oracle_sound _) h

theorem send_length_law_short : ∃ status w',
    sendBytes 3 = some (status, w') ∧ LengthLaw .x64 3 (callerWith 3) w' status := by
  obtain ⟨⟨status, w'⟩, h⟩ := Option.isSome_iff_exists.mp (show (sendBytes 3).isSome by decide)
  have hdata : Inside .x64 (callerWith 3).state.layoutOf callerData (3 : UInt16).toNat :=
    .inr (.inr ⟨_, .buffer 3, rfl, by decide, by decide⟩)
  exact ⟨status, w', h, (send_length_law _ hdata (sendBytes_ends h)).mpr (by decide)⟩

/-- 65535 bytes on x64: the 65575 bytes of the message wrap to 39, the check
lets them through, and the copy runs out of the 39-byte block. -/
theorem send_length_law_wraps : ∃ status w',
    Ends (system .x64 anyKernel) ((EntryPoint.sendDatagram none).call .x64 callerData 65535)
      (callerWith 65535) status w' ∧
    status = statusSuccess ∧ .outOfBounds ⟨⟨1, 1⟩, 40⟩ 65535 ∈ newFaults (callerWith 65535) w' ∧
    ¬ LengthLaw .x64 65535 (callerWith 65535) w' status := by
  have hrun : (sendBytes 65535).any (fun r => r.1 = statusSuccess ∧
      .outOfBounds ⟨⟨1, 1⟩, 40⟩ 65535 ∈ newFaults (callerWith 65535) r.2) := by decide
  obtain ⟨⟨status, w'⟩, h, hfault⟩ := (Option.any_eq_true _ _).mp hrun
  simp only [decide_eq_true_eq] at hfault
  exact ⟨status, w', sendBytes_ends h, hfault.1, hfault.2, fun law => law.inside _ _ hfault.2⟩

end Ua

end AlpcResearch
