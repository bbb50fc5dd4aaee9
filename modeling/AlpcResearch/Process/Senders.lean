import AlpcResearch.Process.Laws

/-!
# The senders' common part

`withPortMessage` either refuses, runs out of memory, or works on a block of
its own and releases it (`ends_withPortMessage`). While it works no block
comes or goes, so whether its accesses stay inside can be read off its text
(`Contained.run`).
-/

namespace AlpcResearch

open Resource Program Process

-- ---------------------------------------------------------------------------
-- Lengths
-- ---------------------------------------------------------------------------

theorem toNat_totalLengthOf :
    (totalLengthOf pl n).toNat = (pl.sizeofPortMessage + n.toNat) % 2 ^ 16 := by
  simp [totalLengthOf]

/-- Where the sum fits a `USHORT`, the narrowing changes nothing. -/
theorem totalLengthOf_fits (h : pl.sizeofPortMessage + n.toNat < 2 ^ 16) :
    (totalLengthOf pl n).toNat = pl.sizeofPortMessage + n.toNat := by
  rw [toNat_totalLengthOf, Nat.mod_eq_of_lt h]

/-- Where it does not, what is left is shorter than a header. -/
theorem totalLengthOf_wraps (h : 2 ^ 16 ≤ pl.sizeofPortMessage + n.toNat) :
    (totalLengthOf pl n).toNat < pl.sizeofPortMessage := by
  have hn := n.toNat_lt
  have hs : pl.sizeofPortMessage < 2 ^ 16 := by cases pl <;> decide
  rw [toNat_totalLengthOf]
  omega

-- ---------------------------------------------------------------------------
-- The parts of a sender
-- ---------------------------------------------------------------------------

/-- What a sender does with its block before it releases it. -/
def useBlock (pl : Platform) (data : PVoid) (length : UInt16) (send : PVoid → Proc α)
    (portMessage : PVoid) : Proc α := do
  rtlZeroMemory portMessage (totalLengthOf pl length).toNat
  setTotalLength portMessage (totalLengthOf pl length)
  setDataLength portMessage length
  rtlCopyMemory (messageBody pl portMessage) data length.toNat
  send portMessage

theorem withPortMessage_eq {fail : NtStatus → α} {send : PVoid → Proc α} :
    withPortMessage api pl data n fail send =
      if pl.alpcMaxAllowedMessageLength < (totalLengthOf pl n).toNat then
        .ret (fail statusBufferOverflow)
      else
        .call (.allocate api (.buffer (totalLengthOf pl n).toNat)) fun r =>
          match r.pointer with
          | none => .ret (fail statusInsufficientResources)
          | some q => useBlock pl data n send (some q) >>= fun a =>
              .call (.free api (some q)) fun _ => .ret a := by
  unfold withPortMessage
  refine ite_congr rfl (fun _ => rfl) fun _ => ?_
  rw [allocateZeroHeap_bind]
  refine congrArg _ (funext fun r => ?_)
  cases r.pointer with
  | none => rfl
  | some q =>
    simp only [useBlock, rtlZeroMemory, free, issue, Layout.size, call_bind, ret_bind, pure_eq,
      bind_assoc, reduceCtorEq, if_false]

theorem ends_withPortMessage {fail : NtStatus → α} {send : PVoid → Proc α} :
    Ends (system pl A) (withPortMessage api pl data n fail send) w a w' ↔
      pl.alpcMaxAllowedMessageLength < (totalLengthOf pl n).toNat ∧
          a = fail statusBufferOverflow ∧ w' = w ∨
        (totalLengthOf pl n).toNat ≤ pl.alpcMaxAllowedMessageLength ∧
          ∃ r, (system pl A).legal w (.allocate api (.buffer (totalLengthOf pl n).toNat)) r ∧
            (r.pointer = none ∧ a = fail statusInsufficientResources ∧
                w' = (system pl A).next w _ r ∨
              ∃ q v, r.pointer = some q ∧
                Ends (system pl A) (useBlock pl data n send (some q))
                  ((system pl A).next w _ r) a v ∧
                (system pl A).legal v (.free api (some q)) () ∧
                w' = (system pl A).next v (.free api (some q)) ()) := by
  rw [withPortMessage_eq]
  by_cases hle : pl.alpcMaxAllowedMessageLength < (totalLengthOf pl n).toNat
  · simp [hle, ends_ret, Nat.not_le.mpr hle]
  · simp only [hle, if_false, false_and, false_or, Nat.le_of_not_lt hle, true_and, ends_call]
    refine exists_congr fun r => and_congr_right fun _ => ?_
    cases hp : r.pointer with
    | none => simp [ends_ret]
    | some q =>
      simp only [ends_bind, ends_call, ends_ret, reduceCtorEq, false_and, false_or,
        Option.some.injEq]
      constructor
      · rintro ⟨b, v, h, ⟨⟩, hfree, rfl, rfl⟩; exact ⟨q, v, rfl, h, hfree, rfl⟩
      · rintro ⟨q', v, rfl, h, hfree, rfl⟩; exact ⟨a, v, h, (), hfree, rfl, rfl⟩

-- ---------------------------------------------------------------------------
-- Staying inside
-- ---------------------------------------------------------------------------

def StaysInside (pl : Platform) (lay : Ref → Option Layout) (o : Op) : Prop :=
  ¬ ChangesBlocks o ∧ ∀ a ∈ accesses o, Inside pl lay a.1 a.2

def Contained (w v : World) : Prop :=
  ∃ fs, v.state.faults = fs ++ w.state.faults ∧ ∀ p len, .outOfBounds p len ∉ fs

theorem Contained.refl : Contained w w := ⟨[], rfl, by simp⟩

theorem Contained.next {o : Op} {r : Ret o} (h : Contained w v)
    (ho : ∀ a ∈ accesses o, Inside pl v.state.layoutOf a.1 a.2) :
    Contained w ((system pl A).next v o r) := by
  obtain ⟨fs, hfs, hout⟩ := h
  refine ⟨v.state.faultsOf pl o r ++ fs, ?_, ?_⟩
  · simp [system, faults_effect, hfs]
  intro p len hmem
  rcases List.mem_append.mp hmem with hmem | hmem
  · obtain ⟨a, ha, hout⟩ := outOfBounds_access hmem
    exact hout (ho a ha)
  · exact hout p len hmem

theorem Contained.run {p : Proc α} (h : Ends (system pl A) p v a v') (hw : Contained w v)
    (hp : p.Uses (StaysInside pl v.state.layoutOf)) :
    Contained w v' ∧ v'.state.layoutOf = v.state.layoutOf := by
  refine h.keeps (I := fun u => Contained w u ∧ u.state.layoutOf = v.state.layoutOf) hp
    (fun u o r ho _ hu => ⟨?_, ?_⟩) ⟨hw, rfl⟩
  · exact hu.1.next (hu.2 ▸ ho.2)
  · rw [← hu.2]
    exact funext fun _ => layoutOf_effect ho.1

theorem stays_access {lay : Ref → Option Layout} {o : Op} (hb : ¬ ChangesBlocks o)
    (ha : accesses o = [(p, len)]) (h : Inside pl lay p len) : StaysInside pl lay o := by
  refine ⟨hb, fun a hmem => ?_⟩
  rw [ha] at hmem
  rw [List.mem_singleton.mp hmem]
  exact h

theorem stays_copy {lay : Ref → Option Layout} (hd : Inside pl lay dst len)
    (hs : Inside pl lay src len) : StaysInside pl lay (.rtlCopyMemory dst src len) := by
  refine ⟨id, fun a hmem => ?_⟩
  simp only [accesses, List.mem_cons, List.not_mem_nil, or_false] at hmem
  rcases hmem with rfl | rfl
  · exact hd
  · exact hs

theorem inside_block {lay : Ref → Option Layout} {q : Ptr} (hq : lay q.block = some (.buffer size))
    (h0 : q.offset = 0) (hle : off + len ≤ size) : Inside pl lay (some (q.add off)) len :=
  .inr (.inr ⟨q.add off, _, rfl, hq, by simpa [Ptr.add, h0, Layout.size] using hle⟩)

theorem useBlock_inside {lay : Ref → Option Layout} {send : PVoid → Proc α} {q : Ptr}
    (hfit : pl.sizeofPortMessage + n.toNat < 2 ^ 16)
    (hq : lay q.block = some (.buffer (totalLengthOf pl n).toNat)) (h0 : q.offset = 0)
    (hd : Inside pl lay data n.toNat) (hs : (send (some q)).Uses (StaysInside pl lay)) :
    (useBlock pl data n send (some q)).Uses (StaysInside pl lay) := by
  have htotal := totalLengthOf_fits hfit
  have hheader : 24 ≤ pl.sizeofPortMessage := by cases pl <;> decide
  refine ⟨?_, fun _ => ⟨?_, fun _ => ⟨?_, fun _ => ⟨?_, fun _ => hs⟩⟩⟩⟩
  · exact stays_access id rfl (inside_block hq h0 (show 0 + _ ≤ _ by omega))
  · exact stays_access id rfl (inside_block hq h0 (by simp [PortMessage.offTotalLength]; omega))
  · exact stays_access id rfl (inside_block hq h0 (by simp [PortMessage.offDataLength]; omega))
  · exact stays_copy (inside_block hq h0 (by omega)) hd

end AlpcResearch
