import AlpcResearch.Process.Laws

/-!
# Filling a buffer

What a program that writes into one buffer after another write leaves behind:
that buffer with its new bytes, and everything else as it was (`Rewrites`).
`Holds` says of a pointer which bytes are there to be copied from.
-/

namespace AlpcResearch

open Resource Program

namespace Process

variable {pl : Platform} {P P' P'' : Process} {q b : Ref} {data data' : Contents} {p : PVoid}
variable {bs : List UInt8}

-- ---------------------------------------------------------------------------
-- What is in a buffer
-- ---------------------------------------------------------------------------

/-- The bytes `bs` lie at `p`, in a live buffer. No bytes lie anywhere. -/
def Holds (P : Process) (p : PVoid) (bs : List UInt8) : Prop :=
  bs = [] ∨ ∃ q size data, p = some q ∧ P.heap.get? q.block = some (.buffer size data) ∧
    q.offset + bs.length ≤ size ∧ data.slice q.offset bs.length = bs

def holds (P : Process) (p : PVoid) (bs : List UInt8) : Bool :=
  bs = [] || match p with
    | none => false
    | some q => match P.heap.get? q.block with
      | some (.buffer size data) =>
        q.offset + bs.length ≤ size && data.slice q.offset bs.length = bs
      | _ => false

theorem holds_iff : P.holds p bs = true ↔ P.Holds p bs := by
  by_cases hbs : bs = []
  · simp [holds, Holds, hbs]
  cases p with
  | none => simp [holds, Holds, hbs]
  | some q =>
    cases hq : P.heap.get? q.block with
    | none => simp [holds, Holds, hbs, hq]
    | some obj =>
      cases obj with
      | buffer size data => simp [holds, Holds, hbs, hq]
      | _ => simp [holds, Holds, hbs, hq]

instance : Decidable (P.Holds p bs) := decidable_of_iff _ holds_iff

theorem Holds.bytesAt (h : P.Holds p bs) : P.bytesAt p bs.length = bs := by
  rcases h with rfl | ⟨q, size, data, rfl, hq, -, hbs⟩
  · unfold Process.bytesAt
    split <;> rfl
  · simp [Process.bytesAt, at?_live hq, hbs]

theorem Holds.inside (h : P.Holds p bs) : Inside pl P.layoutOf p bs.length := by
  rcases h with rfl | ⟨q, size, data, rfl, hq, hle, -⟩
  · exact .inl rfl
  · exact .inr (.inr ⟨q, _, rfl, layoutOf_get? hq, hle⟩)

theorem Holds.mono (h : P.Holds p bs)
    (hheap : ∀ q size data, p = some q → P.heap.get? q.block = some (.buffer size data) →
      P'.heap.get? q.block = some (.buffer size data)) : P'.Holds p bs := by
  rcases h with rfl | ⟨q, size, data, rfl, hq, hle, hbs⟩
  · exact .inl rfl
  · exact .inr ⟨q, size, data, rfl, hheap q size data rfl hq, hle, hbs⟩

-- ---------------------------------------------------------------------------
-- Writing into a buffer
-- ---------------------------------------------------------------------------

/-- `P'` is `P` with the bytes `data` in the buffer `q`. -/
structure Rewrites (P P' : Process) (q : Ref) (size : Nat) (data : Contents) : Prop where
  heap : ∀ b, P'.heap.get? b = if b = q then some (.buffer size data) else P.heap.get? b
  handles : P'.handles = P.handles
  faults : P'.faults = P.faults
  next : P'.heap.next = P.heap.next

namespace Rewrites

theorem start (hq : P.heap.get? q = some (.buffer size data)) : Rewrites P P q size data where
  heap b := by
    split
    · rename_i he
      rw [he, hq]
    · rfl
  handles := rfl
  faults := rfl
  next := rfl

theorem block (h : Rewrites P P' q size data) : P'.heap.get? q = some (.buffer size data) := by
  simp [h.heap]

theorem other (h : Rewrites P P' q size data) (hne : b ≠ q) : P'.heap.get? b = P.heap.get? b := by
  simp [h.heap, hne]

theorem layout (h : Rewrites P P' q size data) : P'.layoutOf q = some (.buffer size) :=
  layoutOf_get? h.block

theorem holds (h : Rewrites P P' q size data) (hp : P.Holds p bs)
    (hne : ∀ r, p = some r → bs ≠ [] → r.block ≠ q) : P'.Holds p bs := by
  by_cases hbs : bs = []
  · exact .inl hbs
  · exact hp.mono fun r _ _ hr hget => (h.other (hne r hr hbs)).trans hget

theorem modify (pl : Platform) (h : Rewrites P P' q size data) {f : Object → Object} {o : Op}
    {r : Ret o} (hf : f (.buffer size data) = .buffer size data')
    (he : P'.effect pl o r = { P' with heap := P'.heap.modify q.name f }) :
    Rewrites P (P'.effect pl o r) q size data' := by
  rw [he]
  refine ⟨fun b => ?_, h.handles, h.faults, h.next⟩
  simp only [Table.get?_modify h.block, h.heap, hf]
  split <;> rfl

theorem inside (h : Rewrites P P' q size data) (hle : off + len ≤ size) :
    Inside pl P'.layoutOf (some ⟨q, off⟩) len :=
  .inr (.inr ⟨_, _, rfl, h.layout, hle⟩)

theorem zero (pl : Platform) (h : Rewrites P P' q size data) (hle : len ≤ size) :
    Rewrites P (P'.effect pl (.rtlZeroMemory (some ⟨q, 0⟩) len) ()) q size (data.zero 0 len) :=
  h.modify pl rfl (effect_heap rfl rfl (accessFault_inside (h.inside (by omega))))

theorem store (pl : Platform) (h : Rewrites P P' q size data) (off : Nat) (bs : List UInt8)
    (hle : off + bs.length ≤ size) :
    Rewrites P (P'.effect pl (.store (some ⟨q, 0⟩) off bs) ()) q size (data.write off bs) := by
  refine h.modify pl (f := .writeBytes off bs) rfl (effect_heap ?_ rfl ?_)
  · simp [heapAfter, Process.modify, offsetOf]
  · exact accessFault_inside (h.inside (by simpa [Ptr.add] using hle))

/-- A copy from elsewhere, or from another part of the same buffer. -/
theorem copy (pl : Platform) (h : Rewrites P P' q size data) (off : Nat) (hle : off + bs.length ≤ size)
    (hsrc : P'.Holds src bs) :
    Rewrites P (P'.effect pl (.rtlCopyMemory (some ⟨q, off⟩) src bs.length) ()) q size
      (data.write off bs) := by
  refine h.modify pl (f := .writeBytes off bs) rfl (effect_heap ?_ rfl ?_)
  · simp [heapAfter, Process.modify, offsetOf, hsrc.bytesAt]
  · simp [faultsOf, accessFault_inside (h.inside hle), accessFault_inside hsrc.inside]

end Rewrites

theorem NewBlock.holds (n : NewBlock P P' q obj) (h : P.Holds p bs) : P'.Holds p bs :=
  h.mono fun _ _ _ _ => n.other

theorem NewBlock.rewrites (n : NewBlock P P' q obj) (h : Rewrites P' P'' q size data) :
    NewBlock P P'' q (.buffer size data) where
  newBlock := n.newBlock
  heap b := by
    rw [h.heap, n.heap]
    split <;> rfl
  handles r := by rw [h.handles, n.handles]
  faults := h.faults.trans n.faults
  next := h.next ▸ n.next

end Process

end AlpcResearch
