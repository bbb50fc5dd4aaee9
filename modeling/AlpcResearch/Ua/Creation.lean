import AlpcResearch.Sessions.Invariant
import AlpcResearch.Ua.Handlers

/-!
# Creating a server

What a successful `UaCreateServer` has acquired: three blocks, a port and a
thread, each of them new. Everything else is as it was, and the server is
ready to receive.
-/

namespace AlpcResearch.Ua

open Resource Program Process

structure Owns (server : ServerObject) (block attributes message port thread : Ref) : Prop where
  block : server.block = some ⟨block, 0⟩
  attributes : server.messageAttributes = some ⟨attributes, 0⟩
  message : server.portMessage = some ⟨message, 0⟩
  port : server.connectionPortHandle = some port
  thread : server.serverThreadHandle = some thread

/-- From `P` to `P'` the three blocks and the two handles have been acquired. -/
structure Acquired (pl : Platform) (P P' : Process) (block attributes message port thread : Ref) :
    Prop where
  fresh : ∀ q ∈ [block, attributes, message], P.heap.get? q = none
  distinct : [block, attributes, message].Nodup
  layouts : ∀ q, q ∉ [block, attributes, message] → P'.layoutOf q = P.layoutOf q
  serverObject : P'.layoutOf block = some .serverObject
  attributes : ∃ size, P'.layoutOf attributes = some (.attributes size)
  message : P'.layoutOf message = some (.buffer pl.alpcMaxAllowedMessageLength)
  freshHandles : P.handles.get? port = none ∧ P.handles.get? thread = none ∧ port ≠ thread
  handles : ∀ h, P'.handles.get? h =
    if h = thread then some .thread else if h = port then some .connectionPort
    else P.handles.get? h

variable {pl : Platform} {A : Assumption} {w w' : World} {server : ServerObject}

theorem ends_uaCleanup (h : Ends (system pl A) (uaCleanup server) w r w') : r = none := by
  refine ends_bind_returns (P := (· = none)) (fun _ w r w' h => ?_) h
  refine ends_bind_returns (P := (· = none)) (fun _ w r w' h => ?_) h
  refine ends_bind_returns (P := (· = none)) (fun _ w r w' h => ?_) h
  refine ends_bind_returns (P := (· = none)) (fun _ w r w' h => ?_) h
  exact (ends_ret.mp h).1

/-- `UaAllocateZeroHeap`: nothing, or a new block of zeros. -/
theorem ends_allocateZeroHeap {f : PVoid → Proc α}
    (h : Ends (system pl A) (allocateZeroHeap api pl layout >>= f) w a w') :
    (∃ v, Ends (system pl A) (f none) v a w') ∨
      ∃ (q : Ref) (v : World) (obj : Object), Ends (system pl A) (f (some ⟨q, 0⟩)) v a w' ∧ obj.layout = layout ∧
        NewBlock w.state v.state q (obj.zero 0 (layout.size pl)) ∧
        ledger pl v.log = ledger pl w.log := by
  rw [allocateZeroHeap_bind] at h
  obtain ⟨r, hr, h⟩ := ends_call.mp h
  cases hp : r.pointer with
  | none =>
    simp only [hp] at h
    exact .inl ⟨_, h⟩
  | some p =>
    simp only [hp] at h
    obtain ⟨_, _, h⟩ := ends_call.mp h
    obtain ⟨q, rfl, hnew⟩ := newBlock_allocate hr.1 hp
    exact .inr ⟨q, _, r.residue, h, hr.1.1, hr.1.1 ▸ hnew.zero, rfl⟩

structure Created (pl : Platform) (server : ServerObject) (w w₀ : World) : Prop where
  acquired : ∃ block attributes message port thread,
    Owns server block attributes message port thread ∧
      Acquired pl w.state w₀.state block attributes message port thread
  serving : Serving (endpoint pl server) w₀.state
  faults : w₀.state.faults = w.state.faults
  ledger : ledger pl w₀.log = ledger pl w.log

abbrev creationMask : UInt32 := alpcMessageViewAttribute ||| alpcMessageContextAttribute

theorem acquired_of_steps {P P₁ P₂ P₃ P' : Process} {o₁ o₂ o₃ : Object}
    (n₁ : NewBlock P P₁ b o₁) (n₂ : NewBlock P₁ P₂ a o₂) (n₃ : NewBlock P₂ P₃ m o₃)
    (h₁ : o₁.layout = .serverObject) (h₂ : o₂.layout = .attributes size)
    (h₃ : o₃.layout = .buffer pl.alpcMaxAllowedMessageLength) (hp : P₃.handles.Fresh p)
    (ht : (P₃.handles.acquire p.name .connectionPort).Fresh t) (hheap : P'.heap = P₃.heap)
    (hhandles : P'.handles = (P₃.handles.acquire p.name .connectionPort).acquire t.name .thread) :
    Acquired pl P P' b a m p t := by
  have hma : m ≠ a := by
    rintro rfl
    cases n₃.free.symm.trans n₂.block
  have hab : a ≠ b := by
    rintro rfl
    cases n₂.free.symm.trans n₁.block
  have hmb : m ≠ b := by
    rintro rfl
    cases n₃.free.symm.trans (n₂.other n₁.block)
  have hblocks : ∀ r, P'.layoutOf r =
      if r = m then some (.buffer pl.alpcMaxAllowedMessageLength)
      else if r = a then some (.attributes size)
      else if r = b then some .serverObject else P.layoutOf r := by
    intro r
    have hlast : P'.layoutOf r = P₃.layoutOf r := by rw [layoutOf, hheap, layoutOf]
    rw [hlast, n₃.layouts, n₂.layouts, n₁.layouts, h₁, h₂, h₃]
  have hold : ∀ r, P₃.handles.get? r = P.handles.get? r := fun r =>
    (n₃.handles r).trans ((n₂.handles r).trans (n₁.handles r))
  have hport : ∀ r, (P₃.handles.acquire p.name .connectionPort).get? r =
      if r = p then some KernelObject.connectionPort else P.handles.get? r := fun r => by
    rw [Table.get?_acquire hp, hold]
  have hthread := (hport t).symm.trans (Table.get?_fresh ht)
  have hpt : p ≠ t := by
    rintro rfl
    simp at hthread
  constructor
  case fresh =>
    intro q hq
    simp only [List.mem_cons, List.not_mem_nil, or_false] at hq
    rcases hq with rfl | rfl | rfl
    · exact n₁.free
    · exact n₁.free_before n₂.free
    · exact n₁.free_before (n₂.free_before n₃.free)
  case distinct => simp [hab.symm, hmb.symm, hma.symm]
  case layouts =>
    intro q hq
    simp only [List.mem_cons, List.not_mem_nil, or_false, not_or] at hq
    exact (hblocks q).trans (by simp [hq])
  case serverObject => exact (hblocks b).trans (by simp [hmb.symm, hab.symm])
  case attributes => exact ⟨size, (hblocks a).trans (by simp [hma.symm])⟩
  case message => exact (hblocks m).trans (by simp)
  case freshHandles =>
    rw [if_neg hpt.symm] at hthread
    exact ⟨(hold p).symm.trans (Table.get?_fresh hp), hthread, hpt⟩
  case handles =>
    intro r
    rw [hhandles, Table.get?_acquire ht, hport]

theorem uaCreateServer_created
    (h : Ends (system pl A) (uaCreateServer pl portName f g k) w (some server) w₀) :
    Created pl server w w₀ := by
  unfold uaCreateServer uaAllocateZeroHeap at h
  obtain ⟨v, h⟩ | ⟨b, w₁, obj₁, h, hl₁, n₁, l₁⟩ := ends_allocateZeroHeap h
  · simp [ends_ret] at h
  simp only [reduceCtorEq, if_false] at h
  obtain ⟨size, -, h⟩ := ends_op_bind.mp h
  obtain ⟨v, h⟩ | ⟨a, w₂, obj₂, h, hl₂, n₂, l₂⟩ := ends_allocateZeroHeap h
  · simp only [if_true] at h
    cases ends_uaCleanup h
  simp only [reduceCtorEq, if_false] at h
  obtain ⟨status, -, h⟩ := ends_op_bind.mp h
  by_cases hs : ntSuccess status = true
  swap
  · simp only [hs, Bool.not_false, if_true] at h
    cases ends_uaCleanup h
  simp only [hs, Bool.not_true, Bool.false_eq_true, if_false] at h
  have n₂' := n₂.modify pl (f := .setAllocatedAttributes creationMask)
    (o := .alpcInitializeMessageAttribute creationMask (some ⟨a, 0⟩) size) (r := status)
    (effect_heap (by simp only [heapAfter, hs]; rfl) rfl (structFault_live n₂.block))
  obtain ⟨v, h⟩ | ⟨m, w₃, obj₃, h, hl₃, n₃, l₃⟩ := ends_allocateZeroHeap h
  · simp only [if_true] at h
    cases ends_uaCleanup h
  simp only [reduceCtorEq, if_false] at h
  obtain ⟨⟨status', port⟩, hport, h⟩ := ends_op_bind.mp h
  by_cases hs' : ntSuccess status' = true
  swap
  · simp only [hs', Bool.not_false, if_true] at h
    cases ends_uaCleanup h
  simp only [hs', Bool.not_true, Bool.false_eq_true, if_false] at h
  obtain ⟨⟨status'', thread⟩, hthread, h⟩ := ends_op_bind.mp h
  cases thread with
  | none =>
    simp only [if_true] at h
    cases ends_uaCleanup h
  | some t =>
    simp only [reduceCtorEq, if_false] at h
    obtain ⟨he, hw⟩ := ends_ret.mp h
    cases he
    obtain ⟨p, rfl, hp⟩ : ∃ p, port = some p ∧ w₃.state.handles.Fresh p :=
      opens_some hport.1 hs'
    have ht : (w₃.state.handles.acquire p.name .connectionPort).Fresh t :=
      opens_fresh hthread.1 rfl
    have hacquired : Acquired pl w.state w₀.state b a m p t :=
      acquired_of_steps n₁ n₂' n₃ (layout_zero.trans hl₁)
        (layout_setAllocated.trans (layout_zero.trans hl₂)) (layout_zero.trans hl₃) hp
        ht (by rw [hw]; rfl) (by rw [hw]; rfl)
    subst hw
    obtain ⟨attrs, rfl⟩ := layout_attributes hl₂
    obtain ⟨data, hdata⟩ := get?_buffer hacquired.message
    have hlive := hacquired.handles p
    rw [if_neg hacquired.freshHandles.2.2, if_pos rfl] at hlive
    exact {
      acquired := ⟨b, a, m, p, t, ⟨rfl, rfl, rfl, rfl, rfl⟩, hacquired⟩
      serving := {
        message := ⟨m, data, rfl, hdata⟩
        attributes := ⟨a, size, ⟨creationMask, none⟩, rfl, n₃.other n₂'.block, by decide⟩
        port := ⟨p, rfl, hlive⟩ }
      faults := n₃.faults.trans (n₂'.faults.trans n₁.faults)
      ledger := l₃.trans (l₂.trans l₁) }

end AlpcResearch.Ua
