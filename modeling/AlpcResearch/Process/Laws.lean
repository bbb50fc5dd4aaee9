import AlpcResearch.Process.Calls

/-!
# What one operation keeps

The heap through live pointers: what an allocation, a release and a change of
one block do to what the others hold. Only an allocation and a release change
which blocks are live or how large they are (`layoutOf_effect`), and no
operation takes a fault back (`faults_effect`).
-/

namespace AlpcResearch

open Resource Program

namespace Process

variable {pl : Platform} {P : Process} {p : Ptr} {q : Ref} {obj : Object} {l : Layout}

theorem at?_live (h : P.heap.get? p.block = some obj) : P.at? (some p) = some obj := by
  simp [at?, Table.slots_of_get? h]

theorem layoutOf_some : P.layoutOf q = some l ↔ ∃ obj, P.heap.get? q = some obj ∧ obj.layout = l := by
  simp [layoutOf, Option.map_eq_some_iff]

-- ---------------------------------------------------------------------------
-- Changes inside a block
-- ---------------------------------------------------------------------------

@[simp] theorem layout_zero : (obj.zero off len).layout = obj.layout := by cases obj <;> rfl
@[simp] theorem layout_writeBytes : (obj.writeBytes off bs).layout = obj.layout := by
  cases obj <;> rfl
@[simp] theorem layout_setData : (obj.setData data).layout = obj.layout := by cases obj <;> rfl
@[simp] theorem layout_setClientId {cid : ClientId} :
    (obj.setClientId cid).layout = obj.layout := by cases obj <;> rfl
@[simp] theorem layout_setHandle : (obj.setCommunicationPortHandle h).layout = obj.layout := by
  cases obj <;> rfl
@[simp] theorem layout_setAllocated : (obj.setAllocatedAttributes mask).layout = obj.layout := by
  cases obj <;> rfl
@[simp] theorem layout_setPortContext : (obj.setPortContext ctx).layout = obj.layout := by
  cases obj <;> rfl

theorem layout_modify {t : Table Object} {f : Object → Object}
    (hf : ∀ obj : Object, (f obj).layout = obj.layout) :
    ((t.modify n f).get? q).map Object.layout = (t.get? q).map Object.layout := by
  rw [Table.get?_modify_name]
  split
  · rw [Option.map_map]
    exact congrArg (fun g => (t.get? q).map g) (funext hf)
  · rfl

theorem layout_modify_ptr {p : PVoid} {f : Object → Object}
    (hf : ∀ obj : Object, (f obj).layout = obj.layout) :
    ((P.modify p f).get? q).map Object.layout = P.layoutOf q := by
  cases p with
  | none => rfl
  | some p => exact layout_modify hf

-- ---------------------------------------------------------------------------
-- Which blocks are live
-- ---------------------------------------------------------------------------

def ChangesBlocks : Op → Prop
  | .allocate .. | .free .. => True
  | _ => False

theorem layoutOf_effect {o : Op} {r : Ret o} (ho : ¬ ChangesBlocks o) :
    (P.effect pl o r).layoutOf q = P.layoutOf q := by
  cases o with
  | allocate | free => exact absurd trivial ho
  | rtlZeroMemory => exact layout_modify_ptr fun _ => layout_zero
  | rtlCopyMemory => exact layout_modify_ptr fun _ => layout_writeBytes
  | store => exact layout_modify_ptr fun _ => layout_writeBytes
  | setClientId => exact layout_modify_ptr fun _ => layout_setClientId
  | alpcConnectPort => exact layout_modify_ptr fun _ => layout_writeBytes
  | onRequest => exact layout_modify_ptr fun _ => layout_setData
  | alpcInitializeMessageAttribute mask p size =>
    simp only [effect, heapAfter, layoutOf]
    split
    · exact layout_modify_ptr fun _ => layout_setAllocated
    · rfl
  | alpcSendWaitReceivePort a =>
    simp only [effect, heapAfter, layoutOf]
    split
    · refine (layout_modify_ptr fun _ => layout_setPortContext).trans ?_
      exact layout_modify_ptr fun _ => layout_writeBytes
    · exact layout_modify_ptr fun _ => layout_writeBytes
  | alpcAcceptConnectPort a =>
    simp only [effect, heapAfter, layoutOf]
    split
    · split
      · exact layout_modify_ptr fun _ => layout_setHandle
      · rfl
    · rfl
  | _ => rfl

theorem layoutOf_allocate {api : HeapApi} {r : Allocation}
    (h : P.Legal pl (.allocate api l) r) (hp : r.pointer = some p) :
    (P.effect pl (.allocate api l) r).layoutOf q = if q = p.block then some l else P.layoutOf q := by
  obtain ⟨hl, -, -, hfresh⟩ := h
  simp only [effect, heapAfter, layoutOf, hp, Table.get?_acquire (hfresh p hp).2]
  split <;> simp [hl]

theorem layoutOf_free {api : HeapApi} (h : P.layoutOf p.block = some l) :
    (P.effect pl (.free api (some p)) ()).layoutOf q =
      if q = p.block then none else P.layoutOf q := by
  obtain ⟨obj, hobj, -⟩ := layoutOf_some.mp h
  simp only [effect, heapAfter, layoutOf, Table.get?_release hobj]
  split <;> rfl

-- ---------------------------------------------------------------------------
-- Faults
-- ---------------------------------------------------------------------------

theorem faults_effect (o : Op) (r : Ret o) :
    (P.effect pl o r).faults = P.faultsOf pl o r ++ P.faults := rfl

/-- A call that opens and closes nothing and goes without a fault. -/
theorem effect_heap {o : Op} {r : Ret o} (hheap : P.heapAfter o r = t)
    (hhandles : P.handlesAfter o r = P.handles) (hfaults : P.faultsOf pl o r = []) :
    P.effect pl o r = { P with heap := t } := by
  simp only [effect, hheap, hhandles, hfaults]
  rfl

theorem effect_eq_self {o : Op} {r : Ret o} (hheap : P.heapAfter o r = P.heap)
    (hhandles : P.handlesAfter o r = P.handles) (hfaults : P.faultsOf pl o r = []) :
    P.effect pl o r = P :=
  effect_heap hheap hhandles hfaults

/-- The memory an operation of the program itself reads or writes. -/
def accesses : Op → List (PVoid × Nat)
  | .rtlZeroMemory p length => [(p, length)]
  | .rtlCopyMemory dst src length => [(dst, length), (src, length)]
  | .load p offset length => [(p.map (·.add offset), length)]
  | .store p offset bytes => [(p.map (·.add offset), bytes.length)]
  | _ => []

/-- The `len` bytes at `p` lie in one of the blocks `lay` describes. `NULL` and
no bytes at all count as inside. -/
def Inside (pl : Platform) (lay : Ref → Option Layout) (p : PVoid) (len : Nat) : Prop :=
  len = 0 ∨ p = none ∨ ∃ q l, p = some q ∧ lay q.block = some l ∧ q.offset + len ≤ l.size pl

theorem accessFault_inside {p : PVoid} (h : Inside pl P.layoutOf p len) :
    P.accessFault pl p len = [] := by
  rcases h with rfl | rfl | ⟨q, l, rfl, hl, hle⟩
  · cases p <;> simp [accessFault]
  · rfl
  · simp [accessFault, hl, hle]

theorem kernelWriteFault_inside (h : P.layoutOf p.block = some l)
    (hle : p.offset + len ≤ l.size pl) : P.kernelWriteFault pl (some p) len = [] := by
  simp [kernelWriteFault, h, hle]

theorem mem_accessFault {f : Fault} {p : PVoid} (h : f ∈ P.accessFault pl p len) :
    ∃ q, p = some q ∧ (f = .useAfterFree q ∧ P.layoutOf q.block = none ∨
      f = .outOfBounds q len ∧
        ∃ l, P.layoutOf q.block = some l ∧ l.size pl < q.offset + len) := by
  cases p with
  | none => simp [accessFault] at h
  | some q =>
    refine ⟨q, rfl, ?_⟩
    simp only [accessFault] at h
    split at h
    · simp at h
    · split at h
      · rename_i hl
        exact .inl ⟨List.mem_singleton.mp h, hl⟩
      · rename_i l hl
        split at h
        · simp at h
        · exact .inr ⟨List.mem_singleton.mp h, l, hl, by omega⟩

theorem mem_structFault {f : Fault} {p : PVoid} (h : f ∈ P.structFault p) :
    ∃ q, p = some q ∧ f = .useAfterFree q ∧ P.layoutOf q.block = none := by
  cases p with
  | none => simp [structFault] at h
  | some q =>
    simp only [structFault] at h
    split at h
    · simp at h
    · rename_i hl
      exact ⟨q, rfl, List.mem_singleton.mp h, by simpa using hl⟩

theorem mem_handleFault {f : Fault} {h : Handle} (hf : f ∈ P.handleFault h) :
    ∃ r, h = some r ∧ f = .staleHandle r ∧ P.handles.get? r = none := by
  cases h with
  | none => simp [handleFault] at hf
  | some r =>
    simp only [handleFault] at hf
    split at hf
    · simp at hf
    · rename_i hl
      exact ⟨r, rfl, List.mem_singleton.mp hf, by simpa using hl⟩

theorem mem_kernelWriteFault {f : Fault} {p : PVoid} (h : f ∈ P.kernelWriteFault pl p len) :
    ∃ q, p = some q ∧ (f = .useAfterFree q ∧ P.layoutOf q.block = none ∨
      f = .kernelOverflow q len ∧
        ∃ l, P.layoutOf q.block = some l ∧ l.size pl < q.offset + len) := by
  cases p with
  | none => simp [kernelWriteFault] at h
  | some q =>
    refine ⟨q, rfl, ?_⟩
    simp only [kernelWriteFault] at h
    split at h
    · simp at h
    · split at h
      · rename_i hl
        exact .inl ⟨List.mem_singleton.mp h, hl⟩
      · rename_i l hl
        split at h
        · simp at h
        · exact .inr ⟨List.mem_singleton.mp h, l, hl, by omega⟩

/-- Only the program's own accesses leave a block by `outOfBounds`. -/
theorem outOfBounds_access {o : Op} {r : Ret o} (h : .outOfBounds p len ∈ P.faultsOf pl o r) :
    ∃ a ∈ accesses o, ¬ Inside pl P.layoutOf a.1 a.2 := by
  have access : ∀ {v n}, .outOfBounds p len ∈ P.accessFault pl v n →
      ¬ Inside pl P.layoutOf v n := by
    intro v n hf hin
    simp [accessFault_inside hin] at hf
  have noStruct : ∀ {v}, .outOfBounds p len ∉ P.structFault v := by
    intro v hf; obtain ⟨_, _, he, _⟩ := mem_structFault hf; cases he
  have noHandle : ∀ {v}, .outOfBounds p len ∉ P.handleFault v := by
    intro v hf; obtain ⟨_, _, he, _⟩ := mem_handleFault hf; cases he
  have noKernel : ∀ {v n}, .outOfBounds p len ∉ P.kernelWriteFault pl v n := by
    intro v n hf; obtain ⟨_, _, ⟨he, _⟩ | ⟨he, _⟩⟩ := mem_kernelWriteFault hf <;> cases he
  cases o with
  | rtlZeroMemory v n => exact ⟨_, List.mem_singleton_self _, access h⟩
  | load v off n => exact ⟨_, List.mem_singleton_self _, access h⟩
  | store v off bs => exact ⟨_, List.mem_singleton_self _, access h⟩
  | rtlCopyMemory dst src n =>
    rcases List.mem_append.mp h with h | h
    · exact ⟨(_, _), by simp [accesses], access h⟩
    · exact ⟨(_, _), by simp [accesses], access h⟩
  | free api v =>
    simp only [faultsOf] at h
    split at h
    · simp at h
    · split at h <;> simp at h
  | alpcSendWaitReceivePort a => simp [faultsOf, noStruct, noHandle, noKernel] at h
  | alpcAcceptConnectPort a =>
    simp only [faultsOf, List.mem_append, noHandle, false_or] at h
    split at h
    · exact absurd h noStruct
    · simp at h
  | _ => simp [faultsOf, noStruct, noHandle, noKernel] at h

/-- The buffer the kernel may write a message to, and the capacity the call
announces. -/
def receives : Op → Option (Ptr × Nat)
  | .alpcConnectPort a => a.connectionMessage.map fun p => (p, a.bufferLength)
  | .alpcSendWaitReceivePort a => a.receiveMessage.map fun p => (p, a.bufferLength.getD 0)
  | _ => none

/-- The kernel leaves a block only by a message, within the capacity. -/
theorem kernelOverflow_receives {o : Op} {r : Ret o} (hr : P.Legal pl o r)
    (h : .kernelOverflow p len ∈ P.faultsOf pl o r) :
    ∃ q cap l, receives o = some (q, cap) ∧ P.layoutOf q.block = some l ∧
      l.size pl < q.offset + cap := by
  have noAccess : ∀ {v n}, .kernelOverflow p len ∉ P.accessFault pl v n := by
    intro v n hf; obtain ⟨_, _, ⟨he, _⟩ | ⟨he, _⟩⟩ := mem_accessFault hf <;> cases he
  have noStruct : ∀ {v}, .kernelOverflow p len ∉ P.structFault v := by
    intro v hf; obtain ⟨_, _, he, _⟩ := mem_structFault hf; cases he
  have noHandle : ∀ {v}, .kernelOverflow p len ∉ P.handleFault v := by
    intro v hf; obtain ⟨_, _, he, _⟩ := mem_handleFault hf; cases he
  have written : ∀ {v n cap}, n ≤ cap → .kernelOverflow p len ∈ P.kernelWriteFault pl v n →
      ∃ q l, v = some q ∧ P.layoutOf q.block = some l ∧ l.size pl < q.offset + cap := by
    intro v n cap hle hf
    obtain ⟨q, rfl, ⟨he, -⟩ | ⟨-, l, hl, hlt⟩⟩ := mem_kernelWriteFault hf
    · cases he
    · exact ⟨q, l, rfl, hl, by omega⟩
  cases o with
  | alpcConnectPort a =>
    obtain ⟨q, l, hq, hl, hlt⟩ := written hr.2.2 h
    exact ⟨q, a.bufferLength, l, by simp [receives, hq], hl, hlt⟩
  | alpcSendWaitReceivePort a =>
    simp only [faultsOf, List.mem_append, noHandle, noStruct, false_or, or_false] at h
    obtain ⟨q, l, hq, hl, hlt⟩ := written hr.2.1 h
    exact ⟨q, _, l, by simp [receives, hq], hl, hlt⟩
  | free api v =>
    simp only [faultsOf] at h
    split at h
    · simp at h
    · split at h <;> simp at h
  | alpcAcceptConnectPort a =>
    simp only [faultsOf, List.mem_append, noHandle, false_or] at h
    split at h
    · exact absurd h noStruct
    · simp at h
  | _ => simp [faultsOf, noStruct, noHandle, noAccess] at h

-- ---------------------------------------------------------------------------
-- A new block
-- ---------------------------------------------------------------------------

theorem layoutOf_get? (h : P.heap.get? q = some obj) : P.layoutOf q = some obj.layout :=
  layoutOf_some.mpr ⟨obj, h, rfl⟩

theorem layoutOf_none : P.layoutOf q = none ↔ P.heap.get? q = none := by
  simp [layoutOf]

theorem structFault_live (h : P.heap.get? q = some obj) : P.structFault (some ⟨q, off⟩) = [] := by
  simp [structFault, layoutOf_get? h]

theorem opens_some (h : P.Opens status handle) (hs : ntSuccess status = true) :
    ∃ x, handle = some x ∧ P.handles.Fresh x := by
  rwa [Opens, if_pos hs] at h

theorem opens_none (h : P.Opens status handle) (hs : ¬ ntSuccess status = true) :
    handle = none := by
  rwa [Opens, if_neg hs] at h

theorem opens_isSome (h : P.Opens status handle) : ntSuccess status = handle.isSome := by
  by_cases hs : ntSuccess status = true
  · obtain ⟨x, rfl, -⟩ := opens_some h hs
    exact hs
  · rw [opens_none h hs]
    exact eq_false_of_ne_true hs

theorem opens_fresh (h : P.Opens status handle) (hx : handle = some x) : P.handles.Fresh x := by
  have hs : ntSuccess status = true := by rw [opens_isSome h, hx, Option.isSome_some]
  obtain ⟨y, rfl, hfresh⟩ := opens_some h hs
  cases hx
  exact hfresh

structure NewBlock (P P' : Process) (q : Ref) (obj : Object) : Prop where
  newBlock : P.heap.next ≤ q.serial
  heap : ∀ r, P'.heap.get? r = if r = q then some obj else P.heap.get? r
  handles : ∀ h, P'.handles.get? h = P.handles.get? h
  faults : P'.faults = P.faults
  next : q.serial < P'.heap.next

theorem newBlock_allocate {r : Allocation} (hr : P.Legal pl (.allocate api l) r)
    (hp : r.pointer = some p) :
    ∃ q, p = ⟨q, 0⟩ ∧ NewBlock P (P.effect pl (.allocate api l) r) q r.residue := by
  obtain ⟨h0, hfresh⟩ := hr.2.2.2 p hp
  obtain ⟨q, off⟩ := p
  cases h0
  refine ⟨q, rfl, ?_⟩
  constructor
  case newBlock => exact Nat.le_of_eq hfresh.2.symm
  case heap =>
    intro b
    simp only [effect, heapAfter, hp]
    exact Table.get?_acquire hfresh
  case handles => exact fun _ => rfl
  case faults => rfl
  case next =>
    simp only [effect, heapAfter, hp, Table.next_acquire]
    exact Nat.lt_succ_of_le (Nat.le_of_eq hfresh.2)

namespace NewBlock

variable {P' P'' : Process}

theorem free (n : NewBlock P P' q obj) : P.heap.get? q = none :=
  Table.get?_of_next_le n.newBlock

theorem block (n : NewBlock P P' q obj) : P'.heap.get? q = some obj := by simp [n.heap]

theorem other (n : NewBlock P P' q obj) (h : P.heap.get? r = some obj') :
    P'.heap.get? r = some obj' := by
  have hne : r ≠ q := by
    rintro rfl
    cases n.free.symm.trans h
  simpa [n.heap, hne] using h

theorem free_before (n : NewBlock P P' q obj) (h : P'.heap.get? r = none) :
    P.heap.get? r = none := by
  cases hr : P.heap.get? r with
  | none => rfl
  | some obj' => cases h.symm.trans (n.other hr)

theorem layouts (n : NewBlock P P' q obj) (r : Ref) :
    P'.layoutOf r = if r = q then some obj.layout else P.layoutOf r := by
  simp only [layoutOf, n.heap]
  split <;> rfl

theorem of_eq (n : NewBlock P P' q obj) (he : P'' = P') : NewBlock P P'' q obj := he ▸ n

theorem modify (pl : Platform) (n : NewBlock P P' q obj) {f : Object → Object} {o : Op} {r : Ret o}
    (he : P'.effect pl o r = { P' with heap := P'.heap.modify q.name f }) :
    NewBlock P (P'.effect pl o r) q (f obj) := by
  rw [he]
  constructor
  case newBlock => exact n.newBlock
  case heap =>
    intro b
    simp only [Table.get?_modify n.block, n.heap]
    split <;> rfl
  case handles => exact n.handles
  case faults => exact n.faults
  case next => exact n.next

theorem zero (n : NewBlock P P' q obj) :
    NewBlock P (P'.effect pl (.rtlZeroMemory (some ⟨q, 0⟩) (obj.layout.size pl)) ()) q
      (obj.zero 0 (obj.layout.size pl)) := by
  have hin : Inside pl P'.layoutOf (some ⟨q, 0⟩) (obj.layout.size pl) :=
    .inr (.inr ⟨⟨q, 0⟩, obj.layout, rfl, layoutOf_get? n.block, by simp⟩)
  exact n.modify pl (f := .zero 0 (obj.layout.size pl))
    (effect_heap rfl rfl (accessFault_inside hin))

end NewBlock

theorem zero_residue {obj : Object} (hl : obj.layout = l) (hb : obj.Bounded) :
    obj.zero 0 (l.size pl) = .zeroed l := by
  subst hl
  cases obj with
  | buffer size data =>
    simp only [Object.zero, Object.layout, Object.zeroed, Object.buffer.injEq, true_and]
    funext i
    by_cases hi : i < size
    · simp [Contents.zero, Layout.size, hi]
    · simpa [Contents.zero, Layout.size, hi] using hb i (Nat.le_of_not_lt hi)
  | attributes | portContext | serverObject | olderServerObject | clientObject | kaClientObject => rfl

theorem effect_allocate_zero {r : Allocation} (hr : P.Legal pl (.allocate api l) r)
    (hp : r.pointer = some p) :
    (P.effect pl (.allocate api l) r).effect pl (.rtlZeroMemory (some p) (l.size pl)) () =
      { P with heap := P.heap.acquire p.block.name (.zeroed l) } := by
  obtain ⟨hl, hb, -, hfresh⟩ := hr
  obtain ⟨h0, hfresh⟩ := hfresh p hp
  have hlive : (P.heap.acquire p.block.name r.residue).get? p.block = some r.residue := by
    simp [Table.get?_acquire hfresh]
  have hfault : accessFault pl { P with heap := P.heap.acquire p.block.name r.residue } (some p)
      (l.size pl) = [] := by
    refine accessFault_inside (.inr (.inr ⟨p, l, rfl, ?_, by simp [h0]⟩))
    simp [layoutOf, hlive, hl]
  have halloc : P.effect pl (.allocate api l) r =
      { P with heap := P.heap.acquire p.block.name r.residue } := by
    refine effect_heap ?_ rfl rfl
    simp only [heapAfter, hp]
  rw [halloc]
  refine effect_heap ?_ rfl hfault
  simp only [heapAfter, modify, offsetOf, h0, Table.modify_acquire, zero_residue hl hb]

end Process

-- ---------------------------------------------------------------------------
-- What a run adds
-- ---------------------------------------------------------------------------

/-- What a list that grows at its head got since it was `old`. -/
def since (old new : List α) : List α := new.take (new.length - old.length)

theorem since_eq {old new : List α} (h : now = new ++ old) : since old now = new := by
  simp [since, h]

@[simp] theorem since_self {old : List α} : since old old = [] := by simp [since]

def newEvents (w w' : World) : List Ev := since w.log w'.log

def newFaults (w w' : World) : List Fault := since w.state.faults w'.state.faults

variable {w w' : World}

theorem newEvents_eq {v : World} {n : List Ev} (h : v.log = n ++ w.log) : newEvents w v = n :=
  since_eq h

theorem newEvents_ne {o : Op} {r : Ret o} (h : ⟨o, r⟩ :: w.log <:+ w'.log) :
    newEvents w w' ≠ [] := by
  obtain ⟨new, hnew⟩ := h
  have hlog : w'.log = (new ++ [⟨o, r⟩]) ++ w.log := by simp [← hnew]
  simp [newEvents_eq hlog]

/-- The events of a run from `w` to `w'` all satisfy `good`. -/
def Adds (good : Ev → Prop) (w w' : World) : Prop :=
  ∃ new, w'.log = new ++ w.log ∧ ∀ e ∈ new, good e

variable {good : Ev → Prop}

theorem Adds.refl (w : World) : Adds good w w := ⟨[], rfl, by simp⟩

theorem Adds.trans (h : Adds good w w') (h' : Adds good w' w'') : Adds good w w'' := by
  obtain ⟨new, hlog, hnew⟩ := h
  obtain ⟨new', hlog', hnew'⟩ := h'
  refine ⟨new' ++ new, by simp [hlog', hlog], fun e he => ?_⟩
  exact (List.mem_append.mp he).elim (hnew' e) (hnew e)

theorem Adds.mono {good' : Ev → Prop} (h : Adds good w w') (himp : ∀ e, good e → good' e) :
    Adds good' w w' := by
  obtain ⟨new, hlog, hnew⟩ := h
  exact ⟨new, hlog, fun e he => himp e (hnew e he)⟩

theorem Adds.next {S : System Op Ret Process} {o : Op} {r : Ret o} (h : Adds good w w')
    (hgood : good ⟨o, r⟩) : Adds good w (S.next w' o r) :=
  h.trans ⟨[⟨o, r⟩], rfl, by simpa using hgood⟩

theorem Adds.of_uses {S : System Op Ret Process} {p : Proc α} {ok : Op → Prop}
    (hp : p.Uses ok) (hok : ∀ e : Ev, ok e.op → good e) (h : Ends S p w a w') :
    Adds good w w' := by
  obtain ⟨new, hlog, hnew⟩ := h.log_grows hp
  exact ⟨new, hlog, fun e he => hok e (hnew e he)⟩

theorem Adds.suffix (h : Adds good w w') : w.log <:+ w'.log := by
  obtain ⟨new, hlog, -⟩ := h
  exact ⟨new, hlog.symm⟩

theorem adds_trans (h : w.log <:+ w'.log) (h' : w'.log <:+ w''.log) :
    Adds good w w'' ↔ Adds good w w' ∧ Adds good w' w'' := by
  constructor
  · rintro ⟨new, hlog, hnew⟩
    obtain ⟨old, hold⟩ := h
    obtain ⟨late, hlate⟩ := h'
    have hsame : (late ++ old) ++ w.log = new ++ w.log := by
      rw [← hlog, ← hlate, ← hold, List.append_assoc]
    obtain rfl := List.append_cancel_right hsame
    exact ⟨⟨old, hold.symm, fun e he => hnew e (List.mem_append_right _ he)⟩,
      ⟨late, hlate.symm, fun e he => hnew e (List.mem_append_left _ he)⟩⟩
  · rintro ⟨h, h'⟩
    exact h.trans h'

theorem adds_next {S : System Op Ret Process} {o : Op} {r : Ret o} (h : w.log <:+ w'.log) :
    Adds good w (S.next w' o r) ↔ Adds good w w' ∧ good ⟨o, r⟩ := by
  rw [adds_trans h (List.suffix_cons _ _)]
  refine and_congr_right fun _ => ⟨?_, fun hgood => (Adds.refl w').next hgood⟩
  rintro ⟨new, hlog, hnew⟩
  have hsame : ([⟨o, r⟩] : List Ev) ++ w'.log = new ++ w'.log := hlog
  obtain rfl := List.append_cancel_right hsame
  exact hnew _ (List.mem_singleton_self _)

theorem newFaults_eq {f : List Fault} (h : w'.state.faults = f ++ w.state.faults) : newFaults w w' = f :=
  since_eq h

/-- From the events between `w` and `w'` the function `f` picks out `out`, the
latest first. -/
def Picks (f : Ev → Option β) (out : List β) (w w' : World) : Prop :=
  ∃ new, w'.log = new ++ w.log ∧ new.filterMap f = out

namespace Picks

variable {f : Ev → Option β} {out : List β} {S : System Op Ret Process} {o : Op} {r : Ret o}

theorem refl (w : World) : Picks f [] w w := ⟨[], rfl, rfl⟩

theorem of_adds (h : Adds (fun e => f e = none) w w') : Picks f [] w w' := by
  obtain ⟨new, hlog, hnew⟩ := h
  exact ⟨new, hlog, List.filterMap_eq_nil_iff.mpr hnew⟩

theorem skip (h : Picks f out w w') (hf : f ⟨o, r⟩ = none) : Picks f out w (S.next w' o r) := by
  obtain ⟨new, hlog, rfl⟩ := h
  exact ⟨⟨o, r⟩ :: new, congrArg (List.cons _) hlog, List.filterMap_cons_none hf⟩

theorem pick (h : Picks f out w w') (hf : f ⟨o, r⟩ = some b) :
    Picks f (b :: out) w (S.next w' o r) := by
  obtain ⟨new, hlog, rfl⟩ := h
  exact ⟨⟨o, r⟩ :: new, congrArg (List.cons _) hlog, List.filterMap_cons_some hf⟩

theorem adds (h : Picks f out w w') (h' : Adds (fun e => f e = none) w' w'') :
    Picks f out w w'' := by
  obtain ⟨new, hlog, rfl⟩ := h
  obtain ⟨new', hlog', hnew'⟩ := h'
  have hnone : new'.filterMap f = [] := List.filterMap_eq_nil_iff.mpr hnew'
  exact ⟨new' ++ new, by simp [hlog', hlog], by simp [hnone]⟩

theorem trans {out' : List β} (h : Picks f out w w') (h' : Picks f out' w' w'') :
    Picks f (out' ++ out) w w'' := by
  obtain ⟨new, hlog, rfl⟩ := h
  obtain ⟨new', hlog', rfl⟩ := h'
  exact ⟨new' ++ new, by simp [hlog', hlog], List.filterMap_append⟩

theorem eq (h : Picks f out w w') : (newEvents w w').filterMap f = out := by
  obtain ⟨new, hlog, rfl⟩ := h
  rw [newEvents_eq hlog]

theorem run {p : Proc α} (hp : p.Uses fun o => ∀ r, f ⟨o, r⟩ = none) (h : Picks f out w w') :
    p.safe S (fun _ => True) (fun _ => Picks f out w) w' :=
  safe_of_uses hp (fun _ _ r ho _ hu => hu.skip (ho r)) (fun _ _ => trivial) (fun _ _ hu => hu) h

end Picks

/-- What an allocation gave; `NULL` where it failed. -/
def allocation : Ev → Option PVoid
  | ⟨.allocate .., r⟩ => some r.pointer
  | _ => none

end AlpcResearch
