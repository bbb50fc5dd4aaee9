import AlpcResearch.Sessions.Invariant

/-!
# A worker's buffers

The message buffer and the attribute buffer of a worker stay where they are as
long as what is freed is a port context, however often each connection is torn
down: no port context has the address of a buffer (`Placed`). Faults and
handles do not come into it.
-/

namespace AlpcResearch

open Resource Program Process

variable {pl : Platform} {e : Endpoint} {A : Assumption} {P : Process} {w v : World}

-- ---------------------------------------------------------------------------
-- The buffers
-- ---------------------------------------------------------------------------

def HasMessage (e : Endpoint) (P : Process) : Prop :=
  ∃ q, e.message = some ⟨q, 0⟩ ∧ P.layoutOf q = some (.buffer e.capacity)

def HasAttributes (e : Endpoint) (P : Process) : Prop :=
  ∃ q size a, e.attributes = some ⟨q, 0⟩ ∧ P.heap.get? q = some (.attributes size a) ∧
    a.allocatedAttributes &&& alpcMessageContextAttribute ≠ 0

/-- Not the address of a buffer. -/
def Endpoint.Apart (e : Endpoint) (p : PVoid) : Prop :=
  ∀ q b, p = some q → e.message = some b ∨ e.attributes = some b → q.block.name ≠ b.block.name

/-- What a worker may do without losing its buffers. -/
def Endpoint.Leaves (e : Endpoint) : Op → Prop
  | .free _ p => e.Apart p
  | .rtlZeroMemory p _ => e.Apart p
  | .alpcAcceptConnectPort a => a.acceptConnection = true → e.Apart a.portContext
  | .alpcInitializeMessageAttribute .. => False
  | _ => True

structure Placed (pl : Platform) (e : Endpoint) (w : World) : Prop where
  message : HasMessage e w.state
  attributes : HasAttributes e w.state
  contexts : ∀ ctx ∈ (ledger pl w.log).contexts, e.Apart ctx

theorem Placed.start (h : Serving e w.state) (hl : ledger pl w.log = .empty) : Placed pl e w where
  message := by
    obtain ⟨q, data, hm, hq⟩ := h.message
    exact ⟨q, hm, layoutOf_get? hq⟩
  attributes := h.attributes
  contexts := by simp [hl, Ledger.empty, Ledger.contexts]

theorem HasAttributes.allocated (h : HasAttributes e P) :
    Allocated P e.attributes alpcMessageContextAttribute = true :=
  allocated_attributes h

-- ---------------------------------------------------------------------------
-- What keeps them
-- ---------------------------------------------------------------------------

theorem apart_allocate {r : Allocation} (hm : HasMessage e P) (ha : HasAttributes e P)
    (hr : P.Legal pl (.allocate api l) r) : e.Apart r.pointer := by
  intro p b hp hb
  obtain ⟨-, hfresh, -⟩ := hr.2.2.2 p hp
  have hfree : ∀ q obj, P.heap.get? q = some obj → p.block.name ≠ q.name := by
    intro q obj hq hn
    rw [hn, Table.slots_of_get? hq] at hfresh
    cases hfresh
  rcases hb with hb | hb
  · obtain ⟨q, hq, hl⟩ := hm
    cases hq.symm.trans hb
    obtain ⟨obj, hobj, -⟩ := layoutOf_some.mp hl
    exact hfree q obj hobj
  · obtain ⟨q, size, a, hq, hl, -⟩ := ha
    cases hq.symm.trans hb
    exact hfree q _ hl

theorem attributes_modify {p : PVoid} {f : Object → Object} (ha : HasAttributes e P)
    (hf : ∀ size a, ∃ ctx, f (.attributes size a) = .attributes size { a with portContext := ctx }) :
    HasAttributes e { P with heap := P.modify p f } := by
  obtain ⟨q, size, a, hq, hl, hmask⟩ := ha
  cases p with
  | none => exact ⟨q, size, a, hq, hl, hmask⟩
  | some p =>
    by_cases hn : p.block.name = q.name
    · obtain ⟨ctx, hctx⟩ := hf size a
      refine ⟨q, size, { a with portContext := ctx }, hq, ?_, hmask⟩
      simp only [Process.modify, hn, Table.get?_modify hl, if_true, hctx]
    · exact ⟨q, size, a, hq, (Table.get?_modify_other hn).trans hl, hmask⟩

theorem attributes_same {P' : Process} (ha : HasAttributes e P) (hP : P'.heap = P.heap) :
    HasAttributes e P' := by
  obtain ⟨q, size, a, hq, hl, hmask⟩ := ha
  exact ⟨q, size, a, hq, hP ▸ hl, hmask⟩

theorem attributes_next {o : Op} {r : Ret o} (ha : HasAttributes e P) (ho : e.Leaves o)
    (hr : P.Legal pl o r) : HasAttributes e (P.effect pl o r) := by
  have bytes : ∀ (p : PVoid) (off : Nat) (bs : List UInt8),
      HasAttributes e { P with heap := P.modify p (.writeBytes off bs) } := fun p off bs =>
    attributes_modify ha fun _ a => ⟨a.portContext, rfl⟩
  cases o with
  | allocate api l =>
    cases hp : r.pointer with
    | none => exact attributes_same ha (by simp [effect, heapAfter, hp])
    | some p =>
      obtain ⟨q, size, a, hq, hl, hmask⟩ := ha
      have hfresh := (hr.2.2.2 p hp).2
      refine ⟨q, size, a, hq, ?_, hmask⟩
      simp only [effect, heapAfter, hp, Table.get?_acquire hfresh,
        if_neg (Table.ne_of_fresh hfresh hl), hl]
  | free api p =>
    cases p with
    | none => exact attributes_same ha rfl
    | some p =>
      obtain ⟨q, size, a, hq, hl, hmask⟩ := ha
      have hne : p.block.name ≠ q.name := ho p ⟨q, 0⟩ rfl (.inr hq)
      exact ⟨q, size, a, hq, (Table.get?_release_other hne).trans hl, hmask⟩
  | rtlZeroMemory p len =>
    cases p with
    | none => exact attributes_same ha rfl
    | some p =>
      obtain ⟨q, size, a, hq, hl, hmask⟩ := ha
      have hne : p.block.name ≠ q.name := ho p ⟨q, 0⟩ rfl (.inr hq)
      exact ⟨q, size, a, hq, (Table.get?_modify_other hne).trans hl, hmask⟩
  | alpcInitializeMessageAttribute => exact ho.elim
  | rtlCopyMemory | store | alpcConnectPort => exact bytes _ _ _
  | setClientId | onRequest => exact attributes_modify ha fun _ a => ⟨a.portContext, rfl⟩
  | alpcSendWaitReceivePort a =>
    simp only [effect, heapAfter]
    split
    · have hwritten := bytes a.receiveMessage (offsetOf a.receiveMessage) r.written
      exact attributes_same (attributes_modify hwritten fun _ _ => ⟨r.portContext, rfl⟩) rfl
    · exact bytes _ _ _
  | alpcAcceptConnectPort a =>
    simp only [effect, heapAfter]
    split
    · split
      · exact attributes_modify ha fun _ a => ⟨a.portContext, rfl⟩
      · exact ha
    · exact ha
  | _ => exact attributes_same ha rfl

theorem message_next {o : Op} {r : Ret o} (hm : HasMessage e P) (ho : e.Leaves o)
    (hr : P.Legal pl o r) : HasMessage e (P.effect pl o r) := by
  obtain ⟨q, hq, hl⟩ := hm
  refine ⟨q, hq, ?_⟩
  cases o with
  | allocate api l =>
    cases hp : r.pointer with
    | none => simpa [layoutOf, effect, heapAfter, hp] using hl
    | some p =>
      obtain ⟨obj, hobj, -⟩ := layoutOf_some.mp hl
      have hne := Table.ne_of_fresh (hr.2.2.2 p hp).2 hobj
      rw [layoutOf_allocate hr hp, if_neg hne, hl]
  | free api p =>
    cases p with
    | none => exact hl
    | some p =>
      have hne : p.block.name ≠ q.name := ho p ⟨q, 0⟩ rfl (.inl hq)
      exact (congrArg (Option.map Object.layout) (Table.get?_release_other hne)).trans hl
  | _ => exact (layoutOf_effect id).trans hl

theorem mem_contexts_add {L : Ledger} {o : Op} {r : Ret o}
    (h : ctx ∈ (L.add pl ⟨o, r⟩).contexts) : ctx ∈ L.contexts ∨
      ∃ a, o = .alpcAcceptConnectPort a ∧ a.acceptConnection = true ∧ ctx = a.portContext := by
  cases o with
  | alpcSendWaitReceivePort a =>
    simp only [Ledger.add] at h
    split at h <;> exact .inl h
  | alpcAcceptConnectPort a =>
    simp only [Ledger.add] at h
    split at h
    · rename_i ha
      split at h
      · rw [Ledger.accept_contexts] at h
        exact (List.mem_cons.mp h).elim (fun he => .inr ⟨a, rfl, ha, he⟩) .inl
      · exact .inl h
    · exact .inl h
  | _ => exact .inl h

theorem Placed.next {o : Op} {r : Ret o} (h : Placed pl e v) (ho : e.Leaves o)
    (hr : v.state.Legal pl o r) : Placed pl e ((system pl A).next v o r) where
  message := message_next h.message ho hr
  attributes := attributes_next h.attributes ho hr
  contexts ctx hctx := by
    rcases mem_contexts_add hctx with hold | ⟨a, rfl, ha, rfl⟩
    · exact h.contexts ctx hold
    · exact ho ha

theorem Placed.run {p : Proc α} (hp : p.Uses e.Leaves) (h : Placed pl e v) :
    p.safe (system pl A) (fun _ => True) (fun _ => Placed pl e) v :=
  safe_of_uses hp (fun _ _ _ ho hr hu => hu.next ho hr.1) (fun _ _ => trivial) (fun _ _ hu => hu) h

-- ---------------------------------------------------------------------------
-- A message in the buffer
-- ---------------------------------------------------------------------------

theorem get?_receive (hm : e.message = some ⟨q, 0⟩)
    (hq : P.heap.get? q = some (.buffer e.capacity data)) (ha : e.attributes = some ⟨b, 0⟩)
    (hb : P.heap.get? b = some (.attributes size a)) (r : Reply) :
    (P.effect pl (.alpcSendWaitReceivePort e.receive) r).heap.get? q =
        some (.buffer e.capacity (data.write 0 r.written)) ∧
      (ntSuccess r.status = true →
        (P.effect pl (.alpcSendWaitReceivePort e.receive) r).heap.get? b =
          some (.attributes size { a with portContext := r.portContext })) := by
  have hne : b ≠ q := by
    rintro rfl
    simp [hq] at hb
  have hwritten : ((P.heap.modify q.name (.writeBytes 0 r.written)).get? q) =
      some (.buffer e.capacity (data.write 0 r.written)) := by
    simp [Table.get?_modify hq, Object.writeBytes]
  have hother : ((P.heap.modify q.name (.writeBytes 0 r.written)).get? b) =
      some (.attributes size a) := by
    simp [Table.get?_modify hq, hne, hb]
  by_cases hs : ntSuccess r.status = true
  · have hheap : (P.effect pl (.alpcSendWaitReceivePort e.receive) r).heap =
        (P.heap.modify q.name (.writeBytes 0 r.written)).modify b.name
          (.setPortContext r.portContext) := by
      simp only [effect, heapAfter, Endpoint.receive, hm, ha, hs]
      rfl
    refine ⟨?_, fun _ => ?_⟩
    · rw [hheap, Table.get?_modify hother, if_neg hne.symm, hwritten]
    · simp only [hheap, Table.get?_modify hother, if_true, Object.setPortContext]
  · have hheap : (P.effect pl (.alpcSendWaitReceivePort e.receive) r).heap =
        P.heap.modify q.name (.writeBytes 0 r.written) := by
      simp only [effect, heapAfter, Endpoint.receive, hm, hs]
      rfl
    exact ⟨hheap ▸ hwritten, fun h => absurd h hs⟩

theorem Placed.receive (h : Placed pl e w) (r : Reply) :
    Shows e r.written (w.state.effect pl (.alpcSendWaitReceivePort e.receive) r) ∧
      (ntSuccess r.status = true →
        Carries e r.portContext (w.state.effect pl (.alpcSendWaitReceivePort e.receive) r)) := by
  obtain ⟨q, hm, hl⟩ := h.message
  obtain ⟨data, hq⟩ := get?_buffer hl
  obtain ⟨b, size, a, ha, hb, -⟩ := h.attributes
  obtain ⟨hmessage, hattributes⟩ := get?_receive hm hq ha hb r
  exact ⟨⟨q, _, hm, hmessage, fun off len hle => Contents.slice_write_zero hle⟩,
    fun hs => ⟨b, size, _, ha, hattributes hs, rfl⟩⟩

theorem Shows.same (h : Shows e msg P) (hP : P'.heap = P.heap) : Shows e msg P' := by
  obtain ⟨q, data, hm, hq, hdata⟩ := h
  exact ⟨q, data, hm, hP ▸ hq, hdata⟩

theorem Carries.same (h : Carries e ctx P) (hP : P'.heap = P.heap) : Carries e ctx P' := by
  obtain ⟨q, size, a, ha, hq, hctx⟩ := h
  exact ⟨q, size, a, ha, hP ▸ hq, hctx⟩

-- ---------------------------------------------------------------------------
-- What leaves their contents alone
-- ---------------------------------------------------------------------------

/-- What a worker may do without a change in its buffers. -/
def Endpoint.Spares (e : Endpoint) : Op → Prop
  | .free _ p => e.Apart p
  | .rtlZeroMemory p _ => e.Apart p
  | .setClientId p _ => e.Apart p
  | .alpcAcceptConnectPort a => (a.acceptConnection = true → e.Apart a.portContext) ∧
      ∀ p, a.portHandle = .portContext p → e.Apart p
  | .alpcSendWaitReceivePort a => a.receiveMessage = none ∧ a.receiveMessageAttributes = none
  | .rtlCopyMemory .. | .store .. | .alpcInitializeMessageAttribute .. | .alpcConnectPort _
  | .onRequest .. => False
  | _ => True

theorem Endpoint.Spares.leaves {o : Op} (h : e.Spares o) : e.Leaves o := by
  cases o with
  | free | rtlZeroMemory => exact h
  | alpcAcceptConnectPort a => exact h.1
  | alpcInitializeMessageAttribute => exact h.elim
  | _ => trivial

theorem get?_modify_apart {p : PVoid} {b : Ptr} {f : Object → Object} (h : e.Apart p)
    (hb : e.message = some b ∨ e.attributes = some b) :
    (P.modify p f).get? b.block = P.heap.get? b.block := by
  cases p with
  | none => rfl
  | some p => exact Table.get?_modify_other (h p b rfl hb)

theorem get?_spared {o : Op} {r : Ret o} {b : Ptr}
    (hb : e.message = some b ∨ e.attributes = some b) (hlive : P.heap.get? b.block = some obj)
    (ho : e.Spares o) (hr : P.Legal pl o r) : (P.effect pl o r).heap.get? b.block = some obj := by
  cases o with
  | allocate api l =>
    cases hp : r.pointer with
    | none => simpa [effect, heapAfter, hp] using hlive
    | some p =>
      have hfresh := (hr.2.2.2 p hp).2
      simp only [effect, heapAfter, hp, Table.get?_acquire hfresh,
        if_neg (Table.ne_of_fresh hfresh hlive), hlive]
  | free api p =>
    cases p with
    | none => exact hlive
    | some p => exact (Table.get?_release_other (ho p b rfl hb)).trans hlive
  | rtlZeroMemory | setClientId => exact (get?_modify_apart ho hb).trans hlive
  | alpcAcceptConnectPort a =>
    simp only [effect, heapAfter]
    split
    · rename_i p hp
      split
      · exact (get?_modify_apart (ho.2 p hp) hb).trans hlive
      · exact hlive
    · exact hlive
  | alpcSendWaitReceivePort a =>
    obtain ⟨hm, ha⟩ : a.receiveMessage = none ∧ a.receiveMessageAttributes = none := ho
    simp only [effect, heapAfter, hm, ha, Process.modify]
    split <;> exact hlive
  | rtlCopyMemory | store | alpcInitializeMessageAttribute | alpcConnectPort | onRequest =>
    exact ho.elim
  | _ => exact hlive

theorem Shows.spared {o : Op} {r : Ret o} (h : Shows e msg P) (ho : e.Spares o)
    (hr : P.Legal pl o r) : Shows e msg (P.effect pl o r) := by
  obtain ⟨q, data, hm, hq, hdata⟩ := h
  exact ⟨q, data, hm, get?_spared (.inl hm) hq ho hr, hdata⟩

theorem Carries.spared {o : Op} {r : Ret o} (h : Carries e ctx P) (ho : e.Spares o)
    (hr : P.Legal pl o r) : Carries e ctx (P.effect pl o r) := by
  obtain ⟨q, size, a, ha, hq, hctx⟩ := h
  exact ⟨q, size, a, ha, get?_spared (.inr ha) hq ho hr, hctx⟩

theorem header_field {msg : List UInt8} (h : off + len ≤ n) :
    ((msg.take n).drop off).take len = (msg.drop off).take len := by
  rw [List.drop_take, List.take_take, Nat.min_eq_left (by omega)]

theorem Shows.take (h : Shows e msg P) (n : Nat) : Shows e (msg.take n) P := by
  obtain ⟨q, data, hm, hq, hdata⟩ := h
  refine ⟨q, data, hm, hq, fun off len hle => ?_⟩
  rw [List.length_take] at hle
  rw [hdata off len (by omega), header_field (by omega)]

end AlpcResearch
