import AlpcResearch.Process.Laws

/-!
# A server at work

An `Endpoint` is what a worker receives on: its port, its message buffer and
its attribute buffer. While they are there (`Serving`), the calls a worker
makes for a message go without a fault, and all but three kinds of call leave
everything alone but the message itself (`Keeps`).
-/

namespace AlpcResearch

open Resource Program Process

structure Endpoint where
  port : Handle
  message : PVoid
  attributes : PVoid
  /-- The size of the message buffer. -/
  capacity : Nat

/-- The port is open and the buffers are there; the attribute buffer has been
initialised for the context attribute. -/
structure Serving (e : Endpoint) (P : Process) : Prop where
  message : ∃ q data, e.message = some ⟨q, 0⟩ ∧ P.heap.get? q = some (.buffer e.capacity data)
  attributes : ∃ q size a, e.attributes = some ⟨q, 0⟩ ∧
    P.heap.get? q = some (.attributes size a) ∧
    a.allocatedAttributes &&& alpcMessageContextAttribute ≠ 0
  port : ∃ h, e.port = some h ∧ P.handles.get? h = some .connectionPort

/-- `P'` is `P` up to the bytes of messages and the port context that came
with the last one. -/
structure Keeps (P P' : Process) : Prop where
  layouts : ∀ q, P'.layoutOf q = P.layoutOf q
  contexts : ∀ q c, P.heap.get? q = some (.portContext c) → P'.heap.get? q = some (.portContext c)
  attributes : ∀ q size a, P.heap.get? q = some (.attributes size a) →
    ∃ ctx, P'.heap.get? q = some (.attributes size { a with portContext := ctx })
  handles : ∀ h, P'.handles.get? h = P.handles.get? h
  faults : P'.faults = P.faults
  next : P.heap.next ≤ P'.heap.next

variable {e : Endpoint} {P P' P'' : Process} {pl : Platform}

theorem Keeps.refl (P : Process) : Keeps P P where
  layouts _ := rfl
  contexts _ _ h := h
  attributes _ _ a h := ⟨a.portContext, h⟩
  handles _ := rfl
  faults := rfl
  next := Nat.le_refl _

theorem Keeps.trans (h : Keeps P P') (h' : Keeps P' P'') : Keeps P P'' where
  layouts q := (h'.layouts q).trans (h.layouts q)
  contexts q c hc := h'.contexts q c (h.contexts q c hc)
  attributes q size a ha := by
    obtain ⟨ctx, ha'⟩ := h.attributes q size a ha
    obtain ⟨ctx', ha''⟩ := h'.attributes q size _ ha'
    exact ⟨ctx', ha''⟩
  handles r := (h'.handles r).trans (h.handles r)
  faults := h'.faults.trans h.faults
  next := Nat.le_trans h.next h'.next

theorem Keeps.of_eq (h : Keeps P P') (he : P'' = P') : Keeps P P'' := he ▸ h

theorem layout_buffer {obj : Object} (h : obj.layout = .buffer size) :
    ∃ data, obj = .buffer size data := by
  cases obj with
  | buffer n data =>
    cases h
    exact ⟨data, rfl⟩
  | attributes | portContext | serverObject | olderServerObject | clientObject | kaClientObject => cases h

theorem layout_attributes {obj : Object} (h : obj.layout = .attributes size) :
    ∃ a, obj = .attributes size a := by
  cases obj with
  | attributes n a =>
    cases h
    exact ⟨a, rfl⟩
  | buffer | portContext | serverObject | olderServerObject | clientObject | kaClientObject => cases h

theorem get?_buffer (h : P.layoutOf q = some (.buffer size)) :
    ∃ data, P.heap.get? q = some (.buffer size data) := by
  obtain ⟨obj, hobj, hl⟩ := layoutOf_some.mp h
  obtain ⟨data, rfl⟩ := layout_buffer hl
  exact ⟨data, hobj⟩

theorem Serving.keeps (h : Serving e P) (hk : Keeps P P') : Serving e P' where
  message := by
    obtain ⟨q, data, hm, hq⟩ := h.message
    have hl := (hk.layouts q).trans (layoutOf_get? hq)
    obtain ⟨data', hq'⟩ := get?_buffer hl
    exact ⟨q, data', hm, hq'⟩
  attributes := by
    obtain ⟨q, size, a, hm, hq, hmask⟩ := h.attributes
    obtain ⟨ctx, hq'⟩ := hk.attributes q size a hq
    exact ⟨q, size, _, hm, hq', hmask⟩
  port := by
    obtain ⟨r, hr, hlive⟩ := h.port
    exact ⟨r, hr, (hk.handles r).trans hlive⟩

-- ---------------------------------------------------------------------------
-- Nothing goes wrong
-- ---------------------------------------------------------------------------

theorem handleFault_live {r : Ref} (h : P.handles.get? r = some k) :
    P.handleFault (some r) = [] := by
  simp [handleFault, h]

theorem Serving.port_fault (h : Serving e P) : P.handleFault e.port = [] := by
  obtain ⟨r, hr, hlive⟩ := h.port
  rw [hr]
  exact handleFault_live hlive

theorem Serving.attributes_fault (h : Serving e P) : P.structFault e.attributes = [] := by
  obtain ⟨q, size, a, hm, hq, -⟩ := h.attributes
  rw [hm]
  exact structFault_live hq

theorem Serving.message_inside (h : Serving e P) (hle : off + len ≤ e.capacity) :
    P.accessFault pl (e.message.map (·.add off)) len = [] := by
  obtain ⟨q, data, hm, hq⟩ := h.message
  refine accessFault_inside (.inr (.inr ⟨⟨q, off⟩, _, ?_, layoutOf_get? hq, hle⟩))
  simp [hm, Ptr.add]

theorem Serving.receive_fault (h : Serving e P) (hle : len ≤ e.capacity) :
    P.kernelWriteFault pl e.message len = [] := by
  obtain ⟨q, data, hm, hq⟩ := h.message
  rw [hm]
  refine kernelWriteFault_inside (l := .buffer e.capacity) (layoutOf_get? hq) ?_
  simpa [Layout.size] using hle

-- ---------------------------------------------------------------------------
-- The calls a worker makes
-- ---------------------------------------------------------------------------

def Endpoint.receive (e : Endpoint) : SendWaitReceive where
  portHandle := e.port
  flags := 0
  sendMessage := none
  receiveMessage := e.message
  bufferLength := some e.capacity
  receiveMessageAttributes := e.attributes

def Endpoint.reply (e : Endpoint) : SendWaitReceive where
  portHandle := e.port
  flags := alpcMsgflgReleaseMessage
  sendMessage := e.message
  receiveMessage := none
  bufferLength := none
  receiveMessageAttributes := none

def Shows (e : Endpoint) (msg : List UInt8) (P : Process) : Prop :=
  ∃ q data, e.message = some ⟨q, 0⟩ ∧ P.heap.get? q = some (.buffer e.capacity data) ∧
    ∀ off len, off + len ≤ msg.length → data.slice off len = (msg.drop off).take len

def Carries (e : Endpoint) (ctx : PVoid) (P : Process) : Prop :=
  ∃ q size a, e.attributes = some ⟨q, 0⟩ ∧ P.heap.get? q = some (.attributes size a) ∧
    a.portContext = ctx

theorem effect_load (pl : Platform) (h : Serving e P) (hle : off + len ≤ e.capacity) (r : List UInt8) :
    P.effect pl (.load e.message off len) r = P :=
  effect_eq_self rfl rfl (h.message_inside hle)

theorem Shows.load (h : Shows e msg P) (hr : P.Legal pl (.load e.message off len) bs)
    (hle : off + len ≤ msg.length) : bs = (msg.drop off).take len := by
  obtain ⟨q, data, hm, hq, hdata⟩ := h
  have hat : P.at? e.message = some (.buffer e.capacity data) := by
    rw [hm]
    exact at?_live hq
  rw [hr.2.2 ⟨q, 0⟩ _ data hm hat, ← hdata off len hle]
  simp

theorem effect_getMessageAttribute (pl : Platform) (flag : UInt32) (h : Serving e P) (r : PVoid) :
    P.effect pl (.alpcGetMessageAttribute e.attributes flag) r = P :=
  effect_eq_self rfl rfl h.attributes_fault

theorem effect_reply (h : Serving e P) (r : Reply) :
    P.effect pl (.alpcSendWaitReceivePort e.reply) r = P := by
  refine effect_eq_self ?_ rfl ?_
  · simp [heapAfter, Endpoint.reply, Process.modify]
  · simp [faultsOf, Endpoint.reply, h.port_fault, kernelWriteFault, structFault]

theorem Serving.attribute_fault (h : Serving e P) {q p : Ptr} (hq : e.attributes = some q)
    (hp : p.block = q.block) : P.structFault (some p) = [] := by
  obtain ⟨b, size, a, hm, hb, -⟩ := h.attributes
  cases hq.symm.trans hm
  obtain ⟨_, off⟩ := p
  cases hp
  exact structFault_live hb

theorem effect_getPortContext (h : Serving e P) {q p : Ptr} (hq : e.attributes = some q)
    (hp : p.block = q.block) (r : PVoid) : P.effect pl (.getPortContext (some p)) r = P :=
  effect_eq_self rfl rfl (h.attribute_fault hq hp)

theorem Carries.read (h : Carries e ctx P) {q p : Ptr} (hq : e.attributes = some q)
    (hp : p.block = q.block) (hr : P.Legal pl (.getPortContext (some p)) r) : r = ctx := by
  obtain ⟨b, size, a, ha, hb, rfl⟩ := h
  cases hq.symm.trans ha
  exact hr.2 size a (at?_live (by rw [hp]; exact hb))

theorem effect_cancel (h : Serving e P) {q p : Ptr} (hq : e.attributes = some q)
    (hp : p.block = q.block) (r : NtStatus) :
    P.effect pl (.alpcCancelMessage e.port (some p)) r = P := by
  refine effect_eq_self rfl rfl ?_
  simp [faultsOf, h.port_fault, h.attribute_fault hq hp]

theorem effect_reject (h : Serving e P) {a : AcceptConnectPort} {r : AcceptReply}
    (ha : a.acceptConnection = false) (hport : a.connectionPortHandle = e.port)
    (hout : ∀ p, a.portHandle = .portContext p → P.structFault p = [])
    (hr : P.Legal pl (.alpcAcceptConnectPort a) r) :
    P.effect pl (.alpcAcceptConnectPort a) r = P := by
  have hhandle : r.handle = none := by simpa [Legal, ha] using hr
  refine effect_eq_self ?_ ?_ ?_
  · simp only [heapAfter, ha, Bool.and_false, Bool.false_eq_true, if_false]
    split <;> rfl
  · simp [handlesAfter, opened, closed, hhandle]
  · simp only [faultsOf, hport, h.port_fault, List.nil_append]
    split
    · exact hout _ (by assumption)
    · rfl

-- ---------------------------------------------------------------------------
-- Changes of the message
-- ---------------------------------------------------------------------------

theorem keeps_modify {b : Ref} {f : Object → Object} (data' : Contents)
    (hb : P.heap.get? b = some (.buffer size data))
    (hf : f (.buffer size data) = .buffer size data') :
    Keeps P { P with heap := P.heap.modify b.name f } where
  layouts q := by
    simp only [layoutOf, Table.get?_modify hb]
    split
    · rename_i hq
      simp [hq, hb, hf, Object.layout]
    · rfl
  contexts q c hc := by
    have hne : q ≠ b := by rintro rfl; simp [hb] at hc
    simpa [Table.get?_modify hb, hne] using hc
  attributes q n a ha := by
    have hne : q ≠ b := by rintro rfl; simp [hb] at ha
    exact ⟨a.portContext, by simpa [Table.get?_modify hb, hne] using ha⟩
  handles _ := rfl
  faults := rfl
  next := Nat.le_refl _

theorem keeps_setPortContext {b : Ref} (hb : P.heap.get? b = some (.attributes size a)) :
    Keeps P { P with heap := P.heap.modify b.name (.setPortContext ctx) } where
  layouts q := by
    simp only [layoutOf, Table.get?_modify hb]
    split
    · rename_i hq
      simp [hq, hb, Object.setPortContext, Object.layout]
    · rfl
  contexts q c hc := by
    have hne : q ≠ b := by rintro rfl; simp [hb] at hc
    simpa [Table.get?_modify hb, hne] using hc
  attributes q n a' ha := by
    by_cases hq : q = b
    · subst hq
      cases hb.symm.trans ha
      exact ⟨ctx, by simp [Table.get?_modify hb, Object.setPortContext]⟩
    · exact ⟨a'.portContext, by simpa [Table.get?_modify hb, hq] using ha⟩
  handles _ := rfl
  faults := rfl
  next := Nat.le_refl _

theorem keeps_onRequest (h : Serving e P) (r : Served) :
    Keeps P (P.effect pl (.onRequest procedure e.message) r) := by
  obtain ⟨q, data, hm, hq⟩ := h.message
  rw [hm]
  exact keeps_modify r.left hq rfl

/-- After a receive the buffer begins with the message, and the attribute
buffer carries the port context that came with it. -/
theorem keeps_receive (h : Serving e P) {r : Reply}
    (hr : P.Legal pl (.alpcSendWaitReceivePort e.receive) r) :
    Keeps P (P.effect pl (.alpcSendWaitReceivePort e.receive) r) ∧
      Shows e r.written (P.effect pl (.alpcSendWaitReceivePort e.receive) r) ∧
      (ntSuccess r.status →
        Carries e r.portContext (P.effect pl (.alpcSendWaitReceivePort e.receive) r)) := by
  obtain ⟨q, data, hm, hq⟩ := h.message
  obtain ⟨b, size, a, ha, hb, -⟩ := h.attributes
  have hlen : r.written.length ≤ e.capacity := by simpa [Endpoint.receive] using hr.2.1
  have hfaults : P.faultsOf pl (.alpcSendWaitReceivePort e.receive) r = [] := by
    simp [faultsOf, Endpoint.receive, h.port_fault, h.attributes_fault, h.receive_fault hlen]
  have hne : b ≠ q := by rintro rfl; simp [hq] at hb
  let P₁ : Process := { P with heap := P.heap.modify q.name (.writeBytes 0 r.written) }
  have hq₁ : P₁.heap.get? q = some (.buffer e.capacity (data.write 0 r.written)) := by
    simp [P₁, Table.get?_modify hq, Object.writeBytes]
  have hb₁ : P₁.heap.get? b = some (.attributes size a) := by
    simp [P₁, Table.get?_modify hq, hne, hb]
  have hk₁ : Keeps P P₁ := keeps_modify (data.write 0 r.written) hq rfl
  by_cases hs : ntSuccess r.status = true
  · have heffect : P.effect pl (.alpcSendWaitReceivePort e.receive) r =
        { P₁ with heap := P₁.heap.modify b.name (.setPortContext r.portContext) } := by
      refine effect_heap ?_ rfl hfaults
      simp only [heapAfter, Endpoint.receive, hm, ha, hs]
      rfl
    rw [heffect]
    refine ⟨hk₁.trans (keeps_setPortContext hb₁), ⟨q, data.write 0 r.written, hm, ?_, fun off len hle => ?_⟩,
      fun _ => ⟨b, size, { a with portContext := r.portContext }, ha, ?_, rfl⟩⟩
    · simpa [Table.get?_modify hb₁, hne.symm] using hq₁
    · exact Contents.slice_write_zero hle
    · simp [Table.get?_modify hb₁, Object.setPortContext]
  · have heffect : P.effect pl (.alpcSendWaitReceivePort e.receive) r = P₁ := by
      refine effect_heap ?_ rfl hfaults
      simp only [heapAfter, Endpoint.receive, hm, hs]
      rfl
    rw [heffect]
    exact ⟨hk₁, ⟨q, _, hm, hq₁, fun off len hle => Contents.slice_write_zero hle⟩,
      fun h => absurd h hs⟩

end AlpcResearch
