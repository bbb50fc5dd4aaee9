import AlpcResearch.Sessions.Tables

/-!
# The life of a port context

Call by call: a `PORT_CONTEXT` is allocated, zeroed, given its client, and
either accepted with (`Gains`) or released again; a disconnect closes its
handle and releases it (`Loses`). Between the allocation and the accept the
block is pending: the process is what it was, and that one block.
-/

namespace AlpcResearch

open Resource Program Process

/-- The process is what it was, and the block of a connection that has not
been accepted yet. -/
abbrev Pending (P P' : Process) (q : Ref) (c : PortContext) : Prop :=
  NewBlock P P' q (.portContext c)

variable {pl : Platform} {e : Endpoint} {P P' : Process} {q : Ref} {c : PortContext}

theorem Serving.pending (h : Serving e P) (p : Pending P P' q c) : Serving e P' where
  message := by
    obtain ⟨b, data, hm, hb⟩ := h.message
    exact ⟨b, data, hm, p.other hb⟩
  attributes := by
    obtain ⟨b, size, a, ha, hb, hmask⟩ := h.attributes
    exact ⟨b, size, a, ha, p.other hb, hmask⟩
  port := by
    obtain ⟨r, hr, hlive⟩ := h.port
    exact ⟨r, hr, (p.handles r).trans hlive⟩

theorem Shows.pending (h : Shows e msg P) (p : Pending P P' q c) : Shows e msg P' := by
  obtain ⟨b, data, hm, hb, hdata⟩ := h
  exact ⟨b, data, hm, p.other hb, hdata⟩

theorem layout_portContext {obj : Object} (h : obj.layout = .portContext) :
    ∃ c, obj = .portContext c := by
  cases obj with
  | portContext c => exact ⟨c, rfl⟩
  | buffer | attributes | serverObject | olderServerObject | clientObject | kaClientObject => cases h

theorem pending_allocate {r : Allocation} (hr : P.Legal pl (.allocate api .portContext) r)
    (hp : r.pointer = some p) :
    ∃ q c, p = ⟨q, 0⟩ ∧ Pending P (P.effect pl (.allocate api .portContext) r) q c := by
  obtain ⟨c, hc⟩ := layout_portContext hr.1
  obtain ⟨q, rfl, hnew⟩ := newBlock_allocate hr hp
  rw [hc] at hnew
  exact ⟨q, c, rfl, hnew⟩

theorem Pending.zero (pl : Platform) (p : Pending P P' q c) :
    Pending P (P'.effect pl (.rtlZeroMemory (some ⟨q, 0⟩) (Layout.size pl .portContext)) ()) q
      ⟨⟨0, 0⟩, none⟩ :=
  NewBlock.zero p

theorem Pending.setClientId (pl : Platform) (p : Pending P P' q c) (cid : ClientId) :
    Pending P (P'.effect pl (.setClientId (some ⟨q, 0⟩) cid) ()) q { c with clientId := cid } :=
  p.modify pl (f := .setClientId cid) (effect_heap rfl rfl (structFault_live p.block))

theorem Pending.accept (p : Pending P P' q c) (h : Serving e P) {a : AcceptConnectPort}
    {r : AcceptReply} (hout : a.portHandle = .portContext (some ⟨q, 0⟩))
    (hport : a.connectionPortHandle = e.port) (ha : a.acceptConnection = true)
    (hr : P'.Legal pl (.alpcAcceptConnectPort a) r) (hs : ntSuccess r.status = true) :
    ∃ h, r.handle = some h ∧
      Gains P (P'.effect pl (.alpcAcceptConnectPort a) r) q h c.clientId := by
  obtain ⟨h', hh, hfresh⟩ : ∃ x, r.handle = some x ∧ P'.handles.Fresh x := by
    simpa [Legal, ha, Opens, hs] using hr
  refine ⟨h', hh, ?_⟩
  have hnew : P.handles.get? h' = none := by
    rw [← p.handles]
    exact Table.get?_fresh hfresh
  constructor
  case newBlock => exact p.newBlock
  case newHandle => exact hnew
  case heap =>
    intro b
    simp only [effect, heapAfter, hout, hs, ha, Bool.and_self, if_true, Process.modify]
    rw [Table.get?_modify p.block, p.heap, hh]
    split <;> rfl
  case handles =>
    intro b
    simp only [effect, handlesAfter, opened, hh, Option.map_some]
    rw [Table.get?_acquire hfresh]
    split
    · rfl
    · exact p.handles b
  case faults =>
    have hport' := (h.pending p).port_fault
    simp [effect, faultsOf, hout, hport, hport', structFault_live p.block, p.faults]
  case next =>
    simp only [effect, heapAfter, hout, hs, ha, Bool.and_self, if_true, Process.modify]
    exact p.next

theorem Pending.accept_failed (p : Pending P P' q c) (h : Serving e P) {a : AcceptConnectPort}
    {r : AcceptReply} (hout : a.portHandle = .portContext (some ⟨q, 0⟩))
    (hport : a.connectionPortHandle = e.port) (ha : a.acceptConnection = true)
    (hr : P'.Legal pl (.alpcAcceptConnectPort a) r) (hs : ¬ ntSuccess r.status = true) :
    P'.effect pl (.alpcAcceptConnectPort a) r = P' := by
  have hhandle : r.handle = none := by simpa [Legal, ha, Opens, hs] using hr
  refine effect_eq_self ?_ ?_ ?_
  · simp [heapAfter, hout, hs]
  · simp [handlesAfter, opened, closed, hhandle]
  · simp [faultsOf, hout, hport, (h.pending p).port_fault, structFault_live p.block]

theorem Pending.free (pl : Platform) (api : HeapApi) (p : Pending P P' q c) :
    Keeps P (P'.effect pl (.free api (some ⟨q, 0⟩)) ()) := by
  have hget : ∀ r, (P'.effect pl (.free api (some ⟨q, 0⟩)) ()).heap.get? r = P.heap.get? r := by
    intro r
    simp only [effect, heapAfter]
    rw [Table.get?_release p.block, p.heap]
    split
    · rename_i he
      rw [he, Table.get?_of_next_le p.newBlock]
    · rfl
  constructor
  case layouts => simp [layoutOf, hget]
  case contexts => simp [hget]
  case attributes => exact fun b size a hb => ⟨a.portContext, (hget b).trans hb⟩
  case handles => exact p.handles
  case faults => simp [effect, faultsOf, layoutOf_get? p.block, p.faults]
  case next =>
    have := p.newBlock
    have := p.next
    simp only [effect, heapAfter, Table.next_release]
    omega

-- ---------------------------------------------------------------------------
-- Tearing down
-- ---------------------------------------------------------------------------

/-- Closing the handle of a context, whether or not it can be closed. -/
def closeHandle (status : NtStatus) (h : Handle) : Handle := if ntSuccess status then h else none

theorem handles_close (pl : Platform) {h : Ref} (hh : P.handles.get? h = some k) (status : NtStatus) (r : Ref) :
    (P.effect pl (.close (some h)) status).handles.get? r =
      if some r = closeHandle status (some h) then none else P.handles.get? r := by
  simp only [effect, handlesAfter, opened, closed, closeHandle]
  by_cases hs : ntSuccess status = true
  · simp only [hs, if_true, Option.some.injEq]
    exact Table.get?_release hh
  · simp [hs]

theorem loses_close_free {h : Ref} (hq : P.heap.get? q = some (.portContext c))
    (hh : P.handles.get? h = some k) (status : NtStatus) :
    Loses P ((P.effect pl (.close (some h)) status).effect pl (.free api (some ⟨q, 0⟩)) ()) q
      (closeHandle status (some h)) := by
  have hq' : (P.effect pl (.close (some h)) status).heap.get? q = some (.portContext c) := hq
  constructor
  case heap =>
    intro r
    exact Table.get?_release hq'
  case handles => exact fun r => handles_close pl hh status r
  case faults =>
    have hlive : (P.effect pl (.close (some h)) status).faultsOf pl
        (.free api (some ⟨q, 0⟩)) () = [] := by
      simp [faultsOf, layoutOf_get? hq']
    rw [faults_effect, hlive]
    simp [effect, faultsOf, handleFault_live hh]
  case next => exact Nat.le_refl _

end AlpcResearch
