import Mathlib.Data.List.Nodup
import AlpcResearch.Process.Serving
import AlpcResearch.Sessions.Ledger

/-!
# The tables behind the ledger

`Entries P sessions` says that a process holds, for each session, one
`PORT_CONTEXT` block with that session's client and its open handle; `Framed`
that it holds nothing else beyond what it held before. Accepting a connection
adds to the tables, disconnecting takes away, and everything else keeps them.
-/

namespace AlpcResearch

open Resource Program Process

structure Session.At (s : Session) (q h : Ref) : Prop where
  context : s.context = some ⟨q, 0⟩
  handle : s.handle = some h

structure Entries (P : Process) (sessions : List Session) : Prop where
  entry : ∀ s ∈ sessions, ∃ q h, s.At q h ∧
    P.heap.get? q = some (.portContext ⟨s.clientId, s.handle⟩) ∧
    P.handles.get? h = some .communicationPort
  contexts : (sessions.map Session.context).Nodup
  handles : (sessions.map Session.handle).Nodup

/-- Apart from the sessions' blocks and handles, `P` has those of `P₀`. -/
structure Framed (P₀ P : Process) (sessions : List Session) : Prop where
  fresh : ∀ s ∈ sessions, ∀ q h, s.At q h → P₀.layoutOf q = none ∧ P₀.handles.get? h = none
  layouts : ∀ q, (∀ s ∈ sessions, s.context ≠ some ⟨q, 0⟩) → P.layoutOf q = P₀.layoutOf q
  others : ∀ h, (∀ s ∈ sessions, s.handle ≠ some h) → P.handles.get? h = P₀.handles.get? h

/-- A connection was accepted: the block `q` and the handle `h` are new. -/
structure Gains (P P' : Process) (q h : Ref) (cid : ClientId) : Prop where
  newBlock : P.heap.next ≤ q.serial
  newHandle : P.handles.get? h = none
  heap : ∀ r, P'.heap.get? r =
    if r = q then some (.portContext ⟨cid, some h⟩) else P.heap.get? r
  handles : ∀ r, P'.handles.get? r =
    if r = h then some .communicationPort else P.handles.get? r
  faults : P'.faults = P.faults
  next : q.serial < P'.heap.next

/-- A connection was torn down: the block `q` is gone, and the handle `h` if
it could be closed. -/
structure Loses (P P' : Process) (q : Ref) (h : Handle) : Prop where
  heap : ∀ r, P'.heap.get? r = if r = q then none else P.heap.get? r
  handles : ∀ r, P'.handles.get? r = if some r = h then none else P.handles.get? r
  faults : P'.faults = P.faults
  next : P.heap.next ≤ P'.heap.next

variable {P₀ P P' : Process} {sessions : List Session} {s s' : Session} {q h : Ref}

theorem Gains.block_free (g : Gains P P' q h cid) : P.heap.get? q = none :=
  Table.get?_of_next_le g.newBlock

-- ---------------------------------------------------------------------------
-- Entries
-- ---------------------------------------------------------------------------

theorem Entries.none (P : Process) : Entries P [] where
  entry _ hs := by cases hs
  contexts := List.nodup_nil
  handles := List.nodup_nil

theorem Entries.at (t : Entries P sessions) (hs : s ∈ sessions) (hat : s.At q h) :
    P.heap.get? q = some (.portContext ⟨s.clientId, s.handle⟩) ∧
      P.handles.get? h = some .communicationPort := by
  obtain ⟨q', h', hat', hrest⟩ := t.entry s hs
  cases hat.context.symm.trans hat'.context
  cases hat.handle.symm.trans hat'.handle
  exact hrest

theorem Entries.eq_of_context (t : Entries P sessions) (hs : s ∈ sessions) (hs' : s' ∈ sessions)
    (he : s'.context = s.context) : s' = s :=
  List.inj_on_of_nodup_map t.contexts hs' hs he

theorem Entries.eq_of_handle (t : Entries P sessions) (hs : s ∈ sessions) (hs' : s' ∈ sessions)
    (he : s'.handle = s.handle) : s' = s :=
  List.inj_on_of_nodup_map t.handles hs' hs he

theorem Entries.context_ne (t : Entries P sessions) (hq : P.heap.get? q = Option.none) :
    ∀ s ∈ sessions, s.context ≠ some ⟨q, 0⟩ := by
  intro s hs he
  obtain ⟨q', h', hat, hq', -⟩ := t.entry s hs
  cases he.symm.trans hat.context
  cases hq.symm.trans hq'

theorem Entries.handle_ne (t : Entries P sessions) (hh : P.handles.get? h = Option.none) :
    ∀ s ∈ sessions, s.handle ≠ some h := by
  intro s hs he
  obtain ⟨q', h', hat, -, hh'⟩ := t.entry s hs
  cases he.symm.trans hat.handle
  cases hh.symm.trans hh'

theorem Entries.mono (t : Entries P sessions)
    (hheap : ∀ q c, P.heap.get? q = some (.portContext c) → P'.heap.get? q = some (.portContext c))
    (hhandles : ∀ h k, P.handles.get? h = some k → P'.handles.get? h = some k) :
    Entries P' sessions where
  entry s hs := by
    obtain ⟨q, h, hat, hq, hh⟩ := t.entry s hs
    exact ⟨q, h, hat, hheap q _ hq, hhandles h _ hh⟩
  contexts := t.contexts
  handles := t.handles

theorem Entries.keeps (t : Entries P sessions) (k : Keeps P P') : Entries P' sessions :=
  t.mono k.contexts fun h _ hh => (k.handles h).trans hh

theorem Entries.gains (t : Entries P sessions) (g : Gains P P' q h cid) :
    Entries P' (⟨some ⟨q, 0⟩, cid, some h⟩ :: sessions) := by
  have hq := t.context_ne g.block_free
  have hh := t.handle_ne g.newHandle
  constructor
  case entry =>
    intro s hs
    rcases List.mem_cons.mp hs with rfl | hs
    · exact ⟨q, h, ⟨rfl, rfl⟩, by simp [g.heap], by simp [g.handles]⟩
    · obtain ⟨q', h', hat, hq', hh'⟩ := t.entry s hs
      have hqne : q' ≠ q := fun e => hq s hs (e ▸ hat.context)
      have hhne : h' ≠ h := fun e => hh s hs (e ▸ hat.handle)
      exact ⟨q', h', hat, by simpa [g.heap, hqne] using hq', by simpa [g.handles, hhne] using hh'⟩
  case contexts =>
    refine List.nodup_cons.mpr ⟨fun hmem => ?_, t.contexts⟩
    obtain ⟨s, hs, he⟩ := List.mem_map.mp hmem
    exact hq s hs he
  case handles =>
    refine List.nodup_cons.mpr ⟨fun hmem => ?_, t.handles⟩
    obtain ⟨s, hs, he⟩ := List.mem_map.mp hmem
    exact hh s hs he

/-- Taking the block and the handle of one session leaves the others theirs. -/
theorem Entries.loses (t : Entries P sessions) (hs : s ∈ sessions) (hat : s.At q h)
    (l : Loses P P' q (some h)) :
    Entries P' (sessions.filter fun s' => s'.context ≠ s.context) := by
  have hsub : (sessions.filter fun s' => s'.context ≠ s.context).Sublist sessions :=
    List.filter_sublist
  constructor
  case entry =>
    intro s' hmem
    obtain ⟨hs', hne⟩ := List.mem_filter.mp hmem
    have hne : s'.context ≠ s.context := by simpa using hne
    obtain ⟨q', h', hat', hq', hh'⟩ := t.entry s' hs'
    have hqne : q' ≠ q := fun e => hne (by rw [hat'.context, hat.context, e])
    have hhne : h' ≠ h := fun e =>
      hne (congrArg _ (t.eq_of_handle hs hs' (by rw [hat'.handle, hat.handle, e])))
    exact ⟨q', h', hat', by simpa [l.heap, hqne] using hq', by simpa [l.handles, hhne] using hh'⟩
  case contexts => exact t.contexts.sublist (hsub.map _)
  case handles => exact t.handles.sublist (hsub.map _)

-- ---------------------------------------------------------------------------
-- The frame
-- ---------------------------------------------------------------------------

theorem Framed.start (P : Process) : Framed P P [] where
  fresh _ hs := by cases hs
  layouts _ _ := rfl
  others _ _ := rfl

theorem Framed.keeps (f : Framed P₀ P sessions) (k : Keeps P P') : Framed P₀ P' sessions where
  fresh := f.fresh
  layouts q hq := (k.layouts q).trans (f.layouts q hq)
  others h hh := (k.handles h).trans (f.others h hh)

theorem Framed.gains (f : Framed P₀ P sessions) (t : Entries P sessions)
    (g : Gains P P' q h cid) : Framed P₀ P' (⟨some ⟨q, 0⟩, cid, some h⟩ :: sessions) := by
  constructor
  case fresh =>
    intro s hs q' h' hat
    rcases List.mem_cons.mp hs with rfl | hs
    · cases hat.context
      cases hat.handle
      rw [← f.layouts q (t.context_ne g.block_free), ← f.others h (t.handle_ne g.newHandle)]
      exact ⟨layoutOf_none.mpr g.block_free, g.newHandle⟩
    · exact f.fresh s hs q' h' hat
  case layouts =>
    intro r hr
    simp only [List.mem_cons, forall_eq_or_imp] at hr
    have hne : r ≠ q := fun e => hr.1 (e ▸ rfl)
    rw [← f.layouts r hr.2]
    simp [layoutOf, g.heap, hne]
  case others =>
    intro r hr
    simp only [List.mem_cons, forall_eq_or_imp] at hr
    have hne : r ≠ h := fun e => hr.1 (e ▸ rfl)
    rw [← f.others r hr.2]
    simp [g.handles, hne]

theorem Framed.loses (f : Framed P₀ P sessions) (t : Entries P sessions) (hs : s ∈ sessions)
    (hat : s.At q h) (l : Loses P P' q (some h)) :
    Framed P₀ P' (sessions.filter fun s' => s'.context ≠ s.context) := by
  obtain ⟨hq₀, hh₀⟩ := f.fresh s hs q h hat
  constructor
  case fresh => exact fun s' hs' => f.fresh s' (List.mem_of_mem_filter hs')
  case layouts =>
    intro r hr
    by_cases hrq : r = q
    · rw [hrq, hq₀]
      simp [layoutOf, l.heap]
    · rw [← f.layouts r]
      · simp [layoutOf, l.heap, hrq]
      · intro s' hs' he
        by_cases hc : s'.context = s.context
        · cases he.symm.trans (hc.trans hat.context)
          exact hrq rfl
        · exact hr s' (List.mem_filter.mpr ⟨hs', by simpa using hc⟩) he
  case others =>
    intro r hr
    by_cases hrh : r = h
    · simp [hrh, l.handles, hh₀]
    · rw [← f.others r]
      · simp [l.handles, hrh]
      · intro s' hs' he
        by_cases hc : s'.context = s.context
        · have hss := t.eq_of_context hs hs' hc
          subst hss
          cases he.symm.trans hat.handle
          exact hrh rfl
        · exact hr s' (List.mem_filter.mpr ⟨hs', by simpa using hc⟩) he

end AlpcResearch
