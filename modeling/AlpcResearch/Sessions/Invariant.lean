import AlpcResearch.Sessions.Steps

/-!
# The session invariant

`Consistent` relates a server's process to its ledger: the open sessions have
their entries, and the contexts of sessions that have ended are gone. It is
kept by each step of the ledger; a teardown keeps it because the connection is
one the ledger still has, which is where the kernel's promise of at most one
disconnect message comes in.
-/

namespace AlpcResearch

open Resource Program Process

namespace Ledger

variable {L : Ledger} {pl : Platform} {msg : List UInt8} {ctx : PVoid} {s : Session}

theorem mem_sessions : s ∈ L.sessions ↔ s ∈ L.accepted ∧ s.context ∉ L.disconnected := by
  simp [sessions]

@[simp] theorem receive_accepted : (L.receive pl msg ctx).accepted = L.accepted := rfl
@[simp] theorem receive_contexts : (L.receive pl msg ctx).contexts = L.contexts := rfl
@[simp] theorem receive_message : (L.receive pl msg ctx).message = msg := rfl

theorem receive_other (h : ¬ isDisconnect (kindOf pl msg) = true) :
    (L.receive pl msg ctx).disconnected = L.disconnected := by
  simp [receive, disconnected, h]

theorem receive_disconnect (h : isDisconnect (kindOf pl msg) = true) :
    (L.receive pl msg ctx).disconnected = ctx :: L.disconnected := by
  simp [receive, disconnected, h]

theorem sessions_other (h : ¬ isDisconnect (kindOf pl msg) = true) :
    (L.receive pl msg ctx).sessions = L.sessions := by
  simp [sessions, receive_other h]

theorem sessions_disconnect (h : isDisconnect (kindOf pl msg) = true) :
    (L.receive pl msg ctx).sessions = L.sessions.filter fun s => s.context ≠ ctx := by
  simp only [sessions, receive_accepted, receive_disconnect h, List.filter_filter]
  exact List.filter_congr fun s _ => by simp

@[simp] theorem answer_accepted : (L.answer f).accepted = L.accepted := rfl
@[simp] theorem answer_disconnects : (L.answer f).disconnects = L.disconnects := rfl

theorem accept_accepted : (L.accept pl ctx h).accepted =
    ⟨ctx, (headerOf pl L.message).clientId, h⟩ :: L.accepted := rfl

theorem accept_disconnected : (L.accept pl ctx h).disconnected = L.disconnected := rfl

theorem accept_contexts : (L.accept pl ctx h).contexts = ctx :: L.contexts := rfl

theorem sessions_accept (hctx : ctx ∉ L.disconnected) : (L.accept pl ctx h).sessions =
    ⟨ctx, (headerOf pl L.message).clientId, h⟩ :: L.sessions := by
  simp only [sessions, accept_accepted, accept_disconnected]
  exact List.filter_cons_of_pos (decide_eq_true hctx)

theorem reject_accepted : L.reject.accepted = L.accepted := rfl

/-- An operation that is no message and no answer to a connection request. -/
theorem add_other {o : Op} (L : Ledger) (r : Ret o) (hsend : ∀ a, o ≠ .alpcSendWaitReceivePort a)
    (haccept : ∀ a, o ≠ .alpcAcceptConnectPort a) : L.add pl ⟨o, r⟩ = L := by
  cases o with
  | alpcSendWaitReceivePort a => exact absurd rfl (hsend a)
  | alpcAcceptConnectPort a => exact absurd rfl (haccept a)
  | _ => rfl

/-- A connection that has a session has been accepted, and not yet named in a
disconnect message. -/
theorem named_open (h : ctx ∈ L.sessions.map Session.context) :
    ctx ∈ L.contexts ∧ oncePerConnection L kind ctx = true := by
  obtain ⟨s, hs, rfl⟩ := List.mem_map.mp h
  obtain ⟨haccepted, hopen⟩ := mem_sessions.mp hs
  exact ⟨List.mem_map_of_mem haccepted, by simpa [oncePerConnection] using hopen⟩

end Ledger

structure Consistent (e : Endpoint) (P : Process) (L : Ledger) : Prop where
  serving : Serving e P
  entries : Entries P L.sessions
  /-- No block handed out later is one of an accepted connection. -/
  known : ∀ s ∈ L.accepted, ∃ q h, s.At q h ∧ q.serial < P.heap.next
  gone : ∀ s ∈ L.accepted, s.context ∈ L.disconnected →
    ∀ q, s.context = some ⟨q, 0⟩ → P.heap.get? q = none
  contexts : L.contexts.Nodup
  disconnected : ∀ ctx ∈ L.disconnected, ctx ∈ L.contexts

variable {e : Endpoint} {P P' : Process} {L L' : Ledger} {pl : Platform}

theorem Consistent.start (h : Serving e P) : Consistent e P .empty where
  serving := h
  entries := .none P
  known _ hs := by cases hs
  gone _ hs := by cases hs
  contexts := List.nodup_nil
  disconnected _ hc := by cases hc

/-- A server's own buffers and port are no connection's. -/
theorem Serving.loses (h : Serving e P) (hq : P.heap.get? q = some (.portContext ctx))
    (hx : P.handles.get? x = some .communicationPort) (l : Loses P P' q (some x)) :
    Serving e P' where
  message := by
    obtain ⟨b, data, hm, hb⟩ := h.message
    have hne : b ≠ q := by rintro rfl; cases hq.symm.trans hb
    exact ⟨b, data, hm, by simpa [l.heap, hne] using hb⟩
  attributes := by
    obtain ⟨b, size, a, ha, hb, hmask⟩ := h.attributes
    have hne : b ≠ q := by rintro rfl; cases hq.symm.trans hb
    exact ⟨b, size, a, ha, by simpa [l.heap, hne] using hb, hmask⟩
  port := by
    obtain ⟨r, hr, hlive⟩ := h.port
    have hne : r ≠ x := by rintro rfl; cases hx.symm.trans hlive
    exact ⟨r, hr, by simpa [l.handles, hne] using hlive⟩

theorem get?_keeps_none (k : Keeps P P') (h : P.heap.get? q = none) : P'.heap.get? q = none :=
  layoutOf_none.mp ((k.layouts q).trans (layoutOf_none.mpr h))

theorem Consistent.keeps (c : Consistent e P L) (k : Keeps P P') : Consistent e P' L where
  serving := c.serving.keeps k
  entries := c.entries.keeps k
  known s hs := by
    obtain ⟨q, h, hat, hlt⟩ := c.known s hs
    exact ⟨q, h, hat, Nat.lt_of_lt_of_le hlt k.next⟩
  gone s hs hd q hq := get?_keeps_none k (c.gone s hs hd q hq)
  contexts := c.contexts
  disconnected := c.disconnected

/-- The session a port context belongs to, until it is named in a disconnect
message. -/
theorem Consistent.named (c : Consistent e P L) (hctx : ctx ∈ L.contexts)
    (honce : ctx ∉ L.disconnected) : ∃ s ∈ L.sessions, s.context = ctx ∧ ∃ q x, s.At q x ∧
      P.heap.get? q = some (.portContext ⟨s.clientId, some x⟩) ∧
      P.handles.get? x = some .communicationPort := by
  obtain ⟨s, hs, rfl⟩ := List.mem_map.mp hctx
  obtain ⟨q, x, hat, -⟩ := c.known s hs
  have hopen := Ledger.mem_sessions.mpr ⟨hs, honce⟩
  obtain ⟨hq, hx⟩ := c.entries.at hopen hat
  exact ⟨s, hopen, rfl, q, x, hat, hat.handle ▸ hq, hx⟩

theorem Consistent.pending (c : Consistent e P L) (p : Pending P P' q ctx) : Consistent e P' L where
  serving := c.serving.pending p
  entries := c.entries.mono (fun _ _ h => p.other h) fun h _ hh => (p.handles h).trans hh
  known s hs := by
    obtain ⟨b, h, hat, hlt⟩ := c.known s hs
    exact ⟨b, h, hat, (hlt.trans_le p.newBlock).trans p.next⟩
  gone s hs hd b hb := by
    obtain ⟨b', h, hat, hlt⟩ := c.known s hs
    cases hb.symm.trans hat.context
    have hne : b ≠ q := by
      rintro rfl
      exact absurd p.newBlock (Nat.not_le_of_lt hlt)
    rw [p.heap, if_neg hne]
    exact c.gone s hs hd b hb
  contexts := c.contexts
  disconnected := c.disconnected

theorem Consistent.congr (c : Consistent e P L) (ha : L'.accepted = L.accepted)
    (hd : L'.disconnected = L.disconnected) : Consistent e P L' where
  serving := c.serving
  entries := by simpa [Ledger.sessions, ha, hd] using c.entries
  known := ha ▸ c.known
  gone := by rw [ha, hd]; exact c.gone
  contexts := by simpa [Ledger.contexts, ha] using c.contexts
  disconnected := by rw [hd]; simpa [Ledger.contexts, ha] using c.disconnected

theorem Consistent.new_context (c : Consistent e P L) (hq : P.heap.next ≤ q.serial) :
    some ⟨q, 0⟩ ∉ L.contexts := by
  intro hmem
  obtain ⟨s, hs, he⟩ := List.mem_map.mp hmem
  obtain ⟨q', h, hat, hlt⟩ := c.known s hs
  cases he.symm.trans hat.context
  omega

theorem Serving.gains (h : Serving e P) (g : Gains P P' q x cid) : Serving e P' where
  message := by
    obtain ⟨b, data, hm, hb⟩ := h.message
    have hne : b ≠ q := by rintro rfl; cases g.block_free.symm.trans hb
    exact ⟨b, data, hm, by simpa [g.heap, hne] using hb⟩
  attributes := by
    obtain ⟨b, size, a, ha, hb, hmask⟩ := h.attributes
    have hne : b ≠ q := by rintro rfl; cases g.block_free.symm.trans hb
    exact ⟨b, size, a, ha, by simpa [g.heap, hne] using hb, hmask⟩
  port := by
    obtain ⟨r, hr, hlive⟩ := h.port
    have hne : r ≠ x := by rintro rfl; cases g.newHandle.symm.trans hlive
    exact ⟨r, hr, by simpa [g.handles, hne] using hlive⟩

theorem Consistent.gains (c : Consistent e P L) (g : Gains P P' q h (headerOf pl L.message).clientId) :
    Consistent e P' (L.accept pl (some ⟨q, 0⟩) (some h)) := by
  have hnew := c.new_context g.newBlock
  have hnd : some ⟨q, 0⟩ ∉ L.disconnected := fun hmem => hnew (c.disconnected _ hmem)
  constructor
  case serving => exact c.serving.gains g
  case entries => exact Ledger.sessions_accept hnd ▸ c.entries.gains g
  case known =>
    intro s hs
    rw [Ledger.accept_accepted] at hs
    rcases List.mem_cons.mp hs with rfl | hs
    · exact ⟨q, h, ⟨rfl, rfl⟩, g.next⟩
    · obtain ⟨q', h', hat, hlt⟩ := c.known s hs
      have := g.newBlock
      have := g.next
      exact ⟨q', h', hat, by omega⟩
  case gone =>
    intro s hs hd q' hq'
    rw [Ledger.accept_accepted] at hs
    rcases List.mem_cons.mp hs with rfl | hold
    · exact absurd hd hnd
    · have hne : q' ≠ q := by
        rintro rfl
        exact hnew (List.mem_map.mpr ⟨s, hold, hq'⟩)
      simpa [g.heap, hne] using c.gone s hold hd q' hq'
  case contexts => exact List.nodup_cons.mpr ⟨hnew, c.contexts⟩
  case disconnected =>
    exact fun ctx hmem => List.mem_cons_of_mem _ (c.disconnected ctx hmem)

theorem Consistent.loses (c : Consistent e P L) (hs : s ∈ L.sessions) (hat : s.At q h)
    (l : Loses P P' q (some h)) (ha : L'.accepted = L.accepted)
    (hd : L'.disconnected = s.context :: L.disconnected) : Consistent e P' L' := by
  obtain ⟨hq, hh⟩ := c.entries.at hs hat
  have hsessions : L'.sessions = L.sessions.filter fun s' => s'.context ≠ s.context := by
    simp only [Ledger.sessions, ha, hd, List.filter_filter]
    exact List.filter_congr fun s' _ => by simp
  constructor
  case serving => exact c.serving.loses hq hh l
  case entries => exact hsessions ▸ c.entries.loses hs hat l
  case known =>
    intro s' hs'
    obtain ⟨q', h', hat', hlt⟩ := c.known s' (ha ▸ hs')
    exact ⟨q', h', hat', Nat.lt_of_lt_of_le hlt l.next⟩
  case gone =>
    intro s' hs' hd' q' hq'
    rw [l.heap]
    split
    · rfl
    · rename_i hne
      rw [hd] at hd'
      rcases List.mem_cons.mp hd' with he | hd'
      · cases hq'.symm.trans (he.trans hat.context)
        exact absurd rfl hne
      · exact c.gone s' (ha ▸ hs') hd' q' hq'
  case contexts => simpa [Ledger.contexts, ha] using c.contexts
  case disconnected =>
    intro ctx hmem
    have hcontexts : L'.contexts = L.contexts := by simp [Ledger.contexts, ha]
    rw [hcontexts]
    rw [hd] at hmem
    rcases List.mem_cons.mp hmem with rfl | hmem
    · exact List.mem_map_of_mem (Ledger.mem_sessions.mp hs).1
    · exact c.disconnected ctx hmem

theorem not_disconnect_of_request (h : kindOf pl msg = lpcConnectionRequest) :
    ¬ isDisconnect (kindOf pl msg) = true := by
  rw [h]
  decide

/-- Between two rounds of a worker: the process has what the ledger says, and
each connection request was accepted once or turned down once. -/
structure InOrder (pl : Platform) (e : Endpoint) (w : World) : Prop where
  consistent : Consistent e w.state (ledger pl w.log)
  answered : ∀ a ∈ (ledger pl w.log).answers, a = (1, 0) ∨ a = (0, 1)

namespace InOrder

variable {w v u : World} {msg : List UInt8} {ctx : PVoid} {s : Session}

theorem still (h : InOrder pl e w) (hq : Quiet pl w v) : InOrder pl e v where
  consistent := hq.2 ▸ h.consistent.keeps hq.1
  answered := hq.2 ▸ h.answered

theorem quiet (h : InOrder pl e w) (hr : Received pl e msg ctx w v)
    (hk : ¬ isDisconnect (kindOf pl msg) = true) (hc : kindOf pl msg ≠ lpcConnectionRequest)
    (hq : Quiet pl v u) : InOrder pl e u := by
  have hl : ledger pl u.log = (ledger pl w.log).receive pl msg ctx := hq.2.trans hr.ledger
  constructor
  case consistent =>
    rw [hl]
    exact (h.consistent.keeps (hr.keeps.trans hq.1)).congr rfl (Ledger.receive_other hk)
  case answered =>
    rw [hl]
    simpa [Ledger.receive, hc] using h.answered

theorem requested (h : InOrder pl e w) (hr : Received pl e msg ctx w v)
    (hc : kindOf pl msg = lpcConnectionRequest) :
    Consistent e v.state (ledger pl v.log) ∧
      (ledger pl v.log).answers = (0, 0) :: (ledger pl w.log).answers := by
  rw [hr.ledger]
  refine ⟨(h.consistent.keeps hr.keeps).congr rfl
    (Ledger.receive_other (not_disconnect_of_request hc)), ?_⟩
  simp [Ledger.receive, hc]

theorem accepted (h : InOrder pl e w) (hr : Received pl e msg ctx w v)
    (hc : kindOf pl msg = lpcConnectionRequest)
    (hg : Gains v.state u.state q x (headerOf pl (ledger pl v.log).message).clientId)
    (hl : ledger pl u.log = (ledger pl v.log).accept pl (some ⟨q, 0⟩) (some x)) :
    InOrder pl e u := by
  obtain ⟨hv, hanswers⟩ := h.requested hr hc
  constructor
  case consistent => exact hl ▸ hv.gains hg
  case answered =>
    rw [hl]
    simpa [Ledger.accept, Ledger.answer, hanswers] using h.answered

theorem rejected (h : InOrder pl e w) (hr : Received pl e msg ctx w v)
    (hc : kindOf pl msg = lpcConnectionRequest) (hu : Consistent e u.state (ledger pl v.log))
    (hl : ledger pl u.log = (ledger pl v.log).reject) : InOrder pl e u := by
  obtain ⟨hv, hanswers⟩ := h.requested hr hc
  constructor
  case consistent => exact hl ▸ hu.congr rfl rfl
  case answered =>
    rw [hl]
    simpa [Ledger.reject, Ledger.answer, hanswers] using h.answered

theorem disconnected (h : InOrder pl e w) (hr : Received pl e msg ctx w v)
    (hk : isDisconnect (kindOf pl msg) = true) (hs : s ∈ (ledger pl w.log).sessions)
    (hctx : s.context = ctx) (hat : s.At q x) (hloss : Loses v.state u.state q (some x))
    (hl : ledger pl u.log = ledger pl v.log) : InOrder pl e u := by
  have hlu := hl.trans hr.ledger
  constructor
  case consistent =>
    rw [hlu]
    refine (h.consistent.keeps hr.keeps).loses hs hat hloss rfl ?_
    rw [hctx]
    exact Ledger.receive_disconnect hk
  case answered =>
    have hne : kindOf pl msg ≠ lpcConnectionRequest := fun he => not_disconnect_of_request he hk
    rw [hlu]
    simpa [Ledger.receive, hne] using h.answered

end InOrder

end AlpcResearch
