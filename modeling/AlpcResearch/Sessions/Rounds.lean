import AlpcResearch.Sessions.Disconnects

/-!
# Rounds that leave nothing behind

A worker that releases whatever it allocates for a client it turns down has,
between two rounds, the contexts and handles of its connections and nothing
else that is new (`Between`). One lemma for each thing a round may come to.
-/

namespace AlpcResearch

open Resource Program Process

variable {pl : Platform} {e : Endpoint} {A : Assumption} {w₀ w v u : World}
variable {msg : List UInt8} {ctx : PVoid} {s : Session} {q x : Ref} {status : NtStatus}

structure Between (pl : Platform) (e : Endpoint) (w₀ w : World) : Prop
    extends InOrder pl e w where
  framed : Framed w₀.state w.state (ledger pl w.log).sessions
  faults : w.state.faults = w₀.state.faults

namespace Between

theorem start (h : Serving e w.state) (hl : ledger pl w.log = .empty) : Between pl e w w where
  consistent := hl ▸ .start h
  answered := by simp [hl, Ledger.empty]
  framed := hl ▸ .start w.state
  faults := rfl

theorem still (h : Between pl e w₀ w) (hq : Quiet pl w v) : Between pl e w₀ v where
  toInOrder := h.toInOrder.still hq
  framed := hq.2 ▸ h.framed.keeps hq.1
  faults := hq.1.faults.trans h.faults

theorem quiet (h : Between pl e w₀ w) (hr : Received pl e msg ctx w v)
    (hk : ¬ isDisconnect (kindOf pl msg) = true) (hc : kindOf pl msg ≠ lpcConnectionRequest)
    (hq : Quiet pl v u) : Between pl e w₀ u where
  toInOrder := h.toInOrder.quiet hr hk hc hq
  framed := by
    rw [hq.2, hr.ledger, Ledger.sessions_other hk]
    exact h.framed.keeps (hr.keeps.trans hq.1)
  faults := (hr.keeps.trans hq.1).faults.trans h.faults

theorem answers (h : Between pl e w₀ w) (hr : Received pl e msg ctx w v)
    (hc : kindOf pl msg = lpcConnectionRequest) (ha : Answered pl v u) : Between pl e w₀ u := by
  have hv := (h.toInOrder.requested hr hc).1
  have hframed : Framed w₀.state v.state (ledger pl v.log).sessions := by
    rw [hr.ledger, Ledger.sessions_other (not_disconnect_of_request hc)]
    exact h.framed.keeps hr.keeps
  rcases ha with ⟨q, x, hg, hl⟩ | ⟨hkeeps, hl⟩
  · have hnew : some ⟨q, 0⟩ ∉ (ledger pl v.log).disconnected := fun hmem =>
      hv.new_context hg.newBlock (hv.disconnected _ hmem)
    constructor
    case toInOrder => exact h.toInOrder.accepted hr hc hg hl
    case framed =>
      rw [hl, Ledger.sessions_accept hnew]
      exact hframed.gains hv.entries hg
    case faults => exact (hg.faults.trans hr.keeps.faults).trans h.faults
  · constructor
    case toInOrder => exact h.toInOrder.rejected hr hc (hv.keeps hkeeps) hl
    case framed => exact hl ▸ hframed.keeps hkeeps
    case faults => exact (hkeeps.faults.trans hr.keeps.faults).trans h.faults

theorem disconnected (h : Between pl e w₀ w) (hr : Received pl e msg ctx w v)
    (hk : isDisconnect (kindOf pl msg) = true) (hs : s ∈ (ledger pl w.log).sessions)
    (hctx : s.context = ctx) (hat : s.At q x) (ht : TornDown pl A q x v status u)
    (hclosed : ntSuccess status = true) : Between pl e w₀ u := by
  have hloss := ht.loses hclosed
  have hl : ledger pl u.log = ledger pl v.log := ht.2.1
  constructor
  case toInOrder => exact h.toInOrder.disconnected hr hk hs hctx hat hloss hl
  case framed =>
    have hentries := (h.consistent.keeps hr.keeps).entries
    rw [hl, hr.ledger, Ledger.sessions_disconnect hk, ← hctx]
    exact (h.framed.keeps hr.keeps).loses hentries hs hat hloss
  case faults => exact (hloss.faults.trans hr.keeps.faults).trans h.faults

end Between

end AlpcResearch
