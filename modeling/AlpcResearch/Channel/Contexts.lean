import AlpcResearch.Channel.Sessions
import AlpcResearch.Ua.Service

/-!
# Contexts and connections

The two ledgers together: a server whose contexts are those of its open
sessions, and whose sessions are those of the connections, has one context for
each connection, until it has been told of its end.
-/

namespace AlpcResearch.Channel

open Resource Program Process
open Ua (SessionLedger liveContexts)

variable {ι : Type} [DecidableEq ι]

/-- The server's contexts since `P₀` are those of the connections of whose end
it does not know, each with the client and the server's end of its own. -/
structure Mirrors (site : Site ι) (P₀ : Process) (N : Net ι) : Prop where
  contexts : Set.BijOn Connection.context {c | c ∈ N.connections ∧ N.Unended c}
    (liveContexts (N.process .server) \ liveContexts P₀)
  entries : ∀ c ∈ N.connections, N.Unended c → ∃ q x, c.context = some ⟨q, 0⟩ ∧
    (N.process .server).heap.get? q = some (.portContext ⟨site.clientId c.client, some x⟩) ∧
    (N.process .server).handles.get? x = some .communicationPort

variable {pl : Platform} {site : Site ι} {P₀ : Process} {w : NetWorld ι}

/-- The session of a connection of which the server knows, and not its end. -/
theorem Agreed.session {c : Connection ι} (h : Agreed pl site P₀ w)
    (hidle : w.state.accepting = []) (hc : c ∈ w.state.connections) (hopen : w.state.Unended c) :
    ∃ s ∈ (ledger pl (view .server w).log).sessions,
      s.context = c.context ∧ s.clientId = site.clientId c.client := by
  have hsession := (h.sessions c hc).mpr ⟨by simp [hidle], hopen⟩
  obtain ⟨s', hs', hcontext⟩ := List.mem_map.mp hsession
  have hmem : (c.context, site.clientId c.client) ∈ w.state.accounts site :=
    List.mem_map.mpr ⟨c, hc, rfl⟩
  rw [h.accepted, hidle] at hmem
  obtain ⟨s, hs, he⟩ := List.mem_map.mp hmem
  obtain ⟨hsame, hclient⟩ := Prod.mk.injEq .. ▸ he
  refine ⟨s, Ledger.mem_sessions.mpr ⟨hs, ?_⟩, hsame, hclient⟩
  rw [hsame, ← hcontext]
  exact (Ledger.mem_sessions.mp hs').2

theorem Agreed.connection {s : Session} (h : Agreed pl site P₀ w)
    (hidle : w.state.accepting = []) (hs : s ∈ (ledger pl (view .server w).log).sessions) :
    ∃ c ∈ w.state.connections, w.state.Unended c ∧ c.context = s.context := by
  have hmem : (s.context, s.clientId) ∈ w.state.accounts site := by
    rw [h.accepted, hidle]
    exact List.mem_map.mpr ⟨s, (Ledger.mem_sessions.mp hs).1, rfl⟩
  obtain ⟨c, hc, he⟩ := List.mem_map.mp hmem
  have hcontext : c.context = s.context := congrArg Prod.fst he
  refine ⟨c, hc, ?_, hcontext⟩
  exact ((h.sessions c hc).mp (hcontext ▸ List.mem_map_of_mem hs)).2

theorem Agreed.mirrors (h : Agreed pl site P₀ w) (hidle : w.state.accepting = [])
    (hl : SessionLedger pl ⟨P₀, []⟩ (view .server w)) : Mirrors site P₀ w.state := by
  constructor
  case contexts =>
    refine ⟨?_, ?_, ?_⟩
    · rintro c ⟨hc, hopen⟩
      obtain ⟨s, hs, hcontext, -⟩ := h.session hidle hc hopen
      exact hcontext ▸ hl.bijection.mapsTo hs
    · rintro c ⟨hc, -⟩ d ⟨hd, -⟩ he
      exact List.inj_on_of_nodup_map h.distinct hc hd he
    · intro p hp
      obtain ⟨s, hs, rfl⟩ := hl.bijection.surjOn hp
      obtain ⟨c, hc, hopen, hcontext⟩ := h.connection hidle hs
      exact ⟨c, ⟨hc, hopen⟩, hcontext⟩
  case entries =>
    intro c hc hopen
    obtain ⟨s, hs, hcontext, hclient⟩ := h.session hidle hc hopen
    obtain ⟨q, x, hat, hq, hx⟩ := hl.entry s hs
    exact ⟨q, x, hcontext.symm.trans hat.context, hclient ▸ hat.handle ▸ hq, hx⟩

end AlpcResearch.Channel
