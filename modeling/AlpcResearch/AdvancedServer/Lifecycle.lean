import AlpcResearch.AdvancedServer.Sessions

/-!
# The older library, from creation to termination

However its worker has left the loop, `SrvTerminateServer` gives back all the
server has gained but the contexts and the ports of the clients that are still
connected, and the handle of the worker's thread.
-/

namespace AlpcResearch.AdvancedServer

open Resource Program Process
open Server (kernel)

variable {pl : Platform} {A : Assumption} {server : ServerObject} {w w₀ v w' : World}

/-- Created from `w`, at work from `w₀` to `v`, terminated in `w'`. -/
structure Lifecycle (pl : Platform) (A : Assumption) (server : ServerObject)
    (w w₀ v w' : World) : Prop where
  history : w.log = []
  created : ∃ portName f k,
    Ends (system pl A) (srvCreateServer portName f k) w (some server) w₀
  worked : ∃ status, Left (system pl A) (srvServerWorker pl server) w₀ status v
  terminated : Ends (system pl A) (srvTerminateServer server) v () w'

theorem Lifecycle.started (h : Lifecycle pl A server w w₀ v w') : Started pl A server w₀ := by
  obtain ⟨portName, f, k, hcreated⟩ := h.created
  obtain ⟨P, log⟩ := w
  obtain rfl : log = [] := h.history
  exact ⟨P, portName, f, k, hcreated⟩

theorem Lifecycle.between (hA : ∀ w o r, A w o r → kernel pl w o r)
    (h : Lifecycle pl A server w w₀ v w') : Between pl (endpoint server) w₀ v := by
  obtain ⟨status, hleft⟩ := h.worked
  have hv : LeftBy pl server w₀ status v :=
    hleft.induct h.started.inService fun _ hu => srvServerWorker_settles hA hu
  exact hv.toBetween

/-- Without a fault, the whole life leaves the contexts and the ports of the
clients still connected and the thread's handle, and nothing else. So the
blocks are those there were exactly if every client has disconnected, and the
handles never are. -/
theorem older_library_lifecycle (hA : ∀ w o r, A w o r → kernel pl w o r)
    (h : Lifecycle pl A server w w₀ v w') :
    (∃ t, server.serverThreadHandle = some t ∧
        Gained w.state w'.state (sessionBlocks (ledger pl v.log).sessions)
          (t :: sessionPorts (ledger pl v.log).sessions)) ∧
      (w'.state.heap.live = w.state.heap.live ↔ (ledger pl v.log).sessions = []) ∧
      w'.state.handles.live ≠ w.state.handles.live := by
  obtain ⟨portName, f, k, hcreated⟩ := h.created
  obtain ⟨b, a, m, p, t, ho, hcreation⟩ := (createServer_created hcreated).acquired
  have hv := h.between hA
  have hentries := hv.consistent.entries
  have hservice := Gained.of_framed hentries hv.framed hv.faults
  have hall := (hcreation.trans hservice).perm List.perm_append_comm
    (List.perm_append_comm.trans (.swap p t _))
  have hgained : Gained w.state w'.state (sessionBlocks (ledger pl v.log).sessions)
      (t :: sessionPorts (ledger pl v.log).sessions) :=
    safe_ends (terminateServer_gained (fun _ _ _ h => (hA _ _ _ h).2) ho hall) h.terminated
  refine ⟨⟨t, ho.thread, hgained⟩, ?_, fun he => ?_⟩
  · exact hgained.blocks.live_eq_iff.trans (sessionBlocks_eq_nil hentries)
  · exact List.cons_ne_nil _ _ (hgained.handles.live_eq_iff.mp he)

def lifeWith (E : Environment) (n : Nat) : Option (ServerObject × World × World × World) :=
  (serveUntil E n).bind fun r =>
    ((srvTerminateServer r.1).replay (system .x64 (kernel .x64)) (E.oracle .x64 (kernel .x64))
      r.2.2.2.1).map fun e => (r.1, r.2.1, r.2.2.2.1, e.2)

theorem lifeWith_lifecycle (h : lifeWith E n = some (server, w₀, v, w')) :
    ∃ P, Lifecycle .x64 (kernel .x64) server ⟨P, []⟩ w₀ v w' := by
  obtain ⟨⟨server', w₀', u, v', status⟩, hserve, h⟩ := Option.bind_eq_some_iff.mp h
  obtain ⟨e, hend, he⟩ := Option.map_eq_some_iff.mp h
  cases he
  obtain ⟨⟨P, portName, f, k, hcreated⟩, -, hleft⟩ := serveUntil_left hserve
  exact ⟨P, {
    history := rfl
    created := ⟨portName, f, k, hcreated⟩
    worked := ⟨status, hleft⟩
    terminated := replay_ends (Environment.oracle_sound (kernel .x64)) hend }⟩

/-- A client connects and stays, the reply to a request fails, and the server
is terminated. -/
theorem older_library_lifecycle_stays : ∃ server w w₀ v w',
    Lifecycle .x64 (kernel .x64) server w w₀ v w' ∧ (ledger .x64 v.log).sessions.length = 1 ∧
      (∃ t, server.serverThreadHandle = some t ∧
        Gained w.state w'.state (sessionBlocks (ledger .x64 v.log).sessions)
          (t :: sessionPorts (ledger .x64 v.log).sessions)) ∧
      w'.state.heap.live ≠ w.state.heap.live := by
  have hrun : (lifeWith (.failing (.visitedBy [Ua.messageOf lpcConnectionRequest none,
      Ua.messageOf lpcRequest none]) .send) 1).any
        (fun r => (ledger .x64 r.2.2.1.log).sessions.length = 1) := by decide +kernel
  obtain ⟨⟨server, w₀, v, w'⟩, h, hlen⟩ := (Option.any_eq_true _ _).mp hrun
  obtain ⟨P, hlife⟩ := lifeWith_lifecycle h
  obtain ⟨hgained, hblocks, -⟩ := older_library_lifecycle (fun _ _ _ h => h) hlife
  have hone : (ledger .x64 v.log).sessions.length = 1 := of_decide_eq_true hlen
  refine ⟨server, _, w₀, v, w', hlife, hone, hgained, fun he => ?_⟩
  simp [hblocks.mp he] at hone

end AlpcResearch.AdvancedServer
