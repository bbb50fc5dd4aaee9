import AlpcResearch.Process.Gained
import AlpcResearch.Ua.Service

/-!
# From creation to termination

A server's whole life: its creation, the run of its worker, and
`UaTerminateServer`. What a run leaves behind is known exactly
(`lifecycle_leaks`): the worker's thread handle, which nothing closes, and the
context and the handle of every client that is still connected.
-/

namespace AlpcResearch.Ua

open Resource Program Process

variable {pl : Platform} {A : Assumption} {server : ServerObject} {w w₀ v w' : World}
variable {P₀ P P' : Process} {b a m p t : Ref} {bs hs : List Ref}

/-- Created from `w`, at work from `w₀` to `v`, terminated in `w'`. The
receive that the closing of the port makes fail is the worker's last call. -/
structure Lifecycle (pl : Platform) (A : Assumption) (server : ServerObject)
    (w w₀ v w' : World) : Prop where
  history : w.log = []
  created : ∃ portName f g k,
    Ends (system pl A) (uaCreateServer pl portName f g k) w (some server) w₀
  worked : ∃ status, Left (system pl A) (uaServerWorker pl server) w₀ status v
  terminated : Ends (system pl A) (uaTerminateServer server) v () w'

structure Balanced (P P' : Process) : Prop where
  blocks : P'.heap.live = P.heap.live
  handles : P'.handles.live = P.handles.live

theorem Lifecycle.started (h : Lifecycle pl A server w w₀ v w') : Started pl A server w₀ := by
  obtain ⟨portName, f, g, k, hcreated⟩ := h.created
  exact ⟨w, portName, f, g, k, h.history, hcreated⟩

-- ---------------------------------------------------------------------------
-- Termination
-- ---------------------------------------------------------------------------

theorem ends_uaTerminateServer (ho : Owns server b a m p t)
    (h : Ends (system pl A) (uaTerminateServer server) v () w') :
    ∃ status waited, (system pl A).legal v (.close (some p)) status ∧
      w'.state = ((((v.state.effect pl (.close (some p)) status).effect pl
        (.waitForSingleObject (some t)) waited).effect pl (.free .crt (some ⟨m, 0⟩)) ()).effect pl
        (.free .crt (some ⟨a, 0⟩)) ()).effect pl (.free .crt (some ⟨b, 0⟩)) () := by
  simp only [uaTerminateServer, ho.port, ho.thread, ho.message, ho.attributes, ho.block] at h
  obtain ⟨status, hclose, h⟩ := ends_op_bind.mp h
  obtain ⟨waited, -, h⟩ := ends_op_bind.mp h
  obtain ⟨_, -, h⟩ := ends_op_bind.mp h
  obtain ⟨_, -, h⟩ := ends_op_bind.mp h
  obtain ⟨_, -, h⟩ := ends_call.mp h
  obtain ⟨-, rfl⟩ := ends_ret.mp h
  exact ⟨status, waited, hclose, rfl⟩

/-- The port is closed, if it can be, and nothing else. -/
theorem uaTerminateServer_handles (ho : Owns server b a m p t)
    (hp : v.state.handles.get? p = some k)
    (h : Ends (system pl A) (uaTerminateServer server) v () w') :
    ∃ status, (system pl A).legal v (.close (some p)) status ∧
      ∀ x, w'.state.handles.get? x =
        if some x = closeHandle status (some p) then none else v.state.handles.get? x := by
  obtain ⟨status, waited, hclose, he⟩ := ends_uaTerminateServer ho h
  refine ⟨status, hclose, fun x => ?_⟩
  rw [he]
  exact handles_close pl hp status x

theorem uaTerminateServer_gained (hA : ∀ w o r, A w o r → closesOpen w o r)
    (ho : Owns server b a m p t) (h : Gained P₀ w.state (m :: a :: b :: bs) (p :: t :: hs)) :
    (uaTerminateServer server).safe (system pl A) (fun v => v.state.faults = P₀.faults)
      (fun _ v => Gained P₀ v.state bs (t :: hs)) w := by
  unfold uaTerminateServer uaFreeHeap
  rw [ho.port, ho.thread, ho.message, ho.attributes, ho.block]
  exact tearDown_gained hA h

-- ---------------------------------------------------------------------------
-- What is left
-- ---------------------------------------------------------------------------

def contextBlocks (L : Ledger) : Set Ref := {q | ∃ s ∈ L.sessions, s.context = some ⟨q, 0⟩}

def sessionHandles (L : Ledger) : Set Ref := {x | ∃ s ∈ L.sessions, s.handle = some x}

theorem Lifecycle.created_at (h : Lifecycle pl A server w w₀ v w') : Created pl server w w₀ := by
  obtain ⟨portName, f, g, k, hcreated⟩ := h.created
  exact uaCreateServer_created hcreated

theorem Acquired.port_live (h : Acquired pl P P' b a m p t) :
    P'.handles.get? p = some .connectionPort := by
  simp [h.handles, h.freshHandles.2.2]

theorem Acquired.thread_live (h : Acquired pl P P' b a m p t) :
    P'.handles.get? t = some .thread := by
  simp [h.handles]

theorem Acquired.gained (h : Acquired pl P P' b a m p t) (hf : P'.faults = P.faults) :
    Gained P P' [b, a, m] [p, t] where
  blocks := {
    live q := by
      obtain ⟨size, ha⟩ := h.attributes
      by_cases hq : q ∈ [b, a, m]
      · have hmem : q = b ∨ q = a ∨ q = m := by simpa using hq
        rcases hmem with rfl | rfl | rfl <;> simp [mem_live_heap, h.serverObject, ha, h.message]
      · rw [mem_live_heap, mem_live_heap, h.layouts q hq, or_iff_left hq]
    fresh q hq hlive := mem_live_heap.mp hlive (layoutOf_none.mpr (h.fresh q hq))
    nodup := h.distinct }
  handles := {
    live x := by
      rw [mem_live_handles, mem_live_handles, h.handles]
      by_cases hxt : x = t
      · simp [hxt]
      by_cases hxp : x = p
      · simp [hxp, h.freshHandles.2.2]
      simp [hxt, hxp]
    fresh x hx := by
      rw [mem_live_handles, not_ne_iff]
      rcases List.mem_pair.mp hx with rfl | rfl
      · exact h.freshHandles.1
      · exact h.freshHandles.2.1
    nodup := by simpa using h.freshHandles.2.2 }
  faults := hf

/-- Every client still connected leaves its context and its handle, the worker
its thread handle; everything else is as before. -/
theorem lifecycle_leaks
    (h : Lifecycle pl ((sessionKernel pl oncePerConnection).and exactClose) server w w₀ v w') :
    ∃ t, server.serverThreadHandle = some t ∧
      w'.state.heap.live = w.state.heap.live ∪ contextBlocks (ledger pl v.log) ∧
      w'.state.handles.live = insert t (w.state.handles.live ∪ sessionHandles (ledger pl v.log)) := by
  obtain ⟨b, a, m, p, t, ho, hacq⟩ := h.created_at.acquired
  obtain ⟨status, hleft⟩ := h.worked
  have hhead := (left_by_receive h.started hleft).2
  have hentries := hhead.consistent.entries
  have hcreation : Gained w.state w₀.state [m, a, b] [p, t] :=
    (hacq.gained h.created_at.faults).perm (List.reverse_perm [b, a, m]).symm (.refl _)
  have hall := (hcreation.trans (.of_framed hentries hhead.framed hhead.faults)).perm
    List.perm_append_comm List.perm_append_comm
  have hgained : Gained w.state w'.state (sessionBlocks (ledger pl v.log).sessions)
      (t :: sessionPorts (ledger pl v.log).sessions) :=
    safe_ends (uaTerminateServer_gained (fun _ _ _ h => closesOpen_of_exactClose h.2) ho hall)
      h.terminated
  refine ⟨t, ho.thread, Set.ext fun q => ?_, Set.ext fun x => ?_⟩
  · rw [hgained.blocks.live, mem_sessionBlocks hentries]
    rfl
  · rw [hgained.handles.live, List.mem_cons, mem_sessionPorts, or_left_comm]
    rfl

/-- Nothing closes the thread's handle. -/
theorem lifecycle_unbalanced
    (h : Lifecycle pl (sessionKernel pl oncePerConnection) server w w₀ v w') :
    ¬ Balanced w.state w'.state := by
  obtain ⟨status, hleft⟩ := h.worked
  have hn : NamedOnce pl v := hleft.induct h.started.namedOnce fun _ hu =>
    round_of_step (namedOnce_step fun _ _ _ h => h) hu
  have hkept : HandlesKept w₀ v :=
    ((left_sessions (fun _ _ _ => once_any) h.started hleft).1 hn).handles
  obtain ⟨b, a, m, p, t, ho, hacq⟩ := h.created_at.acquired
  obtain ⟨-, htfree, hpt⟩ := hacq.freshHandles
  have hp := hkept p _ hacq.port_live
  have ht := hkept t _ hacq.thread_live
  obtain ⟨closed, -, hhandles⟩ := uaTerminateServer_handles ho hp h.terminated
  have hne : some t ≠ closeHandle closed (some p) := by
    unfold closeHandle
    split
    · exact fun he => hpt (Option.some.inj he).symm
    · exact Option.some_ne_none t
  have hopen : w'.state.handles.get? t = some .thread := (hhandles t).trans ((if_neg hne).trans ht)
  intro hbalanced
  have hmem : t ∈ w.state.handles.live := by
    rw [← hbalanced.handles]
    exact Table.mem_live.mpr ⟨_, hopen⟩
  obtain ⟨k, hk⟩ := Table.mem_live.mp hmem
  cases htfree.symm.trans hk

-- ---------------------------------------------------------------------------
-- One life
-- ---------------------------------------------------------------------------

def lifeWith (A : Assumption) [∀ w o r, Decidable (A w o r)] (messages : List Outcome) (n : Nat) :
    Option (ServerObject × World × World × World) :=
  match serveUntil A messages n with
  | some (server, w₀, v, _) =>
    ((uaTerminateServer server).replay (system .x64 A)
      ((Environment.visitedBy messages).oracle .x64 A) v).map fun r => (server, w₀, v, r.2)
  | none => none

theorem lifeWith_lifecycle {A : Assumption} [∀ w o r, Decidable (A w o r)]
    (h : lifeWith A messages n = some (server, w₀, v, w')) :
    Lifecycle .x64 A server ⟨.empty, []⟩ w₀ v w' := by
  simp only [lifeWith] at h
  split at h
  · rename_i server' v₀ u status hu
    obtain ⟨r, hr, he⟩ := Option.map_eq_some_iff.mp h
    cases he
    obtain ⟨hcreated, hleft⟩ := serveUntil_left hu
    exact {
      history := rfl
      created := ⟨_, _, _, _, hcreated⟩
      worked := ⟨status, hleft⟩
      terminated := replay_ends (Environment.oracle_sound A) hr }
  · cases h

/-- A client connects and disconnects. -/
theorem lifecycle_unbalanced_visited : ∃ server w₀ v w',
    Lifecycle .x64 (sessionKernel .x64 oncePerConnection) server ⟨.empty, []⟩ w₀ v w' ∧
      (ledger .x64 v.log).disconnected.length = 1 ∧ ¬ Balanced .empty w'.state := by
  have hrun : (lifeWith (sessionKernel .x64 oncePerConnection) [messageOf lpcConnectionRequest none,
      messageOf lpcPortClosed (some 0)] 2).any
        (fun r => (ledger .x64 r.2.2.1.log).disconnected.length = 1) := by decide
  obtain ⟨⟨server, w₀, v, w'⟩, h, hlen⟩ := (Option.any_eq_true _ _).mp hrun
  exact ⟨server, w₀, v, w', lifeWith_lifecycle h, by simpa using hlen,
    lifecycle_unbalanced (lifeWith_lifecycle h)⟩

/-- A client connects and stays: its context, its handle and the handle of the
worker's thread are there after `UaTerminateServer`. -/
theorem lifecycle_client_stays : ∃ server w₀ v w',
    Lifecycle .x64 (sessionKernel .x64 oncePerConnection) server ⟨.empty, []⟩ w₀ v w' ∧
      ¬ Balanced .empty w'.state ∧ (∃ t, server.serverThreadHandle = some t ∧
        (w'.state.handles.get? t).isSome) ∧
      ∃ s ∈ (ledger .x64 v.log).sessions, (w'.state.at? s.context).isSome ∧
        (s.handle.bind w'.state.handles.get?).isSome := by
  have hrun : (lifeWith (sessionKernel .x64 oncePerConnection)
      [messageOf lpcConnectionRequest none] 1).any (fun r =>
        (r.1.serverThreadHandle.any fun t => (r.2.2.2.state.handles.get? t).isSome) &&
          (ledger .x64 r.2.2.1.log).sessions.any fun s =>
            (r.2.2.2.state.at? s.context).isSome &&
              (s.handle.bind r.2.2.2.state.handles.get?).isSome) := by decide
  obtain ⟨⟨server, w₀, v, w'⟩, h, hleft⟩ := (Option.any_eq_true _ _).mp hrun
  simp only [Bool.and_eq_true, List.any_eq_true, Option.any_eq_true] at hleft
  obtain ⟨⟨t, ht, hopen⟩, hsession⟩ := hleft
  refine ⟨server, w₀, v, w', lifeWith_lifecycle h, fun hbalanced => ?_, ⟨t, ht, hopen⟩, hsession⟩
  have hmem : t ∈ Process.empty.handles.live := hbalanced.handles ▸ hopen
  cases hmem

end AlpcResearch.Ua
