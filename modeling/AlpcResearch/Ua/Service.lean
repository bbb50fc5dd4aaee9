import Mathlib.Data.Set.Function
import AlpcResearch.Process.Script
import AlpcResearch.Ua.Creation
import AlpcResearch.Ua.Sessions

/-!
# Serving

Runs of the worker from the moment its server exists. If the kernel names
every connection in at most one disconnect message, the session ledger holds
at every receive and no client can end the loop; if it may name a connection
twice, the runs in which it does not are exactly the runs without a fault.
-/

namespace AlpcResearch

open Resource Program Process

variable {pl : Platform} {A : Assumption} {w₀ w : World}

namespace Ua

variable {server : ServerObject}

/-- A server that has been created, with nothing before its creation in the
history. -/
def Started (pl : Platform) (A : Assumption) (server : ServerObject) (w₀ : World) : Prop :=
  ∃ w portName f g k, w.log = [] ∧
    Ends (system pl A) (uaCreateServer pl portName f g k) w (some server) w₀

theorem Started.ledger (h : Started pl A server w₀) : ledger pl w₀.log = .empty := by
  obtain ⟨w, _, _, _, _, hlog, hends⟩ := h
  rw [(uaCreateServer_created hends).ledger, hlog]
  rfl

theorem Started.head (h : Started pl A server w₀) : AtHead pl server w₀ w₀ := by
  have hl := h.ledger
  obtain ⟨w, _, _, _, _, -, hends⟩ := h
  constructor
  case toInOrder => exact ⟨hl ▸ .start (uaCreateServer_created hends).serving, by simp [hl, Ledger.empty]⟩
  case framed => exact hl ▸ .start w₀.state
  case faults => rfl

theorem Started.namedOnce (h : Started pl A server w₀) : NamedOnce pl w₀ := by
  simp [NamedOnce, h.ledger, Ledger.empty, Ledger.disconnected]

-- ---------------------------------------------------------------------------
-- Runs
-- ---------------------------------------------------------------------------

/-- A message without data on x64, whose context names the connection. -/
def messageOf (type : UInt8) (connection : Option Nat) : Outcome where
  message := [0, 0, 40, 0, type, 0] ++ List.replicate 34 0
  connection := connection

def serve (A : Assumption) [∀ w o r, Decidable (A w o r)] (messages : List Outcome) (n : Nat) :
    Option (ServerObject × World × World) :=
  let S := system .x64 A
  let O := (Environment.visitedBy messages).oracle .x64 A
  match (uaCreateServer .x64 "port" 1 2 3).replay S O ⟨.empty, []⟩ with
  | some (some server, w₀) =>
    (rounds S O (uaServerWorker .x64 server) n w₀).map fun w => (server, w₀, w)
  | _ => none

theorem serve_created {A : Assumption} [∀ w o r, Decidable (A w o r)]
    (h : serve A messages n = some (server, w₀, w)) :
    Ends (system .x64 A) (uaCreateServer .x64 "port" 1 2 3) ⟨.empty, []⟩ (some server) w₀ ∧
      Head (system .x64 A) (uaServerWorker .x64 server) w₀ w := by
  simp only [serve] at h
  split at h
  · rename_i server' w₀' hcreate
    obtain ⟨w', hw', he⟩ := Option.map_eq_some_iff.mp h
    cases he
    exact ⟨replay_ends (Environment.oracle_sound A) hcreate,
      rounds_head (Environment.oracle_sound A) hw'⟩
  · cases h

theorem serve_head {A : Assumption} [∀ w o r, Decidable (A w o r)]
    (h : serve A messages n = some (server, w₀, w)) :
    Started .x64 A server w₀ ∧ Head (system .x64 A) (uaServerWorker .x64 server) w₀ w :=
  ⟨⟨_, _, _, _, _, rfl, (serve_created h).1⟩, (serve_created h).2⟩

def serveUntil (A : Assumption) [∀ w o r, Decidable (A w o r)] (messages : List Outcome) (n : Nat) :
    Option (ServerObject × World × World × NtStatus) :=
  match serve A messages n with
  | some (server, w₀, w) =>
    match (uaServerWorker .x64 server).replay (system .x64 A)
        ((Environment.visitedBy messages).oracle .x64 A) w with
    | some (.leave status, w') => some (server, w₀, w', status)
    | _ => none
  | none => none

theorem serveUntil_left {A : Assumption} [∀ w o r, Decidable (A w o r)]
    (h : serveUntil A messages n = some (server, w₀, w', status)) :
    Ends (system .x64 A) (uaCreateServer .x64 "port" 1 2 3) ⟨.empty, []⟩ (some server) w₀ ∧
      Left (system .x64 A) (uaServerWorker .x64 server) w₀ status w' := by
  simp only [serveUntil] at h
  split at h
  · rename_i server' v₀ v hv
    obtain ⟨hcreated, hhead⟩ := serve_created hv
    split at h
    · rename_i status' v' hleave
      cases h
      exact ⟨hcreated, v, hhead, replay_ends (Environment.oracle_sound A) hleave⟩
    · cases h
  · cases h

-- ---------------------------------------------------------------------------
-- The session ledger
-- ---------------------------------------------------------------------------

def liveContexts (P : Process) : Set PVoid :=
  {p | ∃ q, p = some ⟨q, 0⟩ ∧ P.layoutOf q = some .portContext}

/-- The ledger against the process of a server that started in `w₀`. -/
structure SessionLedger (pl : Platform) (w₀ w : World) : Prop where
  /-- The contexts allocated since and still live are those of the connections
  accepted and not yet disconnected. -/
  bijection : Set.BijOn Session.context {s | s ∈ (ledger pl w.log).sessions}
    (liveContexts w.state \ liveContexts w₀.state)
  /-- A context holds its connection's client and open handle. -/
  entry : ∀ s ∈ (ledger pl w.log).sessions, ∃ q h, s.At q h ∧
    w.state.heap.get? q = some (.portContext ⟨s.clientId, s.handle⟩) ∧
    w.state.handles.get? h = some .communicationPort
  ownHandle : Set.InjOn Session.handle {s | s ∈ (ledger pl w.log).sessions}
  distinct : (ledger pl w.log).sessions.Nodup
  /-- A connection request was accepted, or turned down exactly once. -/
  answered : ∀ a ∈ (ledger pl w.log).answers, a = (1, 0) ∨ a = (0, 1)

/-- A worker that has what the ledger says, and nothing else that is new. -/
theorem SessionLedger.of_framed {e : Endpoint} (h : InOrder pl e w)
    (hframed : Framed w₀.state w.state (ledger pl w.log).sessions) : SessionLedger pl w₀ w := by
  have hentries := h.consistent.entries
  have hinj : Set.InjOn Session.context {s | s ∈ (ledger pl w.log).sessions} :=
    fun s hs s' hs' he => hentries.eq_of_context hs' hs he
  constructor
  case bijection =>
    refine ⟨fun s hs => ?_, hinj, ?_⟩
    · obtain ⟨q, x, hat, hq, -⟩ := hentries.entry s hs
      have hfresh := (hframed.fresh s hs q x hat).1
      refine ⟨⟨q, hat.context, layoutOf_get? hq⟩, ?_⟩
      rintro ⟨q', he, hq'⟩
      cases hat.context.symm.trans he
      cases hfresh.symm.trans hq'
    · rintro p ⟨⟨q, rfl, hq⟩, hnot⟩
      by_contra hnone
      have hold := hframed.layouts q fun s hs he => hnone ⟨s, hs, he⟩
      exact hnot ⟨q, rfl, hold ▸ hq⟩
  case entry => exact hentries.entry
  case ownHandle => exact fun s hs s' hs' he => hentries.eq_of_handle hs' hs he
  case distinct => exact hentries.contexts.of_map _
  case answered => exact h.answered

theorem AtHead.sessionLedger (h : AtHead pl server w₀ w) : SessionLedger pl w₀ w :=
  .of_framed h.toInOrder h.framed

theorem head_sessions (hA : ∀ w o r, A w o r → sessionKernel pl anyDisconnect w o r)
    (hs : Started pl A server w₀) (h : Head (system pl A) (uaServerWorker pl server) w₀ w) :
    UntilNamedTwice pl w₀ (AtHead pl server w₀) w :=
  h.induct (.once hs.namedOnce hs.head) fun _ hv => uaServerWorker_safe hA hv

theorem left_sessions (hA : ∀ w o r, A w o r → sessionKernel pl anyDisconnect w o r)
    (hs : Started pl A server w₀) (h : Left (system pl A) (uaServerWorker pl server) w₀ status w) :
    UntilNamedTwice pl w₀ (LeftBy pl A server w₀) w :=
  h.induct (.once hs.namedOnce hs.head) fun _ hv => uaServerWorker_safe hA hv

theorem passes_sessions (hA : ∀ w o r, A w o r → sessionKernel pl anyDisconnect w o r)
    (hs : Started pl A server w₀) (h : Passes (system pl A) (uaServerWorker pl server) w₀ w) :
    FaultFree pl w₀ w :=
  h.induct (.once hs.namedOnce hs.head) fun _ hv => uaServerWorker_safe hA hv

theorem head_namedOnce (hA : ∀ w o r, A w o r → sessionKernel pl oncePerConnection w o r)
    (hs : Started pl A server w₀) (h : Head (system pl A) (uaServerWorker pl server) w₀ w) :
    NamedOnce pl w :=
  h.induct hs.namedOnce fun _ hv => round_of_step (namedOnce_step hA) hv

theorem session_ledger (hs : Started pl (sessionKernel pl oncePerConnection) server w₀) :
    (∀ w, Head (system pl (sessionKernel pl oncePerConnection)) (uaServerWorker pl server) w₀ w →
        SessionLedger pl w₀ w) ∧
      ∀ w, Passes (system pl (sessionKernel pl oncePerConnection)) (uaServerWorker pl server) w₀ w →
        w.state.faults = w₀.state.faults := by
  constructor
  · intro w h
    exact ((head_sessions (fun _ _ _ => once_any) hs h).1
      (head_namedOnce (fun _ _ _ h => h) hs h)).sessionLedger
  · intro w h
    have hn : NamedOnce pl w :=
      h.induct hs.namedOnce fun _ hv => round_of_step (namedOnce_step fun _ _ _ h => h) hv
    exact passes_sessions (fun _ _ _ => once_any) hs h hn

/-- Two clients connect and the first one leaves. -/
theorem session_ledger_visited : ∃ server w₀ w,
    Head (system .x64 (sessionKernel .x64 oncePerConnection)) (uaServerWorker .x64 server) w₀ w ∧
      (ledger .x64 w.log).sessions.length = 1 ∧ SessionLedger .x64 w₀ w := by
  have hrun : (serve (sessionKernel .x64 oncePerConnection) [messageOf lpcConnectionRequest none,
      messageOf lpcConnectionRequest none, messageOf lpcPortClosed (some 0)] 3).any
        (fun r => (ledger .x64 r.2.2.log).sessions.length = 1) := by decide
  obtain ⟨⟨server, w₀, w⟩, h, hlen⟩ := (Option.any_eq_true _ _).mp hrun
  obtain ⟨hs, hhead⟩ := serve_head h
  exact ⟨server, w₀, w, hhead, by simpa using hlen, (session_ledger hs).1 w hhead⟩

-- ---------------------------------------------------------------------------
-- Two disconnect messages for one connection
-- ---------------------------------------------------------------------------

/-- Faults of a teardown: a use or release of a block that is gone, or a call
on a handle that is closed. -/
def isTeardownFault : Fault → Bool
  | .useAfterFree _ | .invalidFree _ | .staleHandle _ => true
  | _ => false

/-- Nothing freed was used or freed again, nothing closed was closed again. -/
def TeardownSafe (w₀ w : World) : Prop := ∀ f ∈ newFaults w₀ w, isTeardownFault f = false

theorem teardownSafe_of_faults (h : w.state.faults = w₀.state.faults) : TeardownSafe w₀ w := by
  have hnew : newFaults w₀ w = [] := newFaults_eq h
  simp [TeardownSafe, hnew]

theorem not_teardownSafe (h : Faulty w₀ w) : ¬ TeardownSafe w₀ w := by
  obtain ⟨fs, p, hfs, hp⟩ := h
  intro hsafe
  rw [TeardownSafe, newFaults_eq hfs] at hsafe
  cases hsafe _ hp

/-- If the kernel may report both the death of a client and the closing of its
port, the teardowns are safe exactly in the runs where it reports one. -/
theorem teardown_safe_iff (hs : Started pl (sessionKernel pl oncePerKind) server w₀) :
    (∀ w, Head (system pl (sessionKernel pl oncePerKind)) (uaServerWorker pl server) w₀ w ∨
        (∃ status, Left (system pl (sessionKernel pl oncePerKind)) (uaServerWorker pl server) w₀
          status w) →
        (TeardownSafe w₀ w ↔ NamedOnce pl w)) ∧
      ∀ w, Passes (system pl (sessionKernel pl oncePerKind)) (uaServerWorker pl server) w₀ w →
        NamedOnce pl w → TeardownSafe w₀ w := by
  have hany : ∀ w o r, sessionKernel pl oncePerKind w o r → sessionKernel pl anyDisconnect w o r :=
    fun _ _ _ => once_any
  constructor
  · rintro w (h | ⟨status, h⟩)
    · have hw := head_sessions hany hs h
      exact ⟨fun hsafe => by_contra fun hn => not_teardownSafe (hw.2 hn) hsafe,
        fun hn => teardownSafe_of_faults (hw.1 hn).faults⟩
    · have hw := left_sessions hany hs h
      exact ⟨fun hsafe => by_contra fun hn => not_teardownSafe (hw.2 hn) hsafe,
        fun hn => teardownSafe_of_faults (hw.1 hn).faults⟩
  · intro w h hn
    exact teardownSafe_of_faults (passes_sessions hany hs h hn)

theorem teardown_safe_iff_visited : ∃ server w₀ w,
    Head (system .x64 (sessionKernel .x64 oncePerKind)) (uaServerWorker .x64 server) w₀ w ∧
      (ledger .x64 w.log).disconnected.length = 1 ∧ (TeardownSafe w₀ w ↔ NamedOnce .x64 w) := by
  have hrun : (serve (sessionKernel .x64 oncePerKind) [messageOf lpcConnectionRequest none,
      messageOf lpcClientDied (some 0)] 2).any
        (fun r => (ledger .x64 r.2.2.log).disconnected.length = 1) := by decide
  obtain ⟨⟨server, w₀, w⟩, h, hlen⟩ := (Option.any_eq_true _ _).mp hrun
  obtain ⟨hs, hhead⟩ := serve_head h
  exact ⟨server, w₀, w, hhead, by simpa using hlen,
    (teardown_safe_iff hs).1 w (.inl hhead)⟩

/-- One client dies, another connects and gets the freed block and the closed
handle's value; then the port of the first is reported closed. The context
and the handle of the second go with it. -/
theorem teardown_hits_bystander : ∃ server w₀ w,
    Started .x64 (sessionKernel .x64 oncePerKind) server w₀ ∧
      Head (system .x64 (sessionKernel .x64 oncePerKind)) (uaServerWorker .x64 server) w₀ w ∧
      ¬ TeardownSafe w₀ w ∧
      ∃ s ∈ (ledger .x64 w.log).sessions, w.state.at? s.context = none ∧
        s.handle.bind w.state.handles.get? = none := by
  have hrun : (serve (sessionKernel .x64 oncePerKind) [messageOf lpcConnectionRequest none,
      messageOf lpcClientDied (some 0), messageOf lpcConnectionRequest none,
      messageOf lpcPortClosed (some 0)] 4).any (fun r =>
        (newFaults r.2.1 r.2.2).any isTeardownFault &&
          (ledger .x64 r.2.2.log).sessions.any fun s =>
            (r.2.2.state.at? s.context).isNone && (s.handle.bind r.2.2.state.handles.get?).isNone)
      := by decide +kernel
  obtain ⟨⟨server, w₀, w⟩, h, hbad⟩ := (Option.any_eq_true _ _).mp hrun
  obtain ⟨hs, hhead⟩ := serve_head h
  simp only [Bool.and_eq_true, List.any_eq_true, Option.isNone_iff_eq_none] at hbad
  obtain ⟨⟨f, hf, hteardown⟩, s, hmem, hgone⟩ := hbad
  refine ⟨server, w₀, w, hs, hhead, fun hsafe => ?_, s, hmem, hgone⟩
  cases hteardown.symm.trans (hsafe f hf)

-- ---------------------------------------------------------------------------
-- Leaving the loop
-- ---------------------------------------------------------------------------

/-- If open handles can be closed, the loop is left with the session invariant
intact. -/
theorem left_by_receive
    (hs : Started pl ((sessionKernel pl oncePerConnection).and exactClose) server w₀)
    (h : Left (system pl ((sessionKernel pl oncePerConnection).and exactClose))
      (uaServerWorker pl server) w₀ status w) :
    ReceiveFailed pl server w ∧ AtHead pl server w₀ w := by
  have hn : NamedOnce pl w :=
    h.induct hs.namedOnce fun _ hv => round_of_step (namedOnce_step fun _ _ _ h => h.1) hv
  rcases ((left_sessions (fun _ _ _ h => once_any h.1) hs h).1 hn).cause with
    hreceive | ⟨u, x, status', hlegal, hlive, hfail⟩
  · exact hreceive
  · have hclose : ntSuccess status' = true := hlegal.2.2.mpr (by simp [hlive])
    cases hfail.symm.trans hclose

/-- No message makes the worker leave its loop. -/
theorem worker_leaves_on_receive
    (hs : Started pl ((sessionKernel pl oncePerConnection).and exactClose) server w₀)
    (h : Left (system pl ((sessionKernel pl oncePerConnection).and exactClose))
      (uaServerWorker pl server) w₀ status w) : ReceiveFailed pl server w :=
  (left_by_receive hs h).1

/-- One client comes and goes, then the receive fails. -/
theorem worker_leaves_on_receive_visited : ∃ server w₀ w status,
    Left (system .x64 ((sessionKernel .x64 oncePerConnection).and exactClose))
      (uaServerWorker .x64 server) w₀ status w ∧ ReceiveFailed .x64 server w := by
  have hrun : (serveUntil ((sessionKernel .x64 oncePerConnection).and exactClose)
      [messageOf lpcConnectionRequest none, messageOf lpcPortClosed (some 0)] 2).any
        (fun r => r.2.2.2 = statusSuccess) := by decide
  obtain ⟨⟨server, w₀, w, status⟩, h, -⟩ := (Option.any_eq_true _ _).mp hrun
  obtain ⟨hcreated, hleft⟩ := serveUntil_left h
  exact ⟨server, w₀, w, status, hleft,
    worker_leaves_on_receive ⟨_, _, _, _, _, rfl, hcreated⟩ hleft⟩

end Ua

end AlpcResearch
