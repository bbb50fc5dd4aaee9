import AlpcResearch.Advanced.Refinement
import AlpcResearch.Ua.Lifecycle

/-!
# What the library inherits

A run of `AdvancedLocalProcedureCall.c` is a run of `ua.c` under another name,
so what is known of the servers of the one is known of those of the other: the
session ledger, who can stop the worker, and what a server leaves behind.
-/

namespace AlpcResearch.Advanced

open Resource Program Process
open Ua (Balanced HandlesKept SessionLedger contextBlocks sessionHandles)

variable {pl : Platform} {A : Assumption} {w w₀ v w' : World} {server : ServerObject}

-- ---------------------------------------------------------------------------
-- Ledgers
-- ---------------------------------------------------------------------------

theorem ledger_renamed (w : World) : ledger pl (renamed w).log = ledger pl w.log := by
  obtain ⟨P, log⟩ := w
  induction log with
  | nil => rfl
  | cons e log ih =>
    obtain ⟨o, r⟩ := e
    have hlog : ledger pl (log.filterMap renameEvent) = ledger pl log := ih
    cases o with
    | rtlZeroMemory => exact hlog
    | allocate | free | alpcConnectPort => exact hlog
    | createThread argument => cases argument <;> exact hlog
    | _ => exact congrArg (Ledger.add pl · _) hlog

theorem sessionKernel_of_reading {may : Ledger → UInt8 → PVoid → Bool} {o : Op} {r : Ret o}
    (h : reading (sessionKernel pl may) w o r) : sessionKernel pl may w o r := by
  cases o with
  | alpcSendWaitReceivePort a =>
    have hrenamed := of_reading h trivial
    simpa only [sessionKernel, ledger_renamed] using hrenamed
  | alpcGetMessageAttribute => exact of_reading h trivial
  | _ => trivial

theorem exactClose_of_reading {o : Op} {r : Ret o} (h : reading exactClose w o r) :
    exactClose w o r := by
  cases o with
  | close => exact of_reading h trivial
  | _ => trivial

/-- The kernel names no connection twice, and closes what is open. -/
abbrev honest (pl : Platform) : Assumption := (sessionKernel pl oncePerConnection).and exactClose

theorem honest_of_reading {o : Op} {r : Ret o} (h : reading (honest pl) w o r) :
    honest pl w o r :=
  ⟨sessionKernel_of_reading fun e he => (h e he).1, exactClose_of_reading fun e he => (h e he).2⟩

-- ---------------------------------------------------------------------------
-- Runs of the worker
-- ---------------------------------------------------------------------------

def Started (pl : Platform) (A : Assumption) (server : ServerObject) (w₀ : World) : Prop :=
  ∃ P portName f g k,
    Ends (system pl A) (srvCreateServer pl portName f g k) ⟨P, []⟩ (some server) w₀

theorem Started.behind (h : Started pl A server w₀) :
    ∃ u₀, Ua.Started pl (reading A) server u₀ ∧ w₀ = renamed u₀ := by
  obtain ⟨P, portName, f, g, k, h⟩ := h
  obtain ⟨u₀, hu, rfl⟩ := srvCreateServer_ends (w := ⟨P, []⟩) h
  exact ⟨u₀, ⟨_, portName, f, g, k, rfl, hu⟩, rfl⟩

theorem head_behind {u₀ : World}
    (h : Head (system pl A) (srvServerWorker pl server) (renamed u₀) w) :
    ∃ u, Head (system pl (reading A)) (Ua.uaServerWorker pl server) u₀ u ∧ w = renamed u :=
  h.behind srvServerWorker_round rfl

theorem sessionLedger_renamed {u₀ u : World} (h : SessionLedger pl u₀ u) :
    SessionLedger pl (renamed u₀) (renamed u) := by
  have hledger : ledger pl (renamed u).log = ledger pl u.log := ledger_renamed u
  exact ⟨hledger ▸ h.bijection, hledger ▸ h.entry, hledger ▸ h.ownHandle, hledger ▸ h.distinct,
    hledger ▸ h.answered⟩

/-- Not the worker's receive, which is the only call without flags. -/
def Replying (o : Op) : Prop := ∀ a, o = .alpcSendWaitReceivePort a → a.flags ≠ 0

theorem replying_of_answersConnect (o : Op) (h : AnswersConnect o) : Replying o := by
  rintro a rfl
  exact h.elim

theorem replying_of_tearsDown (o : Op) (h : TearsDown o) : Replying o := by
  rintro a rfl
  exact h.elim

theorem srvAlpcConnect_uses : ∃ k,
    srvAlpcConnect pl server = .call (.onConnect server.onConnect server.portMessage) k ∧
      ∀ answer, (k answer).Uses AnswersConnect := by
  refine ⟨_, rfl, fun answer => ?_⟩
  simp only [Prog.ret_bind]
  split
  swap
  · exact ⟨trivial, fun _ => trivial⟩
  refine ⟨trivial, fun r => ?_⟩
  simp only [Prog.ret_bind]
  split
  swap
  · exact ⟨trivial, fun _ => trivial⟩
  refine ⟨trivial, fun _ => ⟨trivial, fun _ => ⟨trivial, fun reply => ?_⟩⟩⟩
  simp only [Prog.ret_bind]
  split
  · exact ⟨trivial, fun _ => ⟨trivial, fun _ => trivial⟩⟩
  · trivial

theorem srvAlpcDisconnect_uses : (srvAlpcDisconnect server).Uses TearsDown := disconnect_uses

theorem srvDispatch_uses (kind : UInt8) : (srvDispatch pl server kind).Uses Replying := by
  unfold srvDispatch
  split
  · refine ⟨by rintro _ ⟨⟩, fun _ => ⟨?_, fun _ => trivial⟩⟩
    rintro _ ⟨⟩
    exact (by decide : alpcMsgflgReleaseMessage ≠ 0)
  split
  · refine ⟨by rintro _ ⟨⟩, fun p => ?_⟩
    simp only [Prog.ret_bind]
    split
    · trivial
    refine ⟨by rintro _ ⟨⟩, fun _ => ⟨by rintro _ ⟨⟩, fun bs => ?_⟩⟩
    simp only [Prog.ret_bind]
    split
    · exact ⟨by rintro _ ⟨⟩, fun _ => trivial⟩
    · trivial
  split
  · exact srvAlpcDisconnect_uses.mono replying_of_tearsDown
  split
  · exact srvAlpcDisconnect_uses.mono replying_of_tearsDown
  split
  · obtain ⟨k, hconnect, hanswers⟩ :
        ∃ k, srvAlpcConnect pl server = .call (.onConnect server.onConnect server.portMessage) k ∧
          ∀ answer, (k answer).Uses AnswersConnect := srvAlpcConnect_uses
    rw [hconnect]
    exact ⟨by rintro _ ⟨⟩, fun answer => (hanswers answer).mono replying_of_answersConnect⟩
  · trivial

/-- If the receive was the last call, its status is what the worker returns. -/
theorem srvServerWorker_status {r : Reply}
    (h : Ends (system pl A) (srvServerWorker pl server) v (.leave status) w)
    (hlog : w.log = ⟨.alpcSendWaitReceivePort (srvReceive pl server), r⟩ :: rest) :
    status = r.status := by
  obtain ⟨r', -, h⟩ := ends_call.mp h
  by_cases hs : ntSuccess r'.status = true
  · -- processing the message ends with another call
    simp only [Prog.ret_bind, hs, Bool.not_true, Bool.false_eq_true, if_false] at h
    obtain ⟨status', u, h, hleave⟩ := ends_bind.mp h
    obtain ⟨bs, -, h⟩ := ends_call.mp h
    obtain ⟨new, hnew, hgood⟩ := h.log_grows (srvDispatch_uses _)
    have hw : w = u := by
      split at hleave
      · exact (ends_ret.mp hleave).2
      · exact (ends_ret.mp hleave).2
    rw [hw, hnew] at hlog
    cases new with
    | nil => cases hlog
    | cons e new =>
      obtain ⟨rfl, -⟩ := List.cons.inj hlog
      exact absurd rfl (hgood _ List.mem_cons_self _ rfl)
  · simp only [Prog.ret_bind, hs, Bool.not_false, if_true] at h
    obtain ⟨hstatus, rfl⟩ := ends_ret.mp h
    cases hstatus
    obtain ⟨he, -⟩ := List.cons.inj hlog
    cases he
    rfl

def ReceiveFailedWith (pl : Platform) (server : ServerObject) (status : NtStatus) (w : World) :
    Prop :=
  ∃ r rest, w.log = ⟨.alpcSendWaitReceivePort (srvReceive pl server), r⟩ :: rest ∧
    status = r.status ∧ ntSuccess status = false

theorem left_behind (hA : ∀ w o r, A w o r → honest pl w o r) {u₀ : World}
    (hs : Ua.Started pl (reading A) server u₀)
    (h : Left (system pl A) (srvServerWorker pl server) (renamed u₀) status w) :
    ReceiveFailedWith pl server status w ∧
      ∃ u, w = renamed u ∧ Ua.AtHead pl server u₀ u := by
  have hhonest : ∀ {w o r}, reading A w o r → honest pl w o r := fun h =>
    honest_of_reading fun e he => hA _ _ _ (h e he)
  obtain ⟨b, u, ⟨v, hhead, hends⟩, rfl, -⟩ := h.behind srvServerWorker_round rfl
  obtain ⟨P, portName, f, g, k, hlog, hcreated⟩ := hs
  obtain ⟨⟨r, rest, hu, hr⟩, hhead⟩ := Ua.left_by_receive
    ⟨P, portName, f, g, k, hlog, ends_assuming hhonest hcreated⟩
    ⟨v, head_assuming hhonest hhead, ends_assuming hhonest hends⟩
  have hw : (renamed u).log = ⟨.alpcSendWaitReceivePort (srvReceive pl server), r⟩ ::
      rest.filterMap renameEvent := by
    simp only [renamed, hu]
    rfl
  obtain ⟨v', -, hround⟩ := h
  have hstatus := srvServerWorker_status hround hw
  exact ⟨⟨r, _, hw, hstatus, hstatus ▸ hr⟩, u, rfl, hhead⟩

/-- The session ledger of `ua.c` holds of the library at every receive, no
client can make its worker misuse or lose anything, and none can stop it: the
worker ends on a failed receive, with its status. -/
theorem library_sessions (hA : ∀ w o r, A w o r → honest pl w o r)
    (hs : Started pl A server w₀) :
    (∀ w, Head (system pl A) (srvServerWorker pl server) w₀ w → SessionLedger pl w₀ w) ∧
      (∀ w, Passes (system pl A) (srvServerWorker pl server) w₀ w →
        w.state.faults = w₀.state.faults) ∧
      ∀ status w, Left (system pl A) (srvServerWorker pl server) w₀ status w →
        SessionLedger pl w₀ w ∧ ReceiveFailedWith pl server status w := by
  obtain ⟨u₀, hstarted, rfl⟩ := hs.behind
  have honce : ∀ w o r, reading A w o r → sessionKernel pl oncePerConnection w o r :=
    fun w o r h => sessionKernel_of_reading fun e he => (hA _ _ _ (h e he)).1
  have hany : ∀ w o r, reading A w o r → sessionKernel pl anyDisconnect w o r :=
    fun w o r h => once_any (honce w o r h)
  refine ⟨fun w h => ?_, fun w h => ?_, fun status w h => ?_⟩
  · obtain ⟨u, hu, rfl⟩ := head_behind h
    have hhead := (Ua.head_sessions hany hstarted hu).1 (Ua.head_namedOnce honce hstarted hu)
    exact sessionLedger_renamed hhead.sessionLedger
  · obtain ⟨u, hu, rfl⟩ := h.behind srvServerWorker_round rfl
    have hn : NamedOnce pl u :=
      hu.induct hstarted.namedOnce fun _ hv => round_of_step (namedOnce_step honce) hv
    have hfaults : u.state.faults = u₀.state.faults := Ua.passes_sessions hany hstarted hu hn
    exact hfaults
  · obtain ⟨hfailed, u, rfl, hhead⟩ := left_behind hA hstarted h
    exact ⟨sessionLedger_renamed hhead.sessionLedger, hfailed⟩

-- ---------------------------------------------------------------------------
-- A server's whole life
-- ---------------------------------------------------------------------------

/-- Created in `P`, at work from `w₀` to `v`, terminated in `w'`. -/
structure Lifecycle (pl : Platform) (A : Assumption) (server : ServerObject) (P : Process)
    (w₀ v w' : World) : Prop where
  created : ∃ portName f g k,
    Ends (system pl A) (srvCreateServer pl portName f g k) ⟨P, []⟩ (some server) w₀
  worked : ∃ status, Left (system pl A) (srvServerWorker pl server) w₀ status v
  terminated : Ends (system pl A) (srvTerminateServer server) v () w'

theorem Lifecycle.behind (hA : ∀ w o r, A w o r → honest pl w o r) {P : Process}
    (h : Lifecycle pl A server P w₀ v w') :
    ∃ u₀ u u', Ua.Lifecycle pl (honest pl) server ⟨P, []⟩ u₀ u u' ∧ v = renamed u ∧
      w' = renamed u' := by
  have hhonest : ∀ {w o r}, reading A w o r → honest pl w o r := fun h =>
    honest_of_reading fun e he => hA _ _ _ (h e he)
  obtain ⟨⟨portName, f, g, k, hcreated⟩, ⟨status, hworked⟩, hterminated⟩ := h
  obtain ⟨u₀, hcreate, rfl⟩ := srvCreateServer_ends (w := ⟨P, []⟩) hcreated
  obtain ⟨b, u, ⟨u₁, hhead, hends⟩, rfl, -⟩ := hworked.behind srvServerWorker_round rfl
  obtain ⟨_, u', hterminate, rfl, -⟩ := srvTerminateServer_behind.ends hterminated
  refine ⟨u₀, u, u', ?_, rfl, rfl⟩
  constructor
  case history => rfl
  case created => exact ⟨portName, f, g, k, ends_assuming hhonest hcreate⟩
  case worked => exact ⟨b, u₁, head_assuming hhonest hhead, ends_assuming hhonest hends⟩
  case terminated => exact ends_assuming hhonest hterminate

/-- What a server leaves behind: the handle of its thread, and the context and
the handle of every client still connected. -/
theorem library_lifecycle (hA : ∀ w o r, A w o r → honest pl w o r) {P : Process}
    (h : Lifecycle pl A server P w₀ v w') :
    ∃ t, server.serverThreadHandle = some t ∧
      w'.state.heap.live = P.heap.live ∪ contextBlocks (ledger pl v.log) ∧
      w'.state.handles.live = insert t (P.handles.live ∪ sessionHandles (ledger pl v.log)) := by
  obtain ⟨u₀, u, u', hlife, rfl, rfl⟩ := h.behind hA
  rw [ledger_renamed]
  exact Ua.lifecycle_leaks hlife

def lifeWith (message : Outcome) : Option (ServerObject × World × World × NtStatus × World × World) :=
  let S := system .x64 (honest .x64)
  let O := (Environment.visitedBy [message]).oracle .x64 (honest .x64)
  match (srvCreateServer .x64 "port" 1 2 3).replay S O ⟨.empty, []⟩ with
  | some (some server, w₀) =>
    (rounds S O (srvServerWorker .x64 server) 1 w₀).bind fun w =>
      match (srvServerWorker .x64 server).replay S O w with
      | some (.leave status, v) =>
        ((srvTerminateServer server).replay S O v).map fun r => (server, w₀, w, status, v, r.2)
      | _ => none
  | _ => none

theorem lifeWith_runs (h : lifeWith message = some (server, w₀, w, status, v, w')) :
    Started .x64 (honest .x64) server w₀ ∧
      Head (system .x64 (honest .x64)) (srvServerWorker .x64 server) w₀ w ∧
      Left (system .x64 (honest .x64)) (srvServerWorker .x64 server) w₀ status v ∧
      Lifecycle .x64 (honest .x64) server .empty w₀ v w' := by
  have hsound : ((Environment.visitedBy [message]).oracle .x64 (honest .x64)).Sound
      (system .x64 (honest .x64)) := Environment.oracle_sound (honest .x64)
  simp only [lifeWith] at h
  split at h
  · rename_i server' w₀' hcreate
    obtain ⟨u, hu, h⟩ := Option.bind_eq_some_iff.mp h
    split at h
    · rename_i status' v' hleave
      obtain ⟨r, hr, he⟩ := Option.map_eq_some_iff.mp h
      cases he
      have hcreated := replay_ends hsound hcreate
      have hhead := rounds_head hsound hu
      have hleft : Left (system .x64 (honest .x64)) (srvServerWorker .x64 server) w₀ status v :=
        ⟨w, hhead, replay_ends hsound hleave⟩
      exact ⟨⟨_, _, _, _, _, hcreated⟩, hhead, hleft,
        ⟨⟨_, _, _, _, hcreated⟩, ⟨status, hleft⟩, replay_ends hsound hr⟩⟩
    · cases h
  · cases h

/-- A client connects and stays. -/
theorem lifeWith_client : ∃ server w₀ w status v w',
    lifeWith (Ua.messageOf lpcConnectionRequest none) = some (server, w₀, w, status, v, w') ∧
      (ledger .x64 w.log).sessions.length = 1 ∧ (ledger .x64 v.log).sessions.length = 1 := by
  have hrun : (lifeWith (Ua.messageOf lpcConnectionRequest none)).any (fun r =>
      (ledger .x64 r.2.2.1.log).sessions.length = 1 &&
        (ledger .x64 r.2.2.2.2.1.log).sessions.length = 1) := by decide
  obtain ⟨⟨server, w₀, w, status, v, w'⟩, h, hlen⟩ := (Option.any_eq_true _ _).mp hrun
  simp only [Bool.and_eq_true, decide_eq_true_eq] at hlen
  exact ⟨server, w₀, w, status, v, w', h, hlen⟩

theorem library_sessions_client : ∃ server w₀ w status v,
    (ledger .x64 w.log).sessions.length = 1 ∧ SessionLedger .x64 w₀ w ∧
      ReceiveFailedWith .x64 server status v := by
  obtain ⟨server, w₀, w, status, v, w', h, hlen, -⟩ := lifeWith_client
  obtain ⟨hs, hhead, hleft, -⟩ := lifeWith_runs h
  have hsessions := library_sessions (fun _ _ _ h => h) hs
  exact ⟨server, w₀, w, status, v, hlen, hsessions.1 w hhead, (hsessions.2.2 status v hleft).2⟩

theorem library_lifecycle_client : ∃ server w₀ v w' t,
    Lifecycle .x64 (honest .x64) server .empty w₀ v w' ∧
      (ledger .x64 v.log).sessions.length = 1 ∧ server.serverThreadHandle = some t ∧
      w'.state.heap.live = Process.empty.heap.live ∪ contextBlocks (ledger .x64 v.log) ∧
      w'.state.handles.live =
        insert t (Process.empty.handles.live ∪ sessionHandles (ledger .x64 v.log)) := by
  obtain ⟨server, w₀, w, status, v, w', h, -, hlen⟩ := lifeWith_client
  obtain ⟨-, -, -, hlife⟩ := lifeWith_runs h
  obtain ⟨t, ht, hblocks, hhandles⟩ := library_lifecycle (fun _ _ _ h => h) hlife
  exact ⟨server, w₀, v, w', t, hlife, hlen, ht, hblocks, hhandles⟩

end AlpcResearch.Advanced
