import AlpcResearch.Server.Service
import AlpcResearch.Ua.Service

/-!
# The sessions of `server.c`

`OnAlpcConnection` has its `PORT_CONTEXT` before it knows whether the client
is accepted, and keeps it when the client is turned down. As long as every
request has been accepted the worker's process agrees with the ledger at every
receive; from the first reject on a context is live that belongs to nobody.
-/

namespace AlpcResearch.Server

open Resource Program Process

variable {pl : Platform} {A : Assumption} {maxLength : Nat} {worker : Worker}
variable {w₀ w v u : World} {msg : List UInt8} {ctx : PVoid} {status : NtStatus}

def AllAccepted (pl : Platform) (w : World) : Prop :=
  ∀ a ∈ (ledger pl w.log).answers, a = (1, 0)

/-- A context allocated since `P₀` that is still there and belongs to no
connection. -/
structure Leaked (P₀ P : Process) (accepted : List Session) (q : Ref) : Prop where
  layout : P.layoutOf q = some .portContext
  fresh : P₀.layoutOf q = none
  foreign : ∀ s ∈ accepted, s.context ≠ some ⟨q, 0⟩

/-- What the worker has besides its connections: nothing new, or a leaked
context. -/
structure Holdings (pl : Platform) (w₀ w : World) : Prop where
  older : w₀.state.heap.next ≤ w.state.heap.next
  framed : AllAccepted pl w → Framed w₀.state w.state (ledger pl w.log).sessions
  leaked : ¬ AllAccepted pl w → ∃ q, Leaked w₀.state w.state (ledger pl w.log).accepted q

structure AtReceive (pl : Platform) (maxLength : Nat) (worker : Worker) (w₀ w : World) : Prop
    extends InOrder pl (endpoint maxLength worker) w where
  faults : w.state.faults = w₀.state.faults
  holdings : Holdings pl w₀ w

-- ---------------------------------------------------------------------------
-- What happens to a leaked context
-- ---------------------------------------------------------------------------

variable {P₀ P P' : Process} {known : List Session} {q x : Ref}

theorem Leaked.keeps (h : Leaked P₀ P known q) (k : Keeps P P') : Leaked P₀ P' known q where
  layout := (k.layouts q).trans h.layout
  fresh := h.fresh
  foreign := h.foreign

theorem Leaked.gains (h : Leaked P₀ P known q) (g : Gains P P' b x cid) :
    Leaked P₀ P' (⟨some ⟨b, 0⟩, cid, some x⟩ :: known) q := by
  have hne : q ≠ b := by
    rintro rfl
    cases h.layout.symm.trans (layoutOf_none.mpr g.block_free)
  refine ⟨?_, h.fresh, ?_⟩
  · rw [← h.layout]
    simp [layoutOf, g.heap, hne]
  · intro s hs he
    rcases List.mem_cons.mp hs with rfl | hs
    · cases he
      exact hne rfl
    · exact h.foreign s hs he

theorem Leaked.loses (h : Leaked P₀ P known q) (l : Loses P P' b y) (hs : s ∈ known)
    (hat : s.At b x) : Leaked P₀ P' known q where
  layout := by
    have hne : q ≠ b := by
      rintro rfl
      exact h.foreign s hs hat.context
    rw [← h.layout]
    simp [layoutOf, l.heap, hne]
  fresh := h.fresh
  foreign := h.foreign

theorem Pending.leaked (p : Pending P P' q c) (c' : Consistent e P L)
    (hnext : P₀.heap.next ≤ P.heap.next) : Leaked P₀ P' L.accepted q where
  layout := layoutOf_get? p.block
  fresh := layoutOf_none.mpr (Table.get?_of_next_le (hnext.trans p.newBlock))
  foreign s hs he := by
    obtain ⟨b, x, hat, hlt⟩ := c'.known s hs
    cases he.symm.trans hat.context
    exact absurd p.newBlock (Nat.not_le_of_lt hlt)

-- ---------------------------------------------------------------------------
-- What a message does to the holdings
-- ---------------------------------------------------------------------------

theorem allAccepted_congr (h : (ledger pl v.log).answers = (ledger pl w.log).answers) :
    AllAccepted pl v ↔ AllAccepted pl w := by
  simp [AllAccepted, h]

namespace Holdings

theorem keeps (h : Holdings pl w₀ w) (k : Keeps w.state v.state)
    (ha : (ledger pl v.log).accepted = (ledger pl w.log).accepted)
    (hs : (ledger pl v.log).sessions = (ledger pl w.log).sessions)
    (hans : (ledger pl v.log).answers = (ledger pl w.log).answers) : Holdings pl w₀ v where
  older := h.older.trans k.next
  framed hall := hs ▸ (h.framed ((allAccepted_congr hans).mp hall)).keeps k
  leaked hall := by
    obtain ⟨q, hq⟩ := h.leaked fun hw => hall ((allAccepted_congr hans).mpr hw)
    exact ⟨q, ha ▸ hq.keeps k⟩

theorem accepted (h : Holdings pl w₀ w) (k : Keeps w.state v.state)
    (hv : Consistent e v.state (ledger pl v.log))
    (hr : ledger pl v.log = (ledger pl w.log).receive pl msg ctx)
    (hc : kindOf pl msg = lpcConnectionRequest)
    (g : Gains v.state u.state q x (headerOf pl (ledger pl v.log).message).clientId)
    (hl : ledger pl u.log = (ledger pl v.log).accept pl (some ⟨q, 0⟩) (some x)) :
    Holdings pl w₀ u := by
  have hans : (ledger pl u.log).answers = (1, 0) :: (ledger pl w.log).answers := by
    simp [hl, hr, Ledger.accept, Ledger.answer, Ledger.receive, hc]
  have hall : AllAccepted pl u ↔ AllAccepted pl w := by simp [AllAccepted, hans]
  have hsessions : (ledger pl v.log).sessions = (ledger pl w.log).sessions := by
    rw [hr, Ledger.sessions_other (not_disconnect_of_request hc)]
  have hnew : some ⟨q, 0⟩ ∉ (ledger pl v.log).disconnected := fun hmem =>
    hv.new_context g.newBlock (hv.disconnected _ hmem)
  refine ⟨?_, fun ha => ?_, fun ha => ?_⟩
  · have := h.older
    have := k.next
    have := g.newBlock
    have := g.next
    omega
  · rw [hl, Ledger.sessions_accept hnew]
    have hframed := (h.framed (hall.mp ha)).keeps k
    exact (hsessions ▸ hframed).gains hv.entries g
  · obtain ⟨b, hb⟩ := h.leaked fun hw => ha (hall.mpr hw)
    have haccepted : (ledger pl v.log).accepted = (ledger pl w.log).accepted := by rw [hr]; rfl
    refine ⟨b, ?_⟩
    rw [hl, Ledger.accept_accepted, haccepted]
    exact (hb.keeps k).gains g

theorem rejected (h : Holdings pl w₀ w) (k : Keeps w.state v.state)
    (hv : Consistent e v.state (ledger pl v.log))
    (hr : ledger pl v.log = (ledger pl w.log).receive pl msg ctx)
    (hc : kindOf pl msg = lpcConnectionRequest) (p : Pending v.state u.state q c)
    (hl : ledger pl u.log = (ledger pl v.log).reject) : Holdings pl w₀ u := by
  have hmem : (0, 1) ∈ (ledger pl u.log).answers := by
    simp [hl, hr, Ledger.reject, Ledger.answer, Ledger.receive, hc]
  have hnext := h.older.trans k.next
  refine ⟨?_, fun hall => ?_, fun _ => ⟨q, ?_⟩⟩
  · have := p.newBlock
    have := p.next
    omega
  · cases hall _ hmem
  · rw [hl, Ledger.reject_accepted]
    exact Pending.leaked p hv hnext

theorem disconnected (h : Holdings pl w₀ w) (c : Consistent e w.state (ledger pl w.log))
    (k : Keeps w.state v.state) (hr : ledger pl v.log = (ledger pl w.log).receive pl msg s.context)
    (hk : isDisconnect (kindOf pl msg) = true) (hs : s ∈ (ledger pl w.log).sessions)
    (hat : s.At q x) (l : Loses v.state u.state q (some x))
    (hl : ledger pl u.log = ledger pl v.log) : Holdings pl w₀ u := by
  have hlu := hl.trans hr
  have hne : kindOf pl msg ≠ lpcConnectionRequest := fun he => not_disconnect_of_request he hk
  have hall : AllAccepted pl u ↔ AllAccepted pl w := by
    simp [AllAccepted, hlu, Ledger.receive, hne]
  refine ⟨(h.older.trans k.next).trans l.next, fun ha => ?_, fun ha => ?_⟩
  · rw [hlu, Ledger.sessions_disconnect hk]
    exact ((h.framed (hall.mp ha)).keeps k).loses (c.entries.keeps k) hs hat l
  · obtain ⟨b, hb⟩ := h.leaked fun hw => ha (hall.mpr hw)
    rw [hlu]
    exact ⟨b, (hb.keeps k).loses l (Ledger.mem_sessions.mp hs).1 hat⟩

end Holdings

-- ---------------------------------------------------------------------------
-- A round
-- ---------------------------------------------------------------------------

theorem Holdings.handled (h : Holdings pl w₀ w) (hw : InOrder pl (endpoint maxLength worker) w)
    (hr : Received pl (endpoint maxLength worker) msg ctx w v)
    (hh : Handled pl A msg ctx w v status u) (hs : ntSuccess status = true) : Holdings pl w₀ u := by
  cases hh with
  | quiet hk hc _ hq =>
    have hl : ledger pl u.log = (ledger pl w.log).receive pl msg ctx := hq.2.trans hr.ledger
    refine h.keeps (hr.keeps.trans hq.1) ?_ ?_ ?_
    · rw [hl, Ledger.receive_accepted]
    · rw [hl, Ledger.sessions_other hk]
    · simp [hl, Ledger.receive, hc]
  | connected hc _ hconnected =>
    have hv := (hw.requested hr hc).1
    rcases hconnected with ⟨q, x, hg, hl⟩ | ⟨⟨q, c, hp⟩, hl⟩
    · exact h.accepted hr.keeps hv hr.ledger hc hg hl
    · exact h.rejected hr.keeps hv hr.ledger hc hp hl
  | unanswered _ _ hf => cases hs.symm.trans hf
  | disconnected hk hopen hctx hat htorn =>
    subst hctx
    exact h.disconnected hw.consistent hr.keeps hr.ledger hk hopen hat (htorn.loses hs) htorn.2.1

theorem AtReceive.next (h : AtReceive pl maxLength worker w₀ w)
    (hr : Round pl A maxLength worker w status u) (hs : ntSuccess status = true) :
    AtReceive pl maxLength worker w₀ u := by
  cases hr with
  | failed _ hf => cases hs.symm.trans hf
  | handled hrec _ hh =>
    obtain ⟨horder, hfaults⟩ := hh.inOrder h.toInOrder hrec hs
    exact ⟨horder, hfaults.trans h.faults, h.holdings.handled h.toInOrder hrec hh hs⟩

theorem srvServerWorker_returns (hmax : pl.sizeofPortMessage + 8 ≤ maxLength)
    (hA : ∀ w o r, A w o r → sessionKernel pl oncePerConnection w o r)
    (h : AtReceive pl maxLength worker w₀ w) :
    (srvServerWorker pl maxLength worker).safe (system pl A)
      (fun u => u.state.faults = w₀.state.faults)
      (After (AtReceive pl maxLength worker w₀) fun _ _ => True) w := by
  refine safe_imp (srvServerWorker_round hmax hA h.toInOrder) (fun u hu => hu.trans h.faults) ?_
  rintro (_ | status) u - hround
  · obtain ⟨status, hs, hround⟩ := hround
    exact h.next hround hs
  · trivial

-- ---------------------------------------------------------------------------
-- The session ledger
-- ---------------------------------------------------------------------------

theorem Started.atReceive (h : Started pl A maxLength worker w₀) :
    AtReceive pl maxLength worker w₀ w₀ := by
  obtain ⟨w, port, hlog, hport, hends⟩ := h
  obtain ⟨hserving, hl, -⟩ := srvServerWorkerStart_serving hport hends
  have hl : ledger pl w₀.log = .empty := by rw [hl, hlog]; rfl
  have hall : AllAccepted pl w₀ := by simp [AllAccepted, hl, Ledger.empty]
  exact {
    consistent := hl ▸ .start hserving
    answered := by simp [hl, Ledger.empty]
    faults := rfl
    holdings := ⟨Nat.le_refl _, fun _ => hl ▸ .start _, fun hno => absurd hall hno⟩ }

open Ua (SessionLedger liveContexts)

theorem Leaked.not_sessionLedger
    (h : Leaked w₀.state w.state (ledger pl w.log).accepted q) : ¬ SessionLedger pl w₀ w := by
  intro hledger
  have hmem : some ⟨q, 0⟩ ∈ liveContexts w.state \ liveContexts w₀.state := by
    refine ⟨⟨q, rfl, h.layout⟩, ?_⟩
    rintro ⟨q', he, hq'⟩
    cases he
    cases h.fresh.symm.trans hq'
  obtain ⟨s, hs, he⟩ := hledger.bijection.surjOn hmem
  exact h.foreign s (Ledger.mem_sessions.mp hs).1 he

/-- At every receive the contexts are those of the connections if and only if
every request has been accepted. Nothing is freed or closed twice in any
case. -/
theorem session_ledger_iff (hmax : pl.sizeofPortMessage + 8 ≤ maxLength)
    (hs : Started pl (sessionKernel pl oncePerConnection) maxLength worker w₀) :
    (∀ w, Head (system pl (sessionKernel pl oncePerConnection))
        (srvServerWorker pl maxLength worker) w₀ w →
        (SessionLedger pl w₀ w ↔ AllAccepted pl w)) ∧
      ∀ w, Passes (system pl (sessionKernel pl oncePerConnection))
        (srvServerWorker pl maxLength worker) w₀ w → w.state.faults = w₀.state.faults := by
  have hround : ∀ v, AtReceive pl maxLength worker w₀ v → _ := fun v hv =>
    srvServerWorker_returns hmax (fun _ _ _ h => h) hv
  constructor
  · intro w h
    have hw := h.induct hs.atReceive hround
    refine ⟨fun hledger => ?_, fun hall => .of_framed hw.toInOrder (hw.holdings.framed hall)⟩
    by_contra hno
    obtain ⟨q, hq⟩ := hw.holdings.leaked hno
    exact hq.not_sessionLedger hledger
  · intro w h
    exact h.induct hs.atReceive hround

-- ---------------------------------------------------------------------------
-- Two runs
-- ---------------------------------------------------------------------------

def receiveAfter (E : Environment) (n : Nat) : Option (Worker × World × World) :=
  let S := system .x64 (sessionKernel .x64 oncePerConnection)
  let O := E.oracle .x64 (sessionKernel .x64 oncePerConnection)
  match (srvServerWorkerStart 0xFFFF (some ⟨0, 0⟩)).replay S O withPort with
  | some (.ok worker, w₀) =>
    (rounds S O (srvServerWorker .x64 0xFFFF worker) n w₀).map fun w => (worker, w₀, w)
  | _ => none

theorem receiveAfter_head (h : receiveAfter E n = some (worker, w₀, w)) :
    Started .x64 (sessionKernel .x64 oncePerConnection) 0xFFFF worker w₀ ∧
      Head (system .x64 (sessionKernel .x64 oncePerConnection))
        (srvServerWorker .x64 0xFFFF worker) w₀ w := by
  have hsound : (E.oracle .x64 (sessionKernel .x64 oncePerConnection)).Sound
      (system .x64 (sessionKernel .x64 oncePerConnection)) := Environment.oracle_sound _
  simp only [receiveAfter] at h
  split at h
  · rename_i worker' v₀ hstart
    obtain ⟨v, hv, he⟩ := Option.map_eq_some_iff.mp h
    cases he
    exact ⟨⟨withPort, ⟨0, 0⟩, rfl, rfl, replay_ends hsound hstart⟩, rounds_head hsound hv⟩
  · cases h

/-- Two clients connect and the first one leaves. -/
theorem session_ledger_iff_visited : ∃ worker w₀ w,
    Head (system .x64 (sessionKernel .x64 oncePerConnection))
        (srvServerWorker .x64 0xFFFF worker) w₀ w ∧
      (ledger .x64 w.log).sessions.length = 1 ∧
      (SessionLedger .x64 w₀ w ↔ AllAccepted .x64 w) := by
  have hrun : (receiveAfter (.visitedBy [messageOf lpcConnectionRequest,
      messageOf lpcConnectionRequest, { messageOf lpcPortClosed with connection := some 0 }]) 3).any
        (fun r => (ledger .x64 r.2.2.log).sessions.length = 1) := by decide +kernel
  obtain ⟨⟨worker, w₀, w⟩, h, hlen⟩ := (Option.any_eq_true _ _).mp hrun
  obtain ⟨hs, hhead⟩ := receiveAfter_head h
  exact ⟨worker, w₀, w, hhead, by simpa using hlen,
    (session_ledger_iff (by decide) hs).1 w hhead⟩

/-- The first client's accept fails and it is turned down. -/
def turningDown : Environment :=
  let E := Environment.visitedBy [messageOf lpcConnectionRequest]
  { E with outcome := fun k n =>
      if k = .accept ∧ n = 0 then { status := statusUnsuccessful } else E.outcome k n }

/-- At the next receive its context is still there. -/
theorem session_ledger_leaks : ∃ worker w₀ w,
    Started .x64 (sessionKernel .x64 oncePerConnection) 0xFFFF worker w₀ ∧
      Head (system .x64 (sessionKernel .x64 oncePerConnection))
        (srvServerWorker .x64 0xFFFF worker) w₀ w ∧ ¬ SessionLedger .x64 w₀ w := by
  have hrun : (receiveAfter turningDown 1).any (fun r =>
      (ledger .x64 r.2.2.log).accepted = [] && r.2.2.state.layoutOf ⟨2, 2⟩ = some .portContext &&
        r.2.1.state.layoutOf ⟨2, 2⟩ = none) := by decide +kernel
  obtain ⟨⟨worker, w₀, w⟩, h, hleak⟩ := (Option.any_eq_true _ _).mp hrun
  simp only [Bool.and_eq_true, decide_eq_true_eq] at hleak
  obtain ⟨⟨haccepted, hlayout⟩, hfresh⟩ := hleak
  obtain ⟨hs, hhead⟩ := receiveAfter_head h
  have hleaked : Leaked w₀.state w.state (ledger .x64 w.log).accepted ⟨2, 2⟩ := by
    refine ⟨hlayout, hfresh, ?_⟩
    simp [haccepted]
  exact ⟨worker, w₀, w, hs, hhead, hleaked.not_sessionLedger⟩

end AlpcResearch.Server
