import AlpcResearch.Server.Sessions

/-!
# The built server, from its channel to its end

`SrvInitializeChannel`, the start of the worker, its loop and its end. The
worker gives back its two buffers. What stays is known exactly: the port and
the handle of the thread, the context and the port of every client still
connected, and one context for every client that was turned down.
-/

namespace AlpcResearch.Server

open Resource Program Process

variable {pl : Platform} {A : Assumption} {maxLength : Nat} {worker : Worker}
variable {w w₀ w₁ v u w' : World} {msg : List UInt8} {ctx : PVoid} {status : NtStatus}
variable {P₀ : Process} {s : Session} {a m q x : Ref} {bs hs : List Ref} {c : PortContext}
variable {port : Handle}

-- ---------------------------------------------------------------------------
-- The channel
-- ---------------------------------------------------------------------------

/-- The end of `SrvInitializeChannel`: a thread that was given an open port, or
nothing. -/
def Opened (w : World) (status : NtStatus) (thread : Handle) (v : World) : Prop :=
  if ntSuccess status then
    ∃ p t r rest, thread = some t ∧ v.state.handles.get? p = some .connectionPort ∧
      v.log = ⟨.ntCreateThreadEx (.handle (some p)), r⟩ :: rest ∧
      Gained w.state v.state [] [t, p]
  else thread = none ∧ Gained w.state v.state [] []

theorem srvInitializeChannel_opened (hA : ∀ w o r, A w o r → closesOpen w o r) :
    (srvInitializeChannel maxLength portName).safe (system pl A)
      (fun v => v.state.faults = w.state.faults)
      (fun r v => Opened w r.1 r.2 v ∧ ledger pl v.log = ledger pl w.log) w := by
  have g₀ : Gained w.state w.state [] [] := .refl _
  refine ⟨rfl, ?_⟩
  rintro ⟨status, port⟩ hport
  by_cases hs : ntSuccess status = true
  swap
  · obtain rfl : port = none := opens_none hport.1 hs
    simp only [Prog.ret_bind, hs, Bool.not_false, if_true]
    have g₁ : Gained w.state (w.state.effect pl (.alpcCreatePort portName
        (srvInitializePortAttributes maxLength)) (status, none)) [] [] :=
      g₀.of_eq (effect_eq_self rfl rfl rfl)
    refine ⟨g₁.faults, ?_, rfl⟩
    rw [Opened, if_neg hs]
    exact ⟨rfl, g₁⟩
  obtain ⟨p, rfl, hp⟩ : ∃ p, port = some p ∧ w.state.handles.Fresh p := opens_some hport.1 hs
  simp only [Prog.ret_bind, hs, Bool.not_true, Bool.false_eq_true, if_false]
  let u := (system pl A).next w (.alpcCreatePort portName (srvInitializePortAttributes maxLength))
    (status, some p)
  have g₁ : Gained w.state u.state [] [p] := g₀.opens rfl hp rfl rfl
  refine ⟨g₁.faults, ?_⟩
  rintro ⟨status', thread⟩ hthread
  by_cases hs' : ntSuccess status' = true
  swap
  · obtain rfl : thread = none := opens_none hthread.1 hs'
    simp only [Prog.ret_bind, hs', Bool.not_false, if_true]
    have g₂ : Gained w.state (u.state.effect pl (.ntCreateThreadEx (.handle (some p)))
        (status', none)) [] [p] := g₁.of_eq (effect_eq_self rfl rfl rfl)
    refine ⟨g₂.faults, fun closed hclosed => ?_⟩
    obtain ⟨k, hk⟩ := g₂.handles.get? List.mem_cons_self
    have hsuccess : ntSuccess closed = true :=
      hA _ _ _ hclosed.2 (Option.isSome_iff_exists.mpr ⟨k, hk⟩)
    have g₃ : Gained w.state ((u.state.effect pl (.ntCreateThreadEx (.handle (some p)))
        (status', none)).effect pl (.close (some p)) closed) [] [] := g₂.close hsuccess
    refine ⟨g₃.faults, ?_, rfl⟩
    rw [Opened, if_neg hs']
    exact ⟨rfl, g₃⟩
  obtain ⟨t, rfl, ht⟩ : ∃ t, thread = some t ∧ u.state.handles.Fresh t := opens_some hthread.1 hs'
  simp only [Prog.ret_bind, hs', Bool.not_true, Bool.false_eq_true, if_false]
  let v := (system pl A).next u (.ntCreateThreadEx (.handle (some p))) (status', some t)
  have g₂ : Gained w.state v.state [] [t, p] := g₁.opens rfl ht rfl rfl
  have hport : u.state.handles.get? p = some .connectionPort := Table.get?_acquire_self hp
  have hopen : v.state.handles.get? p = some .connectionPort :=
    Table.get?_acquire_of_some ht hport
  exact ⟨g₂.faults, ⟨p, t, _, _, rfl, hopen, rfl, g₂⟩, rfl⟩

-- ---------------------------------------------------------------------------
-- What the worker gains
-- ---------------------------------------------------------------------------

def turnedDown (pl : Platform) (w : World) : Nat := (ledger pl w.log).answers.count (0, 1)

/-- Since `w₀` the worker has gained what its sessions name, and one context
for each client turned down. -/
def Spent (pl : Platform) (w₀ w : World) : Prop :=
  ∃ leaked, leaked.length = turnedDown pl w ∧
    Gained w₀.state w.state (leaked ++ sessionBlocks (ledger pl w.log).sessions)
      (sessionPorts (ledger pl w.log).sessions)

namespace Spent

theorem start (hl : ledger pl w₀.log = .empty) : Spent pl w₀ w₀ := by
  refine ⟨[], by simp [turnedDown, hl, Ledger.empty], ?_⟩
  have hnone : (ledger pl w₀.log).sessions = [] := by rw [hl]; rfl
  rw [hnone]
  exact .refl w₀.state

theorem keeps (h : Spent pl w₀ w) (k : Keeps w.state v.state)
    (hs : (ledger pl v.log).sessions = (ledger pl w.log).sessions)
    (ht : turnedDown pl v = turnedDown pl w) : Spent pl w₀ v := by
  obtain ⟨leaked, hlength, hgained⟩ := h
  exact ⟨leaked, hlength.trans ht.symm, hs ▸ hgained.keeps k⟩

theorem accepted (h : Spent pl w₀ w) (g : Gains w.state v.state q x cid)
    (hs : (ledger pl v.log).sessions = ⟨some ⟨q, 0⟩, cid', some x⟩ :: (ledger pl w.log).sessions)
    (ht : turnedDown pl v = turnedDown pl w) : Spent pl w₀ v := by
  obtain ⟨leaked, hlength, hgained⟩ := h
  refine ⟨leaked, hlength.trans ht.symm, hs ▸ (hgained.trans (Gains.gained g)).perm ?_ (.refl _)⟩
  change (q :: (leaked ++ sessionBlocks (ledger pl w.log).sessions)).Perm
    (leaked ++ q :: sessionBlocks (ledger pl w.log).sessions)
  exact List.perm_middle.symm

theorem rejected (h : Spent pl w₀ w) (p : Pending w.state v.state q c)
    (hs : (ledger pl v.log).sessions = (ledger pl w.log).sessions)
    (ht : turnedDown pl v = turnedDown pl w + 1) : Spent pl w₀ v := by
  obtain ⟨leaked, hlength, hgained⟩ := h
  exact ⟨q :: leaked, by rw [List.length_cons, hlength, ht], hs ▸ hgained.trans p.gained⟩

theorem quiet (h : Spent pl w₀ w) (hq : Quiet pl w v) : Spent pl w₀ v :=
  h.keeps hq.1 (by rw [hq.2]) (by rw [turnedDown, hq.2, turnedDown])

theorem disconnected (h : Spent pl w₀ w) (hentries : Entries w.state (ledger pl w.log).sessions)
    (k : Keeps w.state v.state) (hopen : s ∈ (ledger pl w.log).sessions) (hat : s.At q x)
    (l : Loses v.state u.state q (some x))
    (hs : (ledger pl u.log).sessions =
      (ledger pl w.log).sessions.filter fun s' => s'.context ≠ s.context)
    (ht : turnedDown pl u = turnedDown pl w) : Spent pl w₀ u := by
  obtain ⟨leaked, hlength, hgained⟩ := h
  have hperm := sessions_perm hentries.contexts hopen
  rw [← hs] at hperm
  have hblocks : (sessionBlocks (ledger pl w.log).sessions).Perm
      (q :: sessionBlocks (ledger pl u.log).sessions) := by
    have hflat := hperm.flatMap_right fun s => refsOf s.context
    rwa [List.flatMap_cons, hat.context] at hflat
  have hports : (sessionPorts (ledger pl w.log).sessions).Perm
      (x :: sessionPorts (ledger pl u.log).sessions) := by
    have hflat := hperm.flatMap_right fun s => s.handle.toList
    rwa [List.flatMap_cons, hat.handle] at hflat
  have hall := (hblocks.append_left leaked).trans List.perm_middle
  exact ⟨leaked, hlength.trans ht.symm, ((hgained.keeps k).perm hall hports).loses l⟩

theorem handled (hA : ∀ w o r, A w o r → closesOpen w o r) (h : Spent pl w₀ w)
    (hw : InOrder pl (endpoint maxLength worker) w)
    (hr : Received pl (endpoint maxLength worker) msg ctx w v)
    (hh : Handled pl A msg ctx w v status u) : Spent pl w₀ u := by
  -- a connection request that has come in has not been answered yet
  have hv : ¬ isDisconnect (kindOf pl msg) = true → Spent pl w₀ v := fun hk => by
    refine h.keeps hr.keeps ?_ ?_
    · rw [hr.ledger, Ledger.sessions_other hk]
    · by_cases hc : kindOf pl msg = lpcConnectionRequest <;>
        simp [turnedDown, hr.ledger, Ledger.receive, hc]
  cases hh with
  | quiet hk _ _ hq => exact (hv hk).quiet hq
  | unanswered hc _ _ hq => exact (hv (not_disconnect_of_request hc)).quiet hq
  | connected hc _ hconnected =>
    have hspent := hv (not_disconnect_of_request hc)
    obtain ⟨hconsistent, hanswers⟩ := hw.requested hr hc
    rcases hconnected with ⟨q, x, hg, hl⟩ | ⟨⟨q, c, hp⟩, hl⟩
    · have hnew : some ⟨q, 0⟩ ∉ (ledger pl v.log).disconnected := fun hmem =>
        hconsistent.new_context hg.newBlock (hconsistent.disconnected _ hmem)
      refine hspent.accepted hg (by rw [hl, Ledger.sessions_accept hnew]) ?_
      simp [turnedDown, hl, hanswers, Ledger.accept, Ledger.answer]
    · refine hspent.rejected hp (by rw [hl]; rfl) ?_
      simp [turnedDown, hl, hanswers, Ledger.reject, Ledger.answer]
  | disconnected hk hopen hctx hat htorn =>
    have hl : ledger pl u.log = (ledger pl w.log).receive pl msg ctx := htorn.2.1.trans hr.ledger
    have hne : kindOf pl msg ≠ lpcConnectionRequest := fun he => not_disconnect_of_request he hk
    refine h.disconnected hw.consistent.entries hr.keeps hopen hat
      (htorn.loses (htorn.closed hA)) ?_ ?_
    · rw [hl, Ledger.sessions_disconnect hk, hctx]
    · simp [turnedDown, hl, Ledger.receive, hne]

theorem round (hA : ∀ w o r, A w o r → closesOpen w o r) (h : Spent pl w₀ w)
    (hw : InOrder pl (endpoint maxLength worker) w)
    (hr : Round pl A maxLength worker w status u) : Spent pl w₀ u := by
  cases hr with
  | failed _ _ hq => exact h.quiet hq
  | handled hrec _ hh => exact h.handled hA hw hrec hh

end Spent

theorem srvServerWorker_spends (hmax : pl.sizeofPortMessage + 8 ≤ maxLength)
    (hhead : AtHead pl maxLength worker w₀ w) (h : Spent pl w₀ w) :
    (srvServerWorker pl maxLength worker).safe (system pl (kernel pl))
      (fun u => u.state.faults = w₀.state.faults)
      (After (fun u => AtHead pl maxLength worker w₀ u ∧ Spent pl w₀ u)
        fun _ => Spent pl w₀) w := by
  refine safe_imp (srvServerWorker_round hmax (fun _ _ _ h => h.1) hhead.toInOrder)
    (fun u hu => hu.trans hhead.faults) ?_
  rintro (_ | status) u - hround
  · obtain ⟨status, hs, hround⟩ := hround
    exact ⟨hhead.next hround hs, h.round (fun _ _ _ h => h.2) hhead.toInOrder hround⟩
  · exact h.round (fun _ _ _ h => h.2) hhead.toInOrder hround.2

-- ---------------------------------------------------------------------------
-- The end of the worker
-- ---------------------------------------------------------------------------

theorem srvServerWorkerEnd_gained (h : Gained P₀ w.state (m :: a :: bs) hs) :
    (srvServerWorkerEnd ⟨port, some ⟨a, 0⟩, some ⟨m, 0⟩⟩ status).safe (system pl A)
      (fun v => v.state.faults = P₀.faults) (fun r v => r = status ∧ Gained P₀ v.state bs hs) w :=
  ⟨h.faults, fun _ _ => ⟨h.free.faults, fun _ _ => ⟨h.free.free.faults, rfl, h.free.free⟩⟩⟩

/-- The channel is opened from `w` to `w₁`; the thread it has created is at
work from `w₀` to `v`, and done in `w'`. -/
structure Lifecycle (pl : Platform) (A : Assumption) (maxLength : Nat) (worker : Worker)
    (w w₁ w₀ v w' : World) : Prop where
  history : w.log = []
  opened : ∃ portName status thread, ntSuccess status = true ∧
    Ends (system pl A) (srvInitializeChannel maxLength portName) w (status, thread) w₁
  started : ∃ port r rest, w₁.log = ⟨.ntCreateThreadEx (.handle port), r⟩ :: rest ∧
    Ends (system pl A) (srvServerWorkerStart maxLength port) w₁ (.ok worker) w₀
  worked : ∃ status returned,
    Left (system pl A) (srvServerWorker pl maxLength worker) w₀ status v ∧
      Ends (system pl A) (srvServerWorkerEnd worker status) v returned w'

/-- The built server never gives back its port and the handle of its thread,
and of the blocks it keeps one for every client that is still connected and
one for every client it has turned down. -/
theorem built_server_lifecycle (hmax : pl.sizeofPortMessage + 8 ≤ maxLength)
    (h : Lifecycle pl (kernel pl) maxLength worker w w₁ w₀ v w') :
    ∃ p t leaked, leaked.length = turnedDown pl v ∧
      Gained w.state w'.state (leaked ++ sessionBlocks (ledger pl v.log).sessions)
        (t :: p :: sessionPorts (ledger pl v.log).sessions) := by
  have hA : ∀ w o r, kernel pl w o r → closesOpen w o r := fun _ _ _ h => h.2
  obtain ⟨portName, status, thread, hs, hends⟩ := h.opened
  obtain ⟨hopened, hl⟩ := safe_ends (srvInitializeChannel_opened hA) hends
  simp only [Opened, hs, if_true] at hopened
  obtain ⟨p, t, r, rest, rfl, hport, hlog, hchannel⟩ := hopened
  obtain ⟨port, r', rest', hlog', hstart⟩ := h.started
  cases hlog.symm.trans hlog'
  obtain ⟨hserving, hl₀, a, m, rfl, hbuffers⟩ := srvServerWorkerStart_serving hport hstart
  have hempty : ledger pl w₀.log = .empty := by rw [hl₀, hl, h.history]; rfl
  have hhead : AtHead pl maxLength _ w₀ w₀ := .start hserving hempty
  obtain ⟨status', returned, hleft, hend⟩ := h.worked
  obtain ⟨leaked, hlength, hserved⟩ : Spent pl w₀ v :=
    hleft.induct ⟨hhead, .start hempty⟩ fun _ hv => srvServerWorker_spends hmax hv.1 hv.2
  let sessions := (ledger pl v.log).sessions
  have hall : Gained w.state v.state (m :: a :: (leaked ++ sessionBlocks sessions))
      (t :: p :: sessionPorts sessions) :=
    ((hchannel.trans hbuffers).trans hserved).perm List.perm_append_comm List.perm_append_comm
  exact ⟨p, t, leaked, hlength, (safe_ends (srvServerWorkerEnd_gained hall) hend).2⟩

def lifeWith (E : Environment) (n : Nat) : Option (Worker × World × World × World × World) :=
  let S := system .x64 (kernel .x64)
  let O := E.oracle .x64 (kernel .x64)
  match (srvInitializeChannel 0xFFFF "port").replay S O ⟨.empty, []⟩ with
  | some ((0, _), ⟨P, ⟨.ntCreateThreadEx (.handle port), r⟩ :: log⟩) =>
    let w₁ : World := ⟨P, ⟨.ntCreateThreadEx (.handle port), r⟩ :: log⟩
    (serveFrom E n port w₁).bind fun served =>
      ((srvServerWorkerEnd served.1 served.2.2.2).replay S O served.2.2.1).map fun ended =>
        (served.1, w₁, served.2.1, served.2.2.1, ended.2)
  | _ => none

theorem lifeWith_lifecycle (h : lifeWith E n = some (worker, w₁, w₀, v, w')) :
    Lifecycle .x64 (kernel .x64) 0xFFFF worker ⟨.empty, []⟩ w₁ w₀ v w' := by
  have hsound : (E.oracle .x64 (kernel .x64)).Sound (system .x64 (kernel .x64)) :=
    Environment.oracle_sound (kernel .x64)
  simp only [lifeWith] at h
  split at h
  · rename_i thread P port r log hopen
    obtain ⟨⟨worker', w₀', v', status⟩, hserve, h⟩ := Option.bind_eq_some_iff.mp h
    obtain ⟨⟨status', w''⟩, hend, he⟩ := Option.map_eq_some_iff.mp h
    cases he
    obtain ⟨hstart, hleft⟩ := serveFrom_left hserve
    exact {
      history := rfl
      opened := ⟨_, _, _, rfl, replay_ends hsound hopen⟩
      started := ⟨port, r, log, rfl, hstart⟩
      worked := ⟨status, status', hleft, replay_ends hsound hend⟩ }
  · cases h

/-- A client is turned down, then the receive fails: its context stays. -/
theorem built_server_lifecycle_refused : ∃ worker w w₁ w₀ v w',
    Lifecycle .x64 (kernel .x64) 0xFFFF worker w w₁ w₀ v w' ∧
      (ledger .x64 v.log).sessions = [] ∧
      ∃ p t q, Gained w.state w'.state [q] [t, p] := by
  have hrun : (lifeWith turningDown 1).any (fun r =>
      turnedDown .x64 r.2.2.2.1 = 1 && (ledger .x64 r.2.2.2.1.log).sessions = []) := by
    decide +kernel
  obtain ⟨⟨worker, w₁, w₀, v, w'⟩, h, hcounts⟩ := (Option.any_eq_true _ _).mp hrun
  simp only [Bool.and_eq_true, decide_eq_true_eq] at hcounts
  obtain ⟨hone, hnone⟩ := hcounts
  have hlife := lifeWith_lifecycle h
  obtain ⟨p, t, leaked, hlength, hgained⟩ := built_server_lifecycle (by decide) hlife
  obtain ⟨q, rfl⟩ := List.length_eq_one_iff.mp (hlength.trans hone)
  rw [hnone] at hgained
  exact ⟨worker, _, w₁, w₀, v, w', hlife, hnone, p, t, q, hgained⟩

end AlpcResearch.Server
