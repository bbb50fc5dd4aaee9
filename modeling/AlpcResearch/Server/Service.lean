import AlpcResearch.Process.Gained
import AlpcResearch.Process.Script
import AlpcResearch.Server.Handlers

/-!
# The loop of `SrvServerWorker`

Whatever a handler returns decides whether the loop goes on for everybody. At
every receive each connection request has been answered, and the loop is left
with a receive that failed exactly in the runs where no reply, no context
allocation and no reject failed.
-/

namespace AlpcResearch.Server

open Resource Program Process

variable {pl : Platform} {A : Assumption} {maxLength : Nat} {worker : Worker}
variable {w₀ w v u : World} {msg : List UInt8} {ctx : PVoid} {status : NtStatus}

structure AtHead (pl : Platform) (maxLength : Nat) (worker : Worker) (w₀ w : World) : Prop
    extends InOrder pl (endpoint maxLength worker) w where
  faults : w.state.faults = w₀.state.faults
  granted : Adds Granted w₀ w

def ReceiveFailed (maxLength : Nat) (worker : Worker) (w : World) : Prop :=
  ∃ r rest, w.log = ⟨.alpcSendWaitReceivePort (srvReceive maxLength worker), r⟩ :: rest ∧
    ntSuccess r.status = false

/-- A call failed for a client, and nothing happened after it. -/
def RefusedSince (w₀ w : World) : Prop := ∃ v, w₀.log <:+ v.log ∧ Refused v w

-- ---------------------------------------------------------------------------
-- What a round comes to
-- ---------------------------------------------------------------------------

/-- What the handling of a message comes to, from `v` to `u`: nothing for the
connections, an answer to a connection request or none, a connection less. -/
inductive Handled (pl : Platform) (A : Assumption) (msg : List UInt8) (ctx : PVoid) (w v : World)
    (status : NtStatus) (u : World) : Prop
  | quiet : ¬ isDisconnect (kindOf pl msg) = true → kindOf pl msg ≠ lpcConnectionRequest →
      Settled v status u → Quiet pl v u → Handled pl A msg ctx w v status u
  | connected : kindOf pl msg = lpcConnectionRequest → Settled v status u → Connected pl v u →
      Handled pl A msg ctx w v status u
  | unanswered : kindOf pl msg = lpcConnectionRequest → Settled v status u →
      ntSuccess status = false → Quiet pl v u → Handled pl A msg ctx w v status u
  | disconnected : isDisconnect (kindOf pl msg) = true → s ∈ (ledger pl w.log).sessions →
      s.context = ctx → s.At q x → TornDown pl A q x v status u → Adds Granted v u →
      Handled pl A msg ctx w v status u

/-- A round of the worker: its receive has failed, or a message was handled. -/
inductive Round (pl : Platform) (A : Assumption) (maxLength : Nat) (worker : Worker) (w : World) :
    NtStatus → World → Prop
  | failed {u : World} {r : Reply} :
      u.log = ⟨.alpcSendWaitReceivePort (srvReceive maxLength worker), r⟩ :: w.log →
      ntSuccess r.status = false → Quiet pl w u → Round pl A maxLength worker w r.status u
  | handled {msg : List UInt8} {ctx : PVoid} {v u : World} {status : NtStatus} :
      Received pl (endpoint maxLength worker) msg ctx w v → Adds Granted w v →
      Handled pl A msg ctx w v status u → Round pl A maxLength worker w status u

theorem srvDispatch_handles (hmax : pl.sizeofPortMessage + 8 ≤ maxLength)
    (hA : ∀ w o r, A w o r → sessionKernel pl oncePerConnection w o r)
    (h : InOrder pl (endpoint maxLength worker) w)
    (hr : Received pl (endpoint maxLength worker) msg ctx w v)
    (hq : worker.messageAttributes = some b) (hblock : p.block = b.block)
    (hknown : isDisconnect (kindOf pl msg) = true →
      ctx ∈ (ledger pl w.log).contexts ∧ ctx ∉ (ledger pl w.log).disconnected) :
    (srvDispatch pl maxLength worker (some p) (kindOf pl msg)).safe (system pl A)
      (fun u => u.state.faults = w.state.faults) (Handled pl A msg ctx w v) v := by
  have hserving : Serving (endpoint maxLength worker) v.state := h.consistent.serving.keeps hr.keeps
  have hfaults : v.state.faults = w.state.faults := hr.keeps.faults
  have hm : worker.portMessage ≠ none := hserving.message_ne
  refine safe_dispatch (fun he => ?_) (fun he => ?_) (fun hk => ?_) (fun he => ?_)
    fun _ _ hk he => ?_
  · refine safe_imp (onAlpcRequest_safe hmax hserving hm) (fun u hu => hu.trans hfaults) ?_
    rintro status u - ⟨hs, hquiet⟩
    exact .quiet (by rw [he]; decide) (by rw [he]; decide) hs hquiet
  · refine safe_imp (datagramCase_safe hmax hserving hq hblock) (fun u hu => hu.trans hfaults) ?_
    rintro status u - ⟨⟨hs, hquiet⟩, hadds⟩
    exact .quiet (by rw [he]; decide) (by rw [he]; decide) (.of_success hs hadds) hquiet
  · obtain ⟨s, hopen, rfl, q, x, hat, hq, hx⟩ :=
      (h.consistent.keeps hr.keeps).named (hknown hk).1 (hknown hk).2
    refine safe_imp (onAlpcDisconnection_safe (fun _ _ _ h => once_any (hA _ _ _ h)) hserving
      (hat.context ▸ hr.carries) hq hx) (fun u hu => hu.trans hfaults) ?_
    rintro status u - ⟨htorn, hadds⟩
    exact .disconnected hk hopen rfl hat htorn hadds
  · have hmessage : (ledger pl v.log).message = msg := by rw [hr.ledger]; rfl
    refine safe_imp (onAlpcConnection_safe hmax hserving (hmessage ▸ hr.shows_)
      (hmessage ▸ hr.length)) (fun u hu => hu.trans hfaults) ?_
    rintro status u - ⟨hs, hconnected | ⟨hf, hquiet⟩⟩
    · exact .connected he hs hconnected
    · exact .unanswered he hs hf hquiet
  · exact ⟨hfaults, .quiet hk he (.of_success rfl (.refl v)) (.refl v)⟩

/-- The status of the round decides whether there is another one. -/
theorem srvServerWorker_round (hmax : pl.sizeofPortMessage + 8 ≤ maxLength)
    (hA : ∀ w o r, A w o r → sessionKernel pl oncePerConnection w o r)
    (h : InOrder pl (endpoint maxLength worker) w) :
    (srvServerWorker pl maxLength worker).safe (system pl A)
      (fun u => u.state.faults = w.state.faults)
      (After (fun u => ∃ status, ntSuccess status = true ∧ Round pl A maxLength worker w status u)
        fun status u => ntSuccess status = false ∧ Round pl A maxLength worker w status u) w := by
  have hserving := h.consistent.serving
  refine ⟨rfl, fun r hr => ?_⟩
  have hreceive : Granted ⟨.alpcSendWaitReceivePort (srvReceive maxLength worker), r⟩ := .inl rfl
  refine safe_ifFailed (fun hs => ?_) fun hs => ?_
  · have hrec := received (A := A) hserving hr.1 hs
    have hgranted := (Adds.refl w).next (S := system pl A) hreceive
    refine safe_bind ⟨hrec.keeps.faults, fun found hfind => ?_⟩
    have hserving₁ := hserving.keeps hrec.keeps
    obtain ⟨p, b, rfl, hq, hblock⟩ := getMessageAttribute_found
      (fun _ _ _ h => once_any (hA _ _ _ h)) hserving₁.allocated hfind
    have hrec₂ := hrec.of_state (A := A)
      (effect_getMessageAttribute pl alpcMessageContextAttribute hserving₁ (some p)) fun _ => rfl
    refine ⟨hrec₂.keeps.faults, fun bs hbs => ?_⟩
    have hkind := hrec₂.kind hbs.1
    have hrec₃ := hrec₂.of_state (A := A)
      (effect_load pl (hserving.keeps hrec₂.keeps) (type_inside hmax worker) bs) fun _ => rfl
    have hgranted₃ := (hgranted.next (S := system pl A) (r := some p)
      (o := .alpcGetMessageAttribute worker.messageAttributes alpcMessageContextAttribute)
      trivial).next (S := system pl A) (r := bs)
      (o := .load worker.portMessage PortMessage.offType 2) trivial
    change Prog.safe _ _ (srvDispatch pl maxLength worker (some p)
      (lobyte (UInt16.ofNat (leNat bs)))) _ _
    rw [hkind]
    refine safe_imp (srvDispatch_handles hmax hA h hrec₃ hq hblock fun hk => ?_) (fun _ hu => hu) ?_
    · have hisReceive : Ledger.isReceive (srvReceive maxLength worker) = true :=
        Endpoint.receives hserving
      have hknown := hA _ _ _ hr.2 (by simp [hs, hk, hisReceive])
      exact ⟨hknown.1, by simpa [oncePerConnection] using hknown.2⟩
    · intro status u hu hhandled
      have hround : Round pl A maxLength worker w status u := .handled hrec₃ hgranted₃ hhandled
      by_cases hsuccess : ntSuccess status = true
      · simp only [hsuccess, Bool.not_true, Bool.false_eq_true, if_false]
        exact ⟨hu, status, hsuccess, hround⟩
      · simp only [hsuccess, Bool.not_false, if_true]
        exact ⟨hu, by simpa using hsuccess, hround⟩
  · have hq : Quiet pl w ((system pl A).next w
        (.alpcSendWaitReceivePort (srvReceive maxLength worker)) r) :=
      receive_failed hserving hr.1 hs
    have hfailed : ntSuccess r.status = false := by simpa using hs
    exact ⟨hq.1.faults, hfailed, .failed rfl hfailed hq⟩

/-- A handler that succeeds leaves the connections in order, without a fault. -/
theorem Handled.inOrder (h : InOrder pl (endpoint maxLength worker) w)
    (hr : Received pl (endpoint maxLength worker) msg ctx w v)
    (hh : Handled pl A msg ctx w v status u) (hsuccess : ntSuccess status = true) :
    InOrder pl (endpoint maxLength worker) u ∧ u.state.faults = w.state.faults := by
  cases hh with
  | quiet hk hc _ hq => exact ⟨h.quiet hr hk hc hq, hq.1.faults.trans hr.keeps.faults⟩
  | connected hc _ hconnected =>
    rcases hconnected with ⟨q, x, hg, hl⟩ | ⟨⟨q, c, hp⟩, hl⟩
    · exact ⟨h.accepted hr hc hg hl, hg.faults.trans hr.keeps.faults⟩
    · exact ⟨h.rejected hr hc ((h.requested hr hc).1.pending hp) hl, hp.faults.trans hr.keeps.faults⟩
  | unanswered _ _ hf => cases hsuccess.symm.trans hf
  | disconnected hk hopen hctx hat htorn =>
    have hloss := htorn.loses hsuccess
    exact ⟨h.disconnected hr hk hopen hctx hat hloss htorn.2.1, hloss.faults.trans hr.keeps.faults⟩

theorem Handled.granted (hh : Handled pl A msg ctx w v status u) (hsuccess : ntSuccess status = true) :
    Adds Granted v u := by
  cases hh with
  | quiet _ _ hs | connected _ hs | unanswered _ hs => exact hs.granted hsuccess
  | disconnected _ _ _ _ _ hadds => exact hadds

theorem Handled.refused (hA : ∀ w o r, A w o r → closesOpen w o r)
    (hh : Handled pl A msg ctx w v status u) (hf : ntSuccess status = false) : Refused v u := by
  cases hh with
  | quiet _ _ hs | connected _ hs | unanswered _ hs => exact hs.refused hf
  | disconnected _ _ _ _ htorn => cases hf.symm.trans (htorn.closed hA)

-- ---------------------------------------------------------------------------
-- The loop
-- ---------------------------------------------------------------------------

abbrev kernel (pl : Platform) : Assumption := (sessionKernel pl oncePerConnection).and closesOpen

def LeftBy (pl : Platform) (maxLength : Nat) (worker : Worker) (w₀ w : World) : Prop :=
  ReceiveFailed maxLength worker w ∧ AtHead pl maxLength worker w₀ w ∨ RefusedSince w₀ w

theorem AtHead.next (h : AtHead pl maxLength worker w₀ w)
    (hr : Round pl A maxLength worker w status u) (hs : ntSuccess status = true) :
    AtHead pl maxLength worker w₀ u := by
  cases hr with
  | failed _ hf => cases hs.symm.trans hf
  | handled hrec hgranted hh =>
    obtain ⟨horder, hfaults⟩ := hh.inOrder h.toInOrder hrec hs
    exact ⟨horder, hfaults.trans h.faults, (h.granted.trans hgranted).trans (hh.granted hs)⟩

theorem AtHead.left (hA : ∀ w o r, A w o r → closesOpen w o r) (h : AtHead pl maxLength worker w₀ w)
    (hr : Round pl A maxLength worker w status u) (hf : ntSuccess status = false) :
    LeftBy pl maxLength worker w₀ u := by
  cases hr with
  | @failed u r hlog _ hq =>
    refine .inl ⟨⟨r, w.log, hlog, hf⟩, h.toInOrder.still hq, hq.1.faults.trans h.faults, ?_⟩
    obtain ⟨new, hnew, hgranted⟩ := h.granted
    refine ⟨⟨.alpcSendWaitReceivePort (srvReceive maxLength worker), r⟩ :: new, ?_, ?_⟩
    · rw [hlog, hnew, List.cons_append]
    · rintro e (_ | ⟨_, he⟩)
      · exact .inl rfl
      · exact hgranted e he
  | handled _ hgranted hh =>
    obtain ⟨new, hlog, -⟩ := h.granted.trans hgranted
    exact .inr ⟨_, ⟨new, hlog.symm⟩, hh.refused hA hf⟩

theorem srvServerWorker_safe (hmax : pl.sizeofPortMessage + 8 ≤ maxLength)
    (h : AtHead pl maxLength worker w₀ w) :
    (srvServerWorker pl maxLength worker).safe (system pl (kernel pl))
      (fun u => u.state.faults = w₀.state.faults)
      (After (AtHead pl maxLength worker w₀) fun _ => LeftBy pl maxLength worker w₀) w := by
  refine safe_imp (srvServerWorker_round hmax (fun _ _ _ h => h.1) h.toInOrder)
    (fun u hu => hu.trans h.faults) ?_
  rintro (_ | status) u - hround
  · obtain ⟨status, hs, hround⟩ := hround
    exact h.next hround hs
  · exact h.left (fun _ _ _ h => h.2) hround.2 hround.1

-- ---------------------------------------------------------------------------
-- The start
-- ---------------------------------------------------------------------------

/-- A worker about to enter its loop on an open connection port, with nothing
before it in the history. -/
def Started (pl : Platform) (A : Assumption) (maxLength : Nat) (worker : Worker) (w₀ : World) :
    Prop :=
  ∃ w port, w.log = [] ∧ w.state.handles.get? port = some .connectionPort ∧
    Ends (system pl A) (srvServerWorkerStart maxLength (some port)) w (.ok worker) w₀

/-- `RtAllocateZeroHeap`: nothing, or a new block of zeros. -/
theorem ends_allocate {f : PVoid → Proc α}
    (h : Ends (system pl A) (allocate .processHeap layout >>= f) w a w') :
    (∃ v, Ends (system pl A) (f none) v a w') ∨
      ∃ (q : Ref) (v : World), Ends (system pl A) (f (some ⟨q, 0⟩)) v a w' ∧
        NewBlock w.state v.state q (.zeroed layout) ∧ ledger pl v.log = ledger pl w.log := by
  obtain ⟨r, hr, h⟩ := ends_call.mp h
  have h : Ends (system pl A) (f r.pointer) _ a w' := h
  cases hp : r.pointer with
  | none => exact .inl ⟨_, hp ▸ h⟩
  | some p =>
    obtain ⟨q, rfl, hnew⟩ := newBlock_allocate hr.1 hp
    have hzero : r.residue = .zeroed layout := hr.1.2.2.1 nofun
    exact .inr ⟨q, (system pl A).next w _ r, hp ▸ h, hzero ▸ hnew, rfl⟩

theorem srvServerWorkerStart_serving (hp : w.state.handles.get? port = some .connectionPort)
    (h : Ends (system pl A) (srvServerWorkerStart maxLength (some port)) w (.ok worker) w₀) :
    Serving (endpoint maxLength worker) w₀.state ∧ ledger pl w₀.log = ledger pl w.log ∧
      ∃ a m, worker = ⟨some port, some ⟨a, 0⟩, some ⟨m, 0⟩⟩ ∧
        Gained w.state w₀.state [m, a] [] := by
  unfold srvServerWorkerStart at h
  obtain ⟨size, -, h⟩ := ends_op_bind.mp h
  obtain ⟨v, h⟩ | ⟨a, w₁, h, n₁, l₁⟩ := ends_allocate h
  · cases (ends_ret.mp h).1
  simp only [reduceCtorEq, if_false] at h
  obtain ⟨status, -, h⟩ := ends_op_bind.mp h
  by_cases hs : ntSuccess status = true
  swap
  · simp only [hs, Bool.not_false, if_true] at h
    obtain ⟨_, -, h⟩ := ends_op_bind.mp h
    cases (ends_ret.mp h).1
  simp only [hs, Bool.not_true, Bool.false_eq_true, if_false] at h
  let mask := alpcMessageViewAttribute ||| alpcMessageContextAttribute
  have n₁' := n₁.modify pl (f := .setAllocatedAttributes mask)
    (o := .alpcInitializeMessageAttribute mask (some ⟨a, 0⟩) size) (r := status)
    (effect_heap (by simp only [heapAfter, hs]; rfl) rfl (structFault_live n₁.block))
  obtain ⟨v, h⟩ | ⟨m, w₂, h, n₂, l₂⟩ := ends_allocate h
  · simp only [if_true] at h
    obtain ⟨_, -, h⟩ := ends_op_bind.mp h
    cases (ends_ret.mp h).1
  simp only [reduceCtorEq, if_false] at h
  obtain ⟨he, rfl⟩ := ends_ret.mp h
  cases he
  refine ⟨?_, l₂.trans l₁, a, m, rfl, n₁'.gained.trans n₂.gained⟩
  constructor
  case message => exact ⟨m, fun _ => 0, rfl, n₂.block⟩
  case attributes => exact ⟨a, size, ⟨mask, none⟩, rfl, n₂.other n₁'.block, by decide⟩
  case port =>
    exact ⟨port, rfl, (n₂.handles port).trans ((n₁'.handles port).trans hp)⟩

theorem AtHead.start (h : Serving (endpoint maxLength worker) w₀.state)
    (hl : ledger pl w₀.log = .empty) : AtHead pl maxLength worker w₀ w₀ where
  consistent := hl ▸ .start h
  answered := by simp [hl, Ledger.empty]
  faults := rfl
  granted := .refl w₀

theorem Started.head (h : Started pl A maxLength worker w₀) :
    AtHead pl maxLength worker w₀ w₀ := by
  obtain ⟨w, port, hlog, hport, hends⟩ := h
  obtain ⟨hserving, hl, -⟩ := srvServerWorkerStart_serving hport hends
  exact .start hserving (by rw [hl, hlog]; rfl)

-- ---------------------------------------------------------------------------
-- Who can stop the server
-- ---------------------------------------------------------------------------

/-- Each connection request has been answered by an accept or a reject. -/
def AllAnswered (pl : Platform) (w : World) : Prop := ∀ a ∈ (ledger pl w.log).answers, a ≠ (0, 0)

theorem AtHead.allAnswered (h : AtHead pl maxLength worker w₀ w) : AllAnswered pl w := by
  intro a ha
  rcases h.answered a ha with rfl | rfl <;> decide

theorem RefusedSince.not_granted (h : RefusedSince w₀ w) : ¬ ∀ e ∈ newEvents w₀ w, Granted e := by
  obtain ⟨v, ⟨new, hv⟩, e, new', hw, he⟩ := h
  have hlog : w.log = (e :: new' ++ new) ++ w₀.log := by simp [hw, ← hv]
  rw [newEvents_eq hlog]
  exact fun hall => he (hall e (by simp))

theorem RefusedSince.not_receive (h : RefusedSince w₀ w) : ¬ ReceiveFailed maxLength worker w := by
  obtain ⟨v, -, e, new, hw, he⟩ := h
  rintro ⟨r, rest, hlog, -⟩
  cases hw.symm.trans hlog
  exact he (.inl rfl)

/-- At every receive everybody has been answered; the loop ends with a receive
that failed, and everybody answered, exactly if no reply, no context
allocation and no reject has failed. -/
theorem loop_left_iff (hmax : pl.sizeofPortMessage + 8 ≤ maxLength)
    (hs : Started pl (kernel pl) maxLength worker w₀) :
    (∀ w, Head (system pl (kernel pl)) (srvServerWorker pl maxLength worker) w₀ w →
        AllAnswered pl w) ∧
      ∀ status w, Left (system pl (kernel pl)) (srvServerWorker pl maxLength worker) w₀ status w →
        (ReceiveFailed maxLength worker w ∧ AllAnswered pl w ↔
          ∀ e ∈ newEvents w₀ w, Granted e) := by
  constructor
  · intro w h
    exact (h.induct hs.head fun _ hv => srvServerWorker_safe hmax hv).allAnswered
  · intro status w h
    rcases h.induct hs.head (fun _ hv => srvServerWorker_safe hmax hv) with
      ⟨hreceive, hhead⟩ | hrefused
    · obtain ⟨new, hlog, hnew⟩ := hhead.granted
      rw [newEvents_eq hlog]
      exact ⟨fun _ => hnew, fun _ => ⟨hreceive, hhead.allAnswered⟩⟩
    · exact ⟨fun h => absurd h.1 hrefused.not_receive, fun h => absurd h hrefused.not_granted⟩

-- ---------------------------------------------------------------------------
-- Two runs
-- ---------------------------------------------------------------------------

def withPort : World where
  state := { Process.empty with handles := Table.empty.acquire 0 .connectionPort }
  log := []

/-- The worker's start, `n` rounds, and the round in which the loop is left. -/
def serveFrom (E : Environment) (n : Nat) (port : Handle) (u : World) :
    Option (Worker × World × World × NtStatus) :=
  let S := system .x64 (kernel .x64)
  let O := E.oracle .x64 (kernel .x64)
  match (srvServerWorkerStart 0xFFFF port).replay S O u with
  | some (.ok worker, w₀) => match rounds S O (srvServerWorker .x64 0xFFFF worker) n w₀ with
    | some w => match (srvServerWorker .x64 0xFFFF worker).replay S O w with
      | some (.leave status, w') => some (worker, w₀, w', status)
      | _ => none
    | none => none
  | _ => none

theorem serveFrom_left (h : serveFrom E n port u = some (worker, w₀, w, status)) :
    Ends (system .x64 (kernel .x64)) (srvServerWorkerStart 0xFFFF port) u (.ok worker) w₀ ∧
      Left (system .x64 (kernel .x64)) (srvServerWorker .x64 0xFFFF worker) w₀ status w := by
  have hsound : (E.oracle .x64 (kernel .x64)).Sound (system .x64 (kernel .x64)) :=
    Environment.oracle_sound (kernel .x64)
  simp only [serveFrom] at h
  split at h
  · rename_i worker' v₀ hstart
    split at h
    · rename_i v hv
      split at h
      · rename_i status' v' hleave
        cases h
        exact ⟨replay_ends hsound hstart, v, rounds_head hsound hv, replay_ends hsound hleave⟩
      · cases h
    · cases h
  · cases h

def serveUntil (E : Environment) (n : Nat) : Option (Worker × World × World × NtStatus) :=
  serveFrom E n (some ⟨0, 0⟩) withPort

theorem serveUntil_left (h : serveUntil E n = some (worker, w₀, w, status)) :
    Started .x64 (kernel .x64) 0xFFFF worker w₀ ∧
      Left (system .x64 (kernel .x64)) (srvServerWorker .x64 0xFFFF worker) w₀ status w := by
  obtain ⟨hstart, hleft⟩ := serveFrom_left h
  exact ⟨⟨withPort, ⟨0, 0⟩, rfl, rfl, hstart⟩, hleft⟩

def messageOf (type : UInt8) : Outcome where
  message := [0, 0, 40, 0, type, 0] ++ List.replicate 34 0

/-- One client connects, then the receive fails. -/
theorem loop_left_iff_calm : ∃ worker w₀ w status,
    Left (system .x64 (kernel .x64)) (srvServerWorker .x64 0xFFFF worker) w₀ status w ∧
      (ledger .x64 w.log).sessions.length = 1 ∧
      (ReceiveFailed 0xFFFF worker w ∧ AllAnswered .x64 w ↔ ∀ e ∈ newEvents w₀ w, Granted e) := by
  have hrun : (serveUntil (.visitedBy [messageOf lpcConnectionRequest]) 1).any
      (fun r => (ledger .x64 r.2.2.1.log).sessions.length = 1) := by decide +kernel
  obtain ⟨⟨worker, w₀, w, status⟩, h, hlen⟩ := (Option.any_eq_true _ _).mp hrun
  obtain ⟨hs, hleft⟩ := serveUntil_left h
  exact ⟨worker, w₀, w, status, hleft, by simpa using hlen,
    (loop_left_iff (by decide) hs).2 status w hleft⟩

def lastIsReply (w : World) : Bool :=
  match w.log with
  | ⟨.alpcSendWaitReceivePort a, _⟩ :: _ => a.sendMessage.isSome
  | _ => false

/-- A client is gone when its request is answered: the reply fails, and the
loop is left for everybody. -/
theorem loop_left_on_reply : ∃ worker w₀ w status,
    Started .x64 (kernel .x64) 0xFFFF worker w₀ ∧
      Left (system .x64 (kernel .x64)) (srvServerWorker .x64 0xFFFF worker) w₀ status w ∧
      ¬ (ReceiveFailed 0xFFFF worker w ∧ AllAnswered .x64 w) := by
  have hrun : (serveUntil (.failing (.visitedBy [messageOf lpcRequest]) .send) 0).any
      (fun r => lastIsReply r.2.2.1) := by decide +kernel
  obtain ⟨⟨worker, w₀, w, status⟩, h, hreply⟩ := (Option.any_eq_true _ _).mp hrun
  obtain ⟨hs, hleft⟩ := serveUntil_left h
  refine ⟨worker, w₀, w, status, hs, hleft, ?_⟩
  rintro ⟨⟨r, rest, hlog, -⟩, -⟩
  simp [lastIsReply, hlog, srvReceive] at hreply

end AlpcResearch.Server
