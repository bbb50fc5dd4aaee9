import AlpcResearch.Sessions.Placement
import AlpcResearch.Ua.Service

/-!
# Settling what the kernel holds

The kernel holds a message whose type carries `LPC_CONTINUATION_REQUIRED` until
the server replies to it, answers the connection request it is, or cancels it.
`receipts` lists the messages of a history with what was tried for each before
the next receive. In every run each such message is settled, once, exactly if
every one of them is a request, a datagram or a connection request.
-/

namespace AlpcResearch.Ua

open Resource Program Process

-- ---------------------------------------------------------------------------
-- Messages received and what was tried for them
-- ---------------------------------------------------------------------------

inductive Attempt
  | reply (messageId : Nat)
  | accept (messageId : Nat) (accepted : Bool)
  | reject (messageId : Nat)
  | cancel (portContext : PVoid)
  deriving DecidableEq

def messageIdAt (pl : Platform) (P : Process) (p : PVoid) : Nat :=
  leNat (P.bytesAt (p.map (·.add (PortMessage.offMessageId pl))) 4)

def contextAt (P : Process) (p : PVoid) : PVoid :=
  match P.at? p with
  | some (.attributes _ a) => a.portContext
  | _ => none

/-- The try that the event is, made in the process `P`. -/
def attemptOf (pl : Platform) (P : Process) : Ev → Option Attempt
  | ⟨.alpcSendWaitReceivePort a, _⟩ =>
    if a.sendMessage = none then none else some (.reply (messageIdAt pl P a.sendMessage))
  | ⟨.alpcAcceptConnectPort a, r⟩ =>
    if a.acceptConnection then
      some (.accept (messageIdAt pl P a.connectionRequest) (ntSuccess r.status))
    else some (.reject (messageIdAt pl P a.connectionRequest))
  | ⟨.alpcCancelMessage _ p, _⟩ => some (.cancel (contextAt P p))
  | _ => none

/-- A message received, the port context that came with it, and what was tried
for it, the latest first. -/
structure Receipt where
  message : List UInt8
  portContext : PVoid
  attempts : List Attempt
  deriving DecidableEq

def receivedBy : Ev → Option Receipt
  | ⟨.alpcSendWaitReceivePort a, r⟩ =>
    if Ledger.isReceive a && ntSuccess r.status then some ⟨r.written, r.portContext, []⟩ else none
  | _ => none

/-- What is tried counts for the message received last. -/
def attempted (x : Option Attempt) : List Receipt → List Receipt
  | [] => []
  | rc :: rest => { rc with attempts := x.toList ++ rc.attempts } :: rest

def stateAfter (pl : Platform) (P : Process) : List Ev → Process
  | [] => P
  | e :: log => (stateAfter pl P log).effect pl e.op e.response

def receipts (pl : Platform) (P : Process) : List Ev → List Receipt
  | [] => []
  | e :: log => match receivedBy e with
    | some rc => rc :: receipts pl P log
    | none => attempted (attemptOf pl (stateAfter pl P log) e) (receipts pl P log)

-- ---------------------------------------------------------------------------
-- The obligation
-- ---------------------------------------------------------------------------

def isHeld (pl : Platform) (msg : List UInt8) : Bool :=
  (headerOf pl msg).type &&& lpcContinuationRequired ≠ 0

/-- The dispatcher has a way to settle messages of this kind. -/
def settles (kind : UInt8) : Bool :=
  kind = lpcRequest || kind = lpcDatagram || kind = lpcConnectionRequest

/-- One attempt, and at this message: a rejection after an accept that failed
belongs to it. -/
def Settled (pl : Platform) (rc : Receipt) : Prop :=
  let messageId := (headerOf pl rc.message).messageId
  rc.attempts = [.reply messageId] ∨ rc.attempts = [.cancel rc.portContext] ∨
    kindOf pl rc.message = lpcConnectionRequest ∧ (rc.attempts = [.accept messageId true] ∨
      rc.attempts = [.reject messageId] ∨
      rc.attempts = [.reject messageId, .accept messageId false])

/-- Both replied to and cancelled. -/
def Receipt.Mixed (rc : Receipt) : Prop :=
  (∃ messageId, .reply messageId ∈ rc.attempts) ∧ ∃ ctx, .cancel ctx ∈ rc.attempts

structure SettlementLaw (pl : Platform) (rcs : List Receipt) : Prop where
  settled : ∀ rc ∈ rcs, isHeld pl rc.message = true → Settled pl rc
  unmixed : ∀ rc ∈ rcs, ¬ rc.Mixed

def keepsHeader (pl : Platform) : Assumption
  | _, .onRequest .., r => ∀ i < pl.sizeofPortMessage, r.left i = r.seen i
  | _, _, _ => True

def servedOf : Ev → Option Served
  | ⟨.onRequest .., r⟩ => some r
  | _ => none

theorem keepsHeader_iff {pl : Platform} {w : World} {o : Op} {r : Ret o} : keepsHeader pl w o r ↔
    ∀ s ∈ servedOf ⟨o, r⟩, ∀ i < pl.sizeofPortMessage, s.left i = s.seen i := by
  cases o with
  | onRequest => simp [keepsHeader, servedOf]
  | _ => exact ⟨fun _ _ h => absurd h (Option.not_mem_none _), fun _ => trivial⟩

instance (pl : Platform) (w : World) (o : Op) (r : Ret o) : Decidable (keepsHeader pl w o r) :=
  decidable_of_iff _ keepsHeader_iff.symm

def settlementKernel (pl : Platform) : Assumption :=
  (sessionKernel pl anyDisconnect).and (keepsHeader pl)

instance (pl : Platform) (w : World) (o : Op) (r : Ret o) :
    Decidable (settlementKernel pl w o r) :=
  inferInstanceAs (Decidable ((sessionKernel pl anyDisconnect).and (keepsHeader pl) w o r))

variable {pl : Platform} {server : ServerObject} {w₀ w v u : World} {msg : List UInt8}
variable {ctx : PVoid} {rest : List Receipt} {tries : List Attempt}

-- ---------------------------------------------------------------------------
-- While a message is handled
-- ---------------------------------------------------------------------------

def Record (pl : Platform) (w₀ w : World) (rcs : List Receipt) : Prop :=
  ∃ new, w.log = new ++ w₀.log ∧ w.state = stateAfter pl w₀.state new ∧
    receipts pl w₀.state new = rcs

theorem Record.refl (w : World) : Record pl w w [] := ⟨[], rfl, rfl, rfl⟩

theorem Record.next {o : Op} {r : Ret o} {A : Assumption} (h : Record pl w₀ v rcs)
    (hr : receivedBy ⟨o, r⟩ = none) :
    Record pl w₀ ((system pl A).next v o r) (attempted (attemptOf pl v.state ⟨o, r⟩) rcs) := by
  obtain ⟨new, hlog, hstate, rfl⟩ := h
  refine ⟨⟨o, r⟩ :: new, congrArg (List.cons _) hlog, ?_, ?_⟩
  · exact congrArg (fun P => effect pl P o r) hstate
  · simp only [receipts, hr, ← hstate]

theorem Record.received {o : Op} {r : Ret o} {A : Assumption} (h : Record pl w₀ v rcs)
    (hr : receivedBy ⟨o, r⟩ = some rc) :
    Record pl w₀ ((system pl A).next v o r) (rc :: rcs) := by
  obtain ⟨new, hlog, hstate, rfl⟩ := h
  refine ⟨⟨o, r⟩ :: new, congrArg (List.cons _) hlog, ?_, ?_⟩
  · exact congrArg (fun P => effect pl P o r) hstate
  · simp only [receipts, hr]

structure Handling (pl : Platform) (server : ServerObject) (w₀ : World) (msg : List UInt8)
    (ctx : PVoid) (rest : List Receipt) (tries : List Attempt) (v : World) : Prop where
  placed : Placed pl (endpoint pl server) v
  shows_ : Shows (endpoint pl server) (msg.take pl.sizeofPortMessage) v.state
  carries : Carries (endpoint pl server) ctx v.state
  length : pl.sizeofPortMessage ≤ msg.length
  record : Record pl w₀ v (⟨msg, ctx, tries⟩ :: rest)

theorem receivedBy_spared {o : Op} (ho : (endpoint pl server).Spares o) (r : Ret o) :
    receivedBy ⟨o, r⟩ = none := by
  cases o with
  | alpcSendWaitReceivePort a =>
    have hm : a.receiveMessage = none := ho.1
    simp [receivedBy, Ledger.isReceive, hm]
  | _ => rfl

theorem Handling.next {o : Op} {r : Ret o} {A : Assumption}
    (h : Handling pl server w₀ msg ctx rest tries v) (hr : (system pl A).legal v o r)
    (ho : (endpoint pl server).Spares o) :
    Handling pl server w₀ msg ctx rest ((attemptOf pl v.state ⟨o, r⟩).toList ++ tries)
      ((system pl A).next v o r) where
  placed := h.placed.next ho.leaves hr.1
  shows_ := h.shows_.spared ho hr.1
  carries := h.carries.spared ho hr.1
  length := h.length
  record := h.record.next (receivedBy_spared ho r)

/-- Nothing is tried, and the buffers stay as they are. -/
def Idles (pl : Platform) (server : ServerObject) (o : Op) : Prop :=
  (endpoint pl server).Spares o ∧ ∀ P r, attemptOf pl P ⟨o, r⟩ = none

theorem Handling.idle {o : Op} {r : Ret o} {A : Assumption}
    (h : Handling pl server w₀ msg ctx rest tries v) (hr : (system pl A).legal v o r)
    (ho : Idles pl server o) : Handling pl server w₀ msg ctx rest tries ((system pl A).next v o r) := by
  have hnext := h.next hr ho.1
  rwa [ho.2] at hnext

theorem idle_safe {p : Proc α} {A : Assumption} (hp : p.Uses (Idles pl server))
    (h : Handling pl server w₀ msg ctx rest tries v) :
    p.safe (system pl A) (fun _ => True)
      (fun _ => Handling pl server w₀ msg ctx rest tries) v :=
  safe_of_uses hp (fun _ _ _ ho hr hu => hu.idle hr ho) (fun _ _ => trivial) (fun _ _ hu => hu) h

theorem Handling.messageId (h : Handling pl server w₀ msg ctx rest tries v) :
    messageIdAt pl v.state server.portMessage = (headerOf pl msg).messageId := by
  obtain ⟨q, data, hm, hq, hdata⟩ := h.shows_
  have hid : PortMessage.offMessageId pl + 4 ≤ pl.sizeofPortMessage := messageId_in_header
  have hlen := h.length
  have hm : server.portMessage = some ⟨q, 0⟩ := hm
  have hat : v.state.at? (some ⟨q, 0 + PortMessage.offMessageId pl⟩) = some (.buffer _ data) :=
    at?_live hq
  have hslice := hdata (PortMessage.offMessageId pl) 4 (by simp; omega)
  simp only [messageIdAt, hm, Option.map_some, Ptr.add, Process.bytesAt, hat, headerOf]
  rw [Nat.zero_add, hslice, header_field hid]

theorem Handling.context (h : Handling pl server w₀ msg ctx rest tries v) {p q : Ptr}
    (hq : server.messageAttributes = some q) (hp : p.block = q.block) :
    contextAt v.state (some p) = ctx := by
  obtain ⟨b, size, a, ha, hb, rfl⟩ := h.carries
  cases hq.symm.trans ha
  have hat : v.state.at? (some p) = some (.attributes size a) := at?_live (by rw [hp]; exact hb)
  simp only [contextAt, hat]

theorem Handling.onRequest {r : Served} {A : Assumption}
    (h : Handling pl server w₀ msg ctx rest tries v)
    (hr : (system pl A).legal v (.onRequest procedure server.portMessage) r)
    (hkeep : ∀ i < pl.sizeofPortMessage, r.left i = r.seen i) :
    Handling pl server w₀ msg ctx rest tries
      ((system pl A).next v (.onRequest procedure server.portMessage) r) := by
  obtain ⟨q, data, hm, hq, hdata⟩ := h.shows_
  obtain ⟨b, size, a, ha, hb, hctx⟩ := h.carries
  have hm' : server.portMessage = some ⟨q, 0⟩ := hm
  have hne : b ≠ q := by
    rintro rfl
    simp [hq] at hb
  have hseen : r.seen = data := hr.1.2 _ data (by rw [hm']; exact at?_live hq)
  have hheap : ∀ x, (v.state.effect pl (.onRequest procedure server.portMessage) r).heap.get? x =
      if x = q then some (.buffer _ r.left) else v.state.heap.get? x := fun x => by
    simp only [effect, heapAfter, hm']
    exact Table.get?_modify hq _
  constructor
  case placed => exact h.placed.next trivial hr.1
  case shows_ =>
    refine ⟨q, r.left, hm, (hheap q).trans (if_pos rfl), fun off len hle => ?_⟩
    rw [← hdata off len hle, ← hseen]
    refine Contents.slice_congr fun i hi => hkeep _ ?_
    rw [List.length_take] at hle
    omega
  case carries => exact ⟨b, size, a, ha, (hheap b).trans ((if_neg hne).trans hb), hctx⟩
  case length => exact h.length
  case record => exact h.record.next rfl

-- ---------------------------------------------------------------------------
-- The handlers
-- ---------------------------------------------------------------------------

def Handled (pl : Platform) (server : ServerObject) (w₀ : World) (msg : List UInt8) (ctx : PVoid)
    (rest : List Receipt) (good : List Attempt → Prop) (v : World) : Prop :=
  ∃ tries, Handling pl server w₀ msg ctx rest tries v ∧ good tries

theorem Handling.portMessage (h : Handling pl server w₀ msg ctx rest tries v) :
    server.portMessage ≠ none := by
  obtain ⟨q, hq, -⟩ := h.placed.message
  have hq : server.portMessage = some ⟨q, 0⟩ := hq
  simp [hq]

variable {A : Assumption}

theorem uaAlpcRequest_settles (hA : ∀ w o r, A w o r → settlementKernel pl w o r)
    (h : Handling pl server w₀ msg ctx rest [] v) :
    (uaAlpcRequest server).safe (system pl A) (fun _ => True)
      (fun _ => Handled pl server w₀ msg ctx rest (· = [.reply (headerOf pl msg).messageId])) v := by
  refine ⟨trivial, fun r hr => ?_⟩
  have h₁ := h.onRequest hr (hA _ _ _ hr.2).2
  refine ⟨trivial, fun reply hreply => ⟨trivial, _, h₁.next hreply ⟨rfl, rfl⟩, ?_⟩⟩
  simp only [attemptOf, h₁.portMessage, if_false, h₁.messageId]
  rfl

theorem isHeld_read (h : Handling pl server w₀ msg ctx rest tries v)
    (hbs : v.state.Legal pl (.load server.portMessage PortMessage.offType 2) bs) :
    UInt16.ofNat (leNat bs) = (headerOf pl msg).type := by
  have hread := h.shows_.load hbs (by simpa using ⟨type_in_header, type_in_header.trans h.length⟩)
  rw [hread, header_field type_in_header]
  rfl

theorem uaAlpcDatagram_settles (hA : ∀ w o r, A w o r → settlementKernel pl w o r)
    (h : Handling pl server w₀ msg ctx rest [] v) :
    (uaAlpcDatagram server).safe (system pl A) (fun _ => True)
      (fun _ => Handled pl server w₀ msg ctx rest
        (· = if isHeld pl msg then [.cancel ctx] else [])) v := by
  refine ⟨trivial, fun r hr => ?_⟩
  obtain ⟨p, q, rfl, hq, hblock⟩ :=
    getMessageAttribute_found (fun w o r h => (hA w o r h).1) h.placed.attributes.allocated hr
  have h₁ := h.idle hr ⟨trivial, fun _ _ => rfl⟩
  refine ⟨trivial, fun c hc => ?_⟩
  have h₂ := h₁.idle hc ⟨trivial, fun _ _ => rfl⟩
  refine ⟨trivial, fun bs hbs => ?_⟩
  have h₃ := h₂.idle hbs ⟨trivial, fun _ _ => rfl⟩
  have htype := isHeld_read h₂ hbs.1
  change Prog.safe _ _ (if UInt16.ofNat (leNat bs) &&& lpcContinuationRequired ≠ 0 then _ else _) _ _
  rw [htype]
  by_cases hheld : isHeld pl msg = true
  · have hflag : (headerOf pl msg).type &&& lpcContinuationRequired ≠ 0 := of_decide_eq_true hheld
    rw [if_pos hflag]
    refine ⟨trivial, fun status hs => ⟨trivial, _, h₃.next hs trivial, ?_⟩⟩
    simp only [attemptOf, h₃.context hq hblock, hheld, if_true]
    rfl
  · have hflag : ¬ (headerOf pl msg).type &&& lpcContinuationRequired ≠ 0 :=
      fun hne => hheld (decide_eq_true hne)
    rw [if_neg hflag]
    exact ⟨trivial, _, h₃, by simp [hheld]⟩

theorem uaAlpcDisconnect_settles (hA : ∀ w o r, A w o r → settlementKernel pl w o r)
    (h : Handling pl server w₀ msg ctx rest [] v) (hctx : ctx ∈ (ledger pl v.log).contexts) :
    (uaAlpcDisconnect server).safe (system pl A) (fun _ => True)
      (fun _ => Handled pl server w₀ msg ctx rest (· = [])) v := by
  refine ⟨trivial, fun r hr => ?_⟩
  obtain ⟨p, q, rfl, hq, hblock⟩ :=
    getMessageAttribute_found (fun w o r h => (hA w o r h).1) h.placed.attributes.allocated hr
  have h₁ := h.idle hr ⟨trivial, fun _ _ => rfl⟩
  refine ⟨trivial, fun r hr => ?_⟩
  have hread : r = ctx := h₁.carries.read hq hblock hr.1
  have hapart : (endpoint pl server).Apart r := hread ▸ h.placed.contexts ctx hctx
  refine safe_mono (idle_safe ?_ (h₁.idle hr ⟨trivial, fun _ _ => rfl⟩))
    fun _ u hu => ⟨_, hu, rfl⟩
  exact ⟨⟨trivial, fun _ _ => rfl⟩, fun _ => ⟨⟨trivial, fun _ _ => rfl⟩, fun _ =>
    ⟨⟨hapart, fun _ _ => rfl⟩, fun _ => trivial⟩⟩⟩

def Answers (messageId : Nat) (tries : List Attempt) : Prop :=
  tries = [.accept messageId true] ∨ tries = [.reject messageId] ∨
    tries = [.reject messageId, .accept messageId false]

theorem Handling.reject (h : Handling pl server w₀ msg ctx rest tries v)
    (hr : (system pl A).legal v (.alpcAcceptConnectPort (uaReject server)) r) :
    Handling pl server w₀ msg ctx rest (.reject (headerOf pl msg).messageId :: tries)
      ((system pl A).next v (.alpcAcceptConnectPort (uaReject server)) r) := by
  have hnext := h.next hr ⟨(fun h => by cases h), (fun _ h => by cases h)⟩
  have hattempt : attemptOf pl v.state ⟨.alpcAcceptConnectPort (uaReject server), r⟩ =
      some (.reject (headerOf pl msg).messageId) := by
    simp only [attemptOf, uaReject, Bool.false_eq_true, if_false, h.messageId]
  rwa [hattempt] at hnext

theorem reject_settles (h : Handling pl server w₀ msg ctx rest [] v) :
    (alpcAcceptConnectPort (uaReject server) >>= fun _ => pure statusSuccess).safe (system pl A)
      (fun _ => True) (fun _ => Handled pl server w₀ msg ctx rest
        (Answers (headerOf pl msg).messageId)) v :=
  ⟨trivial, fun _ hr => ⟨trivial, _, h.reject hr, .inr (.inl rfl)⟩⟩

theorem uaAlpcConnect_settles (h : Handling pl server w₀ msg ctx rest [] v) :
    (uaAlpcConnect pl server).safe (system pl A) (fun _ => True)
      (fun _ => Handled pl server w₀ msg ctx rest (Answers (headerOf pl msg).messageId)) v := by
  refine ⟨trivial, fun answer ha => ?_⟩
  have h₁ := h.idle ha ⟨trivial, fun _ _ => rfl⟩
  change Prog.safe _ _ (if answer.accept = true then _ else _) _ _
  split
  swap
  · exact reject_settles h₁
  change Prog.safe _ _ (allocateZeroHeap .crt pl .portContext >>= _) _ _
  rw [allocateZeroHeap_bind]
  refine ⟨trivial, fun r hr => ?_⟩
  have h₂ := h₁.idle hr ⟨trivial, fun _ _ => rfl⟩
  have hapart : (endpoint pl server).Apart r.pointer :=
    apart_allocate h₁.placed.message h₁.placed.attributes hr.1
  cases hp : r.pointer with
  | none =>
    simp only [hp, ne_eq, not_true_eq_false, if_false]
    exact reject_settles h₂
  | some p =>
    rw [hp] at hapart
    simp only [hp, ne_eq, reduceCtorEq, not_false_eq_true, if_true]
    refine ⟨trivial, fun _ hzero => ?_⟩
    have h₃ := h₂.idle hzero ⟨hapart, fun _ _ => rfl⟩
    refine ⟨trivial, fun bs hbs => ?_⟩
    have h₄ := h₃.idle hbs ⟨trivial, fun _ _ => rfl⟩
    refine ⟨trivial, fun _ hset => ?_⟩
    have h₅ := h₄.idle hset ⟨hapart, fun _ _ => rfl⟩
    refine ⟨trivial, fun reply hreply => ?_⟩
    have h₆ := h₅.next hreply ⟨fun _ => hapart, fun _ he => by cases he; exact hapart⟩
    simp only [attemptOf, if_true, h₅.messageId] at h₆
    refine safe_ifFailed (fun hs => ?_) fun hs => ?_
    · exact ⟨trivial, _, h₆, .inl (by rw [hs]; rfl)⟩
    · refine ⟨trivial, fun _ hreject => ?_⟩
      have h₇ := h₆.reject hreject
      refine ⟨trivial, fun _ hfree => ?_⟩
      have h₈ := h₇.idle hfree ⟨hapart, fun _ _ => rfl⟩
      exact ⟨trivial, _, h₈, .inr (.inr (by simp [hs]))⟩

-- ---------------------------------------------------------------------------
-- A round of the worker
-- ---------------------------------------------------------------------------

structure Receipt.Dealt (pl : Platform) (rc : Receipt) : Prop where
  settled : isHeld pl rc.message = true →
    (Settled pl rc ↔ settles (kindOf pl rc.message) = true)
  unmixed : ¬ rc.Mixed

theorem dealt_request (hk : kindOf pl msg = lpcRequest)
    (ht : tries = [.reply (headerOf pl msg).messageId]) : Receipt.Dealt pl ⟨msg, ctx, tries⟩ where
  settled _ := iff_of_true (.inl ht) (by simp [settles, hk])
  unmixed := by simp [Receipt.Mixed, ht]

theorem dealt_datagram (hk : kindOf pl msg = lpcDatagram)
    (ht : tries = if isHeld pl msg then [.cancel ctx] else []) :
    Receipt.Dealt pl ⟨msg, ctx, tries⟩ where
  settled hheld := by
    refine iff_of_true (.inr (.inl ?_)) (by simp [settles, hk])
    simpa only [show isHeld pl msg = true from hheld, if_true] using ht
  unmixed := by
    rintro ⟨⟨id, hid⟩, -⟩
    simp only [ht] at hid
    split at hid <;> simp at hid

theorem dealt_connect (hk : kindOf pl msg = lpcConnectionRequest)
    (ht : Answers (headerOf pl msg).messageId tries) : Receipt.Dealt pl ⟨msg, ctx, tries⟩ where
  settled _ := iff_of_true (.inr (.inr ⟨hk, ht⟩)) (by simp [settles, hk])
  unmixed := by
    rintro ⟨⟨id, hid⟩, -⟩
    rcases ht with rfl | rfl | rfl <;> simp at hid

theorem dealt_idle (hk : settles (kindOf pl msg) = false) : Receipt.Dealt pl ⟨msg, ctx, []⟩ where
  settled _ := by simp [Settled, hk]
  unmixed := by simp [Receipt.Mixed]

/-- Between two rounds: every message received so far has been dealt with. -/
structure Settling (pl : Platform) (server : ServerObject) (w₀ w : World) : Prop where
  placed : Placed pl (endpoint pl server) w
  dealt : ∃ rcs, Record pl w₀ w rcs ∧ ∀ rc ∈ rcs, rc.Dealt pl

theorem Handled.settling {good : List Attempt → Prop}
    (h : Handled pl server w₀ msg ctx rest good u) (hrest : ∀ rc ∈ rest, rc.Dealt pl)
    (hgood : ∀ tries, good tries → Receipt.Dealt pl ⟨msg, ctx, tries⟩) :
    Settling pl server w₀ u := by
  obtain ⟨tries, hu, ht⟩ := h
  refine ⟨hu.placed, _, hu.record, fun rc hrc => ?_⟩
  rcases List.mem_cons.mp hrc with rfl | hrc
  · exact hgood tries ht
  · exact hrest rc hrc

theorem uaDispatch_settles (hA : ∀ w o r, A w o r → settlementKernel pl w o r)
    (h : Handling pl server w₀ msg ctx rest [] v) (hrest : ∀ rc ∈ rest, rc.Dealt pl)
    (hknown : isDisconnect (kindOf pl msg) = true → ctx ∈ (ledger pl v.log).contexts) :
    (uaDispatch pl server (kindOf pl msg)).safe (system pl A) (fun _ => True)
      (fun _ => Settling pl server w₀) v := by
  have idle : ∀ {tries}, settles (kindOf pl msg) = false → tries = [] →
      Receipt.Dealt pl ⟨msg, ctx, tries⟩ := fun hk ht => ht ▸ dealt_idle hk
  refine safe_dispatch (fun hk => ?_) (fun hk => ?_) (fun hk => ?_) (fun hk => ?_)
    fun h₁ h₂ _ h₃ => ?_
  · exact safe_mono (uaAlpcRequest_settles hA h) fun _ u hu =>
      hu.settling hrest fun _ => dealt_request hk
  · exact safe_mono (uaAlpcDatagram_settles hA h) fun _ u hu =>
      hu.settling hrest fun _ => dealt_datagram hk
  · exact safe_mono (uaAlpcDisconnect_settles hA h (hknown hk)) fun _ u hu =>
      hu.settling hrest fun _ => idle (by simp [settles, ne_of_disconnect hk])
  · exact safe_mono (uaAlpcConnect_settles h) fun _ u hu =>
      hu.settling hrest fun _ => dealt_connect hk
  · have hnothing : Handled pl server w₀ msg ctx rest (· = []) v := ⟨[], h, rfl⟩
    exact ⟨trivial, hnothing.settling hrest fun _ => idle (by simp [settles, h₁, h₂, h₃])⟩

theorem isReceive_uaReceive (h : Placed pl (endpoint pl server) w) :
    Ledger.isReceive (uaReceive pl server) = true := by
  obtain ⟨q, hq, -⟩ := h.message
  have hq : server.portMessage = some ⟨q, 0⟩ := hq
  simp [Ledger.isReceive, uaReceive, hq]

theorem handling_receive (h : Settling pl server w₀ w) {r : Reply}
    (hr : (system pl A).legal w (.alpcSendWaitReceivePort (uaReceive pl server)) r)
    (hs : ntSuccess r.status = true) : ∃ rest, (∀ rc ∈ rest, rc.Dealt pl) ∧
      Handling pl server w₀ r.written r.portContext rest []
        ((system pl A).next w (.alpcSendWaitReceivePort (uaReceive pl server)) r) := by
  obtain ⟨rcs, hrecord, hdealt⟩ := h.dealt
  have hreceive := isReceive_uaReceive h.placed
  obtain ⟨q, hq, -⟩ := h.placed.message
  have hlen : pl.sizeofPortMessage ≤ r.written.length := by
    refine hr.1.2.2.2 hs fun hnone => ?_
    cases hq.symm.trans hnone
  obtain ⟨hshows, hcarries⟩ := h.placed.receive r
  refine ⟨rcs, hdealt, h.placed.next trivial hr.1, hshows.take _, hcarries hs, hlen, ?_⟩
  exact hrecord.received (by simp [receivedBy, hreceive, hs])

theorem uaServerWorker_settles (hA : ∀ w o r, A w o r → settlementKernel pl w o r)
    (h : Settling pl server w₀ w) :
    (uaServerWorker pl server).safe (system pl A) (fun _ => True)
      (After (Settling pl server w₀) fun _ => Settling pl server w₀) w := by
  refine ⟨trivial, fun r hr => ?_⟩
  refine safe_ifFailed (fun hs => ?_) fun hs => ?_
  · obtain ⟨rest, hrest, h₁⟩ := handling_receive h hr hs
    have hreceive := isReceive_uaReceive h.placed
    refine safe_bind ⟨trivial, fun bs hbs => ?_⟩
    have h₂ := h₁.idle hbs ⟨trivial, fun _ _ => rfl⟩
    change Prog.safe _ _ (uaDispatch pl server (lobyte (UInt16.ofNat (leNat bs)))) _ _
    rw [isHeld_read h₁ hbs.1]
    refine safe_mono (uaDispatch_settles hA h₂ hrest fun hk => ?_) fun status u hu => ?_
    · have hknown := ((hA _ _ _ hr.2).1 (by simp [hs, hk, hreceive])).1
      have hledger : (ledger pl (⟨.alpcSendWaitReceivePort (uaReceive pl server), r⟩ ::
          w.log)).contexts = (ledger pl w.log).contexts := by
        simp [ledger, Ledger.add, hreceive, hs]
      exact hledger ▸ hknown
    · split <;> exact ⟨trivial, hu⟩
  · obtain ⟨rcs, hrecord, hdealt⟩ := h.dealt
    refine ⟨trivial, h.placed.next trivial hr.1, _, hrecord.next (by simp [receivedBy, hs]), ?_⟩
    have hnone : attemptOf pl w.state ⟨.alpcSendWaitReceivePort (uaReceive pl server), r⟩ = none := by
      simp [attemptOf, uaReceive]
    rw [hnone]
    intro rc hrc
    cases rcs with
    | nil => simp [attempted] at hrc
    | cons rc' rest => exact hdealt rc (by simpa [attempted] using hrc)

-- ---------------------------------------------------------------------------
-- Runs
-- ---------------------------------------------------------------------------

theorem Started.settling (h : Started pl A server w₀) : Settling pl server w₀ w₀ where
  placed := by
    have hserving := h.head.consistent.serving
    obtain ⟨q, data, hm, hq⟩ := hserving.message
    refine ⟨⟨q, hm, layoutOf_get? hq⟩, hserving.attributes, ?_⟩
    simp [h.ledger, Ledger.empty, Ledger.contexts]
  dealt := ⟨[], .refl w₀, by simp⟩

def received (pl : Platform) (w₀ w : World) : List Receipt :=
  receipts pl w₀.state (newEvents w₀ w)

theorem Settling.dealt_received (h : Settling pl server w₀ w) :
    ∀ rc ∈ received pl w₀ w, rc.Dealt pl := by
  obtain ⟨rcs, ⟨new, hlog, -, rfl⟩, hdealt⟩ := h.dealt
  rwa [received, newEvents_eq hlog]

/-- At each receive, and when the loop has been left, every message that the
kernel held has been settled by one attempt exactly if all of these are of a
kind that the dispatcher settles. -/
theorem settlement_iff (hs : Started pl (settlementKernel pl) server w₀)
    (hrun : Head (system pl (settlementKernel pl)) (uaServerWorker pl server) w₀ w ∨
      ∃ status, Left (system pl (settlementKernel pl)) (uaServerWorker pl server) w₀ status w) :
    SettlementLaw pl (received pl w₀ w) ↔ ∀ rc ∈ received pl w₀ w,
      isHeld pl rc.message = true → settles (kindOf pl rc.message) = true := by
  have round := fun v (hv : Settling pl server w₀ v) =>
    uaServerWorker_settles (A := settlementKernel pl) (fun _ _ _ h => h) hv
  have hsettling : Settling pl server w₀ w := by
    rcases hrun with hhead | ⟨status, hleft⟩
    · exact hhead.induct hs.settling round
    · exact hleft.induct hs.settling round
  have hdealt := hsettling.dealt_received
  constructor
  · exact fun law rc hrc hheld => ((hdealt rc hrc).settled hheld).mp (law.settled rc hrc hheld)
  · intro hkinds
    exact {
      settled := fun rc hrc hheld => ((hdealt rc hrc).settled hheld).mpr (hkinds rc hrc hheld)
      unmixed := fun rc hrc => (hdealt rc hrc).unmixed }

def heldMessage (type : UInt8) : Outcome where
  message := [0, 0, 40, 0, type, 0x20] ++ List.replicate 34 0

/-- A held request and a held datagram. -/
theorem settlement_iff_requested : ∃ server w₀ w,
    Head (system .x64 (settlementKernel .x64)) (uaServerWorker .x64 server) w₀ w ∧
      (received .x64 w₀ w).length = 2 ∧
      (SettlementLaw .x64 (received .x64 w₀ w) ↔ ∀ rc ∈ received .x64 w₀ w,
        isHeld .x64 rc.message = true → settles (kindOf .x64 rc.message) = true) := by
  have hrun : (serve (settlementKernel .x64) [heldMessage lpcRequest, heldMessage lpcDatagram]
      2).any (fun r => (received .x64 r.2.1 r.2.2).length = 2) := by decide +kernel
  obtain ⟨⟨server, w₀, w⟩, h, hlen⟩ := (Option.any_eq_true _ _).mp hrun
  obtain ⟨hs, hhead⟩ := serve_head h
  exact ⟨server, w₀, w, hhead, by simpa using hlen, settlement_iff hs (.inl hhead)⟩

/-- `LPC_LOST_REPLY`, which the dispatcher does not know. -/
theorem settlement_forgets : ∃ server w₀ w,
    Started .x64 (settlementKernel .x64) server w₀ ∧
      Head (system .x64 (settlementKernel .x64)) (uaServerWorker .x64 server) w₀ w ∧
      ¬ SettlementLaw .x64 (received .x64 w₀ w) := by
  have hrun : (serve (settlementKernel .x64) [heldMessage 4] 1).any (fun r =>
      (received .x64 r.2.1 r.2.2).any fun rc => isHeld .x64 rc.message && rc.attempts.isEmpty) := by
    decide +kernel
  obtain ⟨⟨server, w₀, w⟩, h, hbad⟩ := (Option.any_eq_true _ _).mp hrun
  obtain ⟨hs, hhead⟩ := serve_head h
  obtain ⟨rc, hrc, hbad⟩ := List.any_eq_true.mp hbad
  simp only [Bool.and_eq_true, List.isEmpty_iff] at hbad
  refine ⟨server, w₀, w, hs, hhead, fun law => ?_⟩
  have hsettled := law.settled rc hrc hbad.1
  simp [Settled, hbad.2] at hsettled

end AlpcResearch.Ua
