import AlpcResearch.Program.Traces
import AlpcResearch.Server.Service
import AlpcResearch.Sessions.Placement

/-!
# What the server reports of a message

`OnAlpcRequest` and `OnAlpcDatagram` read eight bytes behind the header,
however long the message is; the bytes a short message does not bring are those
an earlier one has left in the buffer. What is reported of a message is the
same after every two histories exactly if the message brings eight bytes, or
nothing it could be completed to is reported.
-/

namespace AlpcResearch.Server

open Resource Program Process

-- ---------------------------------------------------------------------------
-- Reports
-- ---------------------------------------------------------------------------

def printed : Ev → Option (String × Int)
  | ⟨.printf text counter, _⟩ => some (text, counter)
  | _ => none

def reportText (kind : UInt8) : String :=
  if kind = lpcRequest then "Request Receive Counter %lld.\n"
  else "Datagram Receive Counter %lld.\n"

/-- What is printed for a counter of the eight bytes `bs`. -/
def reportOf (kind : UInt8) (bs : List UInt8) : List (String × Int) :=
  if isReported (quadPart bs) then [(reportText kind, quadPart bs)] else []

/-- In some run from `w₀` the worker receives `msg`, and what it prints for it
is `out`. -/
def ReportedAs (pl : Platform) (maxLength : Nat) (worker : Worker) (w₀ : World)
    (msg : List UInt8) (out : List (String × Int)) : Prop :=
  let S := system pl (sessionKernel pl anyDisconnect)
  ∃ w r status v, Head S (srvServerWorker pl maxLength worker) w₀ w ∧
    S.legal w (.alpcSendWaitReceivePort (srvReceive maxLength worker)) r ∧
    ntSuccess r.status = true ∧ r.written = msg ∧
    Ends S (srvProcessMessage pl maxLength worker)
      (S.next w (.alpcSendWaitReceivePort (srvReceive maxLength worker)) r) status v ∧
    (newEvents (S.next w (.alpcSendWaitReceivePort (srvReceive maxLength worker)) r) v).filterMap
      printed = out

/-- What is reported of `msg` is the same in every two runs, whatever was
received before it. -/
def NoResidue (pl : Platform) (maxLength : Nat) (worker worker' : Worker) (w₀ w₀' : World)
    (msg : List UInt8) : Prop :=
  ∀ out out', ReportedAs pl maxLength worker w₀ msg out →
    ReportedAs pl maxLength worker' w₀' msg out' → out = out'

/-- The message brings all eight bytes, or no eight bytes that begin with its
own are reported. -/
def SelfContained (pl : Platform) (msg : List UInt8) : Prop :=
  pl.sizeofPortMessage + 8 ≤ msg.length ∨
    ∀ bs : List UInt8, bs.length = 8 → bs.take (bodyOf pl msg).length = bodyOf pl msg →
      isReported (quadPart bs) = false

variable {pl : Platform} {A : Assumption} {maxLength : Nat} {worker : Worker}
variable {w₀ w v u : World} {msg bs : List UInt8} {ctx : PVoid} {kind : UInt8}

-- ---------------------------------------------------------------------------
-- The buffers stay where they are
-- ---------------------------------------------------------------------------

theorem reportCounter_leaves (text : String) :
    (reportCounter pl worker.portMessage text).Uses (endpoint maxLength worker).Leaves := by
  rw [reportCounter_eq]
  refine uses_call.mpr ⟨trivial, fun _ => uses_call.mpr ⟨trivial, fun bs => ?_⟩⟩
  split
  · exact ⟨trivial, fun _ => trivial⟩
  · trivial

theorem onAlpcRequest_leaves :
    (onAlpcRequest pl worker.connectionPortHandle worker.portMessage).Uses
      (endpoint maxLength worker).Leaves :=
  uses_bind (reportCounter_leaves _) fun _ => ⟨trivial, fun _ => trivial⟩

theorem datagramCase_leaves :
    (datagramCase pl worker contextAttribute).Uses (endpoint maxLength worker).Leaves := by
  rw [datagramCase_eq]
  refine uses_bind (reportCounter_leaves _) fun _ => ⟨trivial, fun bs => ?_⟩
  beta_reduce
  split
  · exact ⟨trivial, fun _ => trivial⟩
  · trivial

theorem onAlpcDisconnection_placed (hA : ∀ w o r, A w o r → sessionKernel pl anyDisconnect w o r)
    (h : Placed pl (endpoint maxLength worker) w)
    (hc : Carries (endpoint maxLength worker) ctx w.state)
    (hctx : ctx ∈ (ledger pl w.log).contexts) :
    (onAlpcDisconnection worker.messageAttributes).safe (system pl A) (fun _ => True)
      (fun _ => Placed pl (endpoint maxLength worker)) w := by
  refine ⟨trivial, fun r hr => ?_⟩
  obtain ⟨p, q, rfl, hq, hblock⟩ := getMessageAttribute_found hA h.attributes.allocated hr
  have h₁ := h.next (A := A) (o := .alpcGetMessageAttribute worker.messageAttributes _) trivial hr.1
  refine ⟨trivial, fun r hr => ?_⟩
  have hc₁ : Carries (endpoint maxLength worker) ctx ((system pl A).next w
      (.alpcGetMessageAttribute worker.messageAttributes alpcMessageContextAttribute)
      (some p)).state := hc.same rfl
  have hread : r = ctx := hc₁.read hq hblock hr.1
  have hapart : (endpoint maxLength worker).Apart r := hread ▸ h.contexts ctx hctx
  refine Placed.run ?_ (h₁.next trivial hr.1)
  exact ⟨trivial, fun _ => ⟨trivial, fun _ => ⟨hapart, fun _ => trivial⟩⟩⟩

theorem onAlpcConnection_placed (h : Placed pl (endpoint maxLength worker) w) :
    (onAlpcConnection pl maxLength worker.connectionPortHandle worker.portMessage).safe
      (system pl A) (fun _ => True) (fun _ => Placed pl (endpoint maxLength worker)) w := by
  refine ⟨trivial, fun r hr => ?_⟩
  have hapart : (endpoint maxLength worker).Apart r.pointer :=
    apart_allocate h.message h.attributes hr.1
  refine Placed.run ?_ (h.next trivial hr.1)
  change Prog.Uses _ (if r.pointer = none then _ else _)
  split
  · trivial
  refine ⟨trivial, fun _ => ⟨trivial, fun _ => ⟨fun _ => hapart, fun reply => ?_⟩⟩⟩
  change Prog.Uses _ (if (!ntSuccess reply.status) = true then _ else _)
  split
  · exact ⟨(fun h => by cases h), fun _ => trivial⟩
  · trivial

theorem srvDispatch_placed (hA : ∀ w o r, A w o r → sessionKernel pl anyDisconnect w o r)
    (h : Placed pl (endpoint maxLength worker) w)
    (hc : Carries (endpoint maxLength worker) ctx w.state)
    (hknown : isDisconnect kind = true → ctx ∈ (ledger pl w.log).contexts) :
    (srvDispatch pl maxLength worker contextAttribute kind).safe (system pl A) (fun _ => True)
      (fun _ => Placed pl (endpoint maxLength worker)) w := by
  refine safe_dispatch (fun _ => ?_) (fun _ => ?_) (fun hk => ?_) (fun _ => ?_) fun _ _ _ _ => ?_
  · exact h.run onAlpcRequest_leaves
  · exact h.run datagramCase_leaves
  · exact onAlpcDisconnection_placed hA h hc (hknown hk)
  · exact onAlpcConnection_placed h
  · exact ⟨trivial, h⟩

theorem Started.placed (h : Started pl A maxLength worker w₀) :
    Placed pl (endpoint maxLength worker) w₀ := by
  obtain ⟨w, port, hlog, hport, hends⟩ := h
  obtain ⟨hserving, hl, -⟩ := srvServerWorkerStart_serving hport hends
  exact .start hserving (by rw [hl, hlog]; rfl)

theorem srvProcessMessage_placed (hA : ∀ w o r, A w o r → sessionKernel pl anyDisconnect w o r)
    (h : Placed pl (endpoint maxLength worker) w) {r : Reply}
    (hr : (system pl A).legal w (.alpcSendWaitReceivePort (srvReceive maxLength worker)) r)
    (hs : ntSuccess r.status = true) :
    (srvProcessMessage pl maxLength worker).safe (system pl A) (fun _ => True)
      (fun _ => Placed pl (endpoint maxLength worker))
      ((system pl A).next w (.alpcSendWaitReceivePort (srvReceive maxLength worker)) r) := by
  obtain ⟨q, hq, -⟩ := h.message
  have hq : worker.portMessage = some ⟨q, 0⟩ := hq
  have hreceive : Ledger.isReceive (srvReceive maxLength worker) = true := by
    simp [Ledger.isReceive, srvReceive, hq]
  have hlen : pl.sizeofPortMessage ≤ r.written.length := by
    refine hr.1.2.2.2 hs fun hnone => ?_
    cases hq.symm.trans hnone
  obtain ⟨hshows, hcarries⟩ := h.receive r
  have hplaced : Placed pl (endpoint maxLength worker) ((system pl A).next w
      (.alpcSendWaitReceivePort (srvReceive maxLength worker)) r) := h.next trivial hr.1
  refine ⟨trivial, fun found hfound => ⟨trivial, fun bs hbs => ?_⟩⟩
  have h₁ := hplaced.next (A := A) (o := .alpcGetMessageAttribute worker.messageAttributes _)
    trivial hfound.1
  have h₂ := h₁.next (A := A) (o := .load worker.portMessage _ _) trivial hbs.1
  have hkind : lobyte (UInt16.ofNat (leNat bs)) = kindOf pl r.written :=
    (hshows.same rfl).kind hlen hbs.1
  refine srvDispatch_placed hA h₂ ((hcarries hs).same rfl) fun hk => ?_
  have hknown := (hA _ _ _ hr.2 (by simp [hs, hkind ▸ hk, hreceive])).1
  have hledger : ledger pl (⟨.alpcSendWaitReceivePort (srvReceive maxLength worker), r⟩ :: w.log) =
      (ledger pl w.log).receive pl r.written r.portContext := by
    simp [ledger, Ledger.add, hreceive, hs]
  have hcontexts : r.portContext ∈
      (ledger pl (⟨.alpcSendWaitReceivePort (srvReceive maxLength worker), r⟩ :: w.log)).contexts := by
    rw [hledger]
    exact hknown
  exact hcontexts

theorem srvServerWorker_placed (hA : ∀ w o r, A w o r → sessionKernel pl anyDisconnect w o r)
    (h : Placed pl (endpoint maxLength worker) w) :
    (srvServerWorker pl maxLength worker).safe (system pl A) (fun _ => True)
      (After (Placed pl (endpoint maxLength worker)) fun _ _ => True) w := by
  refine ⟨trivial, fun r hr => ?_⟩
  refine safe_ifFailed (fun hs => ?_) fun hs => ?_
  · refine safe_bind (safe_mono (srvProcessMessage_placed hA h hr hs) fun status u hu => ?_)
    split
    · exact ⟨trivial, trivial⟩
    · exact ⟨trivial, hu⟩
  · exact ⟨trivial, trivial⟩

-- ---------------------------------------------------------------------------
-- The eight bytes behind the header
-- ---------------------------------------------------------------------------

def Behind (pl : Platform) (e : Endpoint) (bs : List UInt8) (P : Process) : Prop :=
  ∃ q data, e.message = some ⟨q, 0⟩ ∧ P.heap.get? q = some (.buffer e.capacity data) ∧
    data.slice pl.sizeofPortMessage 8 = bs

/-- Eight bytes that begin with the body of the message, or are the first of
it. -/
def Completes (pl : Platform) (msg bs : List UInt8) : Prop :=
  bs.length = 8 ∧ bs.take (bodyOf pl msg).length = (bodyOf pl msg).take 8

instance : Decidable (Completes pl msg bs) := inferInstanceAs (Decidable (_ ∧ _))

theorem Behind.same (h : Behind pl e bs P) (hP : P'.heap = P.heap) : Behind pl e bs P' := by
  obtain ⟨q, data, hm, hq, hbs⟩ := h
  exact ⟨q, data, hm, hP ▸ hq, hbs⟩

theorem Behind.read (h : Behind pl e bs P)
    (hr : P.Legal pl (.load e.message pl.sizeofPortMessage 8) r) : r = bs := by
  obtain ⟨q, data, hm, hq, rfl⟩ := h
  have hat : P.at? e.message = some (.buffer e.capacity data) := by
    rw [hm]
    exact at?_live hq
  rw [hr.2.2 ⟨q, 0⟩ _ data hm hat, Nat.zero_add]

/-- Some of them are the message's, the rest were there before. -/
theorem behind_receive (h : Placed pl e w) (hb : Behind pl e old w.state) (r : Reply) :
    Behind pl e ((bodyOf pl r.written).take 8 ++ old.drop (bodyOf pl r.written).length)
      (w.state.effect pl (.alpcSendWaitReceivePort e.receive) r) := by
  obtain ⟨q, data, hm, hq, rfl⟩ := hb
  obtain ⟨b, size, a, ha, hb, -⟩ := h.attributes
  exact ⟨q, _, hm, (get?_receive hm hq ha hb r).1, Contents.slice_write_over⟩

theorem exists_behind (h : Placed pl e w) : ∃ bs, bs.length = 8 ∧ Behind pl e bs w.state := by
  obtain ⟨q, hm, hl⟩ := h.message
  obtain ⟨data, hq⟩ := get?_buffer hl
  exact ⟨_, Contents.length_slice, q, data, hm, hq, rfl⟩

theorem completes_over {old : List UInt8} (h : old.length = 8) :
    Completes pl msg ((bodyOf pl msg).take 8 ++ old.drop (bodyOf pl msg).length) := by
  constructor
  · simp
    omega
  · rcases Nat.le_total 8 (bodyOf pl msg).length with hle | hle
    · rw [List.drop_of_length_le (by omega), List.append_nil, List.take_of_length_le (by simp)]
    · rw [List.take_of_length_le hle, List.take_left']
      rfl

theorem Completes.over (h : Completes pl msg bs) :
    (bodyOf pl msg).take 8 ++ bs.drop (bodyOf pl msg).length = bs := by
  rw [← h.2, List.take_append_drop]

-- ---------------------------------------------------------------------------
-- What is printed for a message
-- ---------------------------------------------------------------------------

theorem reportCounter_prints (kind : UInt8) (hb : Behind pl (endpoint maxLength worker) bs v.state)
    (h : Picks printed [] w v) :
    (reportCounter pl worker.portMessage (reportText kind)).safe (system pl A) (fun _ => True)
      (fun _ => Picks printed (reportOf kind bs) w) v := by
  rw [reportCounter_eq]
  refine safe_call.mpr ⟨trivial, fun bs₁ _ => safe_call.mpr ⟨trivial, fun bs' hbs' => ?_⟩⟩
  have hread : bs' = bs := (hb.same rfl).read hbs'.1
  subst hread
  have h₁ := h.skip (S := system pl A) (o := .load worker.portMessage _ _) (r := bs₁) rfl
  have h₂ := h₁.skip (S := system pl A) (o := .load worker.portMessage _ _) (r := bs') rfl
  unfold reportOf
  split
  · exact ⟨trivial, fun _ _ => ⟨trivial, h₂.pick rfl⟩⟩
  · exact ⟨trivial, h₂⟩

/-- For a request or a datagram the counter is printed if it is due, and
nothing else. -/
theorem srvProcessMessage_prints (hk : kindOf pl msg = lpcRequest ∨ kindOf pl msg = lpcDatagram)
    (hm : Shows (endpoint maxLength worker) msg v.state)
    (hlen : pl.sizeofPortMessage ≤ msg.length)
    (hb : Behind pl (endpoint maxLength worker) bs v.state) :
    (srvProcessMessage pl maxLength worker).safe (system pl A) (fun _ => True)
      (fun _ => Picks printed (reportOf (kindOf pl msg) bs) v) v := by
  have h₀ : Picks printed [] v v := .refl v
  refine ⟨trivial, fun found hfound => ⟨trivial, fun type htype => ?_⟩⟩
  have h₁ := h₀.skip (S := system pl A) (r := found) rfl
    (o := .alpcGetMessageAttribute worker.messageAttributes alpcMessageContextAttribute)
  have h₂ := h₁.skip (S := system pl A) (o := .load worker.portMessage _ _) (r := type) rfl
  have hb₂ : Behind pl (endpoint maxLength worker) bs ((system pl A).next ((system pl A).next v
      (.alpcGetMessageAttribute worker.messageAttributes alpcMessageContextAttribute) found)
      (.load worker.portMessage PortMessage.offType 2) type).state := hb.same rfl
  have hkind : lobyte (UInt16.ofNat (leNat type)) = kindOf pl msg :=
    (hm.same rfl).kind hlen htype.1
  change Prog.safe _ _ (srvDispatch pl maxLength worker found (lobyte _)) _ _
  rw [hkind]
  rcases hk with he | he
  · rw [he, srvDispatch, if_pos rfl]
    refine safe_bind (safe_mono (reportCounter_prints lpcRequest hb₂ h₂) fun _ u hu => ?_)
    exact hu.run ⟨fun _ => rfl, fun _ => trivial⟩
  · rw [he, srvDispatch, if_neg (by decide), if_pos rfl, datagramCase_eq]
    refine safe_bind (safe_mono (reportCounter_prints lpcDatagram hb₂ h₂) fun _ u hu => ?_)
    refine hu.run ⟨fun _ => rfl, fun bs => ?_⟩
    beta_reduce
    split
    · exact ⟨fun _ => rfl, fun _ => trivial⟩
    · trivial

theorem ReportedAs.completion (hs : Started pl A maxLength worker w₀)
    (hk : kindOf pl msg = lpcRequest ∨ kindOf pl msg = lpcDatagram)
    (hlen : pl.sizeofPortMessage ≤ msg.length)
    (h : ReportedAs pl maxLength worker w₀ msg out) :
    ∃ bs, Completes pl msg bs ∧ out = reportOf (kindOf pl msg) bs := by
  obtain ⟨w, r, status, v, hhead, hr, hsuccess, rfl, hends, rfl⟩ := h
  have hw : Placed pl (endpoint maxLength worker) w :=
    hhead.induct hs.placed fun _ hu => srvServerWorker_placed (fun _ _ _ h => h) hu
  obtain ⟨old, hold, hb⟩ := exists_behind hw
  refine ⟨_, completes_over hold, ?_⟩
  exact (safe_ends (srvProcessMessage_prints hk (hw.receive r).1 hlen (behind_receive hw hb r))
    hends).eq

-- ---------------------------------------------------------------------------
-- Histories
-- ---------------------------------------------------------------------------

abbrev residueSystem (pl : Platform) : System Op Ret Process :=
  system pl (sessionKernel pl anyDisconnect)

/-- Whatever has happened, the operation returns. -/
def Responds (pl : Platform) (o : Op) : Prop := ∀ w, ∃ r, (residueSystem pl).legal w o r

theorem load_responds (q : Ptr) (off len : Nat) : Responds pl (.load (some q) off len) := fun w =>
  ⟨w.state.bytesAt ((some q).map (·.add off)) len, ⟨nofun, Environment.length_bytesAt,
    fun _ _ _ hq hat => by cases hq; exact Environment.bytesAt_buffer hat⟩, trivial⟩

theorem getMessageAttribute_responds (q : Ptr) (flag : UInt32) :
    Responds pl (.alpcGetMessageAttribute (some q) flag) := fun _ =>
  ⟨some q, fun p hp => ⟨p, hp, rfl⟩, fun _ => nofun⟩

theorem reply_responds {a : SendWaitReceive} (hm : a.receiveMessage = none) :
    Responds pl (.alpcSendWaitReceivePort a) := fun w =>
  ⟨⟨statusSuccess, 0, Environment.takenFrom w.state a.sendMessage, [], none⟩,
    ⟨Environment.takes_takenFrom, Nat.zero_le _, fun _ => rfl, fun _ h => absurd hm h⟩,
    fun h => by simp [Ledger.isReceive, hm] at h⟩

theorem reportCounter_responds (hm : worker.portMessage = some q) (text : String) :
    (reportCounter pl worker.portMessage text).Uses (Responds pl) := by
  rw [reportCounter_eq, hm]
  refine uses_call.mpr ⟨load_responds q _ _, fun _ =>
    uses_call.mpr ⟨load_responds q _ _, fun bs => ?_⟩⟩
  split
  · exact ⟨fun _ => ⟨(), trivial, trivial⟩, fun _ => trivial⟩
  · trivial

theorem srvDispatch_responds (hm : worker.portMessage = some q)
    (hk : kind = lpcRequest ∨ kind = lpcDatagram) (found : PVoid) :
    (srvDispatch pl maxLength worker found kind).Uses (Responds pl) := by
  rcases hk with he | he
  · rw [he, srvDispatch, if_pos rfl]
    exact uses_bind (reportCounter_responds hm _) fun _ => ⟨reply_responds rfl, fun _ => trivial⟩
  · rw [he, srvDispatch, if_neg (by decide), if_pos rfl, datagramCase_eq]
    refine uses_bind (reportCounter_responds hm _) fun _ => ⟨hm ▸ load_responds q _ _, fun bs => ?_⟩
    beta_reduce
    split
    · exact ⟨fun _ => ⟨statusSuccess, trivial, trivial⟩, fun _ => trivial⟩
    · trivial

theorem srvProcessMessage_progresses (hm : worker.portMessage = some m)
    (ha : worker.messageAttributes = some a)
    (hk : kindOf pl msg = lpcRequest ∨ kindOf pl msg = lpcDatagram)
    (hmsg : Shows (endpoint maxLength worker) msg v.state)
    (hlen : pl.sizeofPortMessage ≤ msg.length) :
    (srvProcessMessage pl maxLength worker).Progresses (residueSystem pl) v := by
  refine ⟨ha ▸ getMessageAttribute_responds a _ v, fun found _ => ?_⟩
  refine ⟨hm ▸ load_responds m _ _ _, fun type htype => ?_⟩
  have hkind : lobyte (UInt16.ofNat (leNat type)) = kindOf pl msg :=
    (hmsg.same rfl).kind hlen htype.1
  change Prog.Progresses _ (srvDispatch pl maxLength worker found (lobyte _)) _
  rw [hkind]
  exact (srvDispatch_responds hm hk found).progresses

def datagramOf (pl : Platform) (bs : List UInt8) : List UInt8 :=
  [8, 0, UInt8.ofNat (pl.sizeofPortMessage + 8), 0, lpcDatagram, 0] ++
    List.replicate (pl.sizeofPortMessage - 6) 0 ++ bs

theorem kindOf_datagramOf : kindOf pl (datagramOf pl bs) = lpcDatagram := by
  cases pl <;> rfl

theorem bodyOf_datagramOf : bodyOf pl (datagramOf pl bs) = bs :=
  List.drop_left' (by cases pl <;> rfl)

theorem length_datagramOf : (datagramOf pl bs).length = pl.sizeofPortMessage + bs.length := by
  rw [datagramOf, List.length_append]
  cases pl <;> rfl

def arrival (msg : List UInt8) : Reply := ⟨statusSuccess, 0, [], msg, none⟩

theorem arrival_legal (hm : worker.portMessage = some m)
    (hlen : pl.sizeofPortMessage ≤ msg.length) (hfit : msg.length ≤ maxLength)
    (hk : isDisconnect (kindOf pl msg) = false) :
    (residueSystem pl).legal w (.alpcSendWaitReceivePort (srvReceive maxLength worker))
      (arrival msg) := by
  refine ⟨⟨⟨fun _ => rfl, nofun⟩, hfit, fun hnone => ?_, fun _ _ => hlen⟩, fun h => ?_⟩
  · cases hm.symm.trans hnone
  · simp [arrival, hk] at h

theorem datagramCase_succeeds (h : Ends (system pl A) (datagramCase pl worker found) w status v) :
    status = statusSuccess ∧ v.state.heap = w.state.heap := by
  constructor
  · rw [datagramCase_eq] at h
    refine ends_bind_returns (P := (· = statusSuccess)) (fun _ u status' u' h' => ?_) h
    obtain ⟨bs, -, h'⟩ := ends_call.mp h'
    split at h'
    · obtain ⟨_, -, h'⟩ := ends_call.mp h'
      exact (ends_ret.mp h').1
    · exact (ends_ret.mp h').1
  · refine h.keeps (I := fun u => u.state.heap = w.state.heap) datagramCase_uses ?_ rfl
    intro u o r ho _ hu
    cases o with
    | load | printf | alpcCancelMessage => exact hu
    | _ => exact ho.elim

theorem datagram_ends (hm : worker.portMessage = some m) (ha : worker.messageAttributes = some a)
    (hshows : Shows (endpoint maxLength worker) (datagramOf pl bs) w.state) :
    ∃ v, v.state.heap = w.state.heap ∧
      Ends (residueSystem pl) (srvProcessMessage pl maxLength worker) w statusSuccess v := by
  have hlen : pl.sizeofPortMessage ≤ (datagramOf pl bs).length := by simp [length_datagramOf]
  obtain ⟨status, v, hends⟩ := (srvProcessMessage_progresses hm ha (.inr kindOf_datagramOf)
    hshows hlen).exists_ends
  obtain ⟨found, hfound, hrest⟩ := ends_call.mp hends
  obtain ⟨type, htype, hrest⟩ := ends_call.mp hrest
  have hkind : lobyte (UInt16.ofNat (leNat type)) = kindOf pl (datagramOf pl bs) :=
    (hshows.same rfl).kind hlen htype.1
  change Ends _ (srvDispatch pl maxLength worker found (lobyte _)) _ _ _ at hrest
  rw [hkind, kindOf_datagramOf, srvDispatch, if_neg (by decide), if_pos rfl] at hrest
  obtain ⟨rfl, hheap⟩ := datagramCase_succeeds hrest
  exact ⟨v, hheap, hends⟩

/-- Any eight bytes may be behind the header when the next message arrives. -/
theorem exists_head (hmax : pl.sizeofPortMessage + 8 ≤ maxLength)
    (h : Placed pl (endpoint maxLength worker) w₀) (hbs : bs.length = 8) :
    ∃ w, Head (residueSystem pl) (srvServerWorker pl maxLength worker) w₀ w ∧
      Behind pl (endpoint maxLength worker) bs w.state := by
  obtain ⟨m, hm, -⟩ := h.message
  obtain ⟨a, _, _, ha, -⟩ := h.attributes
  have hlen : (datagramOf pl bs).length = pl.sizeofPortMessage + 8 := by
    rw [length_datagramOf, hbs]
  obtain ⟨old, hold, hbehind⟩ := exists_behind h
  have hafter := behind_receive h hbehind (arrival (datagramOf pl bs))
  simp only [arrival, bodyOf_datagramOf] at hafter
  rw [List.take_of_length_le (by omega), List.drop_of_length_le (by omega), List.append_nil]
    at hafter
  have hshows : Shows (endpoint maxLength worker) (datagramOf pl bs) ((residueSystem pl).next w₀
      (.alpcSendWaitReceivePort (srvReceive maxLength worker)) (arrival (datagramOf pl bs))).state :=
    (h.receive (arrival (datagramOf pl bs))).1
  obtain ⟨v, hheap, hends⟩ := datagram_ends hm ha hshows
  have hlegal : (residueSystem pl).legal w₀ (.alpcSendWaitReceivePort (srvReceive maxLength worker))
      (arrival (datagramOf pl bs)) :=
    arrival_legal hm (by omega) (by omega) (by rw [kindOf_datagramOf]; rfl)
  have hround : Ends (residueSystem pl) (srvServerWorker pl maxLength worker) w₀ .again v := by
    refine .call hlegal ?_
    change Ends _ (srvProcessMessage pl maxLength worker >>= _) _ _ _
    exact ends_bind.mpr ⟨_, v, hends, .ret⟩
  exact ⟨v, .again .start hround, hafter.same hheap⟩

theorem Completes.reportedAs (hmax : pl.sizeofPortMessage + 8 ≤ maxLength)
    (hs : Started pl A maxLength worker w₀)
    (hk : kindOf pl msg = lpcRequest ∨ kindOf pl msg = lpcDatagram)
    (hlen : pl.sizeofPortMessage ≤ msg.length) (hfit : msg.length ≤ maxLength)
    (h : Completes pl msg bs) :
    ReportedAs pl maxLength worker w₀ msg (reportOf (kindOf pl msg) bs) := by
  obtain ⟨w, hhead, hbehind⟩ := exists_head hmax hs.placed h.1
  have hw : Placed pl (endpoint maxLength worker) w :=
    hhead.induct hs.placed fun _ hu => srvServerWorker_placed (fun _ _ _ h => h) hu
  obtain ⟨m, hm, -⟩ := hw.message
  obtain ⟨a, _, _, ha, -⟩ := hw.attributes
  have hnone : isDisconnect (kindOf pl msg) = false := by
    rcases hk with he | he <;> rw [he] <;> rfl
  have hshows : Shows (endpoint maxLength worker) msg ((residueSystem pl).next w
      (.alpcSendWaitReceivePort (srvReceive maxLength worker)) (arrival msg)).state :=
    (hw.receive (arrival msg)).1
  have hafter := behind_receive hw hbehind (arrival msg)
  simp only [arrival, h.over] at hafter
  obtain ⟨status, v, hends⟩ := (srvProcessMessage_progresses hm ha hk hshows hlen).exists_ends
  refine ⟨w, arrival msg, status, v, hhead, arrival_legal hm hlen hfit hnone, rfl, rfl, hends, ?_⟩
  exact (safe_ends (srvProcessMessage_prints hk hshows hlen hafter) hends).eq

-- ---------------------------------------------------------------------------
-- Messages that say everything themselves
-- ---------------------------------------------------------------------------

theorem quadPart_inj (hlen : bs.length = 8) (hlen' : bs'.length = 8)
    (h : quadPart bs = quadPart bs') : bs = bs' := by
  have hlt : leNat bs < 256 ^ 8 := by simpa only [hlen] using leNat_lt bs
  have hlt' : leNat bs' < 256 ^ 8 := by simpa only [hlen'] using leNat_lt bs'
  have hmod : (leNat bs : Int) % ((2 ^ 64 : Nat) : Int) = leNat bs' % ((2 ^ 64 : Nat) : Int) :=
    Int.bmod_emod.symm.trans ((congrArg (· % ((2 ^ 64 : Nat) : Int)) h).trans Int.bmod_emod)
  have heq : leNat bs = leNat bs' := by omega
  rw [← leBytes_leNat bs, ← leBytes_leNat bs', hlen, hlen', heq]

theorem Completes.eq (h : Completes pl msg bs) (hlen : 8 ≤ (bodyOf pl msg).length) :
    bs = (bodyOf pl msg).take 8 := by
  obtain ⟨hbs, htake⟩ := h
  rwa [List.take_of_length_le (by omega)] at htake

/-- A shorter one has two that differ, whichever the first is. -/
theorem Completes.exists_other (h : Completes pl msg bs) (hlen : (bodyOf pl msg).length < 8) :
    ∃ bs', Completes pl msg bs' ∧ quadPart bs' ≠ quadPart bs := by
  obtain ⟨hbs, htake⟩ := h
  have hlen' : (bs.take 7 ++ [bs.getD 7 0 + 1]).length = 8 := by simp [hbs]
  refine ⟨bs.take 7 ++ [bs.getD 7 0 + 1], ⟨hlen', ?_⟩, fun heq => ?_⟩
  · rw [List.take_append_of_le_length (by simp; omega), List.take_take,
      Nat.min_eq_left (by omega), htake]
  · have hlast := congrArg (fun l : List UInt8 => l.getD 7 0) (quadPart_inj hlen' hbs heq)
    simp [hbs] at hlast

theorem reportOf_eq_iff (h : isReported (quadPart bs) = true) :
    reportOf kind bs' = reportOf kind bs ↔ quadPart bs' = quadPart bs := by
  constructor
  · intro he
    simp only [reportOf, h, if_true] at he
    split at he
    · simpa using he
    · cases he
  · intro he
    simp only [reportOf, he]

theorem selfContained_iff : SelfContained pl msg ↔ ∀ bs bs', Completes pl msg bs →
    Completes pl msg bs' → reportOf (kindOf pl msg) bs = reportOf (kindOf pl msg) bs' := by
  have hbody : (bodyOf pl msg).length = msg.length - pl.sizeofPortMessage := List.length_drop
  by_cases hlong : 8 ≤ (bodyOf pl msg).length
  · refine ⟨fun _ bs bs' h h' => by rw [h.eq hlong, h'.eq hlong], fun _ => .inl (by omega)⟩
  have hbytes : (bodyOf pl msg).take 8 = bodyOf pl msg := List.take_of_length_le (by omega)
  constructor
  · intro h bs bs' hbs hbs'
    have hnone := h.resolve_left (by omega)
    have hquiet := hnone bs hbs.1 (hbs.2.trans hbytes)
    have hquiet' := hnone bs' hbs'.1 (hbs'.2.trans hbytes)
    simp [reportOf, hquiet, hquiet']
  · refine fun h => .inr fun bs hlen htake => ?_
    have hbs : Completes pl msg bs := ⟨hlen, htake.trans hbytes.symm⟩
    obtain ⟨bs', hbs', hne⟩ := hbs.exists_other (by omega)
    by_contra hreported
    exact hne ((reportOf_eq_iff (by simpa using hreported)).mp (h bs' bs hbs' hbs))

/-- What is reported of a message is the same after every two histories exactly
if the message brings eight bytes, or nothing it could be completed to is
reported. -/
theorem residue_iff (hmax : pl.sizeofPortMessage + 8 ≤ maxLength)
    (hs : Started pl A maxLength worker w₀) (hs' : Started pl A' maxLength worker' w₀')
    (hk : kindOf pl msg = lpcRequest ∨ kindOf pl msg = lpcDatagram)
    (hlen : pl.sizeofPortMessage ≤ msg.length) (hfit : msg.length ≤ maxLength) :
    NoResidue pl maxLength worker worker' w₀ w₀' msg ↔ SelfContained pl msg := by
  rw [selfContained_iff]
  constructor
  · intro h bs bs' hbs hbs'
    exact h _ _ (hbs.reportedAs hmax hs hk hlen hfit) (hbs'.reportedAs hmax hs' hk hlen hfit)
  · intro h out out' hout hout'
    obtain ⟨bs, hbs, rfl⟩ := hout.completion hs hk hlen
    obtain ⟨bs', hbs', rfl⟩ := hout'.completion hs' hk hlen
    exact h bs bs' hbs hbs'

def requestOf (bs : List UInt8) : List UInt8 :=
  [UInt8.ofNat bs.length, 0, UInt8.ofNat (40 + bs.length), 0, lpcRequest, 0] ++
    List.replicate 34 0 ++ bs

theorem exists_started : ∃ worker w₀, Started .x64 (kernel .x64) 0xFFFF worker w₀ := by
  have hrun : (serveUntil (.visitedBy []) 0).isSome := by decide +kernel
  obtain ⟨⟨worker, w₀, w, status⟩, h⟩ := Option.isSome_iff_exists.mp hrun
  exact ⟨worker, w₀, (serveUntil_left h).1⟩

/-- A request of eight bytes. -/
theorem residue_iff_eight : ∃ worker w₀, Started .x64 (kernel .x64) 0xFFFF worker w₀ ∧
    SelfContained .x64 (requestOf (List.replicate 8 1)) ∧
    (NoResidue .x64 0xFFFF worker worker w₀ w₀ (requestOf (List.replicate 8 1)) ↔
      SelfContained .x64 (requestOf (List.replicate 8 1))) := by
  obtain ⟨worker, w₀, hs⟩ := exists_started
  exact ⟨worker, w₀, hs, .inl (by decide),
    residue_iff (by decide) hs hs (.inl (by decide)) (by decide) (by decide)⟩

/-- A request without a body: after a datagram of eight zeros it is reported
with the counter 0, after another one it is not. -/
theorem residue_reported : ∃ worker w₀, Started .x64 (kernel .x64) 0xFFFF worker w₀ ∧
    ¬ NoResidue .x64 0xFFFF worker worker w₀ w₀ (requestOf []) := by
  obtain ⟨worker, w₀, hs⟩ := exists_started
  have reported := fun bs (h : Completes .x64 (requestOf []) bs) =>
    h.reportedAs (by decide) hs (.inl (by decide)) (by decide) (by decide)
  have hzero := reported (List.replicate 8 0) (by decide)
  have hone := reported (List.replicate 8 1) (by decide)
  refine ⟨worker, w₀, hs, fun h => ?_⟩
  have hsame := h _ _ hzero hone
  revert hsame
  decide +kernel

end AlpcResearch.Server
