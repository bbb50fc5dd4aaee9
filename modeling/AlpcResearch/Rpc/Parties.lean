import AlpcResearch.Rpc.Delivery
import AlpcResearch.Ua.Framing

/-!
# The worker and its clients, one by one

Alone, the worker is in step with the service, and a client hands the kernel
nothing but frames. The kernel keeps to `Net.Sound` whatever such parties do,
and so does what follows from it for the worker's history and for the answers
to synchronous requests (`Common`). This makes them `Parties` in the sense of
the rule (`parties_lawful`).
-/

namespace AlpcResearch.Rpc

open Resource Program Process Ua

variable {ι S : Type} {svc : Service S} {pl : Platform} {server : ServerObject}

-- ---------------------------------------------------------------------------
-- The parties
-- ---------------------------------------------------------------------------

/-- Everything handed to the kernel is the frame of data that is not too long. -/
def SendsFrames (pl : Platform) (w : World) : Prop :=
  ∀ e ∈ w.log, ∀ m, handed e = some m → ∃ bs,
    pl.sizeofPortMessage + bs.length ≤ pl.alpcMaxAllowedMessageLength ∧ m = frame pl bs

theorem SendsFrames.adds (h : SendsFrames pl w)
    (hfit : pl.sizeofPortMessage + bs.length ≤ pl.alpcMaxAllowedMessageLength)
    (hv : Adds (HandsOnly (frame pl bs)) w v) : SendsFrames pl v := by
  obtain ⟨new, hlog, hnew⟩ := hv
  intro e he m hm
  rw [hlog] at he
  rcases List.mem_append.mp he with he | he
  · exact ⟨bs, hfit, hnew e he m hm⟩
  · exact h e he m hm

/-- A client's call has been run to its end, from the process it was made in. -/
def Task.Ran (pl : Platform) (server : ServerObject) (task : Task) (ended : Control NtStatus)
    (v : World) : Prop :=
  ∀ P, task.before = some P → task.Ready pl ∧
    ∃ u : World, u.state = P ∧ Ends (system pl anyKernel) (task.code pl server) u ended v

theorem task_sends {u : World} {task : Task} (hready : task.Ready pl)
    (hu : task.before = some u.state) (h : SendsFrames pl u) :
    (task.code pl server).safe (system pl anyKernel) (SendsFrames pl)
      (fun _ _ => True) u := by
  have hcall : ∀ (e : EntryPoint) (data : PVoid) (n : UInt16) (bs : List UInt8),
      u.state.Holds data bs → bs.length = n.toNat →
      pl.sizeofPortMessage + n.toNat ≤ pl.alpcMaxAllowedMessageLength →
      (e.call pl data n).safe (system pl anyKernel) (SendsFrames pl)
        (fun _ => SendsFrames pl) u := by
    intro e data n bs hd hn hfit
    have hfit' : pl.sizeofPortMessage + bs.length ≤ pl.alpcMaxAllowedMessageLength := hn ▸ hfit
    exact safe_imp (entry_hands e (hfit.trans_lt pl.alpcMax_lt) hd hn)
      (fun _ hv => h.adds hfit' hv) (fun _ _ hv _ => h.adds hfit' hv)
  cases task with
  | serve => exact hready.elim
  | request P handle data n =>
    cases hu
    obtain ⟨bs, hd, hn, hfit⟩ := hready
    exact safe_bind (safe_mono (hcall (.sendSynchronousRequest handle) data n bs hd hn hfit)
      fun _ _ hv => ⟨hv, trivial⟩)
  | datagram P handle data n =>
    cases hu
    obtain ⟨bs, hd, hn, hfit⟩ := hready
    exact safe_bind (safe_mono (hcall (.sendDatagram handle) data n bs hd hn hfit)
      fun _ _ hv => ⟨hv, trivial⟩)

/-- What a call has left is right after it, if every run of it is. -/
theorem task_ran {u : World} {task : Task} (hready : task.Ready pl)
    (hu : task.before = some u.state) (h : SendsFrames pl u) :
    (task.code pl server).safe (system pl anyKernel) (SendsFrames pl)
      (fun ended v => task.Ran pl server ended v) u :=
  safe_mono (safe_and (task_sends hready hu h) fun _ _ hends => hends) fun ended v hv P hP => by
    cases hu.symm.trans hP
    exact ⟨hready, u, rfl, hv.2⟩

variable [DecidableEq ι] {w : RpcWorld ι}

/-- The reply `r` answers `m`, the last message client `i` had sent then. -/
structure AnsweredBy (pl : Platform) (svc : Service S) (N : Net ι) (i : ι)
    (earlier : List (RpcEvent ι)) (r : Reply) (m : Packet ι) (reply : List UInt8) : Prop where
  last : lastSent i earlier = some m
  bytes : m.bytes = r.taken
  replies : N.Replies pl svc m reply
  delivers : Delivers pl reply r.written

theorem AnsweredBy.mono {N N' : Net ι} {i : ι} {earlier : List (RpcEvent ι)} {r : Reply}
    {m : Packet ι} {reply : List UInt8} (h : AnsweredBy pl svc N i earlier r m reply)
    (hsuffix : N.received <:+ N'.received) : AnsweredBy pl svc N' i earlier r m reply :=
  ⟨h.last, h.bytes, h.replies.mono hsuffix, h.delivers⟩

/-- A synchronous request that has succeeded brought the reply to it. -/
def Answered (pl : Platform) (svc : Service S) (w : RpcWorld ι) : Prop :=
  ∀ (i : ι) (a : SendWaitReceive) (r : Reply) (later earlier : List (RpcEvent ι)),
    w.log = later ++ ⟨(.client i, .await (.alpcSendWaitReceivePort a)), r⟩ :: earlier →
    isSync a = true → ntSuccess r.status = true →
    ∃ m reply, AnsweredBy pl svc w.state i earlier r m reply

structure Common (pl : Platform) (svc : Service S) (w : RpcWorld ι) : Prop where
  sound : w.state.Sound pl svc
  fifo : (w.state.received.map Prod.fst).reverse ++ w.state.queue = packetsSent w.log
  received : (historyOf (view .server w).log).arrived = w.state.received.map Prod.snd
  /-- What a client waits for is the answer to its last message. -/
  last : ∀ i m, w.state.waiting i = some m → lastSent i w.log = some m
  answered : Answered pl svc w

def parties (ι : Type) [DecidableEq ι] (pl : Platform) (server : ServerObject) (svc : Service S) :
    Parties (Party ι) Task Op Ret (Option Posted) (Net ι) Process (Control NtStatus) where
  component := rpc ι pl server svc
  view := view
  alone
    | .server => system pl (svc.kernel pl)
    | .client _ => system pl anyKernel
  code _ task := task.code pl server
  inv
    | .server => InStep pl svc
    | .client _ => SendsFrames pl
  owes
    | .server => fun _ _ => AtHead pl svc server
    | .client _ => Task.Ran pl server
  common := Common pl svc

-- ---------------------------------------------------------------------------
-- What each party sees
-- ---------------------------------------------------------------------------

theorem post_process (N : Net ι) (pl : Platform) (p : Party ι) (o : Op) (posted : Option Posted) :
    (N.post pl p o posted).process = N.process := by
  cases p <;> cases o <;> cases posted <;> rfl

theorem view_issue (p q : Party ι) (w : RpcWorld ι) (o : Op) (posted : Option Posted) :
    view q ((network ι pl svc).next w (p, .issue o) posted) = view q w :=
  congrArg (fun f => (⟨f q, eventsOf q w.log⟩ : World)) (post_process w.state pl p o posted)

theorem view_await (p : Party ι) (w : RpcWorld ι) (o : Op) (r : Ret o) (A : Assumption) :
    view p ((network ι pl svc).next w (p, .await o) r) = (system pl A).next (view p w) o r := by
  have hlog : eventsOf p (⟨(p, .await o), r⟩ :: w.log) = ⟨o, r⟩ :: eventsOf p w.log := by
    simp [eventsOf]
  have hprocess : (w.state.effectPhase pl p (.await o) r).process p =
      (w.state.process p).effect pl o r := by
    simp [Net.effectPhase]
  exact congrArg₂ (fun P log => (⟨P, log⟩ : World)) hprocess hlog

theorem view_other {p q : Party ι} (h : q ≠ p) (w : RpcWorld ι) (o : Op) (r : Ret o) :
    view q ((network ι pl svc).next w (p, .await o) r) = view q w := by
  have hlog : eventsOf q (⟨(p, .await o), r⟩ :: w.log) = eventsOf q w.log := by
    simp [eventsOf, h.symm]
  have hprocess : (w.state.effectPhase pl p (.await o) r).process q = w.state.process q := by
    simp [Net.effectPhase, h]
  exact congrArg₂ (fun P log => (⟨P, log⟩ : World)) hprocess hlog

-- ---------------------------------------------------------------------------
-- What keeps to the common part
-- ---------------------------------------------------------------------------

theorem post_received (N : Net ι) (pl : Platform) (p : Party ι) (o : Op) (posted : Option Posted) :
    (N.post pl p o posted).received = N.received := by
  cases p <;> cases o <;> cases posted <;> rfl

theorem Answered.next {p : Party ι} {o : Phase Op} {r : Phase.Ret Ret (Option Posted) o}
    (h : Answered pl svc w)
    (hsuffix : w.state.received <:+ (w.state.effectPhase pl p o r).received)
    (hnew : ∀ i a r', (⟨(p, o), r⟩ : RpcEvent ι) =
        ⟨(.client i, .await (.alpcSendWaitReceivePort a)), r'⟩ →
      isSync a = true → ntSuccess r'.status = true →
      ∃ m reply, AnsweredBy pl svc w.state i w.log r' m reply) :
    Answered pl svc ((network ι pl svc).next w (p, o) r) := by
  intro i a r' later earlier hlog hsync hs
  have hold : ∃ m reply, AnsweredBy pl svc w.state i earlier r' m reply := by
    rcases List.cons_eq_append_iff.mp hlog with ⟨-, he⟩ | ⟨later', -, hlog⟩
    · obtain ⟨hsame, rfl⟩ := List.cons.inj he.symm
      exact hnew i a r' hsame hsync hs
    · exact h i a r' later' earlier hlog hsync hs
  obtain ⟨m, reply, hm⟩ := hold
  exact ⟨m, reply, hm.mono hsuffix⟩

theorem lastSent_cons (i : ι) (e : RpcEvent ι) (log : List (RpcEvent ι)) :
    lastSent i (e :: log) = ((posting e).filter fun m => m.sender = i).or (lastSent i log) := by
  simp only [lastSent, List.findSome?_cons]
  cases (posting e).filter fun m => m.sender = i <;> rfl

theorem post_waiting {N : Net ι} {p : Party ι} {o : Op} {posted : Option Posted}
    (h : ∀ i m, N.waiting i = some m → lastSent i log = some m) {i : ι} {m : Packet ι}
    (hm : (N.post pl p o posted).waiting i = some m) :
    lastSent i (⟨(p, .issue o), posted⟩ :: log) = some m := by
  rw [lastSent_cons]
  cases o with
  | alpcSendWaitReceivePort a =>
    cases p with
    | server => cases posted <;> exact h i m hm
    | client j =>
      by_cases hj : i = j
      · subst hj
        simp only [Net.post, Net.send, Function.update_self] at hm
        split at hm
        · obtain ⟨q, rfl, rfl⟩ := Option.map_eq_some_iff.mp hm
          simp [posting]
        · cases hm
      · simp only [Net.post, Net.send, Function.update_of_ne hj] at hm
        cases posted with
        | none => exact h i m hm
        | some q =>
          have hother : (posting ⟨(.client j, .issue (.alpcSendWaitReceivePort a)), some q⟩).filter
              (fun m => m.sender = i) = none := by simp [posting, Ne.symm hj]
          rw [hother]
          exact h i m hm
  | _ => cases p <;> exact h i m hm

theorem post_queue (N : Net ι) (pl : Platform) (p : Party ι) (o : Op) (posted : Option Posted) :
    (N.post pl p o posted).queue = N.queue ++ (posting ⟨(p, .issue o), posted⟩).toList := by
  cases o with
  | alpcSendWaitReceivePort a =>
    cases p <;> cases posted <;> simp [Net.post, Net.send, Net.route, posting]
  | _ => cases p <;> simp [Net.post, posting]

theorem Common.issue {p : Party ι} {o : Op} {posted : Option Posted} (h : Common pl svc w)
    (hsound : (w.state.post pl p o posted).Sound pl svc) :
    Common pl svc ((network ι pl svc).next w (p, .issue o) posted) where
  sound := hsound
  fifo := by
    rw [next_log, packetsSent_cons, ← h.fifo]
    refine (congrArg₂ (fun l q => (l.map Prod.fst).reverse ++ q)
      (post_received w.state pl p o posted) (post_queue w.state pl p o posted)).trans ?_
    rw [List.append_assoc]
  received := by
    rw [view_issue]
    exact h.received.trans (congrArg _ (post_received w.state pl p o posted).symm)
  last _ _ hm := post_waiting h.last hm
  answered := by
    refine h.answered.next ?_ fun i a r' he => ?_
    · exact post_received w.state pl p o posted ▸ List.suffix_refl _
    · cases he

def refusal (taken : List UInt8) : Reply := ⟨statusUnsuccessful, 0, taken, [], none⟩

theorem refusal_status (taken : List UInt8) : ntSuccess (refusal taken).status ≠ true := by
  change ntSuccess statusUnsuccessful ≠ true
  simp

theorem refusal_legal {P : Process} {a : SendWaitReceive} {taken : List UInt8}
    (h : P.Takes a.sendMessage taken) :
    P.Legal pl (.alpcSendWaitReceivePort a) (refusal taken) :=
  ⟨h, Nat.zero_le _, fun _ => rfl, fun hs => absurd hs (refusal_status taken)⟩

theorem headerOf_reply (hlen : pl.sizeofPortMessage ≤ msg.length) (s : S) :
    headerOf pl (svc.reply pl s msg) = headerOf pl msg := by
  have hfield : ∀ off len, off + len ≤ pl.sizeofPortMessage →
      ((svc.reply pl s msg).drop off).take len = (msg.drop off).take len := by
    intro off len hle
    rw [Service.reply, List.drop_append_of_le_length (by simp; omega),
      List.take_append_of_le_length (by simp; omega), header_field hle]
  simp only [headerOf, hfield _ _ totalLength_in_header, hfield _ _ type_in_header,
    hfield _ _ clientId_in_header, hfield _ _ messageId_in_header]

theorem common_issue {p : Party ι} {o : Op} {posted : Option Posted}
    (h : (parties ι pl server svc).Holds w)
    (hfits : (parties ι pl server svc).Fits p (view p w) o)
    (hl : (network ι pl svc).legal w (p, .issue o) posted) :
    Common pl svc ((network ι pl svc).next w (p, .issue o) posted) := by
  have hcommon : Common pl svc w := h.common
  have hsound := hcommon.sound
  refine hcommon.issue ?_
  cases o with
  | alpcSendWaitReceivePort a =>
    cases p with
    | client i =>
      refine hsound.send (fun m hm => ?_) fun m hm => ?_
      · subst hm
        obtain ⟨hsend, htakes, -⟩ := hl
        have hkept : SendsFrames pl _ := hfits (refusal m.taken) ⟨refusal_legal htakes, trivial⟩
        exact hkept _ List.mem_cons_self m.taken (if_neg hsend)
      · subst hm
        exact hl.2.2 i rfl
    | server =>
      cases posted with
      | none => exact hsound
      | some m =>
        obtain ⟨hsend, htakes, -⟩ := hl
        have hin : InStep pl svc (view .server w) := h.inv .server
        have hkept : InStep pl svc _ := hfits (refusal m.taken)
          ⟨refusal_legal htakes, trivial, fun _ hs => absurd hs (refusal_status m.taken)⟩
        rw [InStep, next_log, historyOf_send hsend] at hkept
        obtain ⟨msg, earlier, harrived, hkind, hreply⟩ := hin.replied hkept
        obtain ⟨⟨m', msg⟩, rest, hreceived, rfl, rfl⟩ :=
          List.map_eq_cons_iff.mp (hcommon.received.symm.trans harrived)
        have harrives : m'.ArrivesAs pl msg := hsound.arrived m' msg (by simp [hreceived])
        have hframed : m'.Framed pl := hsound.framed m' (by simp [Net.packets, hreceived])
        have hid : (headerOf pl m.taken).messageId = m'.messageId := by
          rw [show m.taken = _ from hreply, headerOf_reply (hframed.arrives harrives).length]
          exact harrives.messageId
        refine hsound.route hreceived hkind hid ?_
        rw [show m.taken = _ from hreply, dueFor, List.map_map]
        rfl
  | _ => cases p <;> exact hsound

theorem arrived_cons (e : Ev) (log : List Ev) :
    (historyOf (e :: log)).arrived = (arrivalOf e).toList ++ (historyOf log).arrived := by
  simp only [historyOf, List.filterMap_cons]
  cases arrivalOf e <;> rfl

/-- A receive of the worker, or any other call. -/
theorem finish_server {N : Net ι} (hsound : N.Sound pl svc) {o : Op} {r : Ret o}
    (hbrings : N.Brings pl .server o r) :
    (N.finish .server o r).Sound pl svc ∧ N.received <:+ (N.finish .server o r).received ∧
      ((N.finish .server o r).received.map Prod.fst).reverse ++ (N.finish .server o r).queue =
        (N.received.map Prod.fst).reverse ++ N.queue ∧
      (N.finish .server o r).received.map Prod.snd =
        (arrivalOf ⟨o, r⟩).toList ++ N.received.map Prod.snd := by
  cases o with
  | alpcSendWaitReceivePort a =>
    by_cases hr : (Ledger.isReceive a && ntSuccess r.status) = true
    · obtain ⟨hreceive, hs⟩ := Bool.and_eq_true_iff.mp hr
      obtain ⟨m, rest, hqueue, hm⟩ := hbrings hreceive hs
      have hfinish : N.finish .server (.alpcSendWaitReceivePort a) r = N.deliver r.written :=
        if_pos hr
      have hreceived : (N.deliver r.written).received = (m, r.written) :: N.received := by
        simp only [Net.deliver, hqueue]
      have hrest : (N.deliver r.written).queue = rest := by
        simp only [Net.deliver, hqueue]
      rw [hfinish, hreceived, hrest]
      refine ⟨hsound.deliver hqueue hm, List.suffix_cons _ _, by simp [hqueue], ?_⟩
      simp [arrivalOf, hr]
    · have hfinish : N.finish .server (.alpcSendWaitReceivePort a) r = N := if_neg hr
      rw [hfinish]
      exact ⟨hsound, List.suffix_refl _, rfl, by simp [arrivalOf, hr]⟩
  | _ => exact ⟨hsound, List.suffix_refl _, rfl, rfl⟩

theorem finish_client {N : Net ι} (hsound : N.Sound pl svc) (i : ι) (o : Op) (r : Ret o) :
    (N.finish (.client i) o r).Sound pl svc ∧
      (N.finish (.client i) o r).received = N.received ∧
      (N.finish (.client i) o r).queue = N.queue := by
  cases o with
  | alpcSendWaitReceivePort a => exact ⟨hsound.done i, rfl, rfl⟩
  | _ => exact ⟨hsound, rfl, rfl⟩

theorem finish_waiting {N : Net ι} {p : Party ι} {o : Op} {r : Ret o} {i : ι} {m : Packet ι}
    (hm : (N.finish p o r).waiting i = some m) : N.waiting i = some m := by
  cases o with
  | alpcSendWaitReceivePort a =>
    cases p with
    | server =>
      simp only [Net.finish, Net.deliver] at hm
      split at hm
      · split at hm <;> exact hm
      · exact hm
    | client j =>
      by_cases hj : i = j
      · subst hj
        simp [Net.finish] at hm
      · simpa [Net.finish, hj] using hm
  | _ => cases p <;> exact hm

theorem common_await {p : Party ι} {o : Op} {r : Ret o}
    (h : (parties ι pl server svc).Holds w) (hl : (network ι pl svc).legal w (p, .await o) r) :
    Common pl svc ((network ι pl svc).next w (p, .await o) r) := by
  have hcommon : Common pl svc w := h.common
  have hposting : packetsSent (⟨(p, .await o), r⟩ :: w.log) = packetsSent w.log := by
    simp [packetsSent_cons, posting]
  have hlast : ∀ i m, (w.state.finish p o r).waiting i = some m →
      lastSent i (⟨(p, .await o), r⟩ :: w.log) = some m := fun i m hm => by
    simpa [lastSent_cons, posting] using hcommon.last i m (finish_waiting hm)
  obtain ⟨-, -, hbrings⟩ := hl
  cases p with
  | server =>
    obtain ⟨hsound, hsuffix, hfifo, hreceived⟩ := finish_server hcommon.sound hbrings
    refine ⟨hsound.process _, hfifo.trans (hcommon.fifo.trans hposting.symm), ?_, hlast,
      hcommon.answered.next hsuffix fun i a r' he => by cases he⟩
    rw [view_await .server w o r anyKernel, next_log, arrived_cons, hcommon.received]
    exact hreceived.symm
  | client i =>
    obtain ⟨hsound, hreceived, hqueue⟩ := finish_client hcommon.sound i o r
    have hfifo := congrArg₂ (fun l q => (l.map Prod.fst).reverse ++ q) hreceived hqueue
    refine ⟨hsound.process _, hfifo.trans (hcommon.fifo.trans hposting.symm), ?_, hlast,
      hcommon.answered.next (hreceived ▸ List.suffix_refl _) ?_⟩
    · rw [view_other (by simp)]
      exact hcommon.received.trans (congrArg _ hreceived.symm)
    · intro j a r' he hsync hs
      cases he
      obtain ⟨m, reply, hwaiting, htaken, hmail, hdelivers⟩ := hbrings hsync hs
      obtain ⟨m', hm', hreplies⟩ := hcommon.sound.mail i reply hmail
      cases hm'.symm.trans hwaiting
      exact ⟨m, reply, hcommon.last i m hwaiting, htaken.symm, hreplies, hdelivers⟩

-- ---------------------------------------------------------------------------
-- The parties together
-- ---------------------------------------------------------------------------

/-- The worker gets nothing from the network that a kernel alone would not
bring. -/
theorem await_alone {p : Party ι} {o : Op} {r : Ret o} (h : Common pl svc w)
    (hl : (network ι pl svc).legal w (p, .await o) r) :
    ((parties ι pl server svc).alone p).legal (view p w) o r := by
  obtain ⟨hprocess, hbehaves, hbrings⟩ := hl
  cases p with
  | client i => exact ⟨hprocess, trivial⟩
  | server =>
    refine ⟨hprocess, hbehaves, ?_⟩
    cases o with
    | alpcSendWaitReceivePort a =>
      intro hreceive hs
      obtain ⟨m, rest, hqueue, hm⟩ := hbrings hreceive hs
      have hframed : m.Framed pl := h.sound.framed m (by simp [Net.packets, hqueue])
      exact hframed.arrives hm
    | _ => trivial

theorem begins_client {i : ι} {w' : RpcWorld ι} {P : Process} (h : Common pl svc w)
    (hw : w' = { w with state := { w.state with
      process := Function.update w.state.process (.client i) P } }) :
    Common pl svc w' := by
  have hview : view .server w' = view .server w := by simp [view, hw]
  subst hw
  refine ⟨h.sound.process _, h.fifo, hview ▸ h.received, h.last, ?_⟩
  intro j a r later earlier hlog hsync hs
  obtain ⟨m, reply, hm⟩ := h.answered j a r later earlier hlog hsync hs
  exact ⟨m, reply, hm.mono (List.suffix_refl _)⟩

theorem parties_lawful : (parties ι pl server svc).Lawful where
  code _ _ := rfl
  issue_view := view_issue _ _ _ _ _
  issue_common := common_issue
  await_view := by
    intro i w o r
    cases i <;> exact view_await _ w o r _
  await_other h := view_other h _ _ _
  await_alone := await_alone
  await_common := common_await
  start_common := by
    rintro (_ | i) c a c' w w' hw hstart
    · obtain ⟨-, -, rfl⟩ := hstart
      exact hw.common
    · obtain ⟨P, -, -, hP⟩ := hstart
      exact begins_client hw.common hP
  start_other := by
    rintro (_ | i) j c a c' w w' hj hstart
    · obtain ⟨-, -, rfl⟩ := hstart
      rfl
    · obtain ⟨P, -, -, rfl⟩ := hstart
      simp [parties, view, hj]
  start_code := by
    rintro (_ | i) c a c' w w' hw howes hstart
    · obtain ⟨-, rfl, rfl⟩ := hstart
      exact uaServerWorker_inStep howes
    · obtain ⟨P, hP, hready, rfl⟩ := hstart
      refine task_ran hready ?_ (hw.inv (.client i))
      simp [parties, view, hP]

end AlpcResearch.Rpc
