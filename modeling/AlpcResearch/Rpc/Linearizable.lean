import AlpcResearch.Program.Schedules
import AlpcResearch.Rpc.Clients

/-!
# Requests are linearized by the worker

In every interleaving of a worker and any number of clients the callbacks are
called for the requests and datagrams received, once each and in that order,
and each request is replied to once. A synchronous request returns the kernel's
status; where that is success, the caller finds in its buffer the body of the
reply the service gives to it in the state left by all messages received before
it.
-/

namespace AlpcResearch.Rpc

open Resource Program Process Ua

variable {ι S : Type} {svc : Service S} {pl : Platform} {server : ServerObject} {h : History}
variable {received : List (Packet ι × List UInt8)} {msg : List UInt8}

-- ---------------------------------------------------------------------------
-- The replies
-- ---------------------------------------------------------------------------

/-- The ids of the messages replied to, the latest first. -/
def History.repliedTo (pl : Platform) (h : History) : List Nat :=
  h.replies.map fun reply => (headerOf pl reply).messageId

def requestIds (received : List (Packet ι × List UInt8)) : List Nat :=
  (received.filter fun x => x.1.kind = lpcRequest).map fun x => x.1.messageId

theorem replies_ids (h : ∀ x ∈ received, x.1.Framed pl ∧ x.1.ArrivesAs pl x.2) :
    (svc.replies pl (dueFor pl received)).map (fun reply => (headerOf pl reply).messageId) =
      requestIds received := by
  induction received with
  | nil => rfl
  | cons x rest ih =>
    obtain ⟨⟨hframed, harrives⟩, hrest⟩ := List.forall_mem_cons.mp h
    have ih := ih hrest
    by_cases hkind : x.1.kind = lpcRequest
    · have hcall : callFor pl x.2 = .request x.2 := if_pos (harrives.kind.trans hkind)
      have hid : (headerOf pl (svc.reply pl (svc.state pl (dueFor pl rest)) x.2)).messageId =
          x.1.messageId := by
        rw [headerOf_reply (hframed.arrives harrives).length, harrives.messageId]
      simp only [dueFor, List.map_cons, hcall, Service.replies, requestIds, List.filter_cons, hkind,
        decide_true, if_true] at ih hid ⊢
      rw [hid, ih]
    · have hcall : callFor pl x.2 = .datagram x.2 :=
        if_neg fun hk => hkind (harrives.kind.symm.trans hk)
      simp only [dueFor, List.map_cons, hcall, Service.replies, requestIds, List.filter_cons, hkind,
        decide_false, Bool.false_eq_true, if_false] at ih ⊢
      exact ih

/-- The replies are those to all that has arrived, but perhaps for the last message. -/
theorem History.InStep.replies_due (hi : h.InStep pl svc) :
    h.replies = svc.replies pl (h.due pl) ∨
      h.replies = svc.replies pl (h.due pl).tail := by
  rcases hi.replies with hr | ⟨hc, msg, earlier, he, hr⟩
  · rcases hi.calls with hc | ⟨c, hc⟩
    · exact .inl (hc ▸ hr)
    · exact .inr (by rw [hr, hc, List.tail_cons])
  · exact .inr (by rw [hr, ← hc, he, List.tail_cons])

theorem requestIds_sublist (received : List (Packet ι × List UInt8)) :
    (requestIds received).Sublist (received.map fun x => x.1.messageId) :=
  List.filter_sublist.map _

theorem repliedTo_due (harrived : ∀ x ∈ received, x.1.Framed pl ∧ x.1.ArrivesAs pl x.2)
    (hr : h.replies = svc.replies pl (dueFor pl received)) :
    h.repliedTo pl = requestIds received := by
  rw [History.repliedTo, hr, replies_ids harrived]

theorem History.InStep.repliedTo_sublist (hi : h.InStep pl svc)
    (hdue : h.due pl = dueFor pl received)
    (harrived : ∀ x ∈ received, x.1.Framed pl ∧ x.1.ArrivesAs pl x.2) :
    (h.repliedTo pl).Sublist (requestIds received) := by
  rcases hi.replies_due with hr | hr
  · rw [repliedTo_due harrived (hdue ▸ hr)]
  · have htail : (dueFor pl received).tail = dueFor pl received.tail := List.map_tail.symm
    rw [hdue, htail] at hr
    rw [repliedTo_due (fun x hx => harrived x (List.mem_of_mem_tail hx)) hr]
    exact ((List.tail_sublist received).filter _).map _

theorem count_requestIds (hids : (received.map fun x => x.1.messageId).Nodup)
    (hx : x ∈ received) : (requestIds received).count x.1.messageId =
      if x.1.kind = lpcRequest then 1 else 0 := by
  split
  · rename_i hkind
    refine List.count_eq_one_of_mem (hids.sublist (requestIds_sublist received)) ?_
    exact List.mem_map_of_mem (List.mem_filter.mpr ⟨hx, decide_eq_true hkind⟩)
  · rename_i hkind
    refine List.count_eq_zero_of_not_mem fun hmem => hkind ?_
    obtain ⟨y, hy, hid⟩ := List.mem_map.mp hmem
    obtain ⟨hy, hykind⟩ := List.mem_filter.mp hy
    have hsame : y = x := List.inj_on_of_nodup_map hids hy hx hid
    exact hsame ▸ of_decide_eq_true hykind

/-- A worker that would be in step if another message arrived has nothing left to do. -/
theorem History.InStep.settled (hi : h.InStep pl svc)
    (hnext : History.InStep pl svc { h with arrived := msg :: h.arrived }) :
    h.Settled pl svc := by
  have hnext_due : History.due pl { h with arrived := msg :: h.arrived } =
      callFor pl msg :: h.due pl := rfl
  have hlonger : h.calls ≠ callFor pl msg :: h.due pl := by
    intro he
    have hlen := congrArg List.length he
    rcases hi.calls with hc | ⟨c, hc⟩
    · simp [hc] at hlen
    · simp [hc] at hlen
      omega
  have hcalls : h.calls = h.due pl := by
    rcases hnext.calls with hc | ⟨c, hc⟩
    · exact absurd hc hlonger
    · rw [hnext_due, List.cons.injEq] at hc
      exact hc.2.symm
  refine ⟨hcalls, ?_⟩
  rcases hnext.replies with hr | ⟨hc, -⟩
  · exact hr
  · exact absurd hc hlonger

-- ---------------------------------------------------------------------------
-- The worker in its receive
-- ---------------------------------------------------------------------------

theorem asRequest_kind (hlen : 6 ≤ msg.length) : kindOf pl (asRequest msg) = lpcRequest := by
  have htype : ((asRequest msg).drop PortMessage.offType).take 2 = [1, 0] := asRequest_type hlen
  simp only [kindOf, headerOf, htype]
  decide

/-- An empty request, as it arrives. -/
theorem exists_arrives (pl : Platform) : ∃ msg, Arrives pl msg ∧
    msg.length ≤ pl.alpcMaxAllowedMessageLength := by
  have hheader : 6 ≤ pl.sizeofPortMessage := by cases pl <;> decide
  have hmax := pl.header_le_max
  have hlen : (frame pl []).length = pl.sizeofPortMessage := length_frame
  have hdelivers : Delivers pl (frame pl []) (asRequest (frame pl [])) :=
    asRequest_delivers (Nat.le_of_eq hlen.symm)
  refine ⟨asRequest (frame pl []), ⟨⟨[], hmax, hdelivers⟩, .inl (asRequest_kind (by omega))⟩, ?_⟩
  rw [hdelivers.length, hlen]
  exact hmax

variable [DecidableEq ι] {P₀ P : RpcPool ι}

/-- What a worker may receive, come what may, leaves it nothing to do before. -/
theorem settled_of_receive {u : World} (hreceive : Ledger.isReceive (uaReceive pl server) = true)
    (hu : InStep pl svc u)
    (hfits : (parties ι pl server svc).Fits .server u
      (.alpcSendWaitReceivePort (uaReceive pl server))) :
    (historyOf u.log).Settled pl svc := by
  obtain ⟨msg, harrives, hlen⟩ := exists_arrives pl
  let r : Reply := ⟨statusSuccess, 0, [], msg, none⟩
  have hlegal : u.state.Legal pl (.alpcSendWaitReceivePort (uaReceive pl server)) r :=
    ⟨⟨fun _ => rfl, fun _ _ _ h => by cases h⟩, hlen, fun hm => by
      simp [Ledger.isReceive, hm] at hreceive, fun _ _ => harrives.length⟩
  have hnext : InStep pl svc _ := hfits r ⟨hlegal, trivial, fun _ _ => harrives⟩
  rw [InStep, next_log, historyOf_receive hreceive,
    if_pos (show ntSuccess r.status = true from ntSuccess_success)] at hnext
  exact hu.settled hnext

/-- The worker is between two rounds, or in its receive. -/
inductive AtReceive (pl : Platform) (server : ServerObject) :
    Prog (Phase Op) (Phase.Ret Ret (Option Posted)) (Control NtStatus) → Prop
  | between : AtReceive pl server (.ret ended)
  | entering :
      AtReceive pl server (.call (.issue (.alpcSendWaitReceivePort (uaReceive pl server))) k)
  | receiving :
      AtReceive pl server (.call (.await (.alpcSendWaitReceivePort (uaReceive pl server))) k)

theorem AtReceive.settled (hreceive : Ledger.isReceive (uaReceive pl server) = true)
    (hkept : (parties ι pl server svc).contract.Kept (rpc ι pl server svc) P)
    (hp : AtReceive pl server (P.threads .server).2) :
    (historyOf (view .server P.world).log).Settled pl svc := by
  have hu : InStep pl svc (view .server P.world) := hkept.inv.inv .server
  obtain ⟨task, p, ht⟩ : ∃ task p, P.threads .server = (task, p) := ⟨_, _, rfl⟩
  rw [ht] at hp
  cases hp with
  | between =>
    have howes : AtHead pl svc server (view .server P.world) := hkept.owes parties_lawful.valid ht
    exact howes.settled
  | entering | receiving =>
    exact settled_of_receive hreceive hu (hkept.may parties_lawful.valid ht)

-- ---------------------------------------------------------------------------
-- All interleavings
-- ---------------------------------------------------------------------------

def workerHistory (P : RpcPool ι) : History := historyOf (view .server P.world).log

/-- The worker has handled what it has received as one sequence. -/
structure Linearized (pl : Platform) (server : ServerObject) (svc : Service S)
    (P : RpcPool ι) : Prop where
  /-- The messages received are the oldest ones sent, in that order. -/
  fifo : (P.world.state.received.map Prod.fst).reverse <+: packetsSent P.world.log
  unique : ((packetsSent P.world.log).map Packet.messageId).Nodup
  arrived : ∀ x ∈ P.world.state.received, x.1.Framed pl ∧ x.1.ArrivesAs pl x.2
  received : (workerHistory P).arrived = P.world.state.received.map Prod.snd
  /-- At any time at most the last message received is not dealt with. -/
  inStep : (workerHistory P).InStep pl svc
  settled : AtReceive pl server (P.threads .server).2 → (workerHistory P).Settled pl svc
  /-- No message is replied to twice, and each request is. -/
  atMostOnce : ((workerHistory P).repliedTo pl).Nodup
  once : AtReceive pl server (P.threads .server).2 → ∀ x ∈ P.world.state.received,
    ((workerHistory P).repliedTo pl).count x.1.messageId = if x.1.kind = lpcRequest then 1 else 0
  answered : Answered pl svc P.world
  /-- The last call of a client that is in none, a request with the data `bs`. -/
  returned : ∀ i before handle data n ended bs,
    P.threads (.client i) = (.request before handle data n, .ret ended) →
    before.Holds data bs → bs.length = n.toNat →
    ∃ u status, MadeIn i before P.world u ∧ ended = .leave status ∧
      Returned pl svc i data bs u P.world status
  posted : ∀ i before handle data n ended bs,
    P.threads (.client i) = (.datagram before handle data n, .ret ended) →
    before.Holds data bs → bs.length = n.toNat →
    ∃ u status, MadeIn i before P.world u ∧ ended = .leave status ∧
      Posts bs pl u (view (.client i) P.world) status

theorem Opens.kept (h₀ : Opens pl server P₀) :
    (parties ι pl server svc).contract.Kept (rpc ι pl server svc) P₀ := by
  have hview : ∀ p, (view p P₀.world).log = [] := fun p => by simp [view, h₀.history, eventsOf]
  have hreceived : P₀.world.state.received = [] := by
    simpa using (List.append_eq_nil_iff.mp h₀.packets).1
  have hqueue : P₀.world.state.queue = [] := (List.append_eq_nil_iff.mp h₀.packets).2
  have hsettled : (historyOf (view .server P₀.world).log).Settled pl svc := by
    rw [hview]
    exact ⟨rfl, rfl⟩
  have hcommon : Common pl svc P₀.world := by
    constructor
    case sound =>
      constructor
      · simp [hreceived]
      · simp [h₀.packets]
      · simp [h₀.packets]
      · simp [h₀.waiting]
      · simp [h₀.mail]
    case fifo => simp [hreceived, hqueue, h₀.history, packetsSent]
    case received =>
      rw [hview, hreceived]
      rfl
    case last =>
      intro i m hm
      simp [h₀.waiting] at hm
    case answered =>
      intro i a r later earlier hlog
      simp [h₀.history] at hlog
  refine Parties.kept_idle ⟨hcommon, ?_⟩ ?_
  · rintro (_ | i)
    · exact hsettled.inStep
    · intro e he
      have he : e ∈ (view (.client i) P₀.world).log := he
      rw [hview] at he
      cases he
  · rintro (_ | i)
    · obtain ⟨task, ht⟩ := h₀.worker
      exact ⟨task, .again, ht, h₀.serving, hsettled⟩
    · obtain ⟨ended, ht⟩ := h₀.clients i
      exact ⟨.serve, ended, ht, fun _ hP => by cases hP⟩

/-- For every interleaving and every length of the run. -/
theorem linearized (h₀ : Opens pl server P₀)
    (h : (rpc ι pl server svc).Reaches anyStep P₀ P) : Linearized pl server svc P := by
  have hkept := parties_lawful.reaches h₀.kept h
  have hcommon : Common pl svc P.world := hkept.inv.common
  have hstep : (workerHistory P).InStep pl svc := hkept.inv.inv .server
  have hreceive : Ledger.isReceive (uaReceive pl server) = true := Endpoint.receives h₀.serving
  have hsettled := AtReceive.settled hreceive hkept
  have harrived : ∀ x ∈ P.world.state.received, x.1.Framed pl ∧ x.1.ArrivesAs pl x.2 := fun x hx =>
    ⟨hcommon.sound.framed x.1 (List.mem_append_left _ (List.mem_map_of_mem hx)),
      hcommon.sound.arrived x.1 x.2 hx⟩
  have hids : (P.world.state.received.map fun x => x.1.messageId).Nodup := by
    have hunique := hcommon.sound.unique
    rw [Net.packets, List.map_append, List.map_map] at hunique
    exact hunique.of_append_left
  have hdue : (workerHistory P).due pl = dueFor pl P.world.state.received := by
    rw [History.due, workerHistory, hcommon.received, List.map_map]
    rfl
  have hsent : (packetsSent P.world.log).Perm P.world.state.packets :=
    hcommon.fifo ▸ (List.reverse_perm _).append_right _
  have hran : ∀ {i task ended}, P.threads (.client i) = (task, .ret ended) →
      task.Ran pl server ended (view (.client i) P.world) :=
    fun ht => hkept.owes parties_lawful.valid ht
  refine ⟨⟨_, hcommon.fifo⟩, (hsent.map _).nodup_iff.mpr hcommon.sound.unique, harrived,
    hcommon.received, hstep, hsettled, ?_, fun hat x hx => ?_, hcommon.answered,
    fun i before handle data n ended bs ht hd hn => ?_,
    fun i before handle data n ended bs ht hd hn => ?_⟩
  · exact hids.sublist ((hstep.repliedTo_sublist hdue harrived).trans (requestIds_sublist _))
  · have hnow : (workerHistory P).Settled pl svc := hsettled hat
    rw [repliedTo_due harrived (hnow.replies.trans (by rw [hnow.calls, hdue]))]
    exact count_requestIds hids hx
  · obtain ⟨⟨-, -, -, hfit⟩, u, rfl, hends⟩ := hran ht before rfl
    obtain ⟨status, v, hends, hret⟩ := ends_bind.mp hends
    obtain ⟨rfl, rfl⟩ := ends_ret.mp hret
    exact ⟨u, status, ⟨rfl, hends.log_suffix⟩, rfl, request_returned hcommon hfit hd hn hends⟩
  · obtain ⟨⟨-, -, -, hfit⟩, u, rfl, hends⟩ := hran ht before rfl
    obtain ⟨status, v, hends, hret⟩ := ends_bind.mp hends
    obtain ⟨rfl, rfl⟩ := ends_ret.mp hret
    exact ⟨u, status, ⟨rfl, hends.log_suffix⟩, rfl, uaSendDatagram_posts hfit hd hn hends⟩

-- ---------------------------------------------------------------------------
-- Runs
-- ---------------------------------------------------------------------------

def Packet.written (pl : Platform) (m : Packet ι) : List UInt8 :=
  (((m.bytes.set 4 m.kind).set 5 0).take (PortMessage.offMessageId pl)) ++
    leBytes 4 m.messageId ++ m.bytes.drop (PortMessage.offMessageId pl + 4)

def Net.brought (pl : Platform) (N : Net ι) : Party ι → Option (List UInt8)
  | .server => N.queue.head?.map (Packet.written pl)
  | .client i => N.mail i

def courier (svc : Service S) (pl : Platform) (w : RpcWorld ι) (p : Party ι) : Environment :=
  { Environment.calm with
    outcome := fun _ _ => { message := (w.state.brought pl p).getD [] }
    onRequest := fun history =>
      let seen := history.headD fun _ => 0
      seen.write pl.sizeofPortMessage (svc.onRequest
        (svc.state pl (historyOf (view p w).log).calls) (bodyOf pl (messageIn seen))).2 }

/-- The process a client makes the call in, where the data is in a buffer. -/
def Task.readyIn (pl : Platform) : Task → Option Process
  | .serve => none
  | .request P _ data n | .datagram P _ data n =>
    if P.Holds data (P.bytesAt data n.toNat) ∧
        pl.sizeofPortMessage + n.toNat ≤ pl.alpcMaxAllowedMessageLength then some P
    else none

theorem Task.readyIn_ready {task : Task} {P : Process} (h : task.readyIn pl = some P) :
    task.before = some P ∧ task.Ready pl := by
  cases task with
  | serve => cases h
  | request Q handle data n | datagram Q handle data n =>
    simp only [Task.readyIn, Option.ite_none_right_eq_some, Option.some.injEq] at h
    obtain ⟨⟨hdata, hfit⟩, rfl⟩ := h
    exact ⟨rfl, _, hdata, Environment.length_bytesAt, hfit⟩

def dispatcher (ι : Type) [DecidableEq ι] (pl : Platform) (svc : Service S) :
    Director (Party ι) Task (Phase Op) (Phase.Ret Ret (Option Posted)) (Net ι)
      (Control NtStatus) where
  begins w p last task := match p, last, task with
    | .server, (_, .again), .serve => some w
    | .client i, _, task => (task.readyIn pl).map fun P =>
      { w with state := { w.state with
        process := Function.update w.state.process (.client i) P } }
    | _, _, _ => none
  answer P p o := match o with
    | .issue (.alpcSendWaitReceivePort a) =>
      let N := P.world.state
      if a.sendMessage ≠ none ∧ ∀ q ∈ N.packets, q.messageId ≠ N.packets.length then
        some (some ⟨N.packets.length, Environment.takenFrom (N.process p) a.sendMessage⟩)
      else some none
    | .issue _ => some none
    | .await o =>
      let E := courier svc pl P.world p
      let r := E.answer (view p P.world) o
      if E.canAnswer pl (view p P.world) o && P.world.state.canBring pl p o r then some r else none

theorem courier_behaves {w : RpcWorld ι} {p : Party ι} {o : Op} :
    behaviour svc pl p (view p w) o ((courier svc pl w p).answer (view p w) o) := by
  cases p with
  | client i => trivial
  | server =>
    cases o with
    | onRequest procedure q => rfl
    | alpcGetMessageAttribute buffer flag =>
      intro hallocated hnone
      have hbuffer : buffer = none := hnone
      simp [hbuffer, Allocated, Process.at?] at hallocated
    | _ => trivial

theorem dispatcher_sound : (dispatcher ι pl svc).Sound (rpc ι pl server svc) anyStep where
  begins := by
    intro w p last task w' h
    obtain ⟨earlier, ended⟩ := last
    cases p with
    | server =>
      cases ended with
      | again =>
        cases task with
        | serve =>
          cases h
          exact ⟨rfl, rfl, rfl⟩
        | request | datagram => cases h
      | leave => cases h
    | client i =>
      obtain ⟨P, hP, rfl⟩ := Option.map_eq_some_iff.mp h
      obtain ⟨hbefore, hready⟩ := Task.readyIn_ready hP
      exact ⟨P, hbefore, hready, rfl⟩
  answer := by
    intro P p o r h
    refine ⟨?_, trivial⟩
    cases o with
    | issue o =>
      cases o with
      | alpcSendWaitReceivePort a =>
        simp only [dispatcher] at h
        split at h
        · rename_i hsend
          cases h
          exact ⟨hsend.1, Environment.takes_takenFrom, fun _ _ => hsend.2⟩
        · cases h
          trivial
      | _ =>
        cases h
        trivial
    | await o =>
      simp only [dispatcher, Option.ite_none_right_eq_some, Bool.and_eq_true,
        Option.some.injEq] at h
      obtain ⟨⟨hcan, hbrings⟩, rfl⟩ := h
      exact ⟨Environment.answer_legal hcan, courier_behaves, brings_of_canBring hbrings⟩

/-- Counts the messages, and fills each reply with the number before it. -/
def counting : Service Nat where
  initial := 0
  onRequest n body := (n + 1, body.map fun _ => UInt8.ofNat n)
  onDatagram n _ := n + 1
  length _ _ := List.length_map ..

def opening : RpcPool Bool where
  world := ⟨⟨fun _ => receiverProcess .x64, [], [], fun _ => none, fun _ => none⟩, []⟩
  threads _ := (.serve, .ret .again)

theorem opening_opens : Opens .x64 receiver opening :=
  ⟨receiver_serving .x64, rfl, rfl, fun _ => rfl, fun _ => rfl, ⟨_, rfl⟩, fun _ => ⟨_, rfl⟩⟩

/-- Both send before the worker receives; the request is handled second, and its
caller finds the reply to it in the buffer. -/
theorem linearized_two : ∃ P, (rpc Bool .x64 receiver counting).Reaches anyStep opening P ∧
    Linearized .x64 receiver counting P ∧ P.world.state.received.length = 2 ∧
    (workerHistory P).replies.map (bodyOf .x64) = [[1, 1, 1]] ∧
    (P.returned (.client true)).map Prod.snd = some (.leave statusSuccess) ∧
    (P.world.state.process (.client true)).bytesAt callerData 3 = [1, 1, 1] := by
  let turns : List (Turn (Party Bool) Task) :=
    List.flatten [
      Turn.calling (.client false) (.datagram (callerWith 2).state none callerData 2) 14,
      Turn.calling (.client true) (.request (callerWith 3).state none callerData 3) 11,
      Turn.calling .server .serve 10, Turn.calling .server .serve 8,
      Turn.acting (.client true) 5]
  have hrun : ((rpc Bool .x64 receiver counting).play (dispatcher Bool .x64 counting) turns
      opening).any (fun P => P.world.state.received.length = 2 ∧
        (workerHistory P).replies.map (bodyOf .x64) = [[1, 1, 1]] ∧
        (P.returned (.client true)).map Prod.snd = some (.leave statusSuccess) ∧
        (P.world.state.process (.client true)).bytesAt callerData 3 = [1, 1, 1]) := by
    decide +kernel
  obtain ⟨P, hP, hhistory⟩ := (Option.any_eq_true _ _).mp hrun
  have hreach := play_reaches dispatcher_sound hP
  exact ⟨P, hreach, linearized opening_opens hreach, of_decide_eq_true hhistory⟩

end AlpcResearch.Rpc
