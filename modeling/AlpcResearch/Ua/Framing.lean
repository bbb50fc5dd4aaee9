import AlpcResearch.Process.Framing
import AlpcResearch.Process.Script
import AlpcResearch.Ua.Handlers
import AlpcResearch.Ua.Lengths

/-!
# What is sent and what is received

Every message the client's functions hand to the kernel is the frame of its
data. A callback of the server reads the lengths and the data back from it
exactly as long as the whole message is at most 32767 bytes long: the lengths
are sent as `USHORT`s and read as `CSHORT`s.
-/

namespace AlpcResearch.Ua

open Resource Program Process

variable {pl : Platform} {A : Assumption} {server : ServerObject} {w v : World} {bs : List UInt8}

-- ---------------------------------------------------------------------------
-- The sending side
-- ---------------------------------------------------------------------------

def HandsOnly (msg : List UInt8) (e : Ev) : Prop := ∀ m, handed e = some m → m = msg

theorem HandsOnly.of_silent (e : Ev) (h : Silent e) : HandsOnly msg e := by
  intro m hm
  cases h.symm.trans hm

theorem withPortMessage_hands {n : UInt16} {fail : NtStatus → α} {send : PVoid → Proc α}
    (hfit : pl.sizeofPortMessage + n.toNat < 2 ^ 16) (hd : w.state.Holds data bs)
    (hn : bs.length = n.toNat)
    (hsend : ∀ q u, Built pl w u q bs → (send (some ⟨q, 0⟩)).safe (system pl A)
      (Adds (HandsOnly (frame pl bs)) w) (fun _ => Adds (HandsOnly (frame pl bs)) w) u) :
    (withPortMessage api pl data n fail send).safe (system pl A)
      (Adds (HandsOnly (frame pl bs)) w) (fun _ => Adds (HandsOnly (frame pl bs)) w) w := by
  have hsilent : ∀ u, Adds Silent w u → Adds (HandsOnly (frame pl bs)) w u := fun u h =>
    h.mono HandsOnly.of_silent
  refine withPortMessage_safe hfit hd hn hsilent (fun _ u _ _ => hsilent u) fun q u hu => ?_
  refine safe_imp (hsend q u hu) (fun _ h => h) fun a u' h _ => ?_
  have hfree : Adds (HandsOnly (frame pl bs)) w
      ((system pl A).next u' (.free api (some ⟨q, 0⟩)) ()) := h.next (HandsOnly.of_silent _ rfl)
  exact ⟨hfree, hfree⟩

theorem entry_hands (e : EntryPoint) {n : UInt16}
    (hfit : pl.sizeofPortMessage + n.toNat < 2 ^ 16) (hd : w.state.Holds data bs)
    (hn : bs.length = n.toNat) :
    (e.call pl data n).safe (system pl A)
      (Adds (HandsOnly (frame pl bs)) w) (fun _ => Adds (HandsOnly (frame pl bs)) w) w := by
  have hlen : pl.sizeofPortMessage + bs.length < 65536 := by omega
  cases e with
  | sendSynchronousRequest handle =>
    refine withPortMessage_hands hfit hd hn fun q u hu => ?_
    have hu₀ : Adds (HandsOnly (frame pl bs)) w u := hu.silent.mono HandsOnly.of_silent
    refine ⟨hu₀, fun r hr => ?_⟩
    have hu₁ := hu₀.next (S := system pl A) (o := .alpcSendWaitReceivePort _) (r := r)
      fun m hm => (Option.some.inj hm).symm.trans (hu.takes hlen hr.1.1)
    have hcopy : ∀ m, Adds (HandsOnly (frame pl bs)) w
        ((system pl A).next _ (.rtlCopyMemory data m n.toNat) ()) := fun m =>
      hu₁.next (HandsOnly.of_silent _ rfl)
    exact ⟨hu₁, fun _ _ => ⟨hcopy _, hcopy _⟩⟩
  | sendDatagram handle =>
    refine withPortMessage_hands hfit hd hn fun q u hu => ?_
    have hu₀ : Adds (HandsOnly (frame pl bs)) w u := hu.silent.mono HandsOnly.of_silent
    refine ⟨hu₀, fun r hr => ?_⟩
    have hu₁ := hu₀.next (S := system pl A) (o := .alpcSendWaitReceivePort _) (r := r)
      fun m hm => (Option.some.inj hm).symm.trans (hu.takes hlen hr.1.1)
    exact ⟨hu₁, hu₁⟩
  | connectServer name =>
    refine safe_bind (safe_mono (Q := fun _ => Adds (HandsOnly (frame pl bs)) w) ?_
      fun _ u hu => ⟨hu, hu⟩)
    refine withPortMessage_hands hfit hd hn fun q u hu => ?_
    have hu₀ : Adds (HandsOnly (frame pl bs)) w u := hu.silent.mono HandsOnly.of_silent
    refine ⟨hu₀, fun r hr => ?_⟩
    have hu₁ := hu₀.next (S := system pl A) (o := .alpcConnectPort _) (r := r)
      fun m hm => (Option.some.inj hm).symm.trans (hu.takes hlen hr.1.2.1)
    exact ⟨hu₁, hu₁⟩

-- ---------------------------------------------------------------------------
-- The receiving side
-- ---------------------------------------------------------------------------

/-- What the callback of an event saw begins with `bs`. -/
def Sees (bs : List UInt8) (e : Ev) : Prop := ∀ c ∈ Script.seen [e], Begins bs c

def Blind : Op → Prop
  | .onRequest .. | .onDatagram .. | .onConnect .. | .onDatagramBuffer .. | .onConnectBuffer .. =>
    False
  | _ => True

theorem Blind.sees {o : Op} (h : Blind o) (r : Ret o) : Sees bs ⟨o, r⟩ := by
  cases o with
  | onRequest | onDatagram | onConnect | onDatagramBuffer | onConnectBuffer => exact h.elim
  | _ => exact fun _ hc => absurd hc List.not_mem_nil

theorem blind_safe {p : Proc α} (hp : p.Uses Blind) (h : Adds (Sees bs) w v) :
    p.safe (system pl A) (Adds (Sees bs) w) (fun _ => Adds (Sees bs) w) v :=
  safe_of_uses hp (fun _ _ r ho _ hu => hu.next (ho.sees r)) (fun _ hu => hu) (fun _ _ hu => hu) h

theorem sees_message {e : Endpoint} {P : Process} {c : Contents} (h : Shows e bs P)
    (hc : ∀ size data, P.at? e.message = some (.buffer size data) → c = data) : Begins bs c := by
  obtain ⟨q, data, hm, hq, hdata⟩ := h
  have hat : P.at? e.message = some (.buffer e.capacity data) := by
    rw [hm]
    exact at?_live hq
  rw [hc _ data hat]
  exact hdata

theorem uaAlpcRequest_sees (h : Shows (endpoint pl server) bs w.state) :
    (uaAlpcRequest server).safe (system pl A) (Adds (Sees bs) w) (fun _ => Adds (Sees bs) w) w := by
  refine ⟨.refl w, fun r hr => blind_safe ⟨trivial, fun _ => trivial⟩ ((Adds.refl w).next ?_)⟩
  simpa [Sees, Script.seen] using sees_message h hr.1.2

theorem uaAlpcDatagram_sees (hs : Serving (endpoint pl server) w.state)
    (h : Shows (endpoint pl server) bs w.state) :
    (uaAlpcDatagram server).safe (system pl A) (Adds (Sees bs) w) (fun _ => Adds (Sees bs) w) w := by
  refine ⟨.refl w, fun r _ => ?_⟩
  have hnext : Adds (Sees bs) w ((system pl A).next w
      (.alpcGetMessageAttribute server.messageAttributes alpcMessageContextAttribute) r) :=
    (Adds.refl w).next (Blind.sees (o := .alpcGetMessageAttribute _ _) trivial r)
  have hshows : Shows (endpoint pl server) bs (w.state.effect pl
      (.alpcGetMessageAttribute server.messageAttributes alpcMessageContextAttribute) r) :=
    (effect_getMessageAttribute pl alpcMessageContextAttribute hs r).symm ▸ h
  change Prog.safe _ _ (if r = none then _ else _) _ _
  split
  · exact ⟨hnext, hnext⟩
  · refine ⟨hnext, fun c hc => blind_safe ⟨trivial, fun bs => ?_⟩ (hnext.next ?_)⟩
    · change Prog.Uses _ (if UInt16.ofNat (leNat bs) &&& lpcContinuationRequired ≠ 0 then _ else _)
      split
      · exact ⟨trivial, fun _ => trivial⟩
      · trivial
    · simpa [Sees, Script.seen] using sees_message hshows hc.1.2

theorem Blind.of_answersConnect (o : Op) (h : AnswersConnect o) : Blind o := by
  cases o with
  | onRequest | onDatagram | onConnect | onDatagramBuffer | onConnectBuffer => exact h
  | _ => trivial

theorem Blind.of_tearsDown (o : Op) (h : TearsDown o) : Blind o := by
  cases o with
  | onRequest | onDatagram | onConnect | onDatagramBuffer | onConnectBuffer => exact h
  | _ => trivial

theorem uaAlpcConnect_sees (h : Shows (endpoint pl server) bs w.state) :
    (uaAlpcConnect pl server).safe (system pl A) (Adds (Sees bs) w) (fun _ => Adds (Sees bs) w) w := by
  obtain ⟨k, hconnect, hanswers⟩ :
      ∃ k, uaAlpcConnect pl server = .call (.onConnect server.onConnect server.portMessage) k ∧
        ∀ answer, (k answer).Uses AnswersConnect := uaAlpcConnect_uses
  rw [hconnect]
  refine ⟨.refl w, fun r hr => ?_⟩
  refine blind_safe ((hanswers r).mono Blind.of_answersConnect) ((Adds.refl w).next ?_)
  simpa [Sees, Script.seen] using sees_message h hr.1.2

theorem uaDispatch_sees (hs : Serving (endpoint pl server) w.state)
    (h : Shows (endpoint pl server) bs w.state) :
    (uaDispatch pl server kind).safe (system pl A) (Adds (Sees bs) w) (fun _ => Adds (Sees bs) w)
      w := by
  refine safe_dispatch (fun _ => ?_) (fun _ => ?_) (fun _ => ?_) (fun _ => ?_) fun _ _ _ _ => ?_
  · exact uaAlpcRequest_sees h
  · exact uaAlpcDatagram_sees hs h
  · exact blind_safe (uaAlpcDisconnect_uses.mono Blind.of_tearsDown) (.refl w)
  · exact uaAlpcConnect_sees h
  · exact ⟨.refl w, .refl w⟩

def SeesReceived (pl : Platform) (server : ServerObject) (w v : World) : Prop :=
  v = w ∨ ∃ r, Adds (Sees r.written)
    ((system pl anyKernel).next w (.alpcSendWaitReceivePort (uaReceive pl server)) r) v

theorem uaServerWorker_sees (hs : Serving (endpoint pl server) w.state) :
    (uaServerWorker pl server).safe (system pl anyKernel) (SeesReceived pl server w)
      (fun _ => SeesReceived pl server w) w := by
  refine ⟨.inl rfl, fun r hr => ?_⟩
  obtain ⟨hk, hshows, -⟩ := keeps_receive hs hr.1
  have hreceived : ∀ v, Adds (Sees r.written)
      ((system pl anyKernel).next w (.alpcSendWaitReceivePort (uaReceive pl server)) r) v →
      SeesReceived pl server w v := fun v h => .inr ⟨r, h⟩
  change Prog.safe _ _ (if (!ntSuccess r.status) = true then _ else _) _ _
  split
  · exact ⟨hreceived _ (.refl _), hreceived _ (.refl _)⟩
  refine ⟨hreceived _ (.refl _), fun bs _ => ?_⟩
  let u := (system pl anyKernel).next
    ((system pl anyKernel).next w (.alpcSendWaitReceivePort (uaReceive pl server)) r)
    (.load server.portMessage PortMessage.offType 2) bs
  have hload : u.state = w.state.effect pl (.alpcSendWaitReceivePort (uaReceive pl server)) r :=
    effect_load pl (hs.keeps hk) (type_inside pl server) bs
  have hsees : ∀ v, Adds (Sees r.written) u v → SeesReceived pl server w v := fun v h =>
    hreceived v (((Adds.refl _).next (Blind.sees (o := .load _ _ _) trivial bs)).trans h)
  have hserving : Serving (endpoint pl server) u.state := hload ▸ hs.keeps hk
  have hshown : Shows (endpoint pl server) r.written u.state := hload ▸ hshows
  refine safe_bind (safe_imp (uaDispatch_sees hserving hshown) hsees fun status v _ h => ?_)
  split
  · exact ⟨hsees _ h, hsees _ h⟩
  · exact ⟨hsees _ h, hsees _ h⟩

theorem mem_seen {log : List Ev} : c ∈ Script.seen log ↔ ∃ e ∈ log, c ∈ Script.seen [e] := by
  simp only [Script.seen, List.mem_filterMap, List.mem_singleton, exists_eq_left]

/-- A callback of a server at work saw `c` in a round whose message the kernel
delivered for `msg`. -/
def Seen (pl : Platform) (msg : List UInt8) (c : Contents) : Prop :=
  ∃ server w v, Serving (endpoint pl server) w.state ∧
    During (system pl anyKernel) (uaServerWorker pl server) w v ∧
    (∀ r, ⟨.alpcSendWaitReceivePort (uaReceive pl server), r⟩ ∈ newEvents w v →
      Delivers pl msg r.written) ∧ c ∈ Script.seen (newEvents w v)

theorem Seen.transported (h : Seen pl msg c) (hlen : pl.sizeofPortMessage ≤ msg.length) :
    Transported pl msg c := by
  obtain ⟨server, w, v, hs, hrun, hdelivers, hc⟩ := h
  rcases safe_during (uaServerWorker_sees hs) hrun with rfl | ⟨r, new, hlog, hnew⟩
  · simp [newEvents, Script.seen] at hc
  have hround : v.log = (new ++ [⟨.alpcSendWaitReceivePort (uaReceive pl server), r⟩]) ++ w.log := by
    simp [hlog]
  rw [newEvents_eq hround] at hdelivers hc
  obtain ⟨e, he, hce⟩ := mem_seen.mp hc
  rcases List.mem_append.mp he with he | he
  · exact (hdelivers r (by simp)).transported (hnew e he c hce) hlen
  · rw [List.mem_singleton.mp he] at hce
    simp [Script.seen] at hce

def receiver : ServerObject where
  block := none
  portName := "port"
  onRequest := 1
  onDatagram := 2
  onConnect := 3
  portMessage := some ⟨⟨0, 0⟩, 0⟩
  portAttributes := ⟨0, 0⟩
  messageAttributes := some ⟨⟨1, 1⟩, 0⟩
  connectionPortHandle := some ⟨0, 0⟩
  serverThreadHandle := none

def receiverProcess (pl : Platform) : Process where
  heap := (Table.empty.acquire 0 (.buffer pl.alpcMaxAllowedMessageLength fun _ => 0)).acquire 1
    (.attributes 8 ⟨alpcMessageContextAttribute, none⟩)
  handles := Table.empty.acquire 0 .connectionPort
  faults := []

theorem receiver_serving (pl : Platform) : Serving (endpoint pl receiver) (receiverProcess pl) where
  message := ⟨⟨0, 0⟩, _, rfl, rfl⟩
  attributes := ⟨⟨1, 1⟩, 8, _, rfl, rfl, by decide⟩
  port := ⟨⟨0, 0⟩, rfl, rfl⟩

def asRequest (msg : List UInt8) : List UInt8 := (msg.set 4 lpcRequest).set 5 0

theorem asRequest_delivers (hlen : pl.sizeofPortMessage ≤ msg.length) :
    Delivers pl msg (asRequest msg) := by
  have hheader : 5 < pl.sizeofPortMessage := by cases pl <;> decide
  constructor
  case length => simp [asRequest]
  case lengths => simp [asRequest, List.take_set_of_le]
  case data => 
    rw [asRequest, List.drop_set_of_lt hheader, List.drop_set_of_lt (by omega)]

theorem asRequest_type (hlen : 6 ≤ msg.length) : ((asRequest msg).drop 4).take 2 = [1, 0] := by
  refine List.ext_getElem (by simp [asRequest]; omega) fun i _ hi => ?_
  have hi : i = 0 ∨ i = 1 := by simp at hi; omega
  rcases hi with rfl | rfl <;> simp [asRequest, lpcRequest]

/-- Whatever is sent, some callback sees. -/
theorem seen_exists (hlen : pl.sizeofPortMessage ≤ msg.length)
    (hle : msg.length ≤ pl.alpcMaxAllowedMessageLength) : ∃ c, Seen pl msg c := by
  have hheader : 6 ≤ pl.sizeofPortMessage := by cases pl <;> decide
  have hdelivers := asRequest_delivers hlen
  have hsame := hdelivers.length
  have hs := receiver_serving pl
  let r : Reply := ⟨statusSuccess, 0, [], asRequest msg, none⟩
  have hr : (receiverProcess pl).Legal pl (.alpcSendWaitReceivePort (uaReceive pl receiver)) r :=
    ⟨⟨fun _ => rfl, fun _ _ _ h => by cases h⟩, hsame ▸ hle, (fun h => by cases h),
      fun _ _ => hsame ▸ hlen⟩
  let P₁ := (receiverProcess pl).effect pl (.alpcSendWaitReceivePort (uaReceive pl receiver)) r
  obtain ⟨hk, ⟨q, data, hm, hq, hdata⟩, -⟩ := keeps_receive hs hr
  have hat : P₁.at? receiver.portMessage = some (.buffer pl.alpcMaxAllowedMessageLength data) := by
    rw [show receiver.portMessage = some ⟨q, 0⟩ from hm]
    exact at?_live hq
  have hload : P₁.Legal pl (.load receiver.portMessage PortMessage.offType 2) [1, 0] := by
    refine ⟨by decide, rfl, fun q' size data' hq' hdata' => ?_⟩
    cases hm.symm.trans hq'
    cases hat.symm.trans hdata'
    rw [Nat.zero_add]
    exact ((hdata 4 2 (by simp only [r]; omega)).trans (asRequest_type (by omega))).symm
  let P₂ := P₁.effect pl (.load receiver.portMessage PortMessage.offType 2) [1, 0]
  have hsame₂ : P₂ = P₁ := effect_load pl (hs.keeps hk) (type_inside pl receiver) [1, 0]
  have hcall : P₂.Legal pl (.onRequest receiver.onRequest receiver.portMessage) ⟨data, data⟩ := by
    refine ⟨by decide, fun size data' hdata' => ?_⟩
    rw [hsame₂] at hdata'
    cases hat.symm.trans hdata'
    rfl
  let events : List Ev := [⟨.onRequest receiver.onRequest receiver.portMessage, ⟨data, data⟩⟩,
    ⟨.load receiver.portMessage PortMessage.offType 2, [1, 0]⟩,
    ⟨.alpcSendWaitReceivePort (uaReceive pl receiver), r⟩]
  have hevents : ∀ P, newEvents ⟨receiverProcess pl, []⟩ ⟨P, events⟩ = events := fun P =>
    newEvents_eq (List.append_nil _).symm
  refine ⟨data, receiver, ⟨receiverProcess pl, []⟩, ⟨_, events⟩, hs, .call (r := r) ⟨hr, trivial⟩
    (.call (r := [1, 0]) ⟨hload, trivial⟩ (.call (r := ⟨data, data⟩) ⟨hcall, trivial⟩ .here)), ?_, ?_⟩
  · intro r' hr'
    rw [hevents] at hr'
    simp only [events, List.mem_cons, Event.mk.injEq, reduceCtorEq, false_and, false_or,
      List.not_mem_nil, or_false, true_and, heq_eq_eq] at hr'
    rw [hr']
    exact hdelivers
  · rw [hevents]
    simp [events, Script.seen]

-- ---------------------------------------------------------------------------
-- Both sides
-- ---------------------------------------------------------------------------

/-- Every message handed over is the frame of the data, whatever the heaps held
before; and the callbacks that see it, of which there are some, read both
lengths and the data back exactly if the message is at most 32767 bytes long. -/
theorem framing_round_trip (e : EntryPoint) {n : UInt16} {data : PVoid} {event : Ev}
    (hfit : pl.sizeofPortMessage + n.toNat ≤ pl.alpcMaxAllowedMessageLength)
    (hdata : w.state.Holds data bs) (hn : bs.length = n.toNat)
    (hrun : During (system pl anyKernel) (e.call pl data n) w v) (hevent : event ∈ newEvents w v)
    (hmsg : handed event = some msg) :
    msg = frame pl bs ∧ (∃ c, Seen pl msg c) ∧ ∀ c, Seen pl msg c →
      (readMessage pl c = ⟨n.toNat, (pl.sizeofPortMessage + n.toNat : Nat), bs⟩ ↔
        pl.sizeofPortMessage + n.toNat < 32768) := by
  have hmax := pl.alpcMax_lt
  obtain ⟨new, hlog, hnew⟩ := safe_during (entry_hands e (by omega) hdata hn) hrun
  have hframe : msg = frame pl bs := by
    rw [newEvents_eq hlog] at hevent
    exact hnew event hevent msg hmsg
  subst hframe
  refine ⟨rfl, seen_exists (by simp) (by simp; omega), fun c hc => ?_⟩
  have htransported := hc.transported (by simp)
  rw [← hn] at hfit ⊢
  exact readMessage_iff (by omega) htransported

theorem callerWith_holds (n : Nat) :
    (callerWith n).state.Holds callerData (List.replicate n 0) := by
  refine .inr ⟨⟨⟨0, 0⟩, 0⟩, n, fun _ => 0, rfl, rfl, by simp, ?_⟩
  simp [Contents.slice, List.map_const']

theorem sendBytes_hands (h : ((sendBytes n).any fun r =>
      (newEvents (callerWith n.toNat) r.2).any fun e => (handed e).isSome) = true) :
    ∃ w' event msg,
      During (system .x64 anyKernel) ((EntryPoint.sendDatagram none).call .x64 callerData n)
        (callerWith n.toNat) w' ∧
      event ∈ newEvents (callerWith n.toNat) w' ∧ handed event = some msg := by
  obtain ⟨⟨status, w'⟩, hrun, hany⟩ := (Option.any_eq_true _ _).mp h
  obtain ⟨event, hevent, hsome⟩ := List.any_eq_true.mp hany
  obtain ⟨msg, hmsg⟩ := Option.isSome_iff_exists.mp hsome
  exact ⟨w', event, msg, (sendBytes_ends hrun).during, hevent, hmsg⟩

theorem framing_round_trip_short : ∃ w' event msg,
    event ∈ newEvents (callerWith 3) w' ∧ handed event = some msg ∧
    msg = frame .x64 [0, 0, 0] ∧ (∃ c, Seen .x64 msg c) ∧ ∀ c, Seen .x64 msg c →
      (readMessage .x64 c = ⟨3, 43, [0, 0, 0]⟩ ↔ 43 < 32768) := by
  obtain ⟨w', event, msg, hrun, hevent, hmsg⟩ := sendBytes_hands (n := 3) (by decide)
  exact ⟨w', event, msg, hevent, hmsg,
    framing_round_trip _ (by decide) (callerWith_holds 3) rfl hrun hevent hmsg⟩

/-- 32728 bytes on x64: the whole message is 32768 bytes long, and its
`TotalLength` is read as a negative number. -/
theorem framing_round_trip_breaks : ∃ w' event msg c,
    During (system .x64 anyKernel) ((EntryPoint.sendDatagram none).call .x64 callerData 32728)
      (callerWith 32728) w' ∧
    event ∈ newEvents (callerWith 32728) w' ∧ handed event = some msg ∧ Seen .x64 msg c ∧
    (readMessage .x64 c).totalLength ≠ 32768 := by
  obtain ⟨w', event, msg, hrun, hevent, hmsg⟩ := sendBytes_hands (n := 32728) (by decide)
  have hdata := callerWith_holds 32728
  have hlength : (List.replicate 32728 (0 : UInt8)).length = 32728 := List.length_replicate
  obtain ⟨new, hlog, hnew⟩ := safe_during
    (entry_hands (n := 32728) _ (by decide) hdata hlength) hrun
  have hframe : msg = frame .x64 (List.replicate 32728 0) := by
    have hmem : event ∈ new := newEvents_eq hlog ▸ hevent
    exact hnew event hmem msg hmsg
  subst hframe
  obtain ⟨c, hc⟩ : ∃ c, Seen .x64 (frame .x64 (List.replicate 32728 0)) c :=
    seen_exists (by rw [length_frame]; omega) (by rw [length_frame, hlength]; decide)
  have htransported := hc.transported (by rw [length_frame]; omega)
  have hnegative := readMessage_large (by rw [hlength]; decide) (by rw [hlength]; decide) htransported
  exact ⟨w', event, _, c, hrun, hevent, hmsg, hc, by omega⟩

end AlpcResearch.Ua
