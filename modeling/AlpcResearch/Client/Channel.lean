import AlpcResearch.Channel.Delivery
import AlpcResearch.Channel.Exchange
import AlpcResearch.Channel.Records
import AlpcResearch.Client.Results
import AlpcResearch.Server.Channel
import AlpcResearch.Server.Reports

/-!
# The built program: tests and their server

Clients that run the tests of `client.c`, one after the other, against the
worker of `server.c`. What the port takes from a client are the numbers its
tests have counted, in order; the server receives each of them once, and prints
a line for those that are multiples of 1000000.
-/

namespace AlpcResearch.Client

open Resource Program Process
open Rpc (Party isSync kindSent arrivalOf refusal refusal_legal refusal_status)
open Channel hiding Opens
open Server (Worker AtReceive endpoint printed due quadPart BringsCounter AllReported srvServerWorker)

/-- A test with its arguments; the local variable lies at the start of
`counter`. -/
structure Test where
  client : TestClient
  bound : Int64
  portName : String
  counter : Ref

def TestClient.kind : TestClient → UInt8
  | .datagram => lpcDatagram
  | .syncRequest => lpcRequest

/-- One round more than it counts to is enough for it to return. -/
def Test.run (pl : Platform) (maxLength : Nat) (t : Test) : Proc NtStatus := do
  let result ← t.client.run pl maxLength t.bound t.portName (some ⟨t.counter, 0⟩) (total t.bound + 1)
  return result.getD statusSuccess

def Test.script (pl : Platform) (t : Test) : List Parcel :=
  (List.range (total t.bound)).map fun k => (t.client.kind, frame pl (leBytes 8 k))

abbrev scripts {κ : Type} (pl : Platform) (tests : κ → Test) (c : κ) : List Parcel :=
  (tests c).script pl

variable {κ : Type} {pl : Platform} {A : Assumption} {maxLength fuel : Nat} {bound : Int64}
variable {tests : κ → Test} {t : Test} {w v u : World} {b q : Ref} {call : SendWaitReceive}
variable {kind : UInt8} {k : Nat}

theorem Test.take_script (hk : k ≤ total t.bound) : (t.script pl).take k =
    (List.range k).map fun n => (t.client.kind, frame pl (leBytes 8 n)) := by
  rw [Test.script, ← List.map_take, List.take_range, Nat.min_eq_left hk]

theorem mem_scripts {c : κ} {p : Parcel} (h : p ∈ scripts pl tests c) :
    ∃ k < total (tests c).bound, p = ((tests c).client.kind, frame pl (leBytes 8 k)) := by
  obtain ⟨k, hk, rfl⟩ := List.mem_map.mp h
  exact ⟨k, List.mem_range.mp hk, rfl⟩

-- ---------------------------------------------------------------------------
-- A client alone
-- ---------------------------------------------------------------------------

def SendsAs (kind : UInt8) (o : Op) : Prop := ∀ a, o = .alpcSendWaitReceivePort a → kindSent a = kind

/-- An operation of a client between the allocation of its buffer and the
release. -/
def Between (kind : UInt8) (o : Op) : Prop := SendsAs kind o ∧ ¬ ChangesBlocks o

/-- No block has gone. -/
def Kept (w v : World) : Prop := ∀ b l, w.state.layoutOf b = some l → v.state.layoutOf b = some l

/-- Since `w`, what was sent was sent under the one type, no block has gone,
and one has come. -/
structure Buffered (kind : UInt8) (w : World) (q : Ref) (maxLength : Nat) (v : World) : Prop where
  sends : Adds (fun e => SendsAs kind e.op) w v
  kept : Kept w v
  fresh : w.state.layoutOf q = none
  message : v.state.layoutOf q = some (.buffer maxLength)

theorem Buffered.start {obj : Object} (ha : Adds (fun e => SendsAs kind e.op) w v)
    (hkept : ∀ b, u.state.layoutOf b = w.state.layoutOf b)
    (hnew : NewBlock u.state v.state q obj) (hobj : obj.layout = .buffer maxLength) :
    Buffered kind w q maxLength v := by
  have hfree : u.state.layoutOf q = none := layoutOf_none.mpr hnew.free
  exact {
    sends := ha
    fresh := (hkept q).symm.trans hfree
    kept := fun b l hb => by
      have hu := (hkept b).trans hb
      have hne : b ≠ q := by
        rintro rfl
        cases hfree.symm.trans hu
      exact (hnew.layouts b).trans ((if_neg hne).trans hu)
    message := (hnew.layouts q).trans ((if_pos rfl).trans (congrArg some hobj)) }

theorem Buffered.next {o : Op} (h : Buffered kind w q maxLength v) (ho : Between kind o)
    (r : Ret o) : Buffered kind w q maxLength ((system pl A).next v o r) where
  sends := h.sends.next ho.1
  kept b l hb := (layoutOf_effect ho.2).trans (h.kept b l hb)
  fresh := h.fresh
  message := (layoutOf_effect ho.2).trans h.message

theorem between_mute {o : Op} (ho : ∀ a, o ≠ .alpcSendWaitReceivePort a) (hb : ¬ ChangesBlocks o) :
    Between kind o :=
  ⟨fun a he => absurd he (ho a), hb⟩

theorem initializePortMessage_between (p data : PVoid) (n : Int16) :
    (initializePortMessage pl p data n).Uses (Between kind) := by
  rw [initializePortMessage_eq]
  refine ⟨between_mute (by simp) id, fun _ => ⟨between_mute (by simp) id, fun _ =>
    ⟨between_mute (by simp) id, fun _ => ?_⟩⟩⟩
  split
  · exact ⟨between_mute (by simp) id, fun _ => trivial⟩
  · trivial

theorem cliRound_between (hcall : kindSent call = kind) (counter portMessage : PVoid) :
    (cliRound pl bound counter portMessage call).Uses (Between kind) := by
  refine ⟨between_mute (by simp) id, fun bs => ?_⟩
  change Prog.Uses _ (if Server.quadPart bs < bound.toInt then _ else _)
  split
  · refine uses_bind (initializePortMessage_between _ counter 8) fun _ => ⟨⟨?_, id⟩, fun _ => ?_⟩
    · rintro a ⟨⟩
      exact hcall
    · exact ⟨between_mute (by simp) id, fun _ => ⟨between_mute (by simp) id, fun _ => trivial⟩⟩
  · trivial

theorem Buffered.run {p : Proc α} (hp : p.Uses (Between kind)) (h : Buffered kind w q maxLength v) :
    p.safe (system pl A) (fun u => Adds (fun e => SendsAs kind e.op) w u)
      (fun _ u => Buffered kind w q maxLength u) v :=
  safe_of_uses hp (fun _ _ r ho _ hu => hu.next ho r) (fun _ hu => hu.sends) (fun _ _ hu => hu) h

/-- A client's last call. -/
theorem Buffered.free (h : Buffered kind w q maxLength v) (a : α) :
    (free .processHeap (some ⟨q, 0⟩) >>= fun _ => Prog.ret a).safe (system pl A)
      (fun u => Adds (fun e => SendsAs kind e.op) w u) (fun _ => Kept w) v := by
  refine ⟨h.sends, fun _ _ => ⟨h.sends.next (by simp [SendsAs]), fun b l hb => ?_⟩⟩
  have hfreed : (v.state.effect pl (.free .processHeap (some ⟨q, 0⟩)) ()).layoutOf b =
      if b = q then none else v.state.layoutOf b := layoutOf_free h.message
  have hne : b ≠ q := by
    rintro rfl
    cases h.fresh.symm.trans hb
  exact hfreed.trans ((if_neg hne).trans (h.kept b l hb))

/-- Everything is sent under the one type, and no block of the caller's goes. -/
theorem cliTest_keeps {counter : PVoid} {call : SendCall}
    (hcall : ∀ h p, kindSent (call h p) = kind) :
    (cliTest pl maxLength bound portName counter call fuel).safe (system pl A)
      (fun u => Adds (fun e => SendsAs kind e.op) w u) (fun _ => Kept w) w := by
  have a₀ : Adds (fun e => SendsAs kind e.op) w w := .refl w
  refine ⟨a₀, fun _ _ => ?_⟩
  let w₁ := (system pl A).next w (.store counter 0 (quadBytes 0)) ()
  have a₁ : Adds (fun e => SendsAs kind e.op) w w₁ := a₀.next (by simp [SendsAs])
  have hkept : ∀ b, w₁.state.layoutOf b = w.state.layoutOf b := fun b => layoutOf_effect id
  refine ⟨a₁, fun r hr => ?_⟩
  let w₂ := (system pl A).next w₁ (.allocate .processHeap (.buffer maxLength)) r
  have a₂ : Adds (fun e => SendsAs kind e.op) w w₂ := a₁.next (by simp [SendsAs])
  change Prog.safe _ _ (if r.pointer = none then _ else _) _ _
  cases hp : r.pointer with
  | none =>
    refine ⟨a₂, fun b l hb => ?_⟩
    have hsame : w₂.state.heap = w₁.state.heap := by
      simp only [w₂, next_state, system, effect, heapAfter, hp]
    have hlayout : w₂.state.layoutOf b = w₁.state.layoutOf b := by simp only [layoutOf, hsame]
    exact hlayout.trans ((hkept b).trans hb)
  | some p =>
    obtain ⟨q, rfl, hnew⟩ := newBlock_allocate hr.1 hp
    have h₂ : Buffered kind w q maxLength w₂ := .start a₂ hkept hnew hr.1.1
    simp only [reduceCtorEq, if_false]
    refine safe_bind (safe_mono (h₂.run (initializePortMessage_between _ _ _)) fun _ u hu => ?_)
    refine ⟨hu.sends, fun reply _ => ?_⟩
    have h₄ : Buffered kind w q maxLength ((system pl A).next u
        (.alpcConnectPort (cliConnect maxLength portName (some ⟨q, 0⟩))) reply) :=
      hu.next (between_mute (by simp) id) reply
    refine safe_ifFailed (fun hs => ?_) fun _ => h₄.free (some reply.status)
    have hloop : ((cliRound pl bound counter (some ⟨q, 0⟩)
        (call reply.handle (some ⟨q, 0⟩))).loop fuel).Uses (Between kind) :=
      uses_loop (cliRound_between (hcall _ _) _ _)
    refine safe_bind (safe_mono (h₄.run hloop) fun left u hu => ?_)
    cases left with
    | none => exact ⟨hu.sends, hu.kept⟩
    | some =>
      refine ⟨hu.sends, fun status _ => ?_⟩
      have hclosed : Buffered kind w q maxLength ((system pl A).next u (.close reply.handle) status) :=
        hu.next (between_mute (by simp) id) status
      exact hclosed.free (some statusSuccess)

/-- What has been sent since `w`, if it is the first messages of a test. -/
theorem offers_requests {bufferLength : Option Nat}
    (h : Picks sending (requests pl bufferLength k) w v)
    (hkind : Adds (fun e => SendsAs kind e.op) w v) :
    offers v.log = offers w.log ++ (List.range k).map fun n => (kind, frame pl (leBytes 8 n)) := by
  obtain ⟨new, hlog, hsends⟩ := hkind
  have hrequests := h.eq
  rw [newEvents_eq hlog] at hrequests
  have hoffers : new.filterMap offerOf =
      (new.filterMap sending).map fun s => (kind, s.message) := by
    rw [List.map_filterMap]
    refine List.filterMap_congr fun e he => ?_
    have hsame := hsends e he
    obtain ⟨o, r⟩ := e
    cases o with
    | alpcSendWaitReceivePort a =>
      simp only [offerOf, sending, hsame a rfl]
      split <;> rfl
    | _ => rfl
  rw [offers, hlog, List.filterMap_append, List.reverse_append, ← offers, hoffers, hrequests,
    requests, List.map_reverse, List.reverse_reverse, List.map_map]
  rfl

theorem datagramCall_kind (h : Handle) (p : PVoid) :
    kindSent (datagramCall h p) = TestClient.datagram.kind := by
  have hflag : alpcMsgflgReleaseMessage &&& alpcMsgflgSyncRequest = 0 := by decide
  simp [kindSent, isSync, datagramCall, hflag, TestClient.kind]

theorem syncRequestCall_kind (h : Handle) (p : PVoid) :
    kindSent (syncRequestCall maxLength h p) = TestClient.syncRequest.kind := by
  have hflag : alpcMsgflgSyncRequest ≠ 0 := by decide
  simp [kindSent, isSync, syncRequestCall, hflag, TestClient.kind]

def HasCounters (tests : κ → Test) (v : World) : Prop :=
  ∀ c, v.state.layoutOf (tests c).counter = some (.buffer 8)

/-- A test hands over its numbers, and when it returns all of them or, if it has
failed, none. -/
theorem Test.run_hands (hmax : pl.sizeofPortMessage + 8 ≤ maxLength) :
    HandsOver pl (scripts pl tests) (HasCounters tests) fun c => (tests c).run pl maxLength := by
  intro c v h
  have hsent : ∃ bufferLength, ((tests c).client.run pl maxLength (tests c).bound (tests c).portName
      (some ⟨(tests c).counter, 0⟩) (total (tests c).bound + 1)).safe (system pl anyKernel)
      (fun u => (∃ k ≤ total (tests c).bound, Picks sending (requests pl bufferLength k) v u) ∧
        Adds (fun e => SendsAs (tests c).client.kind e.op) v u)
      (fun result u => SentAll pl (tests c).bound bufferLength v (total (tests c).bound + 1) result u ∧
        Kept v u) v := by
    cases (tests c).client with
    | datagram =>
      exact ⟨none, safe_both (cliTest_safe hmax (h c) fun h q => ⟨datagramCall_sends h q, rfl⟩)
        (cliTest_keeps datagramCall_kind)⟩
    | syncRequest =>
      exact ⟨some maxLength, safe_both (cliTestSyncRequest_safe hmax (h c))
        (cliTest_keeps syncRequestCall_kind)⟩
  obtain ⟨bufferLength, hsent⟩ := hsent
  have hoffers : ∀ k u, k ≤ total (tests c).bound →
      Picks sending (requests pl bufferLength k) v u →
      Adds (fun e => SendsAs (tests c).client.kind e.op) v u →
      offers u.log = offers v.log ++ ((tests c).script pl).take k := fun k u hk hpicks hkind => by
    rw [Test.take_script hk]
    exact offers_requests hpicks hkind
  have hbegun : ∀ u, (∃ k ≤ total (tests c).bound, Picks sending (requests pl bufferLength k) v u) ∧
      Adds (fun e => SendsAs (tests c).client.kind e.op) v u →
      ∃ n, offers u.log = offers v.log ++ ((tests c).script pl).take n :=
    fun u ⟨⟨k, hk, hpicks⟩, hkind⟩ => ⟨k, hoffers k u hk hpicks hkind⟩
  refine safe_bind (safe_imp hsent hbegun fun result u hI ⟨hall, hkept⟩ => ⟨hbegun u hI, ?_⟩)
  refine ⟨fun c' => hkept _ _ (h c'), ?_⟩
  cases result with
  | none => exact absurd hall (Nat.not_succ_le_self _)
  | some status =>
    have hall : Picks sending
        (requests pl bufferLength (if ntSuccess status then total (tests c).bound else 0)) v u := hall
    simp only [Option.getD_some, handedOver]
    split
    · rename_i hs
      rw [if_pos hs] at hall
      rw [hoffers _ u (Nat.le_refl _) hall hI.2, List.take_of_length_le (by simp [Test.script])]
    · rename_i hs
      rw [if_neg hs] at hall
      exact hoffers 0 u (Nat.zero_le _) hall hI.2

-- ---------------------------------------------------------------------------
-- The lines
-- ---------------------------------------------------------------------------

/-- The line for the message of round `k`, if one is due. -/
def Test.line (t : Test) (k : Nat) : List (String × Int) :=
  if k % 1000000 = 0 then [(Server.reportText t.client.kind, k)] else []

theorem TestClient.kind_cases (client : TestClient) :
    client.kind = lpcRequest ∨ client.kind = lpcDatagram := by
  cases client with
  | datagram => exact .inr rfl
  | syncRequest => exact .inl rfl

theorem bodyOf_frame (bs : List UInt8) : bodyOf pl (frame pl bs) = bs := by
  have hheader : 4 ≤ pl.sizeofPortMessage := by cases pl <;> decide
  rw [bodyOf, frame]
  exact List.drop_left' (by simp; omega)

variable {ι : Type} [DecidableEq ι] {site : Site ι} {n : NetWorld ι} {P₀ : Process}

omit [DecidableEq ι] in
/-- What is due for a test's message as it arrives. -/
theorem due_arrived {m : Packet ι} {written : List UInt8} (h : m.ArrivesAs pl site written)
    (hk : k < 2 ^ 63) (hm : m.parcel = (t.client.kind, frame pl (leBytes 8 k))) :
    due pl written = t.line k := by
  have hkind : kindOf pl written = t.client.kind := h.kind.trans (congrArg Prod.fst hm)
  have hbytes : m.bytes = frame pl (leBytes 8 k) := congrArg Prod.snd hm
  have hbody : bodyOf pl written = leBytes 8 k := by
    have hdata : bodyOf pl written = bodyOf pl m.bytes := h.delivers.data
    rw [hdata, hbytes, bodyOf_frame]
  have hsent : Server.IsSent pl written := by
    unfold Server.IsSent
    rw [hkind]
    exact t.client.kind_cases
  have hquad : quadPart ((bodyOf pl written).take 8) = k := by
    rw [hbody, List.take_of_length_le (by simp), quadPart_leBytes hk]
  have hreported : Server.isReported k = decide (k % 1000000 = 0) := by
    unfold Server.isReported
    rw [Int.tmod_eq_emod_of_nonneg (Int.natCast_nonneg k)]
    exact decide_eq_decide.mpr (by omega)
  rw [due, if_pos hsent, Server.reportOf, hquad, hreported, hkind, Test.line]
  by_cases hzero : k % 1000000 = 0 <;> simp [hzero]

-- ---------------------------------------------------------------------------
-- All interleavings
-- ---------------------------------------------------------------------------

structure Reporting (pl : Platform) (maxLength : Nat) (worker : Worker) (P₀ : Process)
    (w : World) : Prop extends AtReceive pl maxLength worker ⟨P₀, []⟩ w where
  orderly : Orderly pl w
  reported : AllReported pl w.log

theorem srvServerWorker_reporting {worker : Worker} (hmax : pl.sizeofPortMessage + 8 ≤ maxLength)
    (hw : Reporting pl maxLength worker P₀ w) :
    (srvServerWorker pl maxLength worker).safe
      (system pl ((peers pl).and (receives (BringsCounter pl))))
      (fun u => Orderly pl u ∧ u.state.faults = P₀.faults)
      (After (Reporting pl maxLength worker P₀) fun _ _ => True) w := by
  let A := (peers pl).and (receives (BringsCounter pl))
  have hreturns := Server.srvServerWorker_returns (A := A) hmax (fun _ _ _ h => h.1.1) hw.toAtReceive
  have horderly := Server.srvServerWorker_orderly (A := A) hmax hw.toAtReceive hw.orderly
  have hreports := Server.srvServerWorker_reports (A := A) (fun _ _ _ h => h.2) hw.toAtReceive
  refine safe_imp (safe_both hreturns (safe_both horderly hreports)) ?_ ?_
  · rintro u ⟨hf, ho, -⟩
    exact ⟨ho, hf⟩
  · rintro (_ | status) u - ⟨hreceive, ho, hafter⟩
    · obtain ⟨msg, hreported⟩ := hafter
      exact ⟨hreceive, ho, hw.reported.next hreported⟩
    · trivial

def testing (pl : Platform) (tests : κ → Test) (P₀ : Process) (J : World → Prop) : Roles ι where
  shared := Conveys (OfScripts (scripts pl tests))
  message := BringsCounter pl
  server u := u.state.faults = P₀.faults
  between := J
  left _ _ := True
  client u := OfScripts (scripts pl tests) (offers u.log)
  idle := Idle (scripts pl tests) (HasCounters tests)

theorem testing_scripted (J : World → Prop) :
    Scripted (testing pl tests P₀ J : Roles ι) (OfScripts (scripts pl tests)) :=
  ⟨rfl, fun _ h => h⟩

/-- What a test sends brings a counter. -/
theorem bringsCounter_of_test {m : Packet ι} {written : List UInt8}
    (h : Conveys (OfScripts (scripts pl tests)) n) (hm : m ∈ n.state.packets)
    (ha : m.ArrivesAs pl site written) : BringsCounter pl written := by
  intro hsent
  have hkind : m.isSent = true := by
    rcases hsent with hk | hk <;> simp [Packet.isSent, ha.kind.symm.trans hk]
  obtain ⟨parcels, htests, hmem⟩ := h.mem_script hm hkind
  obtain ⟨c, hc⟩ := htests _ hmem
  obtain ⟨k, -, hparcel⟩ := mem_scripts hc
  have hbytes : m.bytes = frame pl (leBytes 8 k) := congrArg Prod.snd hparcel
  rw [ha.delivers.length, hbytes]
  simp

theorem testing_played {J : World → Prop} (hmax : pl.sizeofPortMessage + 8 ≤ maxLength)
    (hround : ∀ v, J v → site.worker.safe (system pl ((peers pl).and (receives (BringsCounter pl))))
      (fun u => Orderly pl u ∧ u.state.faults = P₀.faults) (After J fun _ _ => True) v) :
    (testing pl tests P₀ J).Played pl site fun c => (tests c).run pl maxLength where
  round := hround
  run c v hv := (Test.run_hands hmax).keeps c hv
  idle _ h := h.offers
  arrives w _ h m rest hqueue written ha :=
    bringsCounter_of_test h (by simp [Net.packets, hqueue]) ha
  issue := (testing_scripted J).issue
  await := (testing_scripted J).await

theorem Reporting.start {worker : Worker} (h : Serving (endpoint maxLength worker) P₀) :
    Reporting pl maxLength worker P₀ ⟨P₀, []⟩ where
  toAtReceive := .start h
  orderly := .start P₀
  reported := by simp [AllReported]

structure Delivered (pl : Platform) (tests : κ → Test) (P : RecordedPool ι κ) : Prop where
  /-- A client has handed over what its tests have counted, -/
  handed : Handed (scripts pl tests) P
  /-- the port has taken this, but for what was refused, in this order, -/
  taken : ∀ i, (P.world.state.sent i).Sublist
    (offers (view (.client i) P.world).log ++ P.world.state.pending i)
  /-- and has lost nothing that was accepted; -/
  kept : ∀ i, (acceptances (view (.client i) P.world).log).Sublist (P.world.state.sent i)
  /-- the server has received what the port has taken, up to what is queued, -/
  received : (view .server P.world).log.filterMap arrivalOf = P.world.state.received.map Prod.snd
  /-- and a line is due for a number if it is a multiple of 1000000. -/
  lines : ∀ x ∈ P.world.state.received, x.1.isSent = true → ∃ c k, k < total (tests c).bound ∧
    x.1.parcel = ((tests c).client.kind, frame pl (leBytes 8 k)) ∧ due pl x.2 = (tests c).line k

variable {P Q : RecordedPool ι κ}

theorem delivered_of_conveys (h : Conveys (OfScripts (scripts pl tests)) P.world)
    (hw : Common pl site P.world) (hhanded : Handed (scripts pl tests) P) :
    Delivered pl tests P where
  handed := hhanded
  taken := h.offered
  kept i := (List.sublist_append_left _ _).trans (h.accepted i)
  received := h.arrivals
  lines := by
    rintro ⟨m, written⟩ hx hsent
    have hm : m ∈ P.world.state.packets := by
      have hreceived : m ∈ P.world.state.received.map Prod.fst := List.mem_map_of_mem hx
      simp only [Net.packets, List.mem_append, List.mem_reverse]
      exact .inl hreceived
    obtain ⟨parcels, htests, hmem⟩ := h.mem_script hm hsent
    obtain ⟨c, hc⟩ := htests _ hmem
    obtain ⟨k, hk, hparcel⟩ := mem_scripts hc
    have htotal : total (tests c).bound < 2 ^ 63 := total_lt
    exact ⟨c, k, hk, hparcel, due_arrived (hw.sound.arrived m written hx) (by omega) hparcel⟩

/-- Whoever runs which tests, and however that is interleaved: no number is
lost, doubled or overtaken between a client's call and the server's receive,
and at a receive the server has printed the lines due for what it has received,
in that order, and nothing else. -/
theorem tests_reported {worker : Worker} (hmax : pl.sizeofPortMessage + 8 ≤ maxLength)
    (hs : Serving (endpoint maxLength worker) P₀)
    (hworker : site.worker = srvServerWorker pl maxLength worker) (h₀ : OpensRecording P₀ Q)
    (hcounters : ∀ i, HasCounters tests (view (.client i) Q.world))
    (h : (channel pl site fun c => (tests c).run pl maxLength).recording.Reaches anyStep Q P) :
    Delivered pl tests P ∧ ∀ task, P.threads .server = (task, .ret .again) →
      (view .server P.world).log.filterMap printed =
        P.world.state.received.flatMap fun x => due pl x.2 := by
  have hplayed : (testing pl tests P₀ (Reporting pl maxLength worker P₀)).Played pl site
      fun c => (tests c).run pl maxLength :=
    testing_played hmax fun v hv => hworker ▸ srvServerWorker_reporting hmax hv
  have hidle : ∀ i, Idle (scripts pl tests) (HasCounters tests) (view (.client i) Q.world) :=
    fun i => ⟨hcounters i, h₀.offers i ▸ OfScripts.nil⟩
  have hconveys : Conveys (OfScripts (scripts pl tests)) Q.world := h₀.toOpens.conveys OfScripts.nil
  have hreached := hplayed.runs h₀ hconveys (.start hs) hidle (Test.run_hands hmax).follows
    (fun i => ⟨hcounters i, h₀.offers i⟩) h
  have hholds := hplayed.reaches h₀.toOpens hconveys (.start hs) hidle (recording_reaches h)
  have hshared : Conveys (OfScripts (scripts pl tests)) P.world := hholds.shared
  refine ⟨delivered_of_conveys hshared hholds.common hreached.handed, fun task ht => ?_⟩
  have hended : Reporting pl maxLength worker P₀ (view .server P.world) :=
    hholds.ended task.1 _ (bare_threads ht)
  rw [hended.reported, hshared.arrivals, List.flatMap_map]

/-- One client counts datagrams to 2, the other requests to 1. -/
def testOf (sync : Bool) : Test where
  client := if sync then .syncRequest else .datagram
  bound := if sync then 1 else 2
  portName := "port"
  counter := ⟨0, 0⟩

def beforeTests : RecordedPool Bool Bool where
  world := ⟨{ (beforeTwo (Ua.receiverProcess .x64)).world.state with process := fun
    | .server => Ua.receiverProcess .x64
    | .client _ => withCounter.state }, []⟩
  threads _ := ((.serve, []), .ret .again)

/-- All three numbers are waiting when the worker gets to them. -/
theorem tests_reported_two : ∃ P : RecordedPool Bool Bool,
    Delivered .x64 testOf P ∧
      (∃ task, P.threads .server = (task, .ret .again)) ∧
      (view .server P.world).log.filterMap printed =
        P.world.state.received.flatMap (fun x => due .x64 x.2) ∧
      (∀ i, (P.returned (.client i)).map Prod.snd = some (.leave statusSuccess)) ∧
      (view .server P.world).log.filterMap printed =
        [("Request Receive Counter %lld.\n", 0), ("Datagram Receive Counter %lld.\n", 0)] := by
  let site := portOfTwo (srvServerWorker .x64 0xFFFF Server.receiver)
  let turns : List (Turn (Party Bool) (Channel.Task Bool)) :=
    List.flatten [
      Turn.calling (.client false) (.run false) 11, Turn.calling (.client true) (.run true) 11,
      Turn.calling .server .serve 14, Turn.calling .server .serve 14,
      Turn.acting (.client false) 28, Turn.acting (.client true) 12,
      Turn.calling .server .serve 14, Turn.calling .server .serve 12,
      Turn.calling .server .serve 14, Turn.acting (.client true) 11,
      Turn.acting (.client false) 11]
  have hrun : ((channel .x64 site fun c => (testOf c).run .x64 0xFFFF).play
      (exchange Bool .x64 site [false, true]) turns beforeTests.bare).any (fun P =>
        (P.returned .server).map Prod.snd = some .again &&
        (decide (∀ i, (P.returned (.client i)).map Prod.snd = some (.leave statusSuccess)) &&
        (view .server P.world).log.filterMap printed =
          [("Request Receive Counter %lld.\n", 0), ("Datagram Receive Counter %lld.\n", 0)])) := by
    decide +kernel
  obtain ⟨_, hP, hstate⟩ := (Option.any_eq_true _ _).mp hrun
  obtain ⟨P, hreach, rfl⟩ := exists_recorded (play_reaches exchange_sound hP)
  obtain ⟨hreturned, hstate⟩ := Bool.and_eq_true .. ▸ hstate
  obtain ⟨hleft, hlines⟩ := Bool.and_eq_true .. ▸ hstate
  have hreturned := (bare_returned P .server).symm.trans (of_decide_eq_true hreturned)
  obtain ⟨task, ht⟩ := threads_of_returned hreturned
  have hopens : OpensRecording (Ua.receiverProcess .x64) beforeTests :=
    ⟨⟨rfl, rfl, fun _ => rfl, rfl, rfl, fun _ => rfl, rfl, fun _ => rfl, ⟨_, rfl⟩,
      fun _ => ⟨_, _, rfl⟩⟩, fun _ => ⟨_, rfl⟩⟩
  have hreported := tests_reported (by decide) Server.receiver_serving (rfl : site.worker = _) hopens
    (fun _ _ => rfl) hreach
  have hsuccess := of_decide_eq_true hleft
  exact ⟨P, hreported.1, ⟨task, ht⟩, hreported.2 task ht,
    fun i => (bare_returned P _).symm.trans (hsuccess i), of_decide_eq_true hlines⟩

end AlpcResearch.Client
