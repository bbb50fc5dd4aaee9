import AlpcResearch.AdvancedServer.Channel
import AlpcResearch.AdvancedServer.Visits

/-!
# Visits and their server

Clients of the older library, each making one visit after the other, against
its worker. No datagram is lost, doubled or overtaken on the way from the port
to `OnDatagram`, which gets the length and the data its sender was given.
-/

namespace AlpcResearch.AdvancedServer

open Resource Program Process
open Rpc (Party arrivalOf)
open Channel hiding Opens

variable {κ ι : Type} {pl : Platform} {visits : κ → Visit} {server : ServerObject}
variable {P₀ : Process} {w : World}

-- ---------------------------------------------------------------------------
-- The server alone
-- ---------------------------------------------------------------------------

structure Receiving (pl : Platform) (server : ServerObject) (P₀ : Process) (w : World) : Prop
    extends Attending pl server P₀ w where
  head : AtHead pl server w

structure HasLeft (pl : Platform) (server : ServerObject) (P₀ : Process) (status : NtStatus)
    (w : World) : Prop extends LeftBy pl server ⟨P₀, []⟩ status w where
  serves : Serves pl w.log

theorem Receiving.start (h : Serving (endpoint server) P₀) : Receiving pl server P₀ ⟨P₀, []⟩ where
  toAttending := (srvServerWorker_attends h).start
  head := Starts.head ⟨h, rfl⟩

theorem srvServerWorker_receives (h : Serving (endpoint server) P₀)
    (hw : Receiving pl server P₀ w) :
    (srvServerWorker pl server).safe (system pl (peers pl))
      (fun u => Orderly pl u ∧ u.state.faults = P₀.faults)
      (After (Receiving pl server P₀) (HasLeft pl server P₀)) w := by
  have hattends := (srvServerWorker_attends h).round w hw.toAttending
  have hserves := srvServerWorker_safe (A := peers pl) (fun _ _ _ h => once_any h.1) hw.head
  refine safe_imp (safe_both hattends hserves) (fun _ hu => hu.1) ?_
  rintro (_ | status) u - ⟨hafter, hhead⟩
  · exact ⟨hafter, hhead⟩
  · exact ⟨hafter, hhead⟩

/-- The datagrams among the messages received. -/
theorem datagrams_eq (log : List Ev) :
    datagrams pl log = (log.filterMap arrivalOf).filter fun msg => kindOf pl msg = lpcDatagram := by
  induction log with
  | nil => rfl
  | cons e log ih =>
    obtain ⟨o, r⟩ := e
    rw [datagrams, List.filterMap_cons, List.filterMap_cons, ← datagrams, ih]
    cases o with
    | alpcSendWaitReceivePort a =>
      by_cases hr : (Ledger.isReceive a && ntSuccess r.status) = true
      · by_cases hk : kindOf pl r.written = lpcDatagram
        · simp [datagramOf, arrivalOf, hr, hk]
        · simp [datagramOf, arrivalOf, hr, hk]
      · simp [datagramOf, arrivalOf, hr]
    | _ => rfl

-- ---------------------------------------------------------------------------
-- All interleavings
-- ---------------------------------------------------------------------------

variable [DecidableEq ι] {site : Site ι} {n : NetWorld ι} {P Q : RecordedPool ι κ}

def visiting (pl : Platform) (visits : κ → Visit) (server : ServerObject) (P₀ : Process) :
    Roles ι where
  shared := Conveys (OfScripts (scripts pl visits))
  message _ := True
  server u := u.state.faults = P₀.faults
  between := Receiving pl server P₀
  left := HasLeft pl server P₀
  client u := OfScripts (scripts pl visits) (offers u.log)
  idle := Idle (scripts pl visits) fun v => AllReady pl visits v.state

theorem visiting_scripted :
    Scripted (visiting pl visits server P₀ : Roles ι) (OfScripts (scripts pl visits)) :=
  ⟨rfl, fun _ h => h⟩

theorem visiting_played (h : Serving (endpoint server) P₀)
    (hworker : site.worker = srvServerWorker pl server) :
    (visiting pl visits server P₀).Played pl site fun c => (visits c).run pl where
  round _ hv := hworker ▸ safe_assuming And.left (srvServerWorker_receives h hv)
  run c _ hv := Visit.run_hands.keeps c hv
  idle _ hv := hv.offers
  arrives _ _ _ _ _ _ _ _ := trivial
  issue := visiting_scripted.issue
  await := visiting_scripted.await

structure Delivered (pl : Platform) (visits : κ → Visit) (P : RecordedPool ι κ) : Prop where
  /-- A client has handed over the datagrams of its visits, -/
  handed : Handed (scripts pl visits) P
  /-- the port has taken this, but for what was refused, in this order, -/
  taken : ∀ i, (P.world.state.sent i).Sublist
    (offers (view (.client i) P.world).log ++ P.world.state.pending i)
  /-- and has lost nothing that was accepted; -/
  kept : ∀ i, (acceptances (view (.client i) P.world).log).Sublist (P.world.state.sent i)
  /-- the server has received what the port has taken, up to what is queued. -/
  received : (view .server P.world).log.filterMap arrivalOf = P.world.state.received.map Prod.snd

/-- The call passes the length and the data of the datagram that was sent. -/
def PassedOn (pl : Platform) (visits : κ → Visit) (x : Packet ι × List UInt8)
    (call : DatagramCall) : Prop :=
  ∃ c, ∃ p ∈ (visits c).datagrams, x.1.parcel = p.parcel pl ∧
    call.datagramLength = p.length ∧ Begins p.bytes call.datagramBuffer

def receivedDatagrams (N : Net ι) : List (Packet ι × List UInt8) :=
  N.received.filter fun x => x.1.kind = lpcDatagram

theorem datagrams_received (hw : Common pl site n) (h : Conveys (OfScripts (scripts pl visits)) n) :
    datagrams pl (view .server n).log = (receivedDatagrams n.state).map Prod.snd := by
  rw [datagrams_eq, h.arrivals, List.filter_map, receivedDatagrams]
  refine congrArg _ (List.filter_congr fun x hx => ?_)
  have harrived : x.1.ArrivesAs pl site x.2 := hw.sound.arrived x.1 x.2 hx
  simp [harrived.kind]

/-- The sender of a datagram that has been received had it to send. -/
theorem passedOn_of_reports {x : Packet ι × List UInt8} {call : DatagramCall}
    (hw : Common pl site n) (h : Conveys (OfScripts (scripts pl visits)) n)
    (hready : ∀ (_ : ι) c, ∀ p ∈ (visits c).datagrams, ∃ P, p.Ready pl P)
    (hx : x ∈ receivedDatagrams n.state) (hcall : Reports pl x.2 call) :
    PassedOn pl visits x call := by
  obtain ⟨hx, hkind⟩ := List.mem_filter.mp hx
  have hpacket : x.1 ∈ n.state.packets := by
    have hreceived : x.1 ∈ n.state.received.map Prod.fst := List.mem_map_of_mem hx
    simp only [Net.packets, List.mem_append, List.mem_reverse]
    exact .inl hreceived
  have hsent : x.1.isSent = true := by simp [Packet.isSent, of_decide_eq_true hkind]
  obtain ⟨parcels, hscript, hmem⟩ := h.mem_script hpacket hsent
  obtain ⟨c, hparcel⟩ := hscript _ hmem
  obtain ⟨p, hp, hparcel⟩ := List.mem_map.mp hparcel
  obtain ⟨P, hp'⟩ := hready x.1.sender c p hp
  have hbytes : x.1.bytes = frame pl p.bytes := congrArg Prod.snd hparcel.symm
  have harrived : x.1.ArrivesAs pl site x.2 := hw.sound.arrived x.1 x.2 hx
  have hlength : p.length.toInt = p.bytes.length := by
    have hlength := hp'.length
    have hnonneg := hp'.nonneg
    omega
  obtain ⟨hlen, hdata⟩ := reads_back hlength (hbytes ▸ harrived.delivers) hcall
  exact ⟨c, p, hp, hparcel.symm, hlen, hdata⟩

/-- Whoever makes which visits, and however that is interleaved: no datagram is
lost, doubled or overtaken between a client's call and the server's receive,
and between two rounds and after the last one `OnDatagram` has been called once
for each datagram received, in order, with its length and its data. -/
theorem visits_delivered (hs : Serving (endpoint server) P₀)
    (hworker : site.worker = srvServerWorker pl server) (h₀ : OpensRecording P₀ Q)
    (hready : ∀ i, AllReady pl visits (view (.client i) Q.world).state)
    (h : (channel pl site fun c => (visits c).run pl).recording.Reaches anyStep Q P) :
    Delivered pl visits P ∧ ∀ task ended, P.threads .server = (task, .ret ended) →
      List.Forall₂ (PassedOn pl visits) (receivedDatagrams P.world.state)
        (calls (view .server P.world).log) := by
  have hplayed : (visiting pl visits server P₀).Played pl site fun c => (visits c).run pl :=
    visiting_played hs hworker
  have hidle : ∀ i, (visiting pl visits server P₀ : Roles ι).idle (view (.client i) Q.world) :=
    fun i => ⟨hready i, h₀.offers i ▸ OfScripts.nil⟩
  have hconveys : Conveys (OfScripts (scripts pl visits)) Q.world := h₀.toOpens.conveys OfScripts.nil
  have hreached := hplayed.runs h₀ hconveys (.start hs) hidle Visit.run_hands.follows
    (fun i => ⟨hready i, h₀.offers i⟩) h
  have hholds := hplayed.reaches h₀.toOpens hconveys (.start hs) hidle (recording_reaches h)
  have hshared : Conveys (OfScripts (scripts pl visits)) P.world := hholds.shared
  have hcommon : Common pl site P.world := hholds.common
  refine ⟨⟨hreached.handed, hshared.offered, fun i => ?_, hshared.arrivals⟩, fun task ended ht => ?_⟩
  · exact (List.sublist_append_left _ _).trans (hshared.accepted i)
  have hserves : Serves pl (view .server P.world).log := by
    have hended := hholds.ended task.1 ended (bare_threads ht)
    cases ended with
    | again =>
      have hv : Receiving pl server P₀ (view .server P.world) := hended
      exact hv.head.serves
    | leave status =>
      have hv : HasLeft pl server P₀ status (view .server P.world) := hended
      exact hv.serves
  rw [Serves, datagrams_received hcommon hshared, List.forall₂_map_left_iff] at hserves
  refine forall₂_through (List.forall₂_same.mpr fun x _ => rfl) hserves ?_
  rintro x hx y call rfl hcall
  exact passedOn_of_reports hcommon hshared
    (fun i c p hp => ⟨_, hready i c p (List.mem_cons_of_mem _ hp)⟩) hx hcall

/-- One client sends a byte and then two zeros, the other a byte. -/
def visitOf (single : Bool) : Visit where
  portName := "port"
  connection := ⟨none, 0, []⟩
  datagrams := ⟨some ⟨⟨0, 0⟩, 0⟩, 1, [7]⟩ :: if single then [] else [⟨none, 2, [0, 0]⟩]

def beforeVisits : RecordedPool Bool Bool where
  world := ⟨{ (beforeTwo (Ua.receiverProcess .x86)).world.state with process := fun
    | .server => Ua.receiverProcess .x86
    | .client _ => ⟨Table.empty.acquire 0 (.buffer 1 fun _ => 7), .empty, []⟩ }, []⟩
  threads _ := ((.serve, []), .ret .again)

theorem visitOf_ready (i : Bool) : AllReady .x86 visitOf (view (.client i) beforeVisits.world).state := by
  have hempty : ∀ P, Payload.Ready .x86 P ⟨none, 0, []⟩ := fun _ =>
    ⟨by decide, by decide, by decide, rfl⟩
  have hzeros : ∀ P, Payload.Ready .x86 P ⟨none, 2, [0, 0]⟩ := fun _ =>
    ⟨by decide, by decide, by decide, rfl⟩
  have hbyte : Payload.Ready .x86 (view (.client i) beforeVisits.world).state
      ⟨some ⟨⟨0, 0⟩, 0⟩, 1, [7]⟩ :=
    ⟨by decide, by decide, by decide, .inr ⟨_, 1, fun _ => 7, rfl, rfl, by decide, rfl⟩⟩
  intro c p hp
  cases c with
  | true =>
    simp only [Visit.payloads, visitOf, if_true, List.mem_cons, List.not_mem_nil, or_false] at hp
    rcases hp with rfl | rfl
    · exact hempty _
    · exact hbyte
  | false =>
    simp only [Visit.payloads, visitOf, Bool.false_eq_true, if_false, List.mem_cons,
      List.not_mem_nil, or_false] at hp
    rcases hp with rfl | rfl | rfl
    · exact hempty _
    · exact hbyte
    · exact hzeros _

/-- The second client's connect is waiting while the first sends its byte. -/
theorem visits_delivered_two : ∃ P : RecordedPool Bool Bool,
    Delivered .x86 visitOf P ∧
      List.Forall₂ (PassedOn .x86 visitOf) (receivedDatagrams P.world.state)
        (calls (view .server P.world).log) ∧
      (∀ i, (P.returned (.client i)).map Prod.snd = some (.leave statusSuccess)) ∧
      (calls (view .server P.world).log).map (fun c =>
        c.datagramBuffer.slice 0 c.datagramLength.toInt.toNat) = [[0, 0], [7], [7]] := by
  let site := portOfTwo (srvServerWorker .x86 Ua.receiver)
  let turns : List (Turn (Party Bool) (Channel.Task Bool)) :=
    List.flatten [
      Turn.calling (.client false) (.run false) 11, Turn.calling (.client true) (.run true) 11,
      Turn.calling .server .serve 16, Turn.acting (.client false) 11,
      Turn.calling .server .serve 16, Turn.acting (.client true) 11,
      Turn.calling .server .serve 12, Turn.acting (.client false) 8,
      Turn.calling .server .serve 12, Turn.calling .server .serve 12,
      Turn.acting (.client true) 6, Turn.calling .server .serve 14,
      Turn.acting (.client false) 6, Turn.calling .server .serve 14]
  have hrun : ((channel .x86 site fun c => (visitOf c).run .x86).play
      (exchange Bool .x86 site [false, true]) turns beforeVisits.bare).any (fun P =>
        (P.returned .server).map Prod.snd = some .again &&
        (decide (∀ i, (P.returned (.client i)).map Prod.snd = some (.leave statusSuccess)) &&
        (calls (view .server P.world).log).map (fun c =>
          c.datagramBuffer.slice 0 c.datagramLength.toInt.toNat) = [[0, 0], [7], [7]])) := by
    decide +kernel
  obtain ⟨_, hP, hstate⟩ := (Option.any_eq_true _ _).mp hrun
  obtain ⟨P, hreach, rfl⟩ := exists_recorded (play_reaches exchange_sound hP)
  obtain ⟨hreturned, hstate⟩ := Bool.and_eq_true .. ▸ hstate
  obtain ⟨hleft, hcalls⟩ := Bool.and_eq_true .. ▸ hstate
  have hreturned := (bare_returned P .server).symm.trans (of_decide_eq_true hreturned)
  obtain ⟨task, ht⟩ := threads_of_returned hreturned
  have hopens : OpensRecording (Ua.receiverProcess .x86) beforeVisits :=
    ⟨⟨rfl, rfl, fun _ => rfl, rfl, rfl, fun _ => rfl, rfl, fun _ => rfl, ⟨_, rfl⟩,
      fun _ => ⟨_, _, rfl⟩⟩, fun _ => ⟨_, rfl⟩⟩
  obtain ⟨hdelivered, hended⟩ := visits_delivered receiver_serving (rfl : site.worker = _) hopens
    visitOf_ready hreach
  have hsuccess := of_decide_eq_true hleft
  exact ⟨P, hdelivered, hended task _ ht, fun i => (bare_returned P _).symm.trans (hsuccess i),
    of_decide_eq_true hcalls⟩

end AlpcResearch.AdvancedServer
