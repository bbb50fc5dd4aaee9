import AlpcResearch.Client.Acts
import AlpcResearch.Process.Script

/-!
# The messages of the test clients

Whatever the kernel has written into the message buffer, on the connect or with
a reply, the next call hands over a new message: a header that is zero but for
its lengths, and the number of the round.
-/

namespace AlpcResearch.Client

open Resource Program Process
open Server (quadPart)

-- ---------------------------------------------------------------------------
-- The numbers
-- ---------------------------------------------------------------------------

theorem emod_natCast {k : Nat} (h : k < 2 ^ 64) : (k : Int) % (2 ^ 64 : Nat) = k :=
  Int.emod_eq_of_lt (by omega) (by omega)

theorem quadBytes_natCast {k : Nat} (h : k < 2 ^ 64) : quadBytes k = leBytes 8 k := by
  unfold quadBytes
  rw [emod_natCast h, Int.toNat_natCast]

theorem leNat_quad {k : Nat} (h : k < 2 ^ 63) : leNat (leBytes 8 k) = k := by
  rw [leNat_leBytes]
  exact Nat.mod_eq_of_lt (by omega)

theorem bmod_natCast {k : Nat} (h : k < 2 ^ 63) : Int.bmod k (2 ^ 64) = k :=
  Int.bmod_eq_of_le (by omega) (by omega)

theorem quadPart_leBytes {k : Nat} (h : k < 2 ^ 63) : quadPart (leBytes 8 k) = k := by
  unfold quadPart
  rw [leNat_quad h, bmod_natCast h]

-- ---------------------------------------------------------------------------
-- The messages
-- ---------------------------------------------------------------------------

/-- A message that is sent, and the `BufferLength` that goes with it. -/
structure Sending where
  message : List UInt8
  bufferLength : Option Nat
  deriving DecidableEq

def sending : Ev → Option Sending
  | ⟨.alpcSendWaitReceivePort a, r⟩ =>
    if a.sendMessage = none then none else some ⟨r.taken, a.bufferLength⟩
  | _ => none

def request (pl : Platform) (bufferLength : Option Nat) (k : Nat) : Sending :=
  ⟨frame pl (leBytes 8 k), bufferLength⟩

def requests (pl : Platform) (bufferLength : Option Nat) (k : Nat) : List Sending :=
  ((List.range k).map (request pl bufferLength)).reverse

def sentFrom (w v : World) : List Sending := ((newEvents w v).filterMap sending).reverse

variable {pl : Platform} {A : Assumption} {maxLength : Nat} {bound : Int64}
variable {w v u : World} {q b : Ref} {call : SendWaitReceive} {k : Nat}

theorem requests_succ : requests pl bufferLength (k + 1) =
    request pl bufferLength k :: requests pl bufferLength k := by
  simp [requests, List.range_succ]

theorem sentFrom_eq (h : Picks sending (requests pl bufferLength k) w v) :
    sentFrom w v = (List.range k).map (request pl bufferLength) := by
  rw [sentFrom, h.eq, requests, List.reverse_reverse]

theorem sending_silent {e : Ev} (h : Silent e) : sending e = none := by
  obtain ⟨o, r⟩ := e
  cases o with
  | alpcSendWaitReceivePort a =>
    simp only [Silent, handed] at h
    simp only [sending]
    split
    · rfl
    · rename_i hne
      simp [hne] at h
  | _ => rfl

/-- A call that sends the message in `q`, and at most writes over it. -/
structure SendsFrom (q : Ref) (call : SendWaitReceive) : Prop where
  send : call.sendMessage = some ⟨q, 0⟩
  receive : call.receiveMessage = none ∨ call.receiveMessage = some ⟨q, 0⟩
  attributes : call.receiveMessageAttributes = none

/-- Bytes written into `q` leave a buffer there, and everything else alone. -/
theorem get?_written {P : Process} (hq : P.heap.get? q = some (.buffer size c)) (bs : List UInt8) :
    (P.modify (some ⟨q, 0⟩) (.writeBytes 0 bs)).get? q = some (.buffer size (c.write 0 bs)) ∧
      ∀ b, b ≠ q → (P.modify (some ⟨q, 0⟩) (.writeBytes 0 bs)).get? b = P.heap.get? b := by
  constructor
  · simp [Process.modify, Table.get?_modify hq, Object.writeBytes]
  · intro b hne
    simp [Process.modify, Table.get?_modify hq, hne]

theorem get?_send (pl : Platform) (h : SendsFrom q call) {P : Process}
    (hq : P.heap.get? q = some (.buffer size c)) (r : Reply) :
    (∃ c', (P.effect pl (.alpcSendWaitReceivePort call) r).heap.get? q = some (.buffer size c')) ∧
      ∀ b, b ≠ q → (P.effect pl (.alpcSendWaitReceivePort call) r).heap.get? b = P.heap.get? b := by
  have hheap : (P.effect pl (.alpcSendWaitReceivePort call) r).heap =
      P.modify call.receiveMessage (.writeBytes (offsetOf call.receiveMessage) r.written) := by
    simp only [effect, heapAfter, h.attributes]
    split <;> rfl
  rw [hheap]
  rcases h.receive with hm | hm
  · rw [hm]
    exact ⟨⟨c, hq⟩, fun _ _ => rfl⟩
  · rw [hm]
    exact ⟨⟨_, (get?_written hq r.written).1⟩, (get?_written hq r.written).2⟩

-- ---------------------------------------------------------------------------
-- A round
-- ---------------------------------------------------------------------------

def total (bound : Int64) : Nat := bound.toInt.toNat

def SentSome (pl : Platform) (bound : Int64) (call : SendWaitReceive) (w v : World) : Prop :=
  ∃ k ≤ total bound, Picks sending (requests pl call.bufferLength k) w v

/-- Before round `k`: the buffer is there, the local variable has the number,
and what belongs before it has been sent. -/
structure AtRound (pl : Platform) (maxLength : Nat) (bound : Int64) (b q : Ref)
    (call : SendWaitReceive) (w : World) (k : Nat) (v : World) : Prop where
  message : ∃ c, v.state.heap.get? q = some (.buffer maxLength c)
  counter : ∃ c, v.state.heap.get? b = some (.buffer 8 c) ∧ c.slice 0 8 = leBytes 8 k
  sent : Picks sending (requests pl call.bufferLength k) w v
  count : k ≤ total bound

theorem total_lt : total bound < 2 ^ 63 := by
  have hlt := bound.toInt_lt
  unfold total
  omega

theorem read_counter {P : Process} (hb : P.heap.get? b = some (.buffer 8 c))
    (hc : c.slice 0 8 = leBytes 8 k) (hk : k < 2 ^ 63)
    (hr : P.Legal pl (.load (some ⟨b, 0⟩) 0 8) bs) : quadPart bs = k := by
  have hbs : bs = leBytes 8 k := by
    rw [hr.2.2 ⟨b, 0⟩ 8 c rfl (at?_live hb), ← hc]
  rw [hbs, quadPart_leBytes hk]

theorem countUp_safe (hne : b ≠ q) (hq : v.state.heap.get? q = some (.buffer maxLength c))
    (hb : v.state.heap.get? b = some (.buffer 8 d)) (hslice : d.slice 0 8 = leBytes 8 k)
    (hsent : Picks sending (requests pl call.bufferLength (k + 1)) w v)
    (hnext : k + 1 ≤ total bound) :
    (do
      let value ← getQuadPart (some ⟨b, 0⟩)
      setQuadPart (some ⟨b, 0⟩) (value + 1)
      return Control.again (β := Unit)).safe (system pl A) (SentSome pl bound call w)
      (After (AtRound pl maxLength bound b q call w (k + 1))
        fun _ => Picks sending (requests pl call.bufferLength (total bound)) w) v := by
  have htotal : total bound < 2 ^ 63 := total_lt
  refine ⟨⟨k + 1, hnext, hsent⟩, fun bs hbs => ?_⟩
  have hvalue := read_counter hb hslice (by omega) hbs.1
  have hloaded := hsent.skip (S := system pl A) (o := .load (some ⟨b, 0⟩) 0 8) (r := bs) rfl
  change Prog.safe _ _ (setQuadPart (some ⟨b, 0⟩) (quadPart bs + 1) >>= _) _ _
  rw [hvalue, show (k : Int) + 1 = ((k + 1 : Nat) : Int) from rfl, setQuadPart,
    quadBytes_natCast (by omega)]
  refine ⟨⟨k + 1, hnext, hloaded⟩, fun _ _ => ?_⟩
  have hwritten := (Rewrites.start hb).store pl 0 (leBytes 8 (k + 1)) (by simp)
  have hstored := hloaded.skip (S := system pl A)
    (o := .store (some ⟨b, 0⟩) 0 (leBytes 8 (k + 1))) (r := ()) rfl
  exact ⟨⟨k + 1, hnext, hstored⟩, ⟨_, (hwritten.other hne.symm).trans hq⟩,
    ⟨_, hwritten.block, Contents.slice_write_of_length length_leBytes⟩, hstored, hnext⟩

theorem cliRound_safe (hmax : pl.sizeofPortMessage + 8 ≤ maxLength) (hne : b ≠ q)
    (hcall : SendsFrom q call) (h : AtRound pl maxLength bound b q call w k v) :
    (cliRound pl bound (some ⟨b, 0⟩) (some ⟨q, 0⟩) call).safe (system pl A)
      (SentSome pl bound call w) (After (AtRound pl maxLength bound b q call w (k + 1))
        fun _ => Picks sending (requests pl call.bufferLength (total bound)) w) v := by
  obtain ⟨c, hc⟩ := h.message
  obtain ⟨d, hd, hslice⟩ := h.counter
  have htotal : total bound < 2 ^ 63 := total_lt
  have hcount := h.count
  refine ⟨⟨k, hcount, h.sent⟩, fun bs hbs => ?_⟩
  have hvalue := read_counter hd hslice (by omega) hbs.1
  have s₁ := h.sent.skip (S := system pl A) (o := .load (some ⟨b, 0⟩) 0 8) (r := bs) rfl
  change Prog.safe _ _ (if quadPart bs < bound.toInt then _ else _) _ _
  rw [hvalue]
  split
  swap
  · have hlast : k = total bound := by
      unfold total at *
      omega
    exact ⟨⟨k, hcount, s₁⟩, hlast ▸ s₁⟩
  rename_i hmore
  have hnext : k + 1 ≤ total bound := by
    unfold total
    omega
  have hheader : pl.sizeofPortMessage ≤ 40 := by cases pl <;> decide
  let v₁ := (system pl A).next v (.load (some ⟨b, 0⟩) 0 8) bs
  have hholds : v₁.state.Holds (some ⟨b, 0⟩) (leBytes 8 k) :=
    .inr ⟨⟨b, 0⟩, 8, d, rfl, hd, by simp, by simpa using hslice⟩
  have hsupplies : Supplies v₁.state q (some ⟨b, 0⟩) 8 (leBytes 8 k) :=
    ⟨⟨length_leBytes, by rw [if_neg nofun]; exact hholds⟩, fun r hr _ => by cases hr; exact hne⟩
  have hquiet : ∀ u, Adds Silent v₁ u → Picks sending (requests pl call.bufferLength k) w u :=
    fun u hu => s₁.adds (hu.mono fun e he => sending_silent he)
  have hmessage : v₁.state.heap.get? q = some (.buffer maxLength c) := hc
  refine safe_bind (safe_mono (initializePortMessage_safe hmessage (by simpa using hmax) (by decide)
    (by simp; omega) hsupplies fun u hu => ⟨k, hcount, hquiet u hu⟩) ?_)
  rintro - u ⟨hrewrites, hadds⟩
  have s₂ := hquiet u hadds
  refine ⟨⟨k, hcount, s₂⟩, fun r hr => ?_⟩
  have htaken : r.taken = frame pl (leBytes 8 k) :=
    takes_framed (by simp; omega) hrewrites.block (hcall.send ▸ hr.1.1)
  have s₃ : Picks sending (requests pl call.bufferLength (k + 1)) w
      ((system pl A).next u (.alpcSendWaitReceivePort call) r) := by
    rw [requests_succ]
    refine s₂.pick ?_
    simp [sending, hcall.send, htaken, request]
  obtain ⟨⟨c', hc'⟩, hother⟩ := get?_send pl hcall hrewrites.block r
  have hd' : ((system pl A).next u (.alpcSendWaitReceivePort call) r).state.heap.get? b =
      some (.buffer 8 d) := (hother b hne).trans ((hrewrites.other hne).trans hd)
  exact countUp_safe hne hc' hd' hslice s₃ hnext

-- ---------------------------------------------------------------------------
-- The whole run
-- ---------------------------------------------------------------------------

/-- What a test client has sent when it returns: everything, or nothing and it
failed. -/
def SentAll (pl : Platform) (bound : Int64) (bufferLength : Option Nat) (w : World) (fuel : Nat) :
    Option NtStatus → World → Prop
  | some status, v => Picks sending
      (requests pl bufferLength (if ntSuccess status then total bound else 0)) w v
  | none, _ => fuel ≤ total bound

theorem connected_safe (hmax : pl.sizeofPortMessage + 8 ≤ maxLength) (hne : b ≠ q)
    (hcall : SendsFrom q call) (h : AtRound pl maxLength bound b q call w 0 v) :
    (do
      let left ← (cliRound pl bound (some ⟨b, 0⟩) (some ⟨q, 0⟩) call).loop fuel
      match left with
      | none => return none
      | some () =>
        let _ ← ntClose handle
        free .processHeap (some ⟨q, 0⟩)
        return some statusSuccess).safe (system pl A) (SentSome pl bound call w)
      (SentAll pl bound call.bufferLength w fuel) v := by
  refine safe_bind (safe_mono (loop_safe (fun k v hv => cliRound_safe hmax hne hcall hv) h)
    fun left u hleft => ?_)
  cases left with
  | none =>
    have hcount := hleft.count
    rw [Nat.zero_add] at hcount
    exact ⟨⟨_, hleft.count, hleft.sent⟩, hcount⟩
  | some =>
    have hsent : Picks sending (requests pl call.bufferLength (total bound)) w u := hleft
    refine ⟨⟨_, Nat.le_refl _, hsent⟩, fun status _ => ?_⟩
    have hclosed := hsent.skip (S := system pl A) (o := .close handle) (r := status) rfl
    have hfreed := hclosed.skip (S := system pl A) (o := .free .processHeap (some ⟨q, 0⟩))
      (r := ()) rfl
    exact ⟨⟨_, Nat.le_refl _, hclosed⟩, fun _ _ => ⟨⟨_, Nat.le_refl _, hfreed⟩, hfreed⟩⟩

theorem cliTest_safe (hmax : pl.sizeofPortMessage + 8 ≤ maxLength)
    (hb : w.state.layoutOf b = some (.buffer 8)) {call : SendCall} {bufferLength : Option Nat}
    (hcall : ∀ h q, SendsFrom q (call h (some ⟨q, 0⟩)) ∧
      (call h (some ⟨q, 0⟩)).bufferLength = bufferLength) :
    (cliTest pl maxLength bound portName (some ⟨b, 0⟩) call fuel).safe (system pl A)
      (fun v => ∃ k ≤ total bound, Picks sending (requests pl bufferLength k) w v)
      (SentAll pl bound bufferLength w fuel) w := by
  have nothing : ∀ {v}, Picks sending [] w v →
      ∃ k ≤ total bound, Picks sending (requests pl bufferLength k) w v :=
    fun h => ⟨0, Nat.zero_le _, h⟩
  obtain ⟨d, hd⟩ := get?_buffer hb
  have s₀ : Picks sending [] w w := .refl w
  refine ⟨nothing s₀, fun _ _ => ?_⟩
  let v₁ := (system pl A).next w (.store (some ⟨b, 0⟩) 0 (quadBytes 0)) ()
  have s₁ : Picks sending [] w v₁ := s₀.skip rfl
  have r₁ := (Rewrites.start hd).store pl 0 (quadBytes 0) (by simp [quadBytes])
  refine ⟨nothing s₁, fun r hr => ?_⟩
  let v₂ := (system pl A).next v₁ (.allocate .processHeap (.buffer maxLength)) r
  have s₂ : Picks sending [] w v₂ := s₁.skip rfl
  change Prog.safe _ _ (if r.pointer = none then _ else _) _ _
  cases hp : r.pointer with
  | none => exact ⟨nothing s₂, s₂⟩
  | some p =>
    obtain ⟨q, rfl, hnew⟩ := newBlock_allocate hr.1 hp
    obtain ⟨c, hc⟩ := layout_buffer hr.1.1
    rw [hc] at hnew
    have hne : b ≠ q := by
      rintro rfl
      cases hnew.free.symm.trans r₁.block
    have hheader : pl.sizeofPortMessage ≤ 40 := by cases pl <;> decide
    change Prog.safe _ _ (initializePortMessage pl (some ⟨q, 0⟩) none 0 >>= _) _ _
    have hsupplies : Supplies v₂.state q none 0 [] :=
      ⟨⟨by decide, by rw [if_pos rfl]; rfl⟩, nofun⟩
    refine safe_bind (safe_mono (initializePortMessage_safe hnew.block (by simp; omega)
      (by decide) (by simp; omega) hsupplies
      fun u hu => nothing (s₂.adds (hu.mono fun e he => sending_silent he))) ?_)
    rintro - u ⟨hrewrites, hadds⟩
    have s₃ : Picks sending [] w u := s₂.adds (hadds.mono fun e he => sending_silent he)
    refine ⟨nothing s₃, fun reply hreply => ?_⟩
    let v₄ := (system pl A).next u (.alpcConnectPort (cliConnect maxLength portName (some ⟨q, 0⟩)))
      reply
    have s₄ : Picks sending [] w v₄ := s₃.skip rfl
    obtain ⟨hq₄, hother⟩ := get?_written hrewrites.block reply.written
    have hb₄ : v₄.state.heap.get? b = some (.buffer 8 (d.write 0 (quadBytes 0))) :=
      (hother b hne).trans ((hrewrites.other hne).trans (hnew.other r₁.block))
    refine safe_ifFailed (fun hs => ?_) fun hs => ?_
    swap
    · have s₅ : Picks sending [] w ((system pl A).next v₄ (.free .processHeap (some ⟨q, 0⟩)) ()) :=
        s₄.skip rfl
      refine ⟨nothing s₄, fun _ _ => ⟨nothing s₅, ?_⟩⟩
      rw [SentAll, if_neg hs]
      exact s₅
    obtain ⟨hsends, hbuffer⟩ := hcall reply.handle q
    have hstart : AtRound pl maxLength bound b q (call reply.handle (some ⟨q, 0⟩)) w 0 v₄ :=
      ⟨⟨_, hq₄⟩, ⟨_, hb₄, Contents.slice_write_of_length length_leBytes⟩, s₄, Nat.zero_le _⟩
    exact hbuffer ▸ connected_safe hmax hne hsends hstart

theorem syncRequestCall_sends (h : Handle) (q : Ref) :
    SendsFrom q (syncRequestCall maxLength h (some ⟨q, 0⟩)) :=
  ⟨rfl, .inr rfl, rfl⟩

theorem cliTestSyncRequest_safe (hmax : pl.sizeofPortMessage + 8 ≤ maxLength)
    (hb : w.state.layoutOf b = some (.buffer 8)) :
    (cliTestSyncRequest pl maxLength bound portName (some ⟨b, 0⟩) fuel).safe (system pl A)
      (fun v => ∃ k ≤ total bound, Picks sending (requests pl (some maxLength) k) w v)
      (SentAll pl bound (some maxLength) w fuel) w :=
  cliTest_safe hmax hb fun h q => ⟨syncRequestCall_sends h q, rfl⟩

/-- What a run that has returned has done: it found no memory, or no connection,
and sent nothing; or it sent everything and succeeded. -/
inductive Finishes (pl : Platform) (bound : Int64) (bufferLength : Option Nat) (w v : World) :
    NtStatus → Prop
  | unallocated : actsFrom w v = [.allocate none] → sentFrom w v = [] →
      Finishes pl bound bufferLength w v statusInsufficientResources
  | unconnected : actsFrom w v = [.allocate (some p), .connect status h, .free (some p)] →
      ntSuccess status = false → sentFrom w v = [] → Finishes pl bound bufferLength w v status
  | finished : actsFrom w v =
        .allocate (some p) :: .connect s h :: (sends ++ [.close h, .free (some p)]) →
      ntSuccess s = true →
      sentFrom w v = (List.range bound.toInt.toNat).map (request pl bufferLength) →
      Finishes pl bound bufferLength w v statusSuccess

theorem finishes {acts : List Act} (hcourse : Course status acts) (hacts : Picks actOf acts w v)
    (hsent : SentAll pl bound bufferLength w fuel (some status) v) :
    Finishes pl bound bufferLength w v status := by
  have hfrom : actsFrom w v = acts.reverse := congrArg List.reverse hacts.eq
  have hsent := sentFrom_eq hsent
  cases hcourse with
  | unallocated => exact .unallocated (by simpa using hfrom) hsent
  | unconnected hs =>
    rw [hs] at hsent
    exact .unconnected (by simpa using hfrom) hs hsent
  | @finished s sends p h hs =>
    have hdone : actsFrom w v =
        .allocate (some p) :: .connect s h :: (sends.reverse ++ [.close h, .free (some p)]) := by
      simpa using hfrom
    exact .finished hdone hs hsent

/-- Round `k` sends a frame of the number `k`, with the full `BufferLength`, whatever
the kernel has written before; a client that returns has sent all of them, in
order, or none because it found no memory or could not connect. -/
theorem requests_fresh (hmax : pl.sizeofPortMessage + 8 ≤ maxLength)
    (hb : w.state.layoutOf b = some (.buffer 8)) :
    (∀ v, During (system pl A)
        (cliTestSyncRequest pl maxLength bound portName (some ⟨b, 0⟩) fuel) w v →
      ∃ k ≤ bound.toInt.toNat,
        sentFrom w v = (List.range k).map (request pl (some maxLength))) ∧
    (∀ result v, Ends (system pl A)
        (cliTestSyncRequest pl maxLength bound portName (some ⟨b, 0⟩) fuel) w result v →
      (bound.toInt.toNat < fuel → result ≠ none) ∧
        ∀ status, result = some status → Finishes pl bound (some maxLength) w v status ∧
          sentFrom w v = if ntSuccess status then
            (List.range bound.toInt.toNat).map (request pl (some maxLength)) else []) ∧
    ∀ k, headerOf pl (request pl (some maxLength) k).message =
      ⟨pl.sizeofPortMessage + 8, 0, ⟨0, 0⟩, 0⟩ := by
  have hheader : pl.sizeofPortMessage ≤ 40 := by cases pl <;> decide
  refine ⟨fun v hv => ?_, fun result v hv => ?_, fun k => ?_⟩
  · obtain ⟨k, hk, hsent⟩ := safe_during (cliTestSyncRequest_safe hmax hb) hv
    exact ⟨k, hk, sentFrom_eq hsent⟩
  · have hend := safe_ends (cliTestSyncRequest_safe hmax hb) hv
    cases result with
    | none => exact ⟨fun hfuel => absurd hend (Nat.not_le_of_lt hfuel), nofun⟩
    | some status =>
      refine ⟨nofun, fun status' hs => ?_⟩
      cases hs
      obtain ⟨acts, hcourse, hacts⟩ := cliTest_course hv
      refine ⟨finishes hcourse hacts hend, ?_⟩
      rw [sentFrom_eq hend]
      split <;> rfl
  · exact (headerOf_frame (by simp; omega)).trans (by simp)

def withCounter : World where
  state := { Process.empty with heap := Table.empty.acquire 0 (.buffer 8 fun _ => 0) }
  log := []

/-- Each reply is written over the whole message with ones. -/
def scribbling : Environment :=
  { Environment.calm with outcome := fun
      | .send, _ => { message := List.replicate 64 0xFF }
      | .connectPort, _ => { message := List.replicate 64 0xFF }
      | _, _ => {} }

/-- Two rounds under such replies. -/
theorem requests_fresh_scribbled : ∃ v,
    Ends (system .x64 anyKernel) (cliTestSyncRequest .x64 0xFFFF 2 "" (some ⟨⟨0, 0⟩, 0⟩) 3)
      withCounter (some statusSuccess) v ∧
    Finishes .x64 2 (some 0xFFFF) withCounter v statusSuccess ∧
    sentFrom withCounter v = [request .x64 (some 0xFFFF) 0, request .x64 (some 0xFFFF) 1] := by
  have hrun : ((cliTestSyncRequest .x64 0xFFFF 2 "" (some ⟨⟨0, 0⟩, 0⟩) 3).replay
      (system .x64 anyKernel) (scribbling.oracle .x64 anyKernel) withCounter).any
      (fun r => r.1 = some statusSuccess) := by decide +kernel
  obtain ⟨⟨result, v⟩, h, hresult⟩ := (Option.any_eq_true _ _).mp hrun
  have hends := replay_ends (Environment.oracle_sound anyKernel) h
  have hresult : result = some statusSuccess := by simpa using hresult
  subst hresult
  have hfresh := (requests_fresh (A := anyKernel) (by decide) (by rfl)).2.1 _ v hends
  exact ⟨v, hends, (hfresh.2 _ rfl).1, (hfresh.2 _ rfl).2.trans (by rfl)⟩

end AlpcResearch.Client
