import AlpcResearch.Client.Requests

/-!
# What a test client says of its run

A client stops at an allocation or a connect that fails and returns a failure.
Of its sends it takes no notice: it counts on and returns `STATUS_SUCCESS`
whatever they return. So its result is right exactly when the kernel accepts
every message it comes to send (`truthful_iff`). What it acquires it releases
on every path.
-/

namespace AlpcResearch.Client

open Resource Program Process

-- ---------------------------------------------------------------------------
-- A truthful result
-- ---------------------------------------------------------------------------

inductive Held
  | buffer (p : PVoid)
  | port (handle : Handle)

inductive Use
  | acquire (x : Held)
  | release (x : Held)

def Act.use : Act → Option Use
  | .allocate p => if p = none then none else some (.acquire (.buffer p))
  | .connect status handle => if ntSuccess status then some (.acquire (.port handle)) else none
  | .close handle => some (.release (.port handle))
  | .free p => some (.release (.buffer p))
  | .send .. => none

/-- What is acquired is released again, once, the latest first. -/
inductive Released : List Use → Prop
  | nothing : Released []
  | around : Released uses → Released (.acquire x :: uses ++ [.release x])

/-- A run that counts to `bound` and returns `status` says what happened, and
holds nothing any more. -/
structure Truthful (pl : Platform) (bound : Int64) (w v : World) (status : NtStatus) : Prop where
  accepted : status = statusSuccess → (actsFrom w v).filterMap Act.accepted =
    (List.range bound.toInt.toNat).map fun k => frame pl (leBytes 8 k)
  failed : ∀ a ∈ actsFrom w v, a.failed = true → ntSuccess status = false
  released : Released ((actsFrom w v).filterMap Act.use)

-- ---------------------------------------------------------------------------
-- Outcomes
-- ---------------------------------------------------------------------------

structure Outcomes where
  allocated : Bool
  connected : NtStatus
  /-- Of each send, counted from 0. -/
  sent : Nat → NtStatus

namespace Outcomes

/-- After `n` sends the call comes out like this. -/
def foretells (o : Outcomes) (n : Nat) : Act → Bool
  | .allocate p => p.isSome = o.allocated
  | .connect status _ => status = o.connected
  | .send _ status => status = o.sent n
  | _ => true

/-- So do all calls from `w₀` on. -/
def kernel (o : Outcomes) (w₀ : World) : Assumption := fun w op r =>
  ∀ a ∈ actOf ⟨op, r⟩, o.foretells ((actsFrom w₀ w).filterMap Act.message).length a = true

instance (o : Outcomes) (w₀ w : World) (op : Op) (r : Ret op) : Decidable (o.kernel w₀ w op r) :=
  inferInstanceAs (Decidable (∀ a ∈ actOf ⟨op, r⟩, _ = true))

/-- No message is turned down that comes to be sent. -/
def Accepting (o : Outcomes) (bound : Int64) : Prop :=
  o.allocated = true → ntSuccess o.connected = true →
    ∀ k < bound.toInt.toNat, ntSuccess (o.sent k) = true

def Fits (o : Outcomes) : List Act → Prop
  | [] => True
  | a :: earlier => o.foretells (earlier.filterMap Act.message).length a = true ∧ o.Fits earlier

variable {o : Outcomes} {pl : Platform} {w w' v : World} {acts : List Act} {a : Act}

theorem fits_run {p : Proc α} (h : Ends (system pl (o.kernel w)) p w x v) :
    o.Fits ((newEvents w v).filterMap actOf) := by
  have hrun : p.safe (system pl (o.kernel w)) (fun _ => True)
      (fun _ v => ∃ acts, Picks actOf acts w v ∧ o.Fits acts) w := by
    refine safe_of_step (K := fun v => ∃ acts, Picks actOf acts w v ∧ o.Fits acts)
      (fun v op r hr ⟨acts, hacts, hfits⟩ => ?_) (fun _ _ => trivial) (fun _ _ h => h)
      ⟨[], .refl w, trivial⟩
    cases ha : actOf ⟨op, r⟩ with
    | none => exact ⟨acts, hacts.skip ha, hfits⟩
    | some a =>
      have hnow := hr.2 a ha
      rw [actsFrom, hacts.eq, List.filterMap_reverse, List.length_reverse] at hnow
      exact ⟨a :: acts, hacts.pick ha, hnow, hfits⟩
  obtain ⟨acts, hacts, hfits⟩ := safe_ends hrun h
  rw [hacts.eq]
  exact hfits

/-- Each act came out as foretold at some time, a send before all were sent. -/
theorem Fits.mem (h : o.Fits acts) (ha : a ∈ acts) : ∃ n, o.foretells n a = true ∧
    (a.message ≠ none → n < (acts.filterMap Act.message).length) := by
  induction acts with
  | nil => cases ha
  | cons b earlier ih =>
    obtain ⟨hb, hearlier⟩ := h
    rcases List.mem_cons.mp ha with rfl | ha
    · refine ⟨_, hb, fun hsend => ?_⟩
      obtain ⟨m, hm⟩ := Option.ne_none_iff_exists'.mp hsend
      simp [List.filterMap_cons_some hm]
    · obtain ⟨n, hn, hlt⟩ := ih hearlier ha
      refine ⟨n, hn, fun hsend => (hlt hsend).trans_le ?_⟩
      cases hm : b.message <;> simp [hm]

/-- And each outcome foretold for a send that was made came. -/
theorem Fits.exists_send (h : o.Fits acts) (hk : k < (acts.filterMap Act.message).length) :
    ∃ m, .send m (o.sent k) ∈ acts := by
  induction acts with
  | nil => simp at hk
  | cons b earlier ih =>
    obtain ⟨hb, hearlier⟩ := h
    by_cases hlt : k < (earlier.filterMap Act.message).length
    · obtain ⟨m, hm⟩ := ih hearlier hlt
      exact ⟨m, List.mem_cons_of_mem b hm⟩
    · cases b with
      | send m status =>
        have hlast : k = (earlier.filterMap Act.message).length := by
          simp [Act.message] at hk
          omega
        have hstatus : status = o.sent k := by simpa [foretells, hlast] using hb
        exact ⟨m, by simp [hstatus]⟩
      | _ => exact absurd hk hlt

end Outcomes

-- ---------------------------------------------------------------------------
-- The result
-- ---------------------------------------------------------------------------

variable {pl : Platform} {A : Assumption} {maxLength fuel : Nat} {bound : Int64}
variable {portName : String} {counter portMessage : PVoid} {w v u : World} {o : Outcomes}

inductive TestClient
  | datagram
  | syncRequest

def TestClient.run (pl : Platform) (maxLength : Nat) (bound : Int64) (portName : String)
    (counter : PVoid) (fuel : Nat) : TestClient → Proc (Option NtStatus)
  | .datagram => cliTestDatagram pl maxLength bound portName counter fuel
  | .syncRequest => cliTestSyncRequest pl maxLength bound portName counter fuel

theorem datagramCall_sends (h : Handle) (q : Ref) : SendsFrom q (datagramCall h (some ⟨q, 0⟩)) :=
  ⟨rfl, .inl rfl, rfl⟩

theorem TestClient.run_course (client : TestClient)
    (h : Ends (system pl A) (client.run pl maxLength bound portName counter fuel) w
      (some status) v) : ∃ acts, Course status acts ∧ Picks actOf acts w v := by
  cases client with
  | datagram | syncRequest => exact cliTest_course h

theorem TestClient.run_sent (client : TestClient) (hmax : pl.sizeofPortMessage + 8 ≤ maxLength)
    (hb : w.state.layoutOf b = some (.buffer 8))
    (h : Ends (system pl A) (client.run pl maxLength bound portName (some ⟨b, 0⟩) fuel) w
      result v) : ∃ bufferLength, SentAll pl bound bufferLength w fuel result v := by
  cases client with
  | datagram =>
    exact ⟨none, safe_ends (cliTest_safe hmax hb fun h q => ⟨datagramCall_sends h q, rfl⟩) h⟩
  | syncRequest => exact ⟨some maxLength, safe_ends (cliTestSyncRequest_safe hmax hb) h⟩

theorem messages_eq (log : List Ev) : (log.filterMap actOf).filterMap Act.message =
    (log.filterMap sending).map Sending.message := by
  have hact : ∀ e : Ev, (actOf e).bind Act.message = (sending e).map Sending.message := by
    rintro ⟨op, r⟩
    cases op with
    | alpcSendWaitReceivePort a =>
      simp only [actOf, sending]
      split <;> rfl
    | _ => rfl
  rw [List.filterMap_filterMap, List.map_filterMap]
  exact List.filterMap_congr fun e _ => hact e

theorem messages_requests (pl : Platform) (bufferLength : Option Nat) (k : Nat) :
    (requests pl bufferLength k).map Sending.message =
      ((List.range k).map fun k => frame pl (leBytes 8 k)).reverse := by
  rw [requests, List.map_reverse, List.map_map]
  rfl

structure Returned (pl : Platform) (bound : Int64) (o : Outcomes) (status : NtStatus)
    (acts : List Act) : Prop where
  course : Course status acts
  fits : o.Fits acts
  messages : ntSuccess status = true → acts.filterMap Act.message =
    ((List.range bound.toInt.toNat).map fun k => frame pl (leBytes 8 k)).reverse

theorem returned (client : TestClient) (hmax : pl.sizeofPortMessage + 8 ≤ maxLength)
    (hb : w.state.layoutOf b = some (.buffer 8))
    (h : Ends (system pl (o.kernel w))
      (client.run pl maxLength bound portName (some ⟨b, 0⟩) fuel) w (some status) v) :
    ∃ acts, Returned pl bound o status acts ∧ actsFrom w v = acts.reverse := by
  obtain ⟨acts, hcourse, hacts⟩ := client.run_course h
  obtain ⟨bufferLength, hsent⟩ := client.run_sent hmax hb h
  refine ⟨acts, ⟨hcourse, hacts.eq ▸ Outcomes.fits_run h, fun hs => ?_⟩, by rw [actsFrom, hacts.eq]⟩
  have hsent : Picks sending (requests pl bufferLength _) w v := hsent
  rw [if_pos hs] at hsent
  rw [← hacts.eq, messages_eq, hsent.eq]
  exact messages_requests pl bufferLength _

section Returned

variable {status : NtStatus} {acts : List Act}

theorem Returned.allocated (h : Returned pl bound o status acts) (ha : .allocate p ∈ acts) :
    o.allocated = p.isSome := by
  obtain ⟨n, hn, -⟩ := h.fits.mem ha
  exact (of_decide_eq_true hn).symm

theorem Returned.connected (h : Returned pl bound o status acts) (ha : .connect s x ∈ acts) :
    o.connected = s := by
  obtain ⟨n, hn, -⟩ := h.fits.mem ha
  exact (of_decide_eq_true hn).symm

/-- Where everything is accepted, nothing fails in a run that gets to its end. -/
theorem Returned.none_failed (h : Returned pl bound o status acts) (hs : ntSuccess status = true)
    (halloc : o.allocated = true) (hconn : ntSuccess o.connected = true)
    (hok : ∀ k < bound.toInt.toNat, ntSuccess (o.sent k) = true) (ha : a ∈ acts) :
    a.failed = false := by
  cases a with
  | allocate p =>
    rw [h.allocated ha] at halloc
    simpa [Act.failed] using halloc
  | connect s x =>
    rw [h.connected ha] at hconn
    simpa [Act.failed] using hconn
  | send m s =>
    obtain ⟨n, hn, hlt⟩ := h.fits.mem ha
    have hcount := hlt (by simp [Act.message])
    rw [h.messages hs] at hcount
    have hsent : s = o.sent n := of_decide_eq_true hn
    simpa [Act.failed, hsent] using hok n (by simpa using hcount)
  | close | free => rfl

theorem released_sends {sends : List Act} (h : ∀ a ∈ sends, a.message ≠ none) :
    sends.filterMap Act.use = [] := by
  refine List.filterMap_eq_nil_iff.mpr fun a ha => ?_
  cases a with
  | send => rfl
  | allocate | connect | close | free => exact absurd rfl (h _ ha)

theorem Returned.released (h : Returned pl bound o status acts) :
    Released (acts.reverse.filterMap Act.use) := by
  cases h.course with
  | unallocated => exact .nothing
  | unconnected hs =>
    simpa [Act.use, hs] using Released.around (x := .buffer _) .nothing
  | @finished s sends p x hs hsends =>
    have hnone : sends.reverse.filterMap Act.use = [] := by
      rw [List.filterMap_reverse, released_sends hsends, List.reverse_nil]
    have huses : ((.free (some p) :: .close x ::
        (sends ++ [.connect s x, .allocate (some p)])).reverse).filterMap Act.use =
          [.acquire (.buffer (some p)), .acquire (.port x), .release (.port x),
            .release (.buffer (some p))] := by
      simp [Act.use, hs, hnone]
    rw [huses]
    exact .around (.around .nothing)

/-- Where something fails, the result says so only if that was not a send. -/
theorem Returned.accepting (h : Returned pl bound o status acts)
    (hfailed : ∀ a ∈ acts, a.failed = true → ntSuccess status = false) : o.Accepting bound := by
  intro halloc hconn k hk
  cases h.course with
  | unallocated =>
    rw [h.allocated (p := none) (by simp)] at halloc
    cases halloc
  | @unconnected _ p x hs =>
    rw [h.connected (s := status) (x := x) (by simp), hs] at hconn
    cases hconn
  | finished hs hsends =>
    have hcount := congrArg List.length (h.messages rfl)
    simp only [List.length_reverse, List.length_map, List.length_range] at hcount
    obtain ⟨m, hm⟩ := h.fits.exists_send (hcount ▸ hk)
    by_contra hno
    exact absurd (hfailed _ hm (by simpa [Act.failed] using hno)) (by decide)

theorem Returned.success (h : Returned pl bound o status acts) (hs : ntSuccess status = true) :
    o.allocated = true ∧ ntSuccess o.connected = true := by
  cases h.course with
  | unallocated => cases hs
  | unconnected hs' => cases hs'.symm.trans hs
  | @finished s sends p x hs' hsends =>
    exact ⟨h.allocated (p := some p) (by simp), h.connected (s := s) (x := x) (by simp) ▸ hs'⟩

theorem accepted_eq_message {a : Act} (ha : a.failed = false) : a.accepted = a.message := by
  cases a with
  | send m s =>
    have hs : ntSuccess s = true := by simpa [Act.failed] using ha
    simp [Act.accepted, Act.message, hs]
  | allocate | connect | close | free => rfl

theorem Returned.accepted (h : Returned pl bound o status acts) (hs : ntSuccess status = true)
    (hok : o.Accepting bound) : acts.reverse.filterMap Act.accepted =
      (List.range bound.toInt.toNat).map fun k => frame pl (leBytes 8 k) := by
  obtain ⟨halloc, hconn⟩ := h.success hs
  have hsame : acts.filterMap Act.accepted = acts.filterMap Act.message :=
    List.filterMap_congr fun a ha =>
      accepted_eq_message (h.none_failed hs halloc hconn (hok halloc hconn) ha)
  rw [List.filterMap_reverse, hsame, h.messages hs, List.reverse_reverse]

end Returned

/-- For every sequence of outcomes: the client returns, and what it returns and
leaves behind is right, exactly if each of its messages is accepted that comes
to be sent. -/
theorem truthful_iff (client : TestClient) (hmax : pl.sizeofPortMessage + 8 ≤ maxLength)
    (hb : w.state.layoutOf b = some (.buffer 8)) (hfuel : bound.toInt.toNat < fuel)
    (h : Ends (system pl (o.kernel w))
      (client.run pl maxLength bound portName (some ⟨b, 0⟩) fuel) w result v) :
    (∃ status, result = some status ∧ Truthful pl bound w v status) ↔ o.Accepting bound := by
  cases result with
  | none =>
    obtain ⟨bufferLength, hsent⟩ := client.run_sent hmax hb h
    exact absurd hsent (Nat.not_le_of_lt hfuel)
  | some status =>
    obtain ⟨acts, hreturned, hacts⟩ := returned client hmax hb h
    constructor
    · rintro ⟨_, hstatus, htruthful⟩
      cases hstatus
      exact hreturned.accepting fun a ha =>
        htruthful.failed a (hacts ▸ List.mem_reverse.mpr ha)
    · intro hok
      refine ⟨status, rfl, fun hs => ?_, fun a ha hfailed => ?_, hacts ▸ hreturned.released⟩
      · rw [hacts]
        exact hreturned.accepted (hs ▸ rfl) hok
      · by_contra hs
        rw [Bool.not_eq_false] at hs
        obtain ⟨halloc, hconn⟩ := hreturned.success hs
        have hfine := hreturned.none_failed hs halloc hconn (hok halloc hconn)
          (List.mem_reverse.mp (hacts ▸ ha))
        cases hfine.symm.trans hfailed

def Outcomes.environment (o : Outcomes) : Environment :=
  { Environment.calm with outcome := fun
      | .allocate, _ => { status := if o.allocated then statusSuccess else statusUnsuccessful }
      | .connectPort, _ => { status := o.connected }
      | .send, k => { status := o.sent k, message := List.replicate 64 0 }
      | _, _ => {} }

def allAccepted : Outcomes where
  allocated := true
  connected := statusSuccess
  sent _ := statusSuccess

/-- Two messages, both of which are accepted. -/
theorem truthful_accepted : ∃ v,
    Ends (system .x64 (allAccepted.kernel withCounter))
      (TestClient.syncRequest.run .x64 0xFFFF 2 "" (some ⟨⟨0, 0⟩, 0⟩) 3) withCounter
      (some statusSuccess) v ∧ Truthful .x64 2 withCounter v statusSuccess := by
  have hrun : ((TestClient.syncRequest.run .x64 0xFFFF 2 "" (some ⟨⟨0, 0⟩, 0⟩) 3).replay
      (system .x64 (allAccepted.kernel withCounter))
      (allAccepted.environment.oracle .x64 (allAccepted.kernel withCounter)) withCounter).any
      (fun r => r.1 = some statusSuccess) := by decide +kernel
  obtain ⟨⟨result, v⟩, h, hresult⟩ := (Option.any_eq_true _ _).mp hrun
  have hends := replay_ends (Environment.oracle_sound _) h
  have hresult : result = some statusSuccess := by simpa using hresult
  subst hresult
  obtain ⟨status, hstatus, htruthful⟩ :=
    (truthful_iff .syncRequest (by decide) (by rfl) (by decide) hends).mpr fun _ _ _ _ => rfl
  cases hstatus
  exact ⟨v, hends, htruthful⟩

def firstLost : Outcomes :=
  { allAccepted with sent := fun k => if k = 0 then statusUnsuccessful else statusSuccess }

/-- Two messages, of which the second is accepted. -/
theorem truthful_lost : ∃ v,
    Ends (system .x64 (firstLost.kernel withCounter))
      (TestClient.datagram.run .x64 0xFFFF 2 "" (some ⟨⟨0, 0⟩, 0⟩) 3) withCounter
      (some statusSuccess) v ∧ ¬ Truthful .x64 2 withCounter v statusSuccess := by
  have hrun : ((TestClient.datagram.run .x64 0xFFFF 2 "" (some ⟨⟨0, 0⟩, 0⟩) 3).replay
      (system .x64 (firstLost.kernel withCounter))
      (firstLost.environment.oracle .x64 (firstLost.kernel withCounter)) withCounter).any
      (fun r => r.1 = some statusSuccess ∧ (actsFrom withCounter r.2).any Act.failed) := by
    decide +kernel
  obtain ⟨⟨result, v⟩, h, hresult⟩ := (Option.any_eq_true _ _).mp hrun
  obtain ⟨hstatus, hfailed⟩ := of_decide_eq_true hresult
  obtain ⟨a, ha, hlost⟩ := List.any_eq_true.mp hfailed
  refine ⟨v, hstatus ▸ replay_ends (Environment.oracle_sound _) h, fun htruthful => ?_⟩
  cases htruthful.failed a ha hlost

end AlpcResearch.Client
