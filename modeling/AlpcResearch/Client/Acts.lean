import AlpcResearch.Client
import AlpcResearch.Process.SignedFraming

/-!
# The calls of a test client

Of what a test client does only the calls to the heap and the kernel are kept,
with their outcomes. A run that has returned is one of three: no memory, no
connection, or sends between a connect and a close (`cliTest_course`).
-/

namespace AlpcResearch.Client

open Resource Program Process

/-- A call to the heap or the kernel, with its outcome. -/
inductive Act
  | allocate (p : PVoid)
  | connect (status : NtStatus) (handle : Handle)
  | send (message : List UInt8) (status : NtStatus)
  | close (handle : Handle)
  | free (p : PVoid)
  deriving DecidableEq

def actOf : Ev → Option Act
  | ⟨.allocate .., r⟩ => some (.allocate r.pointer)
  | ⟨.alpcConnectPort _, r⟩ => some (.connect r.status r.handle)
  | ⟨.alpcSendWaitReceivePort a, r⟩ =>
    if a.sendMessage = none then none else some (.send r.taken r.status)
  | ⟨.close h, _⟩ => some (.close h)
  | ⟨.free _ p, _⟩ => some (.free p)
  | _ => none

def actsFrom (w v : World) : List Act := ((newEvents w v).filterMap actOf).reverse

namespace Act

def message : Act → Option (List UInt8)
  | .send m _ => some m
  | _ => none

def accepted : Act → Option (List UInt8)
  | .send m status => if ntSuccess status then some m else none
  | _ => none

/-- An allocation, a connect or a send that fails. -/
def failed : Act → Bool
  | .allocate p => p.isNone
  | .connect status _ => !ntSuccess status
  | .send _ status => !ntSuccess status
  | _ => false

end Act

-- ---------------------------------------------------------------------------
-- The acts of a run
-- ---------------------------------------------------------------------------

variable {pl : Platform} {A : Assumption} {maxLength fuel : Nat} {bound : Int64}
variable {portName : String} {counter portMessage : PVoid} {w v u : World}

def Unseen (op : Op) : Prop := ∀ r, actOf ⟨op, r⟩ = none

def SendsAtMost (op : Op) : Prop := ∀ r, ∀ a ∈ actOf ⟨op, r⟩, a.message ≠ none

theorem Unseen.sendsAtMost {op : Op} (h : Unseen op) : SendsAtMost op := by
  intro r a ha
  rw [h r] at ha
  cases ha

theorem initializePortMessage_unseen (data : PVoid) (n : Int16) :
    (initializePortMessage pl portMessage data n).Uses Unseen := by
  rw [initializePortMessage_eq]
  refine ⟨fun _ => rfl, fun _ => ⟨fun _ => rfl, fun _ => ⟨fun _ => rfl, fun _ => ?_⟩⟩⟩
  split
  · exact ⟨fun _ => rfl, fun _ => trivial⟩
  · trivial

theorem cliRound_sends {call : SendWaitReceive} :
    (cliRound pl bound counter portMessage call).Uses SendsAtMost := by
  have hload : SendsAtMost (.load counter 0 8) := Unseen.sendsAtMost fun _ => rfl
  have hsend : SendsAtMost (.alpcSendWaitReceivePort call) := by
    intro r a ha
    simp only [actOf] at ha
    split at ha
    · cases ha
    · cases ha
      simp [Act.message]
  refine ⟨hload, fun bs => ?_⟩
  change Prog.Uses _ (if Server.quadPart bs < bound.toInt then _ else _)
  split
  · refine uses_bind ((initializePortMessage_unseen counter 8).mono fun _ => Unseen.sendsAtMost) ?_
    have hstore : ∀ bs, SendsAtMost (.store counter 0 bs) := fun _ => Unseen.sendsAtMost fun _ => rfl
    exact fun _ => ⟨hsend, fun _ => ⟨hload, fun _ => ⟨hstore _, fun _ => trivial⟩⟩⟩
  · trivial

theorem picks_sends {p : Proc α} {acts : List Act} (hp : p.Uses SendsAtMost)
    (h : Picks actOf acts w v) (hrun : Ends (system pl A) p v x u) :
    ∃ sends, (∀ a ∈ sends, a.message ≠ none) ∧ Picks actOf (sends ++ acts) w u := by
  obtain ⟨new, hlog, hnew⟩ := hrun.log_grows hp
  obtain ⟨old, hold, rfl⟩ := h
  refine ⟨new.filterMap actOf, fun a ha => ?_, new ++ old, by simp [hlog, hold], by simp⟩
  obtain ⟨⟨op, r⟩, he, hact⟩ := List.mem_filterMap.mp ha
  exact hnew _ he r a hact

/-- What a client that returns `status` has done, the latest first. -/
inductive Course : NtStatus → List Act → Prop
  | unallocated : Course statusInsufficientResources [.allocate none]
  | unconnected : ntSuccess status = false →
      Course status [.free (some p), .connect status h, .allocate (some p)]
  | finished : ntSuccess s = true → (∀ a ∈ sends, a.message ≠ none) →
      Course statusSuccess (.free (some p) :: .close h ::
        (sends ++ [.connect s h, .allocate (some p)]))

theorem cliTest_course {call : SendCall}
    (h : Ends (system pl A) (cliTest pl maxLength bound portName counter call fuel) w
      (some status) v) : ∃ acts, Course status acts ∧ Picks actOf acts w v := by
  obtain ⟨_, -, h⟩ := ends_call.mp h
  have s₁ : Picks actOf [] w ((system pl A).next w (.store counter 0 (quadBytes 0)) ()) :=
    (Picks.refl w).skip rfl
  obtain ⟨r, -, h⟩ := ends_call.mp h
  have s₂ : Picks actOf [.allocate r.pointer] w _ := s₁.pick (S := system pl A)
    (o := .allocate .processHeap (.buffer maxLength)) (r := r) rfl
  change Ends _ (if r.pointer = none then _ else _) _ _ _ at h
  cases hp : r.pointer with
  | none =>
    simp only [hp, if_true] at h s₂
    obtain ⟨hstatus, rfl⟩ := ends_ret.mp h
    cases hstatus
    exact ⟨_, .unallocated, s₂⟩
  | some p =>
    simp only [hp, reduceCtorEq, if_false] at h s₂
    obtain ⟨_, u, hinit, h⟩ := ends_bind.mp h
    have hunseen : (initializePortMessage pl (some p) none 0).Uses
        fun op => ∀ r, actOf ⟨op, r⟩ = none := initializePortMessage_unseen none 0
    have s₃ := safe_ends (s₂.run hunseen) hinit
    obtain ⟨reply, -, h⟩ := ends_call.mp h
    have s₄ := s₃.pick (S := system pl A) (r := reply)
      (o := .alpcConnectPort (cliConnect maxLength portName (some p))) rfl
    change Ends _ (if (!ntSuccess reply.status) = true then _ else _) _ _ _ at h
    by_cases hs : ntSuccess reply.status = true
    · simp only [hs, Bool.not_true, Bool.false_eq_true, if_false] at h
      obtain ⟨left, u', hloop, h⟩ := ends_bind.mp h
      obtain ⟨sends, hsends, s₅⟩ := picks_sends (uses_loop cliRound_sends) s₄ hloop
      cases left with
      | none => cases (ends_ret.mp h).1
      | some =>
        obtain ⟨_, -, h⟩ := ends_call.mp h
        obtain ⟨_, -, h⟩ := ends_call.mp h
        obtain ⟨hstatus, rfl⟩ := ends_ret.mp h
        cases hstatus
        exact ⟨_, .finished hs hsends, (s₅.pick rfl).pick rfl⟩
    · simp only [hs, Bool.not_false, if_true] at h
      obtain ⟨_, -, h⟩ := ends_call.mp h
      obtain ⟨hstatus, rfl⟩ := ends_ret.mp h
      cases hstatus
      exact ⟨_, .unconnected (by simpa using hs), s₄.pick rfl⟩

end AlpcResearch.Client
