import AlpcResearch.Process.Framing
import AlpcResearch.Sessions.Ledger

/-!
# A service behind the callbacks

What an application is to `ua.c`: a state that `OnRequest` and `OnDatagram`
change, each call with the body of one message, and the body `OnRequest` leaves
for the reply. Handled one after the other, messages lead to a sequence of
calls and a sequence of replies (`Service.replies`). A worker is in step with
that as long as its own history lacks at most the call, or then the reply, for
the last message it has received (`History.InStep`).
-/

namespace AlpcResearch.Rpc

open Resource Program Process

structure Service (S : Type) where
  initial : S
  onRequest : S → List UInt8 → S × List UInt8
  onDatagram : S → List UInt8 → S
  length : ∀ s body, (onRequest s body).2.length = body.length

inductive Call
  | request (message : List UInt8)
  | datagram (message : List UInt8)
  deriving DecidableEq

/-- The call a message that is a request or a datagram is meant for. -/
def callFor (pl : Platform) (msg : List UInt8) : Call :=
  if kindOf pl msg = lpcRequest then .request msg else .datagram msg

namespace Service

variable {S : Type}

/-- The state after calls, the latest first. -/
def state (svc : Service S) (pl : Platform) : List Call → S
  | [] => svc.initial
  | .request msg :: earlier => (svc.onRequest (svc.state pl earlier) (bodyOf pl msg)).1
  | .datagram msg :: earlier => svc.onDatagram (svc.state pl earlier) (bodyOf pl msg)

/-- The request with a new body under its own header. -/
def reply (svc : Service S) (pl : Platform) (s : S) (msg : List UInt8) : List UInt8 :=
  msg.take pl.sizeofPortMessage ++ (svc.onRequest s (bodyOf pl msg)).2

def replies (svc : Service S) (pl : Platform) : List Call → List (List UInt8)
  | [] => []
  | .request msg :: earlier => svc.reply pl (svc.state pl earlier) msg :: svc.replies pl earlier
  | .datagram _ :: earlier => svc.replies pl earlier

end Service

-- ---------------------------------------------------------------------------
-- The history of a worker
-- ---------------------------------------------------------------------------

/-- The message at the start of a buffer, as long as it says it is. -/
def messageIn (c : Contents) : List UInt8 :=
  c.slice 0 (leNat (c.slice PortMessage.offTotalLength 2))

def arrivalOf : Ev → Option (List UInt8)
  | ⟨.alpcSendWaitReceivePort a, r⟩ =>
    if Ledger.isReceive a && ntSuccess r.status then some r.written else none
  | _ => none

def callOf : Ev → Option Call
  | ⟨.onRequest .., r⟩ => some (.request (messageIn r.seen))
  | ⟨.onDatagram .., c⟩ => some (.datagram (messageIn c))
  | _ => none

/-- What has arrived, the calls made, and the replies sent, the latest first. -/
structure History where
  arrived : List (List UInt8)
  calls : List Call
  replies : List (List UInt8)

def historyOf (log : List Ev) : History where
  arrived := log.filterMap arrivalOf
  calls := log.filterMap callOf
  replies := log.filterMap handed

theorem historyOf_onRequest (procedure : Procedure) (p : PVoid) (r : Served) (log : List Ev) :
    historyOf (⟨.onRequest procedure p, r⟩ :: log) =
      { historyOf log with calls := .request (messageIn r.seen) :: (historyOf log).calls } := rfl

theorem historyOf_onDatagram (procedure : Procedure) (p : PVoid) (c : Contents) (log : List Ev) :
    historyOf (⟨.onDatagram procedure p, c⟩ :: log) =
      { historyOf log with calls := .datagram (messageIn c) :: (historyOf log).calls } := rfl

theorem historyOf_receive {a : SendWaitReceive} (ha : Ledger.isReceive a = true) (r : Reply)
    (log : List Ev) : historyOf (⟨.alpcSendWaitReceivePort a, r⟩ :: log) =
      if ntSuccess r.status then
        { historyOf log with arrived := r.written :: (historyOf log).arrived }
      else historyOf log := by
  have hsend : a.sendMessage = none := by
    simp only [Ledger.isReceive, Bool.and_eq_true, Option.isNone_iff_eq_none] at ha
    exact ha.1
  have hcall : callOf ⟨.alpcSendWaitReceivePort a, r⟩ = none := rfl
  have hsent : handed ⟨.alpcSendWaitReceivePort a, r⟩ = none := if_pos hsend
  by_cases hs : ntSuccess r.status = true
  · have harrival : arrivalOf ⟨.alpcSendWaitReceivePort a, r⟩ = some r.written := by
      simp [arrivalOf, ha, hs]
    simp only [historyOf, List.filterMap_cons, harrival, hcall, hsent, hs, if_true]
  · have harrival : arrivalOf ⟨.alpcSendWaitReceivePort a, r⟩ = none := by
      simp [arrivalOf, hs]
    simp [historyOf, harrival, hcall, hsent, hs]

theorem historyOf_send {a : SendWaitReceive} (ha : a.sendMessage ≠ none) (r : Reply)
    (log : List Ev) : historyOf (⟨.alpcSendWaitReceivePort a, r⟩ :: log) =
      { historyOf log with replies := r.taken :: (historyOf log).replies } := by
  have harrival : arrivalOf ⟨.alpcSendWaitReceivePort a, r⟩ = none := by
    simp [arrivalOf, Ledger.isReceive, ha]
  have hcall : callOf ⟨.alpcSendWaitReceivePort a, r⟩ = none := rfl
  have hsent : handed ⟨.alpcSendWaitReceivePort a, r⟩ = some r.taken := if_neg ha
  simp only [historyOf, List.filterMap_cons, harrival, hcall, hsent]

def History.due (pl : Platform) (h : History) : List Call := h.arrived.map (callFor pl)

/-- A call has been made for each message, in order, and each request has been
replied to. -/
structure History.Settled (pl : Platform) (svc : Service S) (h : History) : Prop where
  calls : h.calls = h.due pl
  replies : h.replies = svc.replies pl h.calls

/-- The same, but for the last message: its call may be due, or its reply. -/
structure History.InStep (pl : Platform) (svc : Service S) (h : History) : Prop where
  calls : h.calls = h.due pl ∨ ∃ c, h.due pl = c :: h.calls
  replies : h.replies = svc.replies pl h.calls ∨ h.calls = h.due pl ∧
    ∃ msg earlier, h.calls = .request msg :: earlier ∧ h.replies = svc.replies pl earlier

variable {S : Type} {svc : Service S} {pl : Platform} {h : History} {msg : List UInt8}

theorem History.Settled.inStep (hs : h.Settled pl svc) : h.InStep pl svc :=
  ⟨.inl hs.calls, .inl hs.replies⟩

theorem History.Settled.arrive (hs : h.Settled pl svc) (msg : List UInt8) :
    History.InStep pl svc { h with arrived := msg :: h.arrived } :=
  ⟨.inr ⟨callFor pl msg, congrArg (List.cons _) hs.calls.symm⟩, .inl hs.replies⟩

theorem History.Settled.request (hs : h.Settled pl svc) (hkind : kindOf pl msg = lpcRequest) :
    History.InStep pl svc
      { h with arrived := msg :: h.arrived, calls := .request msg :: h.calls } := by
  have hcalls : Call.request msg :: h.calls = (msg :: h.arrived).map (callFor pl) := by
    rw [List.map_cons, callFor, if_pos hkind, hs.calls]
    rfl
  exact ⟨.inl hcalls, .inr ⟨hcalls, msg, h.calls, rfl, hs.replies⟩⟩

theorem History.Settled.reply (hs : h.Settled pl svc) (hkind : kindOf pl msg = lpcRequest) :
    History.Settled pl svc ⟨msg :: h.arrived, .request msg :: h.calls,
      svc.reply pl (svc.state pl h.calls) msg :: h.replies⟩ where
  calls := by
    simp only [History.due, List.map_cons, callFor, if_pos hkind]
    exact congrArg (List.cons _) hs.calls
  replies := congrArg (List.cons _) hs.replies

theorem History.Settled.datagram (hs : h.Settled pl svc) (hkind : kindOf pl msg ≠ lpcRequest) :
    History.Settled pl svc
      { h with arrived := msg :: h.arrived, calls := .datagram msg :: h.calls } where
  calls := by
    simp only [History.due, List.map_cons, callFor, if_neg hkind]
    exact congrArg (List.cons _) hs.calls
  replies := hs.replies

theorem length_replies_cons (svc : Service S) (pl : Platform) (c : Call) (earlier : List Call) :
    (svc.replies pl earlier).length ≤ (svc.replies pl (c :: earlier)).length := by
  cases c <;> simp [Service.replies]

/-- A worker that is still in step after it has sent something has sent the
reply to the request that arrived last. -/
theorem History.InStep.replied (hi : h.InStep pl svc)
    (hnext : History.InStep pl svc { h with replies := sent :: h.replies }) :
    ∃ msg earlier, h.arrived = msg :: earlier ∧ kindOf pl msg = lpcRequest ∧
      sent = svc.reply pl (svc.state pl (earlier.map (callFor pl))) msg := by
  have hlater : sent :: h.replies = svc.replies pl h.calls := by
    rcases hnext.replies with hr | ⟨-, msg, earlier, hc, hr⟩
    · exact hr
    · exfalso
      have hc : h.calls = .request msg :: earlier := hc
      have hr := congrArg List.length (show sent :: h.replies = svc.replies pl earlier from hr)
      rcases hi.replies with h' | ⟨-, msg', earlier', hc', h'⟩
      · have hle := length_replies_cons svc pl (.request msg) earlier
        simp only [h', hc, List.length_cons] at hr hle
        omega
      · cases hc.symm.trans hc'
        simp only [h', List.length_cons] at hr
        omega
  rcases hi.replies with h' | ⟨hdue, msg, earlier, hc, h'⟩
  · have hlen := congrArg List.length (hlater.trans h'.symm)
    simp at hlen
  · rw [hc, Service.replies, List.cons.injEq] at hlater
    rw [hc] at hdue
    obtain ⟨m, rest, harrived, hm, rfl⟩ := List.map_eq_cons_iff.mp hdue.symm
    have hkind : kindOf pl m = lpcRequest := by
      by_contra hne
      simp [callFor, hne] at hm
    have hmsg : m = msg := by simpa [callFor, hkind] using hm
    subst hmsg
    exact ⟨m, rest, harrived, hkind, hlater.1⟩

-- ---------------------------------------------------------------------------
-- The callbacks
-- ---------------------------------------------------------------------------

/-- The callbacks are the service's, and the attribute that has been allocated
is found. -/
def Service.behaves (svc : Service S) (pl : Platform) : Assumption
  | w, .onRequest .., r => r.left = r.seen.write pl.sizeofPortMessage
      (svc.onRequest (svc.state pl (historyOf w.log).calls) (bodyOf pl (messageIn r.seen))).2
  | w, .alpcGetMessageAttribute buffer flag, r => Allocated w.state buffer flag → r ≠ none
  | _, _, _ => True

/-- A request or a datagram of a client, as it arrives. -/
structure Arrives (pl : Platform) (msg : List UInt8) : Prop where
  framed : ∃ bs, pl.sizeofPortMessage + bs.length ≤ pl.alpcMaxAllowedMessageLength ∧
    Delivers pl (frame pl bs) msg
  kind : kindOf pl msg = lpcRequest ∨ kindOf pl msg = lpcDatagram

def receivesMessages (pl : Platform) : Assumption
  | _, .alpcSendWaitReceivePort a, r =>
    Ledger.isReceive a = true → ntSuccess r.status = true → Arrives pl r.written
  | _, _, _ => True

def Service.kernel (svc : Service S) (pl : Platform) : Assumption :=
  (svc.behaves pl).and (receivesMessages pl)

/-- No message is received or sent, and no callback called. -/
def Aside : Op → Prop
  | .alpcSendWaitReceivePort _ | .alpcConnectPort _ | .onRequest .. | .onDatagram .. => False
  | _ => True

theorem Aside.history {o : Op} (ho : Aside o) (r : Ret o) (log : List Ev) :
    historyOf (⟨o, r⟩ :: log) = historyOf log := by
  cases o with
  | alpcSendWaitReceivePort | alpcConnectPort | onRequest | onDatagram => exact ho.elim
  | _ => rfl

end AlpcResearch.Rpc
