import AlpcResearch.Process.Memory
import AlpcResearch.Program.Replay

/-!
# Scripts

A `Script` fixes what the environment does, kind of call by kind of call: the
status of the first accept, of the second, and so on, and the same three
callbacks throughout. `Script.follows` is the assumption that it does just
that. Which addresses and handle values come up is left open; an
`Environment` chooses those too, and thereby one run.
-/

namespace AlpcResearch

open Resource Program

/-- The kinds of outcome a script counts separately. -/
inductive Kind
  | allocate
  | headerSize
  | initializeMessageAttribute
  | getMessageAttribute
  | createPort
  | createThread
  | connectPort
  | receive
  | send
  | cancel
  | accept
  | close
  | wait
  | other
  deriving DecidableEq, Repr

def kindOfOp : Op → Kind
  | .allocate .. => .allocate
  | .alpcGetHeaderSize _ => .headerSize
  | .alpcInitializeMessageAttribute .. => .initializeMessageAttribute
  | .alpcGetMessageAttribute .. => .getMessageAttribute
  | .alpcCreatePort .. => .createPort
  | .createThread _ | .psCreateSystemThread .. | .ntCreateThreadEx _ => .createThread
  | .alpcConnectPort _ => .connectPort
  | .alpcSendWaitReceivePort a => if a.sendMessage = none then .receive else .send
  | .alpcCancelMessage .. => .cancel
  | .alpcAcceptConnectPort _ => .accept
  | .close _ => .close
  | .waitForSingleObject _ => .wait
  | _ => .other

/-- How one call comes out. Allocations, thread creations and attribute
look-ups succeed when the status does. -/
structure Outcome where
  status : NtStatus := statusSuccess
  size : Nat := 0
  message : List UInt8 := []
  /-- The accept whose port context the message carries. -/
  connection : Option Nat := none
  deriving DecidableEq

structure Script where
  outcome : Kind → Nat → Outcome
  onRequest : List Contents → Contents
  onConnect : List Contents → Bool

namespace Script

def seen (log : List Ev) : List Contents :=
  log.filterMap fun
    | ⟨.onRequest .., r⟩ => some r.seen
    | ⟨.onDatagram .., r⟩ => some r
    | ⟨.onConnect .., r⟩ => some r.seen
    | ⟨.onDatagramBuffer .., r⟩ => some r
    | ⟨.onConnectBuffer .., r⟩ => some r.seen
    | _ => none

def contexts (log : List Ev) : List PVoid :=
  log.reverse.filterMap fun
    | ⟨.alpcAcceptConnectPort a, _⟩ => if a.acceptConnection then some a.portContext else none
    | _ => none

def next (s : Script) (log : List Ev) (o : Op) : Outcome :=
  s.outcome (kindOfOp o) (log.countP fun e => kindOfOp e.op = kindOfOp o)

def contextOf (out : Outcome) (log : List Ev) : PVoid :=
  (out.connection.bind fun n => (contexts log)[n]?).join

def follows (s : Script) : Assumption := fun w o r =>
  let out := s.next w.log o
  match o, r with
  | .allocate .., r => r.pointer.isSome = ntSuccess out.status
  | .alpcGetHeaderSize _, r => r = out.size
  | .alpcInitializeMessageAttribute .., r => r = out.status
  | .alpcGetMessageAttribute .., r => r.isSome = ntSuccess out.status
  | .alpcCreatePort .., r => r.1 = out.status
  | .alpcConnectPort _, r => r.status = out.status ∧ r.written = out.message
  | .alpcSendWaitReceivePort a, r =>
    r.status = out.status ∧ (a.receiveMessage ≠ none → r.written = out.message) ∧
      (a.receiveMessageAttributes ≠ none → r.portContext = contextOf out w.log)
  | .alpcCancelMessage .., r => r = out.status
  | .alpcAcceptConnectPort _, r => r.status = out.status
  | .close _, r => r = out.status
  | .waitForSingleObject _, r => r = out.status
  | .createThread _, r => r.1 = out.status
  | .psCreateSystemThread .., r => r.1 = out.status
  | .ntCreateThreadEx _, r => r.1 = out.status
  | .onRequest .., r => r.left = s.onRequest (r.seen :: seen w.log)
  | .onConnect .., r => r.accept = s.onConnect (r.seen :: seen w.log)
  | .onConnectBuffer .., r => r.accept = s.onConnect (r.seen :: seen w.log)
  | _, _ => True

end Script

structure Environment extends Script where
  heapName : Table Object → Nat
  handleName : Table KernelObject → Nat

namespace Environment

variable (E : Environment)

def newBlock (P : Process) : Ref := ⟨E.heapName P.heap, P.heap.next⟩

def newHandle (P : Process) : Ref := ⟨E.handleName P.handles, P.handles.next⟩

def handleFor (P : Process) (status : NtStatus) : Handle :=
  if ntSuccess status then some (E.newHandle P) else none

def takenFrom (P : Process) (p : PVoid) : List UInt8 :=
  match p, P.at? p with
  | some q, some (.buffer _ data) =>
    data.slice q.offset (leNat (data.slice (q.offset + PortMessage.offTotalLength) 2))
  | _, _ => []

def dataAt (P : Process) (p : PVoid) : Contents :=
  match P.at? p with
  | some (.buffer _ data) => data
  | _ => fun _ => 0

def dataFrom (P : Process) (p : PVoid) : Contents := fun i => dataAt P p (Process.offsetOf p + i)

def answer (w : World) (o : Op) : Ret o :=
  let out := E.toScript.next w.log o
  let P := w.state
  match o with
  | .allocate _ layout =>
    ⟨if ntSuccess out.status then some ⟨E.newBlock P, 0⟩ else none, .zeroed layout⟩
  | .free .. => ()
  | .rtlZeroMemory .. => ()
  | .rtlCopyMemory .. => ()
  | .load p offset length => P.bytesAt (p.map (·.add offset)) length
  | .store .. => ()
  | .setClientId .. => ()
  | .getCommunicationPortHandle p => match P.at? p with
    | some (.portContext c) => c.communicationPortHandle
    | _ => none
  | .getPortContext p => match P.at? p with
    | some (.attributes _ a) => a.portContext
    | _ => none
  | .alpcGetHeaderSize _ => out.size
  | .alpcInitializeMessageAttribute .. => out.status
  | .alpcGetMessageAttribute buffer _ => if ntSuccess out.status then buffer else none
  | .alpcCreatePort .. => (out.status, E.handleFor P out.status)
  | .alpcConnectPort a =>
    ⟨out.status, E.handleFor P out.status, a.bufferLength, takenFrom P a.connectionMessage,
      out.message⟩
  | .alpcSendWaitReceivePort a =>
    ⟨out.status, 0, takenFrom P a.sendMessage,
      if a.receiveMessage = none then [] else out.message, Script.contextOf out w.log⟩
  | .alpcCancelMessage .. => out.status
  | .alpcAcceptConnectPort a =>
    ⟨out.status, if a.acceptConnection then E.handleFor P out.status else none⟩
  | .close _ => out.status
  | .waitForSingleObject _ => out.status
  | .createThread _ => (out.status, E.handleFor P out.status)
  | .psCreateSystemThread .. => (out.status, E.handleFor P out.status)
  | .ntCreateThreadEx _ => (out.status, E.handleFor P out.status)
  | .onRequest _ p => ⟨dataAt P p, E.onRequest (dataAt P p :: Script.seen w.log)⟩
  | .onDatagram _ p => dataAt P p
  | .onConnect _ p => ⟨dataAt P p, E.onConnect (dataAt P p :: Script.seen w.log)⟩
  | .onDatagramBuffer _ p _ => dataFrom P p
  | .onConnectBuffer _ p _ => ⟨dataFrom P p, E.onConnect (dataFrom P p :: Script.seen w.log)⟩
  | .printf .. => ()

def canAnswer (pl : Platform) (w : World) (o : Op) : Bool :=
  let out := E.toScript.next w.log o
  let P := w.state
  let handleFree := (P.handles.slots (E.handleName P.handles)).isNone
  match o with
  | .allocate .. => (P.heap.slots (E.heapName P.heap)).isNone
  | .rtlZeroMemory p length => length == 0 || p.isSome
  | .rtlCopyMemory dst src length => length == 0 || dst.isSome && src.isSome
  | .load p .. => p.isSome
  | .store p .. => p.isSome
  | .setClientId p _ => p.isSome
  | .getCommunicationPortHandle p => p.isSome
  | .getPortContext p => p.isSome
  | .onRequest _ p => p.isSome
  | .onDatagram _ p => p.isSome
  | .onConnect _ p => p.isSome
  | .alpcCreatePort .. => handleFree
  | .createThread _ => handleFree
  | .psCreateSystemThread .. => handleFree
  | .ntCreateThreadEx _ => handleFree
  | .alpcAcceptConnectPort _ => handleFree
  | .alpcConnectPort a => handleFree && out.message.length ≤ a.bufferLength
  | .alpcSendWaitReceivePort a =>
    a.receiveMessage.isNone ||
      out.message.length ≤ a.bufferLength.getD 0 &&
        (!ntSuccess out.status || pl.sizeofPortMessage ≤ out.message.length)
  | _ => true

/-- Everything succeeds, and no name is used twice. -/
def calm : Environment where
  outcome _ _ := {}
  onRequest history := history.headD fun _ => 0
  onConnect _ := true
  heapName := Table.next
  handleName := Table.next

/-- The lowest free name, which is reused as soon as it is released. -/
def lowestFree (t : Table α) : Nat := ((List.range 16).find? fun n => (t.slots n).isNone).getD 16

/-- The given messages arrive one after the other, then the receive fails. -/
def visitedBy (messages : List Outcome) : Environment where
  outcome
    | .receive, n => messages.getD n { status := statusUnsuccessful }
    | _, _ => {}
  onRequest history := history.headD fun _ => 0
  onConnect _ := true
  heapName := lowestFree
  handleName := lowestFree

def failing (E : Environment) (kind : Kind) : Environment :=
  { E with outcome := fun k n =>
      if k = kind then { status := statusUnsuccessful } else E.outcome k n }

variable {E : Environment} {P : Process} {pl : Platform}

theorem opens_handleFor (h : (P.handles.slots (E.handleName P.handles)).isNone) :
    P.Opens status (E.handleFor P status) := by
  unfold Process.Opens handleFor
  split
  · exact ⟨_, rfl, Option.isNone_iff_eq_none.mp h, rfl⟩
  · rfl

theorem length_bytesAt : (P.bytesAt p length).length = length := by
  unfold Process.bytesAt
  split <;> simp

theorem bytesAt_buffer {q : Ptr} (h : P.at? (some q) = some (.buffer size data)) :
    P.bytesAt ((some q).map (·.add offset)) length = data.slice (q.offset + offset) length := by
  have h' : P.at? (some (q.add offset)) = some (.buffer size data) := h
  simp only [Option.map_some, Process.bytesAt, h']
  rfl

theorem takes_takenFrom : P.Takes p (takenFrom P p) := by
  constructor
  · rintro rfl
    rfl
  · rintro q size data rfl hat
    simp [takenFrom, hat]

theorem dataAt_eq (h : P.at? p = some (.buffer size data)) : dataAt P p = data := by
  simp [dataAt, h]

theorem answer_legal (h : E.canAnswer pl w o = true) : w.state.Legal pl o (E.answer w o) := by
  cases o with
  | allocate api layout =>
    refine ⟨by cases layout <;> rfl, by cases layout <;> simp [answer, Object.Bounded, Object.zeroed],
      fun _ => rfl, fun p hp => ?_⟩
    simp only [answer] at hp
    split at hp
    · cases hp
      exact ⟨rfl, Option.isNone_iff_eq_none.mp h, rfl⟩
    · cases hp
  | rtlZeroMemory p length => simpa [canAnswer, Process.Legal, Option.isSome_iff_ne_none] using h
  | rtlCopyMemory dst src length =>
    simpa [canAnswer, Process.Legal, Option.isSome_iff_ne_none] using h
  | load p offset length =>
    refine ⟨Option.isSome_iff_ne_none.mp h, ?_, ?_⟩
    · simp only [answer]
      exact length_bytesAt
    · rintro q size data rfl hat
      exact bytesAt_buffer hat
  | store | setClientId => exact Option.isSome_iff_ne_none.mp h
  | getCommunicationPortHandle p =>
    refine ⟨Option.isSome_iff_ne_none.mp h, fun c hc => ?_⟩
    simp [answer, hc]
  | getPortContext p =>
    refine ⟨Option.isSome_iff_ne_none.mp h, fun size a ha => ?_⟩
    simp [answer, ha]
  | alpcGetMessageAttribute buffer flag =>
    intro p hp
    simp only [answer] at hp
    split at hp
    · exact ⟨p, hp, rfl⟩
    · cases hp
  | alpcCreatePort => exact opens_handleFor h
  | psCreateSystemThread => exact opens_handleFor h
  | ntCreateThreadEx => exact opens_handleFor h
  | createThread => exact opens_handleFor h
  | alpcAcceptConnectPort a =>
    by_cases ha : a.acceptConnection = true
    · simpa [Process.Legal, answer, ha] using opens_handleFor h
    · simp [Process.Legal, answer, ha]
  | alpcConnectPort a =>
    simp only [canAnswer, Bool.and_eq_true, decide_eq_true_eq] at h
    exact ⟨opens_handleFor h.1, takes_takenFrom, h.2⟩
  | alpcSendWaitReceivePort a =>
    refine ⟨takes_takenFrom, ?_⟩
    simp only [answer]
    by_cases hm : a.receiveMessage = none
    · simp [hm]
    · have hr : a.receiveMessage.isNone = false :=
        Option.isNone_eq_false_iff.mpr (Option.isSome_iff_ne_none.mpr hm)
      simp only [canAnswer, hr, Bool.false_or, Bool.and_eq_true, Bool.or_eq_true,
        decide_eq_true_eq, Bool.not_eq_true'] at h
      simp only [hm, if_false, false_implies, true_and]
      exact ⟨h.1, fun hs _ => h.2.resolve_left (by simp [hs])⟩
  | onRequest procedure p =>
    exact ⟨Option.isSome_iff_ne_none.mp h, fun size data hat => dataAt_eq hat⟩
  | onDatagram procedure p =>
    exact ⟨Option.isSome_iff_ne_none.mp h, fun size data hat => dataAt_eq hat⟩
  | onConnect procedure p =>
    exact ⟨Option.isSome_iff_ne_none.mp h, fun size data hat => dataAt_eq hat⟩
  | onDatagramBuffer procedure p length =>
    rintro q size data rfl hat
    funext i
    simp [answer, dataFrom, dataAt_eq hat, Process.offsetOf]
  | onConnectBuffer procedure p length =>
    rintro q size data rfl hat
    funext i
    simp [answer, dataFrom, dataAt_eq hat, Process.offsetOf]
  | _ => exact trivial

def oracle (E : Environment) (pl : Platform) (A : Assumption) [∀ w o r, Decidable (A w o r)] :
    Oracle Op Ret Process where
  answer := E.answer
  answers w o := E.canAnswer pl w o && decide (A w o (E.answer w o))

theorem oracle_sound (A : Assumption) [∀ w o r, Decidable (A w o r)] :
    (E.oracle pl A).Sound (system pl A) := by
  intro w o h
  simp only [oracle, Bool.and_eq_true, decide_eq_true_eq] at h
  exact ⟨answer_legal h.1, h.2⟩

end Environment

def Process.empty : Process := ⟨.empty, .empty, []⟩

instance : ∀ w o r, Decidable (anyKernel w o r) := fun _ _ _ => isTrue trivial

end AlpcResearch
