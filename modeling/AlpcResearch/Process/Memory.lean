import AlpcResearch.Process.Operations

/-!
# A process: its heap, its handles, and what goes wrong in it

`Process.Legal` lists the responses an operation may have, `Process.effect`
what it leaves behind. Both read and change the block or handle that has the
given address or value now, whoever owns it, as the machine does; a use
through a dead reference is recorded in `faults`, which only grows.
Dereferencing `NULL` has no response: such a thread stops there.

Beyond `Legal`, nothing is assumed of the kernel here; a claim about it is an
`Assumption`, a condition on the next response given the history.
-/

namespace AlpcResearch

open Resource Program

inductive KernelObject
  | connectionPort
  | communicationPort
  | thread
  deriving DecidableEq, Repr

inductive Fault
  /-- An access through a pointer to a block that is gone. -/
  | useAfterFree (p : Ptr)
  /-- A `free` of a block that is gone, or of the middle of one. -/
  | invalidFree (p : Ptr)
  /-- An access of the program past the end of the block. -/
  | outOfBounds (p : Ptr) (length : Nat)
  /-- A message the kernel wrote past the end of the block. -/
  | kernelOverflow (p : Ptr) (length : Nat)
  /-- A system call on a handle that is closed. -/
  | staleHandle (h : Ref)
  deriving DecidableEq, Repr

structure Process where
  heap : Table Object
  handles : Table KernelObject
  faults : List Fault

abbrev World := Program.World Op Ret Process

namespace Process

def at? (P : Process) (p : PVoid) : Option Object :=
  p.bind fun q => (P.heap.slots q.block.name).map (·.2)

/-- What a live block was allocated for. -/
def layoutOf (P : Process) (r : Ref) : Option Layout := (P.heap.get? r).map Object.layout

def offsetOf : PVoid → Nat
  | some q => q.offset
  | none => 0

def modify (P : Process) (p : PVoid) (f : Object → Object) : Table Object :=
  match p with
  | some q => P.heap.modify q.block.name f
  | none => P.heap

-- ---------------------------------------------------------------------------
-- Responses
-- ---------------------------------------------------------------------------

/-- A handle a successful call opens is fresh; a failing call leaves its
output as it was, `NULL`. -/
def Opens (P : Process) (status : NtStatus) (h : Handle) : Prop :=
  if ntSuccess status then ∃ r, h = some r ∧ P.handles.Fresh r else h = none

/-- The bytes the kernel takes from a message: as many as its `TotalLength`
says. -/
def Takes (P : Process) (p : PVoid) (taken : List UInt8) : Prop :=
  (p = none → taken = []) ∧ ∀ q size data, p = some q → P.at? p = some (.buffer size data) →
    taken = data.slice q.offset (leNat (data.slice (q.offset + PortMessage.offTotalLength) 2))

def Legal (pl : Platform) (P : Process) : (o : Op) → Ret o → Prop
  -- only `malloc` leaves what was there before
  | .allocate api layout, r =>
    r.residue.layout = layout ∧ r.residue.Bounded ∧ (api ≠ .crt → r.residue = .zeroed layout) ∧
      ∀ p, r.pointer = some p → p.offset = 0 ∧ P.heap.Fresh p.block
  | .rtlZeroMemory p length, _ => length = 0 ∨ p ≠ none
  | .rtlCopyMemory dst src length, _ => length = 0 ∨ dst ≠ none ∧ src ≠ none
  | .load p offset length, r =>
    p ≠ none ∧ r.length = length ∧ ∀ q size data, p = some q →
      P.at? p = some (.buffer size data) → r = data.slice (q.offset + offset) length
  | .store p _ _, _ => p ≠ none
  | .setClientId p _, _ => p ≠ none
  | .getCommunicationPortHandle p, r =>
    p ≠ none ∧ ∀ c, P.at? p = some (.portContext c) → r = c.communicationPortHandle
  | .getPortContext p, r =>
    p ≠ none ∧ ∀ size a, P.at? p = some (.attributes size a) → r = a.portContext
  -- the attribute lies inside the buffer
  | .alpcGetMessageAttribute buffer _, r =>
    ∀ p, r = some p → ∃ q, buffer = some q ∧ p.block = q.block
  | .alpcCreatePort .., r => P.Opens r.1 r.2
  | .alpcConnectPort a, r =>
    P.Opens r.status r.handle ∧ P.Takes a.connectionMessage r.taken ∧
      r.written.length ≤ a.bufferLength
  | .alpcSendWaitReceivePort a, r =>
    P.Takes a.sendMessage r.taken ∧ r.written.length ≤ a.bufferLength.getD 0 ∧
      (a.receiveMessage = none → r.written = []) ∧
      (ntSuccess r.status → a.receiveMessage ≠ none → pl.sizeofPortMessage ≤ r.written.length)
  | .alpcAcceptConnectPort a, r =>
    if a.acceptConnection then P.Opens r.status r.handle else r.handle = none
  | .createThread _, r => P.Opens r.1 r.2
  | .psCreateSystemThread .., r => P.Opens r.1 r.2
  | .ntCreateThreadEx _, r => P.Opens r.1 r.2
  | .onRequest _ p, r => p ≠ none ∧ ∀ size data, P.at? p = some (.buffer size data) → r.seen = data
  | .onDatagram _ p, r => p ≠ none ∧ ∀ size data, P.at? p = some (.buffer size data) → r = data
  | .onConnect _ p, r => p ≠ none ∧ ∀ size data, P.at? p = some (.buffer size data) → r.seen = data
  | .onDatagramBuffer _ p _, r =>
    ∀ q size data, p = some q → P.at? p = some (.buffer size data) → r = fun i => data (q.offset + i)
  | .onConnectBuffer _ p _, r => ∀ q size data, p = some q →
    P.at? p = some (.buffer size data) → r.seen = fun i => data (q.offset + i)
  | .free .., _ | .alpcGetHeaderSize _, _ | .alpcInitializeMessageAttribute .., _
  | .alpcCancelMessage .., _ | .close _, _ | .waitForSingleObject _, _ | .printf .., _ => True

-- ---------------------------------------------------------------------------
-- Effects
-- ---------------------------------------------------------------------------

/-- The bytes at a pointer; nothing is known of a block that is gone. -/
def bytesAt (P : Process) (p : PVoid) (length : Nat) : List UInt8 :=
  match p, P.at? p with
  | some q, some (.buffer _ data) => data.slice q.offset length
  | _, _ => List.replicate length 0

def heapAfter (P : Process) : (o : Op) → Ret o → Table Object
  | .allocate .., r => match r.pointer with
    | some p => P.heap.acquire p.block.name r.residue
    | none => P.heap
  | .free _ p, _ => match p with
    | some q => P.heap.release q.block.name
    | none => P.heap
  | .rtlZeroMemory p length, _ => P.modify p (.zero (offsetOf p) length)
  | .rtlCopyMemory dst src length, _ =>
    P.modify dst (.writeBytes (offsetOf dst) (P.bytesAt src length))
  | .store p offset bytes, _ =>
    P.modify p (.writeBytes (offsetOf p + offset) bytes)
  | .setClientId p id, _ => P.modify p (.setClientId id)
  | .alpcInitializeMessageAttribute mask p _, r =>
    if ntSuccess r then P.modify p (.setAllocatedAttributes mask) else P.heap
  | .alpcConnectPort a, r => 
    P.modify a.connectionMessage (.writeBytes (offsetOf a.connectionMessage) r.written)
  | .alpcSendWaitReceivePort a, r =>
    let heap := P.modify a.receiveMessage (.writeBytes (offsetOf a.receiveMessage) r.written)
    if ntSuccess r.status then
      { P with heap }.modify a.receiveMessageAttributes (.setPortContext r.portContext)
    else heap
  | .alpcAcceptConnectPort a, r => match a.portHandle with
    | .portContext p =>
      if ntSuccess r.status && a.acceptConnection then
        P.modify p (.setCommunicationPortHandle r.handle)
      else P.heap
    | .local => P.heap
  | .onRequest _ p, r => P.modify p (.setData r.left)
  | _, _ => P.heap

def opened : (o : Op) → Ret o → Option (Ref × KernelObject)
  | .alpcCreatePort .., r => r.2.map fun h => (h, .connectionPort)
  | .alpcConnectPort _, r => r.handle.map fun h => (h, .communicationPort)
  | .alpcAcceptConnectPort _, r => r.handle.map fun h => (h, .communicationPort)
  | .createThread _, r => r.2.map fun h => (h, .thread)
  | .psCreateSystemThread .., r => r.2.map fun h => (h, .thread)
  | .ntCreateThreadEx _, r => r.2.map fun h => (h, .thread)
  | _, _ => none

def closed : (o : Op) → Ret o → Handle
  | .close h, r => if ntSuccess r then h else none
  | _, _ => none

def handlesAfter (P : Process) (o : Op) (r : Ret o) : Table KernelObject :=
  match opened o r, closed o r with
  | some (h, obj), _ => P.handles.acquire h.name obj
  | none, some h => P.handles.release h.name
  | none, none => P.handles

-- ---------------------------------------------------------------------------
-- Faults
-- ---------------------------------------------------------------------------

def accessFault (pl : Platform) (P : Process) (p : PVoid) (length : Nat) : List Fault :=
  match p with
  | none => []
  | some q =>
    if length = 0 then [] else
      match P.layoutOf q.block with
      | none => [.useAfterFree q]
      | some l => if q.offset + length ≤ l.size pl then [] else [.outOfBounds q length]

/-- A message of `length` bytes the kernel writes to `p`. -/
def kernelWriteFault (pl : Platform) (P : Process) (p : PVoid) (length : Nat) : List Fault :=
  match p with
  | none => []
  | some q =>
    if length = 0 then [] else
      match P.layoutOf q.block with
      | none => [.useAfterFree q]
      | some l => if q.offset + length ≤ l.size pl then [] else [.kernelOverflow q length]

def structFault (P : Process) (p : PVoid) : List Fault :=
  match p with
  | none => []
  | some q => if (P.layoutOf q.block).isSome then [] else [.useAfterFree q]

def handleFault (P : Process) (h : Handle) : List Fault :=
  match h with
  | none => []
  | some r => if (P.handles.get? r).isSome then [] else [.staleHandle r]

def faultsOf (pl : Platform) (P : Process) : (o : Op) → Ret o → List Fault
  | .free _ p, _ => match p with
    | none => []
    | some q => if (P.layoutOf q.block).isSome && q.offset == 0 then [] else [.invalidFree q]
  | .rtlZeroMemory p length, _ => P.accessFault pl p length
  | .rtlCopyMemory dst src length, _ => P.accessFault pl dst length ++ P.accessFault pl src length
  | .load p offset length, _ => P.accessFault pl (p.map (·.add offset)) length
  | .store p offset bytes, _ => P.accessFault pl (p.map (·.add offset)) bytes.length
  | .setClientId p _, _ => P.structFault p
  | .getCommunicationPortHandle p, _ => P.structFault p
  | .getPortContext p, _ => P.structFault p
  | .alpcInitializeMessageAttribute _ p _, _ => P.structFault p
  | .alpcGetMessageAttribute p _, _ => P.structFault p
  | .alpcConnectPort a, r => P.kernelWriteFault pl a.connectionMessage r.written.length
  | .alpcSendWaitReceivePort a, r =>
    P.handleFault a.portHandle ++ P.kernelWriteFault pl a.receiveMessage r.written.length ++
      P.structFault a.receiveMessageAttributes
  | .alpcCancelMessage h p, _ => P.handleFault h ++ P.structFault p
  | .alpcAcceptConnectPort a, _ =>
    P.handleFault a.connectionPortHandle ++ match a.portHandle with
      | .portContext p => P.structFault p
      | .local => []
  | .close h, _ => P.handleFault h
  | .waitForSingleObject h, _ => P.handleFault h
  | _, _ => []

def effect (pl : Platform) (P : Process) (o : Op) (r : Ret o) : Process where
  heap := P.heapAfter o r
  handles := P.handlesAfter o r
  faults := P.faultsOf pl o r ++ P.faults

end Process

/-- A condition on the next response, given the history. -/
abbrev Assumption := World → (o : Op) → Ret o → Prop

/-- One process under a kernel of which `A` is assumed. -/
def system (pl : Platform) (A : Assumption) : System Op Ret Process where
  legal w o r := w.state.Legal pl o r ∧ A w o r
  effect := Process.effect pl

def anyKernel : Assumption := fun _ _ _ => True

/-- What is right under a kernel is right under one of which more is assumed. -/
theorem safe_assuming {pl : Platform} {A B : Assumption} {p : Proc α} {I : World → Prop}
    {Q : α → World → Prop} (hAB : ∀ {w o r}, A w o r → B w o r) (h : p.safe (system pl B) I Q w) :
    p.safe (system pl A) I Q w := by
  induction p generalizing w with
  | ret a => exact h
  | call o k ih => exact ⟨h.1, fun r hr => ih r (h.2 r ⟨hr.1, hAB hr.2⟩)⟩

theorem ends_assuming {pl : Platform} {A B : Assumption} {p : Proc α}
    (hAB : ∀ {w o r}, A w o r → B w o r) (h : Ends (system pl A) p w a v) :
    Ends (system pl B) p w a v := by
  induction h with
  | ret => exact .ret
  | call hr _ ih => exact .call ⟨hr.1, hAB hr.2⟩ ih

theorem head_assuming {pl : Platform} {A B : Assumption} {body : Proc (Control β)}
    (hAB : ∀ {w o r}, A w o r → B w o r) (h : Head (system pl A) body w₀ w) :
    Head (system pl B) body w₀ w := by
  induction h with
  | start => exact .start
  | again _ hround ih => exact .again ih (ends_assuming hAB hround)

end AlpcResearch
