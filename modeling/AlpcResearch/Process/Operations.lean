import AlpcResearch.Program.Runs
import AlpcResearch.Resource.Table
import AlpcResearch.Nt

/-!
# What the code asks for

Every allocation, memory access, system call, `ntdll` helper and callback of
the C files is one operation. Arguments the code always passes as `NULL` or
0 (timeouts, send attributes, security descriptors) are left out. Structures
that are written once and then only read travel as records: `UA_SERVER` is
filled by its constructor, and the worker reads the record it was started on.
-/

namespace AlpcResearch

open Resource Program

-- ---------------------------------------------------------------------------
-- Pointers, handles and objects
-- ---------------------------------------------------------------------------

/-- A pointer into a heap block; the block is named by its address and the
allocation it came from. -/
structure Ptr where
  block : Ref
  offset : Nat
  deriving DecidableEq, Repr

def Ptr.add (p : Ptr) (n : Nat) : Ptr := { p with offset := p.offset + n }

/-- `PVOID`, with `none` for `NULL`. -/
abbrev PVoid := Option Ptr

/-- `HANDLE`, with `none` for `NULL`. -/
abbrev Handle := Option Ref

abbrev Procedure := Nat

structure PortContext where
  clientId : ClientId
  communicationPortHandle : Handle
  deriving DecidableEq, Repr

/-- `ALPC_MESSAGE_ATTRIBUTES` with the context attribute behind it. -/
structure MessageAttributes where
  allocatedAttributes : UInt32
  portContext : PVoid
  deriving DecidableEq, Repr

/-- `ALPC_PORT_ATTRIBUTES`; the fields left out are zero everywhere. -/
structure PortAttributes where
  flags : UInt32
  maxMessageLength : Nat
  deriving DecidableEq, Repr

/-- `UA_SERVER` and `KA_SERVER_OBJECT`, the same structure field for field.
`block` is where the object itself lies. -/
structure ServerObject where
  block : PVoid
  portName : String
  onRequest : Procedure
  onDatagram : Procedure
  onConnect : Procedure
  portMessage : PVoid
  portAttributes : PortAttributes
  messageAttributes : PVoid
  connectionPortHandle : Handle
  serverThreadHandle : Handle
  deriving DecidableEq, Repr

inductive Layout
  | buffer (size : Nat)
  | attributes (size : Nat)
  | portContext
  | serverObject
  /-- `SERVER_OBJECT` without `OnRequest`. -/
  | olderServerObject
  /-- `CLIENT_OBJECT`. -/
  | clientObject
  /-- `KA_CLIENT_OBJECT`, which has no message buffer. -/
  | kaClientObject
  deriving DecidableEq, Repr

def Layout.size (pl : Platform) : Layout → Nat
  | .buffer size => size
  | .attributes size => size
  | .portContext => 3 * pl.pointerSize
  | .serverObject => match pl with
    | .x86 => 80
    | .x64 => 144
  | .olderServerObject => match pl with
    | .x86 => 76
    | .x64 => 136
  | .clientObject => match pl with
    | .x86 => 60
    | .x64 => 104
  | .kaClientObject => match pl with
    | .x86 => 56
    | .x64 => 96

inductive Object
  | buffer (size : Nat) (data : Contents)
  | attributes (size : Nat) (a : MessageAttributes)
  | portContext (c : PortContext)
  | serverObject
  | olderServerObject
  | clientObject
  | kaClientObject

namespace Object

def layout : Object → Layout
  | .buffer size _ => .buffer size
  | .attributes size _ => .attributes size
  | .portContext _ => .portContext
  | .serverObject => .serverObject
  | .olderServerObject => .olderServerObject
  | .clientObject => .clientObject
  | .kaClientObject => .kaClientObject

/-- The bytes outside a block are not part of it. -/
def Bounded : Object → Prop
  | .buffer size data => ∀ i, size ≤ i → data i = 0
  | _ => True

def zeroed : Layout → Object
  | .buffer size => .buffer size fun _ => 0
  | .attributes size => .attributes size ⟨0, none⟩
  | .portContext => .portContext ⟨⟨0, 0⟩, none⟩
  | .serverObject => .serverObject
  | .olderServerObject => .olderServerObject
  | .clientObject => .clientObject
  | .kaClientObject => .kaClientObject

/-- `RtlZeroMemory` from `off` on. Structures are only ever zeroed whole. -/
def zero (off len : Nat) : Object → Object
  | .buffer size data => .buffer size (data.zero off len)
  | .attributes size _ => .attributes size ⟨0, none⟩
  | .portContext _ => .portContext ⟨⟨0, 0⟩, none⟩
  | .serverObject => .serverObject
  | .olderServerObject => .olderServerObject
  | .clientObject => .clientObject
  | .kaClientObject => .kaClientObject

def writeBytes (off : Nat) (bs : List UInt8) : Object → Object
  | .buffer size data => .buffer size (data.write off bs)
  | o => o

def setData (data : Contents) : Object → Object
  | .buffer size _ => .buffer size data
  | o => o

def setClientId (id : ClientId) : Object → Object
  | .portContext c => .portContext { c with clientId := id }
  | o => o

def setCommunicationPortHandle (h : Handle) : Object → Object
  | .portContext c => .portContext { c with communicationPortHandle := h }
  | o => o

def setAllocatedAttributes (mask : UInt32) : Object → Object
  | .attributes size a => .attributes size { a with allocatedAttributes := mask }
  | o => o

def setPortContext (p : PVoid) : Object → Object
  | .attributes size a => .attributes size { a with portContext := p }
  | o => o

end Object

-- ---------------------------------------------------------------------------
-- Operations
-- ---------------------------------------------------------------------------

/-- `malloc` and `free`, the tagged kernel pool, or the process heap. -/
inductive HeapApi
  | crt
  | pool
  | processHeap
  deriving DecidableEq, Repr

structure SendWaitReceive where
  portHandle : Handle
  flags : UInt32
  sendMessage : PVoid
  receiveMessage : PVoid
  bufferLength : Option Nat
  receiveMessageAttributes : PVoid
  deriving DecidableEq, Repr

/-- Where `NtAlpcAcceptConnectPort` stores the handle it opens. -/
inductive HandleOut
  | local
  | portContext (p : PVoid)
  deriving DecidableEq, Repr

structure AcceptConnectPort where
  portHandle : HandleOut
  connectionPortHandle : Handle
  portAttributes : PortAttributes
  portContext : PVoid
  connectionRequest : PVoid
  acceptConnection : Bool
  deriving DecidableEq, Repr

structure ConnectPort where
  portName : String
  portAttributes : PortAttributes
  flags : UInt32
  connectionMessage : PVoid
  bufferLength : Nat
  deriving DecidableEq, Repr

/-- What `RtCreateThread` passes on to the thread, a server or a port. -/
inductive ThreadArgument
  | server (server : ServerObject)
  | handle (h : Handle)
  deriving DecidableEq

inductive Op
  | allocate (api : HeapApi) (layout : Layout)
  | free (api : HeapApi) (p : PVoid)
  | rtlZeroMemory (p : PVoid) (length : Nat)
  | rtlCopyMemory (dst src : PVoid) (length : Nat)
  | load (p : PVoid) (offset length : Nat)
  | store (p : PVoid) (offset : Nat) (bytes : List UInt8)
  | setClientId (portContext : PVoid) (id : ClientId)
  | getCommunicationPortHandle (portContext : PVoid)
  | getPortContext (contextAttribute : PVoid)
  | alpcGetHeaderSize (mask : UInt32)
  | alpcInitializeMessageAttribute (mask : UInt32) (buffer : PVoid) (size : Nat)
  | alpcGetMessageAttribute (buffer : PVoid) (flag : UInt32)
  | alpcCreatePort (portName : String) (attributes : PortAttributes)
  | alpcConnectPort (a : ConnectPort)
  | alpcSendWaitReceivePort (a : SendWaitReceive)
  | alpcCancelMessage (portHandle : Handle) (contextAttribute : PVoid)
  | alpcAcceptConnectPort (a : AcceptConnectPort)
  | close (h : Handle)
  | waitForSingleObject (h : Handle)
  | createThread (argument : Option ServerObject)
  | psCreateSystemThread (portName : String) (argument : Option ServerObject)
  | ntCreateThreadEx (argument : ThreadArgument)
  | onRequest (procedure : Procedure) (portMessage : PVoid)
  | onDatagram (procedure : Procedure) (portMessage : PVoid)
  | onConnect (procedure : Procedure) (portMessage : PVoid)
  | onDatagramBuffer (procedure : Procedure) (datagramBuffer : PVoid) (datagramLength : Int16)
  | onConnectBuffer (procedure : Procedure) (connectionDataBuffer : PVoid)
      (connectionDataLength : Int16)
  | printf (text : String) (counter : Int)

-- ---------------------------------------------------------------------------
-- Responses
-- ---------------------------------------------------------------------------

structure Allocation where
  pointer : PVoid
  residue : Object

/-- What `NtAlpcSendWaitReceivePort` returns, and the bytes it took from the
send message and put into the receive message and its attributes. -/
structure Reply where
  status : NtStatus
  bufferLength : Nat
  taken : List UInt8
  written : List UInt8
  portContext : PVoid

structure AcceptReply where
  status : NtStatus
  handle : Handle

structure ConnectReply where
  status : NtStatus
  handle : Handle
  bufferLength : Nat
  taken : List UInt8
  written : List UInt8

/-- The message a callback saw, and what it left in the buffer. -/
structure Served where
  seen : Contents
  left : Contents

structure Answer where
  seen : Contents
  accept : Bool

@[reducible] def Ret : Op → Type
  | .allocate .. => Allocation
  | .load .. => List UInt8
  | .getCommunicationPortHandle _ => Handle
  | .getPortContext _ => PVoid
  | .alpcGetHeaderSize _ => Nat
  | .alpcInitializeMessageAttribute .. => NtStatus
  | .alpcGetMessageAttribute .. => PVoid
  | .alpcCreatePort .. => NtStatus × Handle
  | .alpcConnectPort _ => ConnectReply
  | .alpcSendWaitReceivePort _ => Reply
  | .alpcCancelMessage .. => NtStatus
  | .alpcAcceptConnectPort _ => AcceptReply
  | .close _ => NtStatus
  | .waitForSingleObject _ => NtStatus
  -- `CreateThread` keeps the status for `GetLastError`
  | .createThread _ => NtStatus × Handle
  | .psCreateSystemThread .. => NtStatus × Handle
  | .ntCreateThreadEx _ => NtStatus × Handle
  | .onRequest .. => Served
  | .onDatagram .. => Contents
  | .onConnect .. => Answer
  -- what these see begins at the pointer they get
  | .onDatagramBuffer .. => Contents
  | .onConnectBuffer .. => Answer
  | .free .. | .rtlZeroMemory .. | .rtlCopyMemory .. | .store .. | .setClientId .. | .printf .. =>
    Unit

abbrev Proc := Prog Op Ret

abbrev Ev := Event Op Ret

end AlpcResearch
