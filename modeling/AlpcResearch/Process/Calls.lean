import AlpcResearch.Process.Memory

/-!
# Calls

The operations under the names the C files call them by, with the fields of
`PORT_MESSAGE` read and written at their offsets.
-/

namespace AlpcResearch

open Resource Program

abbrev issue (o : Op) : Proc (Ret o) := .call o .ret

def free (api : HeapApi) (p : PVoid) : Proc Unit := issue (.free api p)

def rtlZeroMemory (p : PVoid) (length : Nat) : Proc Unit := issue (.rtlZeroMemory p length)

def rtlCopyMemory (dst src : PVoid) (length : Nat) : Proc Unit :=
  issue (.rtlCopyMemory dst src length)

/-- The allocators return the block; its residue stays in the heap. -/
def allocate (api : HeapApi) (layout : Layout) : Proc PVoid :=
  .call (.allocate api layout) fun r => .ret r.pointer

/-- `UaAllocateZeroHeap` and `KaAllocateZeroHeap`, which differ in the
allocator. -/
def allocateZeroHeap (api : HeapApi) (pl : Platform) (layout : Layout) : Proc PVoid := do
  let baseAddress ← allocate api layout
  if baseAddress ≠ none then
    rtlZeroMemory baseAddress (layout.size pl)
    return baseAddress
  else
    return baseAddress

theorem allocateZeroHeap_bind (f : PVoid → Proc α) :
    (allocateZeroHeap api pl layout >>= f) =
      .call (.allocate api layout) fun r => match r.pointer with
        | none => f none
        | some p => .call (.rtlZeroMemory (some p) (layout.size pl)) fun _ => f (some p) := by
  simp only [allocateZeroHeap, allocate, call_bind, ret_bind]
  refine congrArg _ (funext fun r => ?_)
  cases r.pointer with
  | none => rfl
  | some p => rfl

/-- `if (NULL != p) { ... }`. -/
def unlessNull (p : Option β) (body : Proc Unit) : Proc Unit := if p ≠ none then body else pure ()

theorem uses_unlessNull {good : Op → Prop} {p : Option β} {body : Proc Unit}
    (h : body.Uses good) : (unlessNull p body).Uses good := by
  unfold unlessNull
  split
  · exact h
  · trivial

/-- What follows a call whose status is looked at. -/
theorem safe_ifFailed {S : System Op Ret Process} {I : World → Prop} {Q : α → World → Prop}
    {status : NtStatus} {failed done : Proc α}
    (hdone : ntSuccess status = true → done.safe S I Q w)
    (hfailed : ¬ ntSuccess status = true → failed.safe S I Q w) :
    Prog.safe S I (if !ntSuccess status then failed else done) Q w := by
  by_cases hs : ntSuccess status = true
  · simpa [hs] using hdone hs
  · simpa [hs] using hfailed hs

/-- `p + 1` for a `PPORT_MESSAGE`. -/
def messageBody (pl : Platform) (portMessage : PVoid) : PVoid :=
  portMessage.map (·.add pl.sizeofPortMessage)

/-- `PortMessage->u1.s1.TotalLength = v`. -/
def setTotalLength (portMessage : PVoid) (v : UInt16) : Proc Unit :=
  issue (.store portMessage PortMessage.offTotalLength (leBytes 2 v.toNat))

def setDataLength (portMessage : PVoid) (v : UInt16) : Proc Unit :=
  issue (.store portMessage PortMessage.offDataLength (leBytes 2 v.toNat))

def getType (portMessage : PVoid) : Proc UInt16 :=
  .call (.load portMessage PortMessage.offType 2) fun bs => .ret (UInt16.ofNat (leNat bs))

def getClientId (pl : Platform) (portMessage : PVoid) : Proc ClientId :=
  .call (.load portMessage PortMessage.offClientId (sizeofClientId pl)) fun bs =>
    .ret (.ofBytes pl bs)

def setClientId (portContext : PVoid) (id : ClientId) : Proc Unit :=
  issue (.setClientId portContext id)

def getCommunicationPortHandle (portContext : PVoid) : Proc Handle :=
  issue (.getCommunicationPortHandle portContext)

def getPortContext (contextAttribute : PVoid) : Proc PVoid :=
  issue (.getPortContext contextAttribute)

def alpcGetHeaderSize (mask : UInt32) : Proc Nat := issue (.alpcGetHeaderSize mask)

def alpcInitializeMessageAttribute (mask : UInt32) (buffer : PVoid) (size : Nat) :
    Proc NtStatus :=
  issue (.alpcInitializeMessageAttribute mask buffer size)

def alpcGetMessageAttribute (buffer : PVoid) (flag : UInt32) : Proc PVoid :=
  issue (.alpcGetMessageAttribute buffer flag)

def alpcCreatePort (portName : String) (attributes : PortAttributes) : Proc (NtStatus × Handle) :=
  issue (.alpcCreatePort portName attributes)

def alpcConnectPort (a : ConnectPort) : Proc ConnectReply := issue (.alpcConnectPort a)

/-- Status and handle are all the code looks at; what the kernel wrote is in
memory. -/
def alpcSendWaitReceivePort (a : SendWaitReceive) : Proc NtStatus :=
  .call (.alpcSendWaitReceivePort a) fun r => .ret r.status

def alpcCancelMessage (portHandle : Handle) (contextAttribute : PVoid) : Proc NtStatus :=
  issue (.alpcCancelMessage portHandle contextAttribute)

def alpcAcceptConnectPort (a : AcceptConnectPort) : Proc NtStatus :=
  .call (.alpcAcceptConnectPort a) fun r => .ret r.status

def ntClose (h : Handle) : Proc NtStatus := issue (.close h)

def ntWaitForSingleObject (h : Handle) : Proc NtStatus := issue (.waitForSingleObject h)

def callOnRequest (procedure : Procedure) (portMessage : PVoid) : Proc Unit :=
  .call (.onRequest procedure portMessage) fun _ => .ret ()

def callOnDatagram (procedure : Procedure) (portMessage : PVoid) : Proc Unit :=
  .call (.onDatagram procedure portMessage) fun _ => .ret ()

/-- `PortMessage->u1.s1.DataLength`, as the `CSHORT` it is declared. -/
def getSignedDataLength (portMessage : PVoid) : Proc Int16 :=
  .call (.load portMessage PortMessage.offDataLength 2) fun bs =>
    .ret (UInt16.ofNat (leNat bs)).toInt16

def callOnDatagramBuffer (procedure : Procedure) (datagramBuffer : PVoid)
    (datagramLength : Int16) : Proc Unit :=
  .call (.onDatagramBuffer procedure datagramBuffer datagramLength) fun _ => .ret ()

def callOnConnectBuffer (procedure : Procedure) (connectionDataBuffer : PVoid)
    (connectionDataLength : Int16) : Proc Bool :=
  .call (.onConnectBuffer procedure connectionDataBuffer connectionDataLength) fun r =>
    .ret r.accept

def callOnConnect (procedure : Procedure) (portMessage : PVoid) : Proc Bool :=
  .call (.onConnect procedure portMessage) fun r => .ret r.accept

/-- `sizeof(PORT_MESSAGE) + Length`, narrowed to `USHORT`. -/
def totalLengthOf (pl : Platform) (length : UInt16) : UInt16 :=
  UInt16.ofNat (pl.sizeofPortMessage + length.toNat)

/-- What the senders of `ua.c`, `ka.c` and `AdvancedLocalProcedureCall.c` have
in common: the length check, the temporary block, the two length fields and
the copy of the caller's data, then the call itself, then the release. `fail`
is what a sender returns for a status of its own. -/
def withPortMessage (api : HeapApi) (pl : Platform) (data : PVoid) (length : UInt16)
    (fail : NtStatus → α) (send : PVoid → Proc α) : Proc α := do
  let totalLength := totalLengthOf pl length
  if totalLength.toNat > pl.alpcMaxAllowedMessageLength then
    return fail statusBufferOverflow
  else
    let portMessage ← allocateZeroHeap api pl (.buffer totalLength.toNat)
    if portMessage = none then
      return fail statusInsufficientResources
    else
      setTotalLength portMessage totalLength
      setDataLength portMessage length
      rtlCopyMemory (messageBody pl portMessage) data length.toNat
      let result ← send portMessage
      free api portMessage
      return result

-- ---------------------------------------------------------------------------
-- Signed lengths
-- ---------------------------------------------------------------------------

/-- A `SHORT` where a `SIZE_T` is expected: the sign is extended. -/
def toSizeT (pl : Platform) (length : Int16) : Nat :=
  (length.toInt % (2 ^ (8 * pl.pointerSize) : Nat)).toNat

/-- `sizeof(PORT_MESSAGE) + DataLength`, narrowed to `SHORT`. -/
def signedTotalLengthOf (pl : Platform) (dataLength : Int16) : Int16 :=
  Int16.ofInt (pl.sizeofPortMessage + dataLength.toInt)

/-- What `SrvInitializePortMessage` and `CliInitializePortMessage` do to the
buffer. -/
def initializePortMessage (pl : Platform) (portMessage dataBuffer : PVoid) (dataLength : Int16) :
    Proc Unit := do
  let totalLength := signedTotalLengthOf pl dataLength
  rtlZeroMemory portMessage (toSizeT pl totalLength)
  setTotalLength portMessage totalLength.toUInt16
  setDataLength portMessage dataLength.toUInt16
  if dataBuffer ≠ none then
    rtlCopyMemory (messageBody pl portMessage) dataBuffer (toSizeT pl dataLength)
  else
    pure ()

end AlpcResearch
