import AlpcResearch.Runtime
import AlpcResearch.Sessions.Steps

/-!
# The server the project builds: `server.c`

Every client shares the loop of `SrvServerWorker`, and what a handler returns
decides whether the loop goes on. `AlpcMaxAllowedMessageLength` is a function
of `ntdll`; its result is the parameter `maxLength`.
-/

namespace AlpcResearch.Server

open Resource Program

def srvInitializePortAttributes (maxLength : Nat) : PortAttributes where
  flags := 0
  maxMessageLength := maxLength

def getDataLength (portMessage : PVoid) : Proc UInt16 :=
  .call (.load portMessage PortMessage.offDataLength 2) fun bs => .ret (UInt16.ofNat (leNat bs))

def quadPart (bs : List UInt8) : Int := Int.bmod (leNat bs) (2 ^ 64)

/-- `Counter->QuadPart`, where `Counter` points behind the header. -/
def getCounter (pl : Platform) (portMessage : PVoid) : Proc Int :=
  .call (.load portMessage pl.sizeofPortMessage 8) fun bs => .ret (quadPart bs)

/-- `0 == (Counter->QuadPart % 1000000)`, with the remainder of C. -/
@[irreducible] def isReported (counter : Int) : Bool := counter.tmod 1000000 = 0

def printf (text : String) (counter : Int) : Proc Unit := issue (.printf text counter)

/-- What the request and the datagram handler begin with: one message in a
million is reported. -/
def reportCounter (pl : Platform) (portMessage : PVoid) (text : String) : Proc Unit := do
  let _contentLength ← getDataLength portMessage
  let counter ← getCounter pl portMessage
  if isReported counter then printf text counter else pure ()

def onAlpcRequest (pl : Platform) (connectionPortHandle : Handle) (portMessage : PVoid) :
    Proc NtStatus := do
  reportCounter pl portMessage "Request Receive Counter %lld.\n"
  alpcSendWaitReceivePort {
    portHandle := connectionPortHandle
    flags := alpcMsgflgReleaseMessage
    sendMessage := portMessage
    receiveMessage := none
    bufferLength := none
    receiveMessageAttributes := none }

def onAlpcDatagram (pl : Platform) (portMessage : PVoid) : Proc NtStatus := do
  reportCounter pl portMessage "Datagram Receive Counter %lld.\n"
  return statusSuccess

def onAlpcDisconnection (messageAttributes : PVoid) : Proc NtStatus := do
  let contextAttribute ← alpcGetMessageAttribute messageAttributes alpcMessageContextAttribute
  if contextAttribute = none then
    return statusUnsuccessful
  else
    let portContext ← getPortContext contextAttribute
    let handle ← getCommunicationPortHandle portContext
    let status ← ntClose handle
    free .processHeap portContext
    return status

/-- The two calls of `OnAlpcConnection`, which differ in their last argument. -/
def acceptWith (maxLength : Nat) (connectionPortHandle : Handle) (portMessage portContext : PVoid)
    (acceptConnection : Bool) : AcceptConnectPort where
  portHandle := .portContext portContext
  connectionPortHandle := connectionPortHandle
  portAttributes := srvInitializePortAttributes maxLength
  portContext := portContext
  connectionRequest := portMessage
  acceptConnection := acceptConnection

/-- A context that was turned down is neither linked nor released. -/
def onAlpcConnection (pl : Platform) (maxLength : Nat) (connectionPortHandle : Handle)
    (portMessage : PVoid) : Proc NtStatus := do
  let portContext ← allocate .processHeap .portContext
  if portContext = none then
    return statusInsufficientResources
  else
    let clientId ← getClientId pl portMessage
    setClientId portContext clientId
    let status ← alpcAcceptConnectPort
      (acceptWith maxLength connectionPortHandle portMessage portContext true)
    if !ntSuccess status then
      alpcAcceptConnectPort
        (acceptWith maxLength connectionPortHandle portMessage portContext false)
    else
      return status

/-- What the worker has before its loop. -/
structure Worker where
  connectionPortHandle : Handle
  messageAttributes : PVoid
  portMessage : PVoid
  deriving DecidableEq, Repr

def datagramCase (pl : Platform) (worker : Worker) (contextAttribute : PVoid) : Proc NtStatus := do
  let status ← onAlpcDatagram pl worker.portMessage
  let type ← getType worker.portMessage
  if type &&& lpcContinuationRequired ≠ 0 then
    let _ ← alpcCancelMessage worker.connectionPortHandle contextAttribute
    return status
  else
    return status

def srvDispatch (pl : Platform) (maxLength : Nat) (worker : Worker) (contextAttribute : PVoid)
    (kind : UInt8) : Proc NtStatus :=
  if kind = lpcRequest then
    onAlpcRequest pl worker.connectionPortHandle worker.portMessage
  else if kind = lpcDatagram then datagramCase pl worker contextAttribute
  else if kind = lpcPortClosed then onAlpcDisconnection worker.messageAttributes
  else if kind = lpcClientDied then onAlpcDisconnection worker.messageAttributes
  else if kind = lpcConnectionRequest then
    onAlpcConnection pl maxLength worker.connectionPortHandle worker.portMessage
  else pure statusSuccess

def srvProcessMessage (pl : Platform) (maxLength : Nat) (worker : Worker) : Proc NtStatus := do
  let contextAttribute ←
    alpcGetMessageAttribute worker.messageAttributes alpcMessageContextAttribute
  let type ← getType worker.portMessage
  srvDispatch pl maxLength worker contextAttribute (lobyte type)

def srvReceive (maxLength : Nat) (worker : Worker) : SendWaitReceive where
  portHandle := worker.connectionPortHandle
  flags := 0
  sendMessage := none
  receiveMessage := worker.portMessage
  bufferLength := some maxLength
  receiveMessageAttributes := worker.messageAttributes

/-- `SrvServerWorker` up to its loop: the status it fails with, or what the
loop works on. -/
def srvServerWorkerStart (maxLength : Nat) (connectionPortHandle : Handle) :
    Proc (Except NtStatus Worker) := do
  let messageAttributesMask := alpcMessageViewAttribute ||| alpcMessageContextAttribute
  let messageAttributesSize ← alpcGetHeaderSize messageAttributesMask
  let messageAttributes ← allocate .processHeap (.attributes messageAttributesSize)
  if messageAttributes = none then
    return .error statusInsufficientResources
  else
    let status ← alpcInitializeMessageAttribute messageAttributesMask messageAttributes
      messageAttributesSize
    if !ntSuccess status then
      free .processHeap messageAttributes
      return .error status
    else
      let portMessage ← allocate .processHeap (.buffer maxLength)
      if portMessage = none then
        free .processHeap messageAttributes
        return .error statusInsufficientResources
      else
        return .ok ⟨connectionPortHandle, messageAttributes, portMessage⟩

/-- One round of its loop; a `break` leaves with the status it broke on. -/
def srvServerWorker (pl : Platform) (maxLength : Nat) (worker : Worker) :
    Proc (Control NtStatus) := do
  let status ← alpcSendWaitReceivePort (srvReceive maxLength worker)
  if !ntSuccess status then
    return .leave status
  else
    let status ← srvProcessMessage pl maxLength worker
    if !ntSuccess status then
      return .leave status
    else
      return .again

def srvServerWorkerEnd (worker : Worker) (status : NtStatus) : Proc NtStatus := do
  free .processHeap worker.portMessage
  free .processHeap worker.messageAttributes
  return status

def srvInitializeChannel (maxLength : Nat) (portName : String) : Proc (NtStatus × Handle) := do
  let (status, connectionPortHandle) ←
    alpcCreatePort portName (srvInitializePortAttributes maxLength)
  if !ntSuccess status then
    return (status, none)
  else
    let (status, srvServerThreadHandle) ← rtCreateThread (.handle connectionPortHandle)
    if !ntSuccess status then
      let _ ← ntClose connectionPortHandle
      return (status, none)
    else
      return (statusSuccess, srvServerThreadHandle)

end AlpcResearch.Server
