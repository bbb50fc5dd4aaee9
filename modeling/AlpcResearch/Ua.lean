import AlpcResearch.Process.Calls

/-!
# The user-mode port: `ua.c`

Each function under its own name, statement by statement. The platform fixes
`sizeof(PORT_MESSAGE)` and `ALPC_MAX_ALLOWED_MESSAGE_LENGTH`. The bodies of
`UaServerWorker`'s loop and of `UaTerminateServer` read the server's fields
from the record the thread was started on; `UaCreateServer` fills it.
-/

namespace AlpcResearch.Ua

open Resource Program

def uaAllocateZeroHeap (pl : Platform) (layout : Layout) : Proc PVoid :=
  allocateZeroHeap .crt pl layout

def uaFreeHeap (baseAddress : PVoid) : Proc Unit := free .crt baseAddress

def uaInitializePortAttributes (pl : Platform) : PortAttributes where
  flags := 0
  maxMessageLength := pl.alpcMaxAllowedMessageLength

-- ---------------------------------------------------------------------------
-- The server's side
-- ---------------------------------------------------------------------------

def uaAlpcRequest (server : ServerObject) : Proc NtStatus := do
  callOnRequest server.onRequest server.portMessage
  let _ ← alpcSendWaitReceivePort {
    portHandle := server.connectionPortHandle
    flags := alpcMsgflgReleaseMessage
    sendMessage := server.portMessage
    receiveMessage := none
    bufferLength := none
    receiveMessageAttributes := none }
  return statusSuccess

def uaAlpcDatagram (server : ServerObject) : Proc NtStatus := do
  let contextAttribute ←
    alpcGetMessageAttribute server.messageAttributes alpcMessageContextAttribute
  if contextAttribute = none then
    return statusUnsuccessful
  else
    callOnDatagram server.onDatagram server.portMessage
    let type ← getType server.portMessage
    if type &&& lpcContinuationRequired ≠ 0 then
      let _ ← alpcCancelMessage server.connectionPortHandle contextAttribute
      return statusSuccess
    else
      return statusSuccess

def uaAlpcDisconnect (server : ServerObject) : Proc NtStatus := do
  let contextAttribute ←
    alpcGetMessageAttribute server.messageAttributes alpcMessageContextAttribute
  if contextAttribute = none then
    return statusUnsuccessful
  else
    let portContext ← getPortContext contextAttribute
    let handle ← getCommunicationPortHandle portContext
    let status ← ntClose handle
    uaFreeHeap portContext
    return status

/-- The call that turns a connection request down, written out three times in
`UaAlpcConnect`. -/
def uaReject (server : ServerObject) : AcceptConnectPort where
  portHandle := .local
  connectionPortHandle := server.connectionPortHandle
  portAttributes := server.portAttributes
  portContext := none
  connectionRequest := server.portMessage
  acceptConnection := false

def uaAlpcConnect (pl : Platform) (server : ServerObject) : Proc NtStatus := do
  let accept ← callOnConnect server.onConnect server.portMessage
  if accept then
    let portContext ← uaAllocateZeroHeap pl .portContext
    if portContext ≠ none then
      let clientId ← getClientId pl server.portMessage
      setClientId portContext clientId
      let status ← alpcAcceptConnectPort {
        portHandle := .portContext portContext
        connectionPortHandle := server.connectionPortHandle
        portAttributes := server.portAttributes
        portContext := portContext
        connectionRequest := server.portMessage
        acceptConnection := true }
      if !ntSuccess status then
        let _ ← alpcAcceptConnectPort (uaReject server)
        uaFreeHeap portContext
        return statusSuccess
      else
        return statusSuccess
    else
      let _ ← alpcAcceptConnectPort (uaReject server)
      return statusSuccess
  else
    let _ ← alpcAcceptConnectPort (uaReject server)
    return statusSuccess

def uaDispatch (pl : Platform) (server : ServerObject) (kind : UInt8) : Proc NtStatus :=
  if kind = lpcRequest then uaAlpcRequest server
  else if kind = lpcDatagram then uaAlpcDatagram server
  else if kind = lpcPortClosed then uaAlpcDisconnect server
  else if kind = lpcClientDied then uaAlpcDisconnect server
  else if kind = lpcConnectionRequest then uaAlpcConnect pl server
  else pure statusSuccess

def uaProcessMessage (pl : Platform) (server : ServerObject) : Proc NtStatus := do
  let type ← getType server.portMessage
  uaDispatch pl server (lobyte type)

def uaReceive (pl : Platform) (server : ServerObject) : SendWaitReceive where
  portHandle := server.connectionPortHandle
  flags := 0
  sendMessage := none
  receiveMessage := server.portMessage
  bufferLength := some pl.alpcMaxAllowedMessageLength
  receiveMessageAttributes := server.messageAttributes

/-- One round of the loop of `UaServerWorker`; after a `break` the thread
returns `STATUS_SUCCESS`. -/
def uaServerWorker (pl : Platform) (server : ServerObject) : Proc (Control NtStatus) := do
  let status ← alpcSendWaitReceivePort (uaReceive pl server)
  if !ntSuccess status then
    return .leave statusSuccess
  else
    let status ← uaProcessMessage pl server
    if !ntSuccess status then
      return .leave statusSuccess
    else
      return .again

-- ---------------------------------------------------------------------------
-- Creation and termination
-- ---------------------------------------------------------------------------

def uaTerminateServer (server : ServerObject) : Proc Unit := do
  let _ ← ntClose server.connectionPortHandle
  let _ ← ntWaitForSingleObject server.serverThreadHandle
  uaFreeHeap server.portMessage
  uaFreeHeap server.messageAttributes
  uaFreeHeap server.block

def uaCleanup (server : ServerObject) : Proc (Option ServerObject) := do
  unlessNull server.connectionPortHandle do
    let _ ← ntClose server.connectionPortHandle
  unlessNull server.messageAttributes (uaFreeHeap server.messageAttributes)
  unlessNull server.portMessage (uaFreeHeap server.portMessage)
  uaFreeHeap server.block
  return none

def uaCreateServer (pl : Platform) (portName : String)
    (onRequest onDatagram onConnect : Procedure) : Proc (Option ServerObject) := do
  let block ← uaAllocateZeroHeap pl .serverObject
  if block = none then
    return none
  else
    let server : ServerObject := {
      block, portName, onRequest, onDatagram, onConnect
      portMessage := none
      portAttributes := ⟨0, 0⟩
      messageAttributes := none
      connectionPortHandle := none
      serverThreadHandle := none }
    let messageAttributesMask := alpcMessageViewAttribute ||| alpcMessageContextAttribute
    let messageAttributesSize ← alpcGetHeaderSize messageAttributesMask
    let messageAttributes ← uaAllocateZeroHeap pl (.attributes messageAttributesSize)
    let server := { server with messageAttributes }
    if messageAttributes = none then
      uaCleanup server
    else
      let status ← alpcInitializeMessageAttribute messageAttributesMask messageAttributes
        messageAttributesSize
      if !ntSuccess status then
        uaCleanup server
      else
        let portMessage ← uaAllocateZeroHeap pl (.buffer pl.alpcMaxAllowedMessageLength)
        let server := { server with portMessage }
        if portMessage = none then
          uaCleanup server
        else
          let server := { server with portAttributes := uaInitializePortAttributes pl }
          let (status, connectionPortHandle) ← alpcCreatePort portName server.portAttributes
          let server := { server with connectionPortHandle }
          if !ntSuccess status then
            uaCleanup server
          else
            -- the worker starts on the object as it is now
            let (_, serverThreadHandle) ← issue (.createThread (some server))
            let server := { server with serverThreadHandle }
            if serverThreadHandle = none then
              uaCleanup server
            else
              return some server

-- ---------------------------------------------------------------------------
-- The client's side
-- ---------------------------------------------------------------------------

/-- The reply lands in the block the request was sent from, and is copied
back whatever the status. -/
def uaSendSynchronousRequest (pl : Platform) (communicationPortHandle : Handle)
    (requestDataBuffer : PVoid) (requestDataLength : UInt16) : Proc NtStatus :=
  withPortMessage .crt pl requestDataBuffer requestDataLength id fun portMessage => do
    let status ← alpcSendWaitReceivePort {
      portHandle := communicationPortHandle
      flags := alpcMsgflgSyncRequest
      sendMessage := portMessage
      receiveMessage := portMessage
      bufferLength := some (totalLengthOf pl requestDataLength).toNat
      receiveMessageAttributes := none }
    rtlCopyMemory requestDataBuffer (messageBody pl portMessage) requestDataLength.toNat
    return status

def uaSendDatagram (pl : Platform) (communicationPortHandle : Handle)
    (datagramBuffer : PVoid) (datagramLength : UInt16) : Proc NtStatus :=
  withPortMessage .crt pl datagramBuffer datagramLength id fun portMessage =>
    alpcSendWaitReceivePort {
      portHandle := communicationPortHandle
      flags := alpcMsgflgReleaseMessage
      sendMessage := portMessage
      receiveMessage := none
      bufferLength := none
      receiveMessageAttributes := none }

def uaDisconnectServer (communicationPortHandle : Handle) : Proc Unit := do
  let _ ← ntClose communicationPortHandle

/-- The handle is the one the kernel stored through `CommunicationPortHandle`,
`none` if it stored none. The announced capacity is the maximum, whatever the
size of the block. -/
def uaConnectServer (pl : Platform) (serverPortName : String)
    (connectionDataBuffer : PVoid) (connectionDataLength : UInt16) :
    Proc (NtStatus × Handle) :=
  withPortMessage .crt pl connectionDataBuffer connectionDataLength (·, none)
    fun portMessage => do
      let reply ← alpcConnectPort {
        portName := serverPortName
        portAttributes := uaInitializePortAttributes pl
        flags := alpcMsgflgSyncRequest
        connectionMessage := portMessage
        bufferLength := pl.alpcMaxAllowedMessageLength }
      return (reply.status, reply.handle)

end AlpcResearch.Ua
