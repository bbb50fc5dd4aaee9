import AlpcResearch.Process.Calls

/-!
# The kernel-mode port: `ka.c`

Each function under its own name, statement by statement. The file is kept by
hand as a copy of `ua.c`; what differs is the allocator, the port flags and
how the worker is started. `PsCreateSystemThread` is passed the attributes
that name the port, and `NULL` as the start context. A client is an object
here, and its functions return whether they succeeded.
-/

namespace AlpcResearch.Ka

open Resource Program

def kaAllocateZeroHeap (pl : Platform) (layout : Layout) : Proc PVoid :=
  allocateZeroHeap .pool pl layout

def kaFreeHeap (baseAddress : PVoid) : Proc Unit := free .pool baseAddress

def kaInitializePortAttributes (pl : Platform) : PortAttributes where
  flags := alpcPorflgSystemProcess
  maxMessageLength := pl.alpcMaxAllowedMessageLength

-- ---------------------------------------------------------------------------
-- The worker
-- ---------------------------------------------------------------------------

def kaAlpcRequest (server : ServerObject) : Proc NtStatus := do
  callOnRequest server.onRequest server.portMessage
  let _ ← alpcSendWaitReceivePort {
    portHandle := server.connectionPortHandle
    flags := alpcMsgflgReleaseMessage
    sendMessage := server.portMessage
    receiveMessage := none
    bufferLength := none
    receiveMessageAttributes := none }
  return statusSuccess

def kaAlpcDatagram (server : ServerObject) : Proc NtStatus := do
  let contextAttribute ←
    alpcGetMessageAttribute server.messageAttributes alpcMessageContextAttribute
  if contextAttribute = none then
    return statusUnsuccessful
  else
    callOnDatagram server.onDatagram server.portMessage
    let type ← getType server.portMessage
    if type &&& lpcContinuationRequired ≠ 0 then
      let _ ← alpcCancelMessage server.connectionPortHandle contextAttribute
      return statusSuccess
    else
      return statusSuccess

def kaAlpcDisconnect (server : ServerObject) : Proc NtStatus := do
  let contextAttribute ←
    alpcGetMessageAttribute server.messageAttributes alpcMessageContextAttribute
  if contextAttribute = none then
    return statusUnsuccessful
  else
    let portContext ← getPortContext contextAttribute
    let handle ← getCommunicationPortHandle portContext
    let status ← ntClose handle
    kaFreeHeap portContext
    return status

/-- The call that turns a connection request down, written out three times in
`KaAlpcConnect`. -/
def kaReject (server : ServerObject) : AcceptConnectPort where
  portHandle := .local
  connectionPortHandle := server.connectionPortHandle
  portAttributes := server.portAttributes
  portContext := none
  connectionRequest := server.portMessage
  acceptConnection := false

def kaAlpcConnect (pl : Platform) (server : ServerObject) : Proc NtStatus := do
  let accept ← callOnConnect server.onConnect server.portMessage
  if accept then
    let portContext ← kaAllocateZeroHeap pl .portContext
    if portContext ≠ none then
      let clientId ← getClientId pl server.portMessage
      setClientId portContext clientId
      let status ← alpcAcceptConnectPort {
        portHandle := .portContext portContext
        connectionPortHandle := server.connectionPortHandle
        portAttributes := server.portAttributes
        portContext := portContext
        connectionRequest := server.portMessage
        acceptConnection := true }
      if !ntSuccess status then
        let _ ← alpcAcceptConnectPort (kaReject server)
        kaFreeHeap portContext
        return statusSuccess
      else
        return statusSuccess
    else
      let _ ← alpcAcceptConnectPort (kaReject server)
      return statusSuccess
  else
    let _ ← alpcAcceptConnectPort (kaReject server)
    return statusSuccess

def kaDispatch (pl : Platform) (server : ServerObject) (kind : UInt8) : Proc NtStatus :=
  if kind = lpcRequest then kaAlpcRequest server
  else if kind = lpcDatagram then kaAlpcDatagram server
  else if kind = lpcPortClosed then kaAlpcDisconnect server
  else if kind = lpcClientDied then kaAlpcDisconnect server
  else if kind = lpcConnectionRequest then kaAlpcConnect pl server
  else pure statusSuccess

def kaProcessMessage (pl : Platform) (server : ServerObject) : Proc NtStatus := do
  let type ← getType server.portMessage
  kaDispatch pl server (lobyte type)

def kaReceive (pl : Platform) (server : ServerObject) : SendWaitReceive where
  portHandle := server.connectionPortHandle
  flags := 0
  sendMessage := none
  receiveMessage := server.portMessage
  bufferLength := some pl.alpcMaxAllowedMessageLength
  receiveMessageAttributes := server.messageAttributes

/-- One round of the loop of `KaServerWorker`; after a `break` the thread
terminates itself with `STATUS_SUCCESS`. -/
def kaServerWorker (pl : Platform) (server : ServerObject) : Proc (Control NtStatus) := do
  let status ← alpcSendWaitReceivePort (kaReceive pl server)
  if !ntSuccess status then
    return .leave statusSuccess
  else
    let status ← kaProcessMessage pl server
    if !ntSuccess status then
      return .leave statusSuccess
    else
      return .again

-- ---------------------------------------------------------------------------
-- Creation and termination
-- ---------------------------------------------------------------------------

def kaTerminateServer (server : ServerObject) : Proc Unit := do
  let _ ← ntClose server.connectionPortHandle
  let _ ← ntWaitForSingleObject server.serverThreadHandle
  kaFreeHeap server.portMessage
  kaFreeHeap server.messageAttributes
  kaFreeHeap server.block

def kaCleanup (server : ServerObject) : Proc (Option ServerObject) := do
  unlessNull server.connectionPortHandle do
    let _ ← ntClose server.connectionPortHandle
  unlessNull server.messageAttributes (kaFreeHeap server.messageAttributes)
  unlessNull server.portMessage (kaFreeHeap server.portMessage)
  kaFreeHeap server.block
  return none

def kaCreateServer (pl : Platform) (portName : String)
    (onRequest onDatagram onConnect : Procedure) : Proc (Option ServerObject) := do
  let block ← kaAllocateZeroHeap pl .serverObject
  if block = none then
    return none
  else
    let server : ServerObject := {
      block, portName, onRequest, onDatagram, onConnect
      portMessage := none
      portAttributes := ⟨0, 0⟩
      messageAttributes := none
      connectionPortHandle := none
      serverThreadHandle := none }
    let messageAttributesMask := alpcMessageViewAttribute ||| alpcMessageContextAttribute
    let messageAttributesSize ← alpcGetHeaderSize messageAttributesMask
    let messageAttributes ← kaAllocateZeroHeap pl (.attributes messageAttributesSize)
    let server := { server with messageAttributes }
    if messageAttributes = none then
      kaCleanup server
    else
      let status ← alpcInitializeMessageAttribute messageAttributesMask messageAttributes
        messageAttributesSize
      if !ntSuccess status then
        kaCleanup server
      else
        let portMessage ← kaAllocateZeroHeap pl (.buffer pl.alpcMaxAllowedMessageLength)
        let server := { server with portMessage }
        if portMessage = none then
          kaCleanup server
        else
          let server := { server with portAttributes := kaInitializePortAttributes pl }
          let (status, connectionPortHandle) ← alpcCreatePort portName server.portAttributes
          let server := { server with connectionPortHandle }
          if !ntSuccess status then
            kaCleanup server
          else
            let (status, serverThreadHandle) ← issue (.psCreateSystemThread portName none)
            let server := { server with serverThreadHandle }
            if !ntSuccess status then
              kaCleanup server
            else
              return some server

-- ---------------------------------------------------------------------------
-- The client's side
-- ---------------------------------------------------------------------------

structure KaClientObject where
  block : PVoid
  portName : String
  portAttributes : PortAttributes
  communicationPortHandle : Handle
  deriving DecidableEq, Repr

/-- The reply lands in the block the request was sent from, and is copied
back whatever the status. -/
def kaSendSynchronousRequest (pl : Platform) (client : KaClientObject)
    (requestDataBuffer : PVoid) (requestDataLength : UInt16) : Proc Bool :=
  withPortMessage .pool pl requestDataBuffer requestDataLength (fun _ => false)
    fun portMessage => do
      let status ← alpcSendWaitReceivePort {
        portHandle := client.communicationPortHandle
        flags := alpcMsgflgSyncRequest
        sendMessage := portMessage
        receiveMessage := portMessage
        bufferLength := some (totalLengthOf pl requestDataLength).toNat
        receiveMessageAttributes := none }
      rtlCopyMemory requestDataBuffer (messageBody pl portMessage) requestDataLength.toNat
      return ntSuccess status

def kaSendDatagram (pl : Platform) (client : KaClientObject) (datagramBuffer : PVoid)
    (datagramLength : UInt16) : Proc Bool :=
  withPortMessage .pool pl datagramBuffer datagramLength (fun _ => false)
    fun portMessage => do
      let status ← alpcSendWaitReceivePort {
        portHandle := client.communicationPortHandle
        flags := alpcMsgflgReleaseMessage
        sendMessage := portMessage
        receiveMessage := none
        bufferLength := none
        receiveMessageAttributes := none }
      return ntSuccess status

def kaDisconnectServer (client : KaClientObject) : Proc Unit := do
  let _ ← ntClose client.communicationPortHandle
  kaFreeHeap client.block

def kaConnectCleanup (client : KaClientObject) : Proc (Option KaClientObject) := do
  kaFreeHeap client.block
  return none

/-- The message is built and sent as everywhere else; `none` stands for a
`goto Cleanup` before the call. -/
def kaConnectServer (pl : Platform) (portName : String) (connectionDataBuffer : PVoid)
    (connectionDataLength : UInt16) : Proc (Option KaClientObject) := do
  let block ← kaAllocateZeroHeap pl .kaClientObject
  if block = none then
    return none
  else
    let client : KaClientObject := {
      block, portName
      portAttributes := kaInitializePortAttributes pl
      communicationPortHandle := none }
    let reply ← withPortMessage .pool pl connectionDataBuffer connectionDataLength
      (fun _ => none) fun portMessage => do
        let reply ← alpcConnectPort {
          portName := portName
          portAttributes := client.portAttributes
          flags := alpcMsgflgSyncRequest
          connectionMessage := portMessage
          bufferLength := pl.alpcMaxAllowedMessageLength }
        return some reply
    match reply with
    | none => kaConnectCleanup client
    | some reply =>
      let client := { client with communicationPortHandle := reply.handle }
      if !ntSuccess reply.status then
        kaConnectCleanup client
      else
        return some client

end AlpcResearch.Ka
