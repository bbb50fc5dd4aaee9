import AlpcResearch.Runtime

/-!
# The older library: `AdvancedLocalProcedureCallServer.c`

Both ends keep one message buffer of the maximum size for all their messages,
and lengths are `SHORT`s throughout. The callbacks get the data behind the
header and its length, not the message.
-/

namespace AlpcResearch.AdvancedServer

open Resource Program

/-- `ALPC_MAX_ALLOWED_MESSAGE_LENGTH` of this file's header, on every
platform. -/
def alpcMaxAllowedMessageLength : Nat := 0xFFEF

structure ClientObject where
  block : PVoid
  portName : String
  portMessage : PVoid
  portAttributes : PortAttributes
  communicationPortHandle : Handle
  deriving DecidableEq, Repr

def srvInitializePortAttributes : PortAttributes where
  flags := 0
  maxMessageLength := alpcMaxAllowedMessageLength

/-- The limit does not fit the `SHORT` it is compared with. -/
def srvInitializePortMessage (pl : Platform) (portMessage dataBuffer : PVoid)
    (dataLength : Int16) : Proc Bool := do
  if (signedTotalLengthOf pl dataLength).toInt > alpcMaxAllowedMessageLength then
    return false
  else
    initializePortMessage pl portMessage dataBuffer dataLength
    return true

-- ---------------------------------------------------------------------------
-- The server's side
-- ---------------------------------------------------------------------------

def srvAlpcRequest (server : ServerObject) : Proc NtStatus :=
  alpcSendWaitReceivePort {
    portHandle := server.connectionPortHandle
    flags := alpcMsgflgReleaseMessage
    sendMessage := server.portMessage
    receiveMessage := none
    bufferLength := none
    receiveMessageAttributes := none }

def srvAlpcDatagram (pl : Platform) (server : ServerObject) : Proc NtStatus := do
  let contextAttribute ←
    alpcGetMessageAttribute server.messageAttributes alpcMessageContextAttribute
  if contextAttribute = none then
    return statusUnsuccessful
  else
    let datagramLength ← getSignedDataLength server.portMessage
    callOnDatagramBuffer server.onDatagram (messageBody pl server.portMessage) datagramLength
    let type ← getType server.portMessage
    if type &&& lpcContinuationRequired ≠ 0 then
      let _ ← alpcCancelMessage server.connectionPortHandle contextAttribute
      return statusSuccess
    else
      return statusSuccess

def srvAlpcDisconnect (server : ServerObject) : Proc NtStatus := do
  let contextAttribute ←
    alpcGetMessageAttribute server.messageAttributes alpcMessageContextAttribute
  if contextAttribute = none then
    return statusUnsuccessful
  else
    let portContext ← getPortContext contextAttribute
    let handle ← getCommunicationPortHandle portContext
    let status ← ntClose handle
    free .processHeap portContext
    return status

/-- The call that turns a connection request down, written out three times in
`SrvAlpcConnect`. -/
def srvReject (server : ServerObject) : AcceptConnectPort where
  portHandle := .local
  connectionPortHandle := server.connectionPortHandle
  portAttributes := server.portAttributes
  portContext := none
  connectionRequest := server.portMessage
  acceptConnection := false

def srvAlpcConnect (pl : Platform) (server : ServerObject) : Proc NtStatus := do
  let connectionDataLength ← getSignedDataLength server.portMessage
  let accept ← callOnConnectBuffer server.onConnect (messageBody pl server.portMessage)
    connectionDataLength
  if accept then
    let portContext ← allocate .processHeap .portContext
    if portContext ≠ none then
      let clientId ← getClientId pl server.portMessage
      setClientId portContext clientId
      let status ← alpcAcceptConnectPort {
        portHandle := .portContext portContext
        connectionPortHandle := server.connectionPortHandle
        portAttributes := server.portAttributes
        portContext := portContext
        connectionRequest := server.portMessage
        acceptConnection := true }
      if !ntSuccess status then
        let status ← alpcAcceptConnectPort (srvReject server)
        free .processHeap portContext
        return status
      else
        return status
    else
      alpcAcceptConnectPort (srvReject server)
  else
    alpcAcceptConnectPort (srvReject server)

def srvDispatch (pl : Platform) (server : ServerObject) (kind : UInt8) : Proc NtStatus :=
  if kind = lpcRequest then srvAlpcRequest server
  else if kind = lpcDatagram then srvAlpcDatagram pl server
  else if kind = lpcPortClosed then srvAlpcDisconnect server
  else if kind = lpcClientDied then srvAlpcDisconnect server
  else if kind = lpcConnectionRequest then srvAlpcConnect pl server
  else pure statusSuccess

def srvProcessMessage (pl : Platform) (server : ServerObject) : Proc NtStatus := do
  let type ← getType server.portMessage
  srvDispatch pl server (lobyte type)

def srvReceive (server : ServerObject) : SendWaitReceive where
  portHandle := server.connectionPortHandle
  flags := 0
  sendMessage := none
  receiveMessage := server.portMessage
  bufferLength := some alpcMaxAllowedMessageLength
  receiveMessageAttributes := server.messageAttributes

/-- One round of the loop of `SrvServerWorker`; after a `break` the thread
returns the status it broke on. -/
def srvServerWorker (pl : Platform) (server : ServerObject) : Proc (Control NtStatus) := do
  let status ← alpcSendWaitReceivePort (srvReceive server)
  if !ntSuccess status then
    return .leave status
  else
    let status ← srvProcessMessage pl server
    if !ntSuccess status then
      return .leave status
    else
      return .again

def srvTerminateServer (server : ServerObject) : Proc Unit := terminateServer server

/-- There is no callback for requests, and no field for one. -/
def srvCreateServer (portName : String) (onDatagram onConnect : Procedure) :
    Proc (Option ServerObject) :=
  createServer .olderServerObject alpcMaxAllowedMessageLength srvInitializePortAttributes portName 0
    onDatagram onConnect

-- ---------------------------------------------------------------------------
-- The client's side
-- ---------------------------------------------------------------------------

def srvSendDatagram (pl : Platform) (client : ClientObject) (datagramBuffer : PVoid)
    (datagramLength : Int16) : Proc Bool := do
  let result ← srvInitializePortMessage pl client.portMessage datagramBuffer datagramLength
  if result = false then
    return false
  else
    let status ← alpcSendWaitReceivePort {
      portHandle := client.communicationPortHandle
      flags := alpcMsgflgReleaseMessage
      sendMessage := client.portMessage
      receiveMessage := none
      bufferLength := none
      receiveMessageAttributes := none }
    return ntSuccess status

def srvDisconnectServer (client : ClientObject) : Proc Unit := do
  let _ ← ntClose client.communicationPortHandle
  free .processHeap client.portMessage
  free .processHeap client.block

def srvConnectCleanup (client : ClientObject) : Proc (Option ClientObject) := do
  unlessNull client.portMessage (free .processHeap client.portMessage)
  free .processHeap client.block
  return none

def srvConnectServer (pl : Platform) (portName : String) (connectionDataBuffer : PVoid)
    (connectionDataLength : Int16) : Proc (Option ClientObject) := do
  let block ← allocate .processHeap .clientObject
  if block = none then
    return none
  else
    let client : ClientObject := {
      block, portName
      portMessage := none
      portAttributes := ⟨0, 0⟩
      communicationPortHandle := none }
    let portMessage ← allocate .processHeap (.buffer alpcMaxAllowedMessageLength)
    let client := { client with portMessage }
    if portMessage = none then
      srvConnectCleanup client
    else
      let result ← srvInitializePortMessage pl portMessage connectionDataBuffer connectionDataLength
      if result = false then
        srvConnectCleanup client
      else
        let client := { client with portAttributes := srvInitializePortAttributes }
        let reply ← alpcConnectPort {
          portName := portName
          portAttributes := client.portAttributes
          flags := alpcMsgflgSyncRequest
          connectionMessage := portMessage
          bufferLength := alpcMaxAllowedMessageLength }
        let client := { client with communicationPortHandle := reply.handle }
        if !ntSuccess reply.status then
          srvConnectCleanup client
        else
          return some client

end AlpcResearch.AdvancedServer
