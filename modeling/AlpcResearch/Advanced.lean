import AlpcResearch.Runtime

/-!
# The library in between: `AdvancedLocalProcedureCall.c`

Its server is the one of `ua.c` under other names, its client the one of
`ka.c`; both allocate with the functions of `runtime.c`, from a heap that
zeroes new blocks itself. The worker returns the status its loop was left
with.
-/

namespace AlpcResearch.Advanced

open Resource Program

def srvInitializePortAttributes (pl : Platform) : PortAttributes where
  flags := 0
  maxMessageLength := pl.alpcMaxAllowedMessageLength

-- ---------------------------------------------------------------------------
-- The server's side
-- ---------------------------------------------------------------------------

def srvAlpcRequest (server : ServerObject) : Proc NtStatus := do
  callOnRequest server.onRequest server.portMessage
  let _ ← alpcSendWaitReceivePort {
    portHandle := server.connectionPortHandle
    flags := alpcMsgflgReleaseMessage
    sendMessage := server.portMessage
    receiveMessage := none
    bufferLength := none
    receiveMessageAttributes := none }
  return statusSuccess

def srvAlpcDatagram (server : ServerObject) : Proc NtStatus := do
  let contextAttribute ←
    alpcGetMessageAttribute server.messageAttributes alpcMessageContextAttribute
  if contextAttribute = none then
    return statusUnsuccessful
  else
    callOnDatagram server.onDatagram server.portMessage
    let type ← getType server.portMessage
    if type &&& lpcContinuationRequired ≠ 0 then
      let _ ← alpcCancelMessage server.connectionPortHandle contextAttribute
      return statusSuccess
    else
      return statusSuccess

def srvAlpcDisconnect (server : ServerObject) : Proc NtStatus := do
  let contextAttribute ←
    alpcGetMessageAttribute server.messageAttributes alpcMessageContextAttribute
  if contextAttribute = none then
    return statusUnsuccessful
  else
    let portContext ← getPortContext contextAttribute
    let handle ← getCommunicationPortHandle portContext
    let status ← ntClose handle
    rtFreeHeap portContext
    return status

/-- The call that turns a connection request down, written out three times in
`SrvAlpcConnect`. -/
def srvReject (server : ServerObject) : AcceptConnectPort where
  portHandle := .local
  connectionPortHandle := server.connectionPortHandle
  portAttributes := server.portAttributes
  portContext := none
  connectionRequest := server.portMessage
  acceptConnection := false

def srvAlpcConnect (pl : Platform) (server : ServerObject) : Proc NtStatus := do
  let accept ← callOnConnect server.onConnect server.portMessage
  if accept then
    let portContext ← rtAllocateZeroHeap .portContext
    if portContext ≠ none then
      let clientId ← getClientId pl server.portMessage
      setClientId portContext clientId
      let status ← alpcAcceptConnectPort {
        portHandle := .portContext portContext
        connectionPortHandle := server.connectionPortHandle
        portAttributes := server.portAttributes
        portContext := portContext
        connectionRequest := server.portMessage
        acceptConnection := true }
      if !ntSuccess status then
        let _ ← alpcAcceptConnectPort (srvReject server)
        rtFreeHeap portContext
        return statusSuccess
      else
        return statusSuccess
    else
      let _ ← alpcAcceptConnectPort (srvReject server)
      return statusSuccess
  else
    let _ ← alpcAcceptConnectPort (srvReject server)
    return statusSuccess

def srvDispatch (pl : Platform) (server : ServerObject) (kind : UInt8) : Proc NtStatus :=
  if kind = lpcRequest then srvAlpcRequest server
  else if kind = lpcDatagram then srvAlpcDatagram server
  else if kind = lpcPortClosed then srvAlpcDisconnect server
  else if kind = lpcClientDied then srvAlpcDisconnect server
  else if kind = lpcConnectionRequest then srvAlpcConnect pl server
  else pure statusSuccess

def srvProcessMessage (pl : Platform) (server : ServerObject) : Proc NtStatus := do
  let type ← getType server.portMessage
  srvDispatch pl server (lobyte type)

def srvReceive (pl : Platform) (server : ServerObject) : SendWaitReceive where
  portHandle := server.connectionPortHandle
  flags := 0
  sendMessage := none
  receiveMessage := server.portMessage
  bufferLength := some pl.alpcMaxAllowedMessageLength
  receiveMessageAttributes := server.messageAttributes

/-- One round of the loop of `SrvServerWorker`; after a `break` the thread
returns the status it broke on. -/
def srvServerWorker (pl : Platform) (server : ServerObject) : Proc (Control NtStatus) := do
  let status ← alpcSendWaitReceivePort (srvReceive pl server)
  if !ntSuccess status then
    return .leave status
  else
    let status ← srvProcessMessage pl server
    if !ntSuccess status then
      return .leave status
    else
      return .again

-- ---------------------------------------------------------------------------
-- Creation and termination
-- ---------------------------------------------------------------------------

def srvTerminateServer (server : ServerObject) : Proc Unit := terminateServer server

def srvCreateServer (pl : Platform) (portName : String)
    (onRequest onDatagram onConnect : Procedure) : Proc (Option ServerObject) :=
  createServer .serverObject pl.alpcMaxAllowedMessageLength (srvInitializePortAttributes pl) portName
    onRequest onDatagram onConnect

-- ---------------------------------------------------------------------------
-- The client's side
-- ---------------------------------------------------------------------------

structure ClientObject where
  block : PVoid
  portName : String
  portAttributes : PortAttributes
  communicationPortHandle : Handle
  deriving DecidableEq, Repr

/-- What the three senders have in common, as in `ua.c` and `ka.c`, but on the
process heap; `fail` is returned where no message is sent. -/
def withHeapMessage (pl : Platform) (data : PVoid) (length : UInt16) (fail : α)
    (send : PVoid → Proc α) : Proc α := do
  let totalLength := totalLengthOf pl length
  if totalLength.toNat > pl.alpcMaxAllowedMessageLength then
    return fail
  else
    let portMessage ← rtAllocateZeroHeap (.buffer totalLength.toNat)
    if portMessage = none then
      return fail
    else
      setTotalLength portMessage totalLength
      setDataLength portMessage length
      rtlCopyMemory (messageBody pl portMessage) data length.toNat
      let result ← send portMessage
      rtFreeHeap portMessage
      return result

/-- The reply lands in the block the request was sent from, and is copied
back whatever the status. -/
def srvSendSynchronousRequest (pl : Platform) (client : ClientObject)
    (requestDataBuffer : PVoid) (requestDataLength : UInt16) : Proc Bool :=
  withHeapMessage pl requestDataBuffer requestDataLength false fun portMessage => do
    let status ← alpcSendWaitReceivePort {
      portHandle := client.communicationPortHandle
      flags := alpcMsgflgSyncRequest
      sendMessage := portMessage
      receiveMessage := portMessage
      bufferLength := some (totalLengthOf pl requestDataLength).toNat
      receiveMessageAttributes := none }
    rtlCopyMemory requestDataBuffer (messageBody pl portMessage) requestDataLength.toNat
    return ntSuccess status

def srvSendDatagram (pl : Platform) (client : ClientObject) (datagramBuffer : PVoid)
    (datagramLength : UInt16) : Proc Bool :=
  withHeapMessage pl datagramBuffer datagramLength false fun portMessage => do
    let status ← alpcSendWaitReceivePort {
      portHandle := client.communicationPortHandle
      flags := alpcMsgflgReleaseMessage
      sendMessage := portMessage
      receiveMessage := none
      bufferLength := none
      receiveMessageAttributes := none }
    return ntSuccess status

def srvDisconnectServer (client : ClientObject) : Proc Unit := do
  let _ ← ntClose client.communicationPortHandle
  rtFreeHeap client.block

def srvConnectCleanup (client : ClientObject) : Proc (Option ClientObject) := do
  rtFreeHeap client.block
  return none

/-- The reply is `none` after a `goto Cleanup` before the call. -/
def srvConnectServer (pl : Platform) (portName : String) (connectionDataBuffer : PVoid)
    (connectionDataLength : UInt16) : Proc (Option ClientObject) := do
  let block ← rtAllocateZeroHeap .kaClientObject
  if block = none then
    return none
  else
    let client : ClientObject := {
      block, portName
      portAttributes := srvInitializePortAttributes pl
      communicationPortHandle := none }
    let reply ← withHeapMessage pl connectionDataBuffer connectionDataLength none
      fun portMessage => do
        let reply ← alpcConnectPort {
          portName := portName
          portAttributes := client.portAttributes
          flags := alpcMsgflgSyncRequest
          connectionMessage := portMessage
          bufferLength := pl.alpcMaxAllowedMessageLength }
        return some reply
    match reply with
    | none => srvConnectCleanup client
    | some reply =>
      let client := { client with communicationPortHandle := reply.handle }
      if !ntSuccess reply.status then
        srvConnectCleanup client
      else
        return some client

end AlpcResearch.Advanced
