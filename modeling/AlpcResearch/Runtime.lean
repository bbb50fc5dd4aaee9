import AlpcResearch.Process.Calls

/-!
# The runtime, and two servers built on it

`runtime.c`, then the creation and the termination of a server as
`AdvancedLocalProcedureCall.c` and `AdvancedLocalProcedureCallServer.c` both
have them. The two differ in the longest message they allow, and only the first
has a callback for requests.
-/

namespace AlpcResearch

open Resource Program

/-- The process heap zeroes a block when asked with `HEAP_ZERO_MEMORY`. -/
def rtAllocateZeroHeap (layout : Layout) : Proc PVoid := allocate .processHeap layout

def rtFreeHeap (baseAddress : PVoid) : Proc Unit := free .processHeap baseAddress

def rtCreateThread (argument : ThreadArgument) : Proc (NtStatus × Handle) :=
  issue (.ntCreateThreadEx argument)

-- ---------------------------------------------------------------------------
-- A server
-- ---------------------------------------------------------------------------

def terminateServer (server : ServerObject) : Proc Unit := do
  let _ ← ntClose server.connectionPortHandle
  let _ ← ntWaitForSingleObject server.serverThreadHandle
  rtFreeHeap server.portMessage
  rtFreeHeap server.messageAttributes
  rtFreeHeap server.block

def createCleanup (server : ServerObject) : Proc (Option ServerObject) := do
  unlessNull server.connectionPortHandle do
    let _ ← ntClose server.connectionPortHandle
  unlessNull server.messageAttributes (rtFreeHeap server.messageAttributes)
  unlessNull server.portMessage (rtFreeHeap server.portMessage)
  rtFreeHeap server.block
  return none

/-- `SrvCreateServer`, with the `SERVER_OBJECT` of its file, its limit and the
port attributes it fills in. -/
def createServer (layout : Layout) (maxLength : Nat) (portAttributes : PortAttributes) (portName : String)
    (onRequest onDatagram onConnect : Procedure) : Proc (Option ServerObject) := do
  let block ← rtAllocateZeroHeap layout
  if block = none then
    return none
  else
    let server : ServerObject := {
      block, portName, onRequest, onDatagram, onConnect
      portMessage := none
      portAttributes := ⟨0, 0⟩
      messageAttributes := none
      connectionPortHandle := none
      serverThreadHandle := none }
    let messageAttributesMask := alpcMessageViewAttribute ||| alpcMessageContextAttribute
    let messageAttributesSize ← alpcGetHeaderSize messageAttributesMask
    let messageAttributes ← rtAllocateZeroHeap (.attributes messageAttributesSize)
    let server := { server with messageAttributes }
    if messageAttributes = none then
      createCleanup server
    else
      let status ← alpcInitializeMessageAttribute messageAttributesMask messageAttributes
        messageAttributesSize
      if !ntSuccess status then
        createCleanup server
      else
        let portMessage ← rtAllocateZeroHeap (.buffer maxLength)
        let server := { server with portMessage }
        if portMessage = none then
          createCleanup server
        else
          let server := { server with portAttributes }
          let (status, connectionPortHandle) ← alpcCreatePort portName server.portAttributes
          let server := { server with connectionPortHandle }
          if !ntSuccess status then
            createCleanup server
          else
            -- the worker starts on the object as it is now
            let (status, serverThreadHandle) ← rtCreateThread (.server server)
            let server := { server with serverThreadHandle }
            if !ntSuccess status then
              createCleanup server
            else
              return some server

end AlpcResearch
