import AlpcResearch.Program.Traces
import AlpcResearch.Server

/-!
# The test clients: `client.c`

`CliTestDatagram` and `CliTestSyncRequest` count to 1000000, here `bound`, and
send each number, in one buffer of the maximum size; they differ in the call.
The number is the local variable at `counter`, whose address they pass on. The
wait before the first call is left out.
-/

namespace AlpcResearch.Client

open Resource Program
open Server (quadPart)

def cliInitializePortAttributes (maxLength : Nat) : PortAttributes where
  flags := 0
  maxMessageLength := maxLength

def quadBytes (v : Int) : List UInt8 := leBytes 8 (v % (2 ^ 64 : Nat)).toNat

def getQuadPart (counter : PVoid) : Proc Int :=
  .call (.load counter 0 8) fun bs => .ret (quadPart bs)

def setQuadPart (counter : PVoid) (v : Int) : Proc Unit := issue (.store counter 0 (quadBytes v))

/-- What one client does differently from the other: the call it sends with. -/
abbrev SendCall := Handle → PVoid → SendWaitReceive

def datagramCall : SendCall := fun communicationPortHandle portMessage => {
  portHandle := communicationPortHandle
  flags := alpcMsgflgReleaseMessage
  sendMessage := portMessage
  receiveMessage := none
  bufferLength := none
  receiveMessageAttributes := none }

/-- `BufferLength` is set anew before each call. -/
def syncRequestCall (maxLength : Nat) : SendCall := fun communicationPortHandle portMessage => {
  portHandle := communicationPortHandle
  flags := alpcMsgflgSyncRequest
  sendMessage := portMessage
  receiveMessage := portMessage
  bufferLength := some maxLength
  receiveMessageAttributes := none }

/-- One round of the loop; what the call returns is not looked at. -/
def cliRound (pl : Platform) (bound : Int64) (counter portMessage : PVoid)
    (call : SendWaitReceive) : Proc (Control Unit) := do
  let value ← getQuadPart counter
  if value < bound.toInt then
    initializePortMessage pl portMessage counter 8
    let _ ← alpcSendWaitReceivePort call
    let value ← getQuadPart counter
    setQuadPart counter (value + 1)
    return .again
  else
    return .leave ()

def cliConnect (maxLength : Nat) (portName : String) (portMessage : PVoid) : ConnectPort where
  portName := portName
  portAttributes := cliInitializePortAttributes maxLength
  flags := alpcMsgflgSyncRequest
  connectionMessage := portMessage
  bufferLength := maxLength

/-- A test client, with at most `fuel` rounds of its loop; `none` while it has
not returned. -/
def cliTest (pl : Platform) (maxLength : Nat) (bound : Int64) (portName : String)
    (counter : PVoid) (call : SendCall) (fuel : Nat) : Proc (Option NtStatus) := do
  setQuadPart counter 0
  let portMessage ← allocate .processHeap (.buffer maxLength)
  if portMessage = none then
    return some statusInsufficientResources
  else
    initializePortMessage pl portMessage none 0
    let reply ← alpcConnectPort (cliConnect maxLength portName portMessage)
    if !ntSuccess reply.status then
      free .processHeap portMessage
      return some reply.status
    else
      let left ← (cliRound pl bound counter portMessage (call reply.handle portMessage)).loop fuel
      match left with
      | none => return none
      | some () =>
        let _ ← ntClose reply.handle
        free .processHeap portMessage
        return some statusSuccess

def cliTestDatagram (pl : Platform) (maxLength : Nat) (bound : Int64) (portName : String)
    (counter : PVoid) (fuel : Nat) : Proc (Option NtStatus) :=
  cliTest pl maxLength bound portName counter datagramCall fuel

def cliTestSyncRequest (pl : Platform) (maxLength : Nat) (bound : Int64) (portName : String)
    (counter : PVoid) (fuel : Nat) : Proc (Option NtStatus) :=
  cliTest pl maxLength bound portName counter (syncRequestCall maxLength) fuel

end AlpcResearch.Client
