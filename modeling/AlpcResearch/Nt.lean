import AlpcResearch.Resource.Contents

/-!
# Status codes, platforms and the port message

The numbers of `ua.h` and `ntstatus.h` the code computes with. `PORT_MESSAGE`
is kept as the bytes it is: its fields are read and written at their offsets,
so that a copy, a partial overwrite or a stale byte means what it means in C.
-/

namespace AlpcResearch

open Resource

/-- `NTSTATUS`, a signed 32-bit code kept as its bits. -/
abbrev NtStatus := UInt32

/-- `NT_SUCCESS`: the sign bit is clear. -/
def ntSuccess (status : NtStatus) : Bool := status < 0x80000000

def statusSuccess : NtStatus := 0
def statusBufferOverflow : NtStatus := 0x80000005
def statusUnsuccessful : NtStatus := 0xC0000001
def statusInsufficientResources : NtStatus := 0xC000009A

@[simp] theorem ntSuccess_success : ntSuccess statusSuccess = true := rfl
@[simp] theorem ntSuccess_unsuccessful : ntSuccess statusUnsuccessful = false := rfl
@[simp] theorem ntSuccess_resources : ntSuccess statusInsufficientResources = false := rfl

-- ---------------------------------------------------------------------------
-- Platforms
-- ---------------------------------------------------------------------------

inductive Platform
  | x86
  | x64
  deriving DecidableEq, Repr

namespace Platform

def pointerSize : Platform → Nat
  | x86 => 4
  | x64 => 8

/-- `sizeof(PORT_MESSAGE)`: two words of lengths and type, the client id,
the message id, and the view size with its padding. -/
def sizeofPortMessage : Platform → Nat
  | x86 => 24
  | x64 => 40

/-- `ALPC_MAX_ALLOWED_MESSAGE_LENGTH`, which `ua.h` and `ka.h` choose by
`_WIN64`. -/
def alpcMaxAllowedMessageLength : Platform → Nat
  | x86 => 0xFFEF
  | x64 => 0xFFFF

theorem alpcMax_lt (pl : Platform) : pl.alpcMaxAllowedMessageLength < 2 ^ 16 := by
  cases pl <;> decide

theorem header_le_max (pl : Platform) :
    pl.sizeofPortMessage ≤ pl.alpcMaxAllowedMessageLength := by
  cases pl <;> decide

end Platform

-- ---------------------------------------------------------------------------
-- Message types and flags
-- ---------------------------------------------------------------------------

def lpcRequest : UInt8 := 1
def lpcDatagram : UInt8 := 3
def lpcPortClosed : UInt8 := 5
def lpcClientDied : UInt8 := 6
def lpcConnectionRequest : UInt8 := 10
def lpcContinuationRequired : UInt16 := 0x2000

def alpcMessageViewAttribute : UInt32 := 0x40000000
def alpcMessageContextAttribute : UInt32 := 0x20000000

def alpcMsgflgReleaseMessage : UInt32 := 0x10000
def alpcMsgflgSyncRequest : UInt32 := 0x20000

def alpcPorflgSystemProcess : UInt32 := 0x100000

def lobyte (v : UInt16) : UInt8 := v.toUInt8

-- ---------------------------------------------------------------------------
-- The port message
-- ---------------------------------------------------------------------------

namespace PortMessage

def offDataLength : Nat := 0
def offTotalLength : Nat := 2
def offType : Nat := 4
def offClientId : Nat := 8
def offMessageId (pl : Platform) : Nat := 8 + 2 * pl.pointerSize

end PortMessage

structure ClientId where
  uniqueProcess : Nat
  uniqueThread : Nat
  deriving DecidableEq, Repr

def sizeofClientId (pl : Platform) : Nat := 2 * pl.pointerSize

def ClientId.ofBytes (pl : Platform) (bs : List UInt8) : ClientId where
  uniqueProcess := leNat (bs.take pl.pointerSize)
  uniqueThread := leNat (bs.drop pl.pointerSize)

/-- What a message in flight says in its header. -/
structure Header where
  totalLength : Nat
  type : UInt16
  clientId : ClientId
  messageId : Nat
  deriving DecidableEq, Repr

def headerOf (pl : Platform) (msg : List UInt8) : Header where
  totalLength := leNat ((msg.drop PortMessage.offTotalLength).take 2)
  type := UInt16.ofNat (leNat ((msg.drop PortMessage.offType).take 2))
  clientId := .ofBytes pl ((msg.drop PortMessage.offClientId).take (sizeofClientId pl))
  messageId := leNat ((msg.drop (PortMessage.offMessageId pl)).take 4)

/-- The low byte of the type, which the dispatchers switch on. -/
def kindOf (pl : Platform) (msg : List UInt8) : UInt8 := lobyte (headerOf pl msg).type

def bodyOf (pl : Platform) (msg : List UInt8) : List UInt8 := msg.drop pl.sizeofPortMessage

end AlpcResearch
