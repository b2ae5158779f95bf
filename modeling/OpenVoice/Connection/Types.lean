import OpenVoice.Lib.CString
import OpenVoice.Types

/-!
# Types of `SpeechConnection` (`speech_connection.h`, `speech_common.h`)
-/

namespace OpenVoice

open Lib

inductive ConnectStage where
  | init
  /-- Not connected; to be connected when the time comes. -/
  | disconn
  | connecting | authorizing
  | ready
  /-- Not connected, and not to be before there is something to send. -/
  | paused
  /-- Not connected; the threads are to quit. -/
  | closed
deriving DecidableEq, Repr

/-- The intervals are in milliseconds, the duration is in seconds. -/
structure PrepareOptions where
  host : Bytes := ascii "localhost"
  port : BitVec 32 := 80
  branch : Bytes := ascii "/"
  key : Bytes := []
  deviceTypeId : Bytes := []
  secret : Bytes := []
  deviceId : Bytes := []
  reconnInterval : BitVec 32 := 20000
  pingInterval : BitVec 32 := 30000
  noRespTimeout : BitVec 32 := 45000
  connDuration : BitVec 32 := 7200
deriving DecidableEq, Repr

inductive BinRespType where
  | data | error | closed
deriving DecidableEq, Repr

structure SpeechBinaryResp where
  type : BinRespType
  length : BitVec 32
  data : Bytes
deriving DecidableEq, Repr

/-- The time points are those of `system_clock`, in nanoseconds. -/
structure TraceInfo where
  id : Int
  reqTp : Int
  respTp : Int
deriving DecidableEq, Repr

structure PingPayload where
  reqId : Int := 0
  nowTp : BitVec 64 := 0
  reqTp : BitVec 64 := 0
  respTp : BitVec 64 := 0
deriving DecidableEq, Repr

namespace PingPayload

def setReqId (i : Int) (p : PingPayload) : PingPayload := { p with reqId := i }

def setNowTp (i : BitVec 64) (p : PingPayload) : PingPayload := { p with nowTp := i }

def setReqTp (i : BitVec 64) (p : PingPayload) : PingPayload := { p with reqTp := i }

/-- The source writes the other field. -/
def setRespTp (i : BitVec 64) (p : PingPayload) : PingPayload := { p with reqTp := i }

end PingPayload

/-! ### The socket -/

/-- A message from the server: its bytes, and `result` of the `AuthResponse` that
    `ParseFromArray` makes of them, if it makes one. -/
structure Message where
  data : Bytes
  authResult : Option Int
deriving DecidableEq, Repr

/-- `handle_auth_result` returns true. -/
def Message.accepted (msg : Message) : Bool := msg.authResult = some 0

/-- What is passed to `ws_->send`. -/
inductive Frame where
  | auth
  | ping (payload : Option PingPayload)
  | binary (data : Bytes)
deriving DecidableEq, Repr

/-- What `hub_.run()` reports to its thread. -/
inductive HubEvent where
  | connected
  | failed
  | message (ws : Nat) (msg : Message)
  | disconnected (ws : Nat)
  | pong (ws : Nat)
  /-- Nothing is left to wait for: `hub_.run()` returns. -/
  | finished
deriving DecidableEq, Repr

/-- A wait on `stage_changed_`. -/
structure Wait where
  deadline : Option Nat
  notified : Bool := false
deriving DecidableEq, Repr

def Wait.notify (w : Wait) : Wait := { w with notified := true }

end OpenVoice
