import Mathlib.Logic.Function.Basic
import OpenVoice.Connection.Types
import OpenVoice.Lib.Run

/-!
# `SpeechConnection` (`speech_connection.cc`)

A state of the model is a `SpeechConnection` object together with its threads.  A step is one
critical section of `stage_mutex_` or one unlocked access, of one thread; a thread is represented
by what it does next.

* The work thread and the keepalive thread hold `stage_mutex_` from one iteration of their loops
  to the next, until they wait.  A wait on `stage_changed_` may return at any time; who has been
  notified is recorded.
* The hub (`uWS`) reports what happens on the work thread, while that thread is in `hub_.run()`:
  one connection or failure for each `hub_.connect`, messages of the open sockets, and the end of
  an open socket.  `hub_.run()` returns when there is no socket and no attempt to connect left.
* `ws->close()` ends a socket and calls `onDisconnection` before it returns.  `hub_.connect` may
  fail before it returns, which calls `onError`.

The members `accepted` and `released` record what happened; no function reads them.
-/

namespace OpenVoice

open OpenVoice.Lib

namespace SpeechConnection

/-- What the work thread does next. -/
inductive WorkPc where
  /-- It takes `stage_mutex_`. -/
  | relock
  /-- It holds `stage_mutex_` and looks at the stage. -/
  | locked
  | waiting (w : Wait)
  /-- It is in `hub_.run()`, and in no handler. -/
  | running
  | onConnection (ws : Nat)
  /-- `onMessage` has found the stage AUTHORIZING. -/
  | authResult (ws : Nat) (msg : Message)
  /-- `onMessage` has found the stage READY. -/
  | recvTp (msg : Message)
  | pushData (msg : Message)
  /-- `onDisconnection` has set `ws_` to null. -/
  | testPaused
  | testClosed
  | pushError
  | testReady
  | reconnTp (ms : BitVec 32)
  | setDisconn
  /-- `onError` has found a socket. -/
  | errorClose
  | errorPush
  | errorReconnTp
  | errorTest
  | errorDisconn
  /-- The stage is DISCONN; `onDisconnection` or `onError` ends. -/
  | notify
  /-- It waits for `stage_mutex_`, which it holds. -/
  | deadlock
  | done
deriving DecidableEq, Repr

inductive KeepalivePc where
  | relock | locked
  | waiting (w : Wait)
  | done
deriving DecidableEq, Repr

/-- What a call of `send` does next. -/
inductive SendPc where
  | idle
  | ensure (buf : Bytes) (timeout : BitVec 32)
  | waiting (buf : Bytes) (w : Wait)
  | voiceTp (buf : Bytes)
  | wsTest (buf : Bytes)
  | wsSend (buf : Bytes)
  | returned (r : ConnectionOpResult)
deriving DecidableEq, Repr

inductive RecvPc where
  | idle | waiting
  | returned (r : ConnectionOpResult) (data : Bytes)
deriving DecidableEq, Repr

inductive ReleasePc where
  | idle | closing | joinWork | joinKeepalive | clear | pushClosed
deriving DecidableEq, Repr

def WorkPc.notified : WorkPc → WorkPc
  | .waiting w => .waiting w.notify
  | pc => pc

def KeepalivePc.notified : KeepalivePc → KeepalivePc
  | .waiting w => .waiting w.notify
  | pc => pc

def SendPc.notified : SendPc → SendPc
  | .waiting buf w => .waiting buf w.notify
  | pc => pc

end SpeechConnection

open SpeechConnection in
structure SpeechConnection where
  stage : ConnectStage := .init
  /-- `ws_`. -/
  ws : Option Nat := none
  options : PrepareOptions := {}
  responses : List SpeechBinaryResp := []
  traceInfos : List TraceInfo := []
  reconnTimepoint : Nat := 0
  lastestPingTp : Nat := 0
  lastestRecvTp : Nat := 0
  lastestVoiceTp : Nat := 0
  /-- `work_thread_` is not null. -/
  hasThreads : Bool := false
  work : WorkPc := .done
  keepalive : KeepalivePc := .done
  senders : Nat → SendPc := fun _ => .idle
  receiver : RecvPc := .idle
  releasing : ReleasePc := .idle
  /-- The attempts to connect that are under way. -/
  attempts : Nat := 0
  /-- The open sockets of the hub. -/
  sockets : List Nat := []
  /-- No socket from here on has been opened. -/
  fresh : Nat := 0
  frames : List (Nat × Frame) := []
  /-- `SteadyClock::now()`, in nanoseconds. -/
  now : Nat := 0
  /-- `system_clock::now()`, in nanoseconds. -/
  wall : Int := 0
  /-- A null pointer has been followed. -/
  crashed : Bool := false
  /-- The socket whose authorization was accepted last. -/
  accepted : Option Nat := none
  /-- `release` has closed the connection. -/
  released : Bool := false

namespace SpeechConnection

def setStage (stage : ConnectStage) (s : SpeechConnection) : SpeechConnection :=
  { s with stage := stage }

def setWs (ws : Option Nat) (s : SpeechConnection) : SpeechConnection := { s with ws := ws }

/-- The next thing the work thread does. -/
def setWork (pc : WorkPc) (s : SpeechConnection) : SpeechConnection := { s with work := pc }

def setKeepalive (pc : KeepalivePc) (s : SpeechConnection) : SpeechConnection :=
  { s with keepalive := pc }

def setReleasing (pc : ReleasePc) (s : SpeechConnection) : SpeechConnection :=
  { s with releasing := pc }

def setSender (t : Nat) (pc : SendPc) (s : SpeechConnection) : SpeechConnection :=
  { s with senders := Function.update s.senders t pc }

def markAccepted (w : Nat) (s : SpeechConnection) : SpeechConnection :=
  { s with accepted := some w }

def markReleased (s : SpeechConnection) : SpeechConnection := { s with released := true }

/-- Nobody holds `stage_mutex_`. -/
def stageFree (s : SpeechConnection) : Bool :=
  s.work ≠ .locked ∧ s.work ≠ .deadlock ∧ s.keepalive ≠ .locked

def milliseconds (ms : BitVec 32) : Nat := ms.toNat * 1000 * 1000

def seconds (sec : BitVec 32) : Nat := sec.toNat * 1000 * 1000 * 1000

/-- `duration_cast<milliseconds>(tp.time_since_epoch()).count()`. -/
def toMs (tp : Int) : BitVec 64 := .ofInt 64 (tp.tdiv 1000000)

def notifyAll (s : SpeechConnection) : SpeechConnection :=
  { s with
    work := s.work.notified
    keepalive := s.keepalive.notified
    senders := fun t => (s.senders t).notified }

def updateReconnTp (ms : BitVec 32) (s : SpeechConnection) : SpeechConnection :=
  { s with reconnTimepoint := s.now + milliseconds ms }

def updatePingTp (s : SpeechConnection) : SpeechConnection := { s with lastestPingTp := s.now }

def updateRecvTp (s : SpeechConnection) : SpeechConnection := { s with lastestRecvTp := s.now }

def updateVoiceTp (s : SpeechConnection) : SpeechConnection := { s with lastestVoiceTp := s.now }

def pushStatusResp (tp : BinRespType) (s : SpeechConnection) : SpeechConnection :=
  { s with responses := s.responses ++ [{ type := tp, length := 0, data := [] }] }

def pushRespData (msg : Bytes) (s : SpeechConnection) : SpeechConnection :=
  { s with responses := s.responses ++
      [{ type := .data, length := .ofNat 32 msg.length, data := msg }] }

/-- `ws_send`, in one step. -/
def wsSend (frame : Frame) (s : SpeechConnection) : SpeechConnection :=
  match s.ws with
  | none => s
  | some w => { s with frames := s.frames ++ [(w, frame)] }

/-! ### Handlers that are called with `stage_mutex_` held -/

/-- The delay `onDisconnection` asks for. -/
def reconnDelay (s : SpeechConnection) : BitVec 32 :=
  if s.stage = .ready then 0 else s.options.reconnInterval

def onDisconnection (s : SpeechConnection) : SpeechConnection :=
  let s := s.setWs none
  if s.stage = .paused ∨ s.stage = .closed then s
  else (((s.pushStatusResp .error).updateReconnTp s.reconnDelay).setStage .disconn).notifyAll

/-- The hub forgets the socket. -/
def removeSocket (w : Nat) (s : SpeechConnection) : SpeechConnection :=
  { s with sockets := s.sockets.erase w }

/-- `ws->close()`. -/
def close (w : Nat) (s : SpeechConnection) : SpeechConnection :=
  (s.removeSocket w).onDisconnection

/-- `if (ws_) ws_->close();`. -/
def closeWs (s : SpeechConnection) : SpeechConnection :=
  match s.ws with
  | none => s
  | some w => s.close w

/-- `hub_.getDefaultGroup<uWS::CLIENT>().close()`. -/
def groupClose (s : SpeechConnection) : SpeechConnection :=
  s.sockets.foldl (fun s w => s.close w) s

/-- `onError`, called from `hub_.connect`.  With a socket it takes `stage_mutex_` once more. -/
def onError (s : SpeechConnection) : SpeechConnection :=
  if s.ws.isSome then s.setWork .deadlock
  else
    let s := (s.pushStatusResp .error).updateReconnTp s.options.reconnInterval
    if s.stage = .closed then s else (s.setStage .disconn).notifyAll

/-- `hub_.connect`, which may fail at once. -/
def connect (fails : Bool) (s : SpeechConnection) : SpeechConnection :=
  if fails then s.onError else { s with attempts := s.attempts + 1 }

/-! ### The client's calls -/

/-- `initialize`.  The clients call it for a connection that has no threads. -/
def initializeConn (options : PrepareOptions) (s : SpeechConnection) :
    Option SpeechConnection :=
  if s.releasing = .idle ∧ s.hasThreads = false then
    some { s with
      options := options
      stage := .paused
      hasThreads := true
      work := .relock
      keepalive := .relock
      released := false }
  else none

/-- `release`, from one blocking point to the next. -/
def release (s : SpeechConnection) : Option SpeechConnection :=
  match s.releasing with
  | .idle => if s.hasThreads then some (s.setReleasing .closing) else some s
  | .closing =>
      if s.stageFree then
        some ((s.markReleased.setStage .closed).notifyAll.groupClose.setReleasing .joinWork)
      else none
  | .joinWork =>
      if s.work = .done then some { s with hasThreads := false, releasing := .joinKeepalive }
      else none
  | .joinKeepalive => if s.keepalive = .done then some (s.setReleasing .clear) else none
  | .clear => some { s with responses := [], releasing := .pushClosed }
  | .pushClosed => some ((s.pushStatusResp .closed).setReleasing .idle)

def reconn (s : SpeechConnection) : Option SpeechConnection :=
  if s.stageFree then some (s.updateReconnTp 0).closeWs else none

/-- A client calls `send`; `buf` is what `SerializeToString` makes. -/
def send (t : Nat) (buf : Option Bytes) (timeout : BitVec 32) (s : SpeechConnection) :
    Option SpeechConnection :=
  match s.senders t, buf with
  | .idle, none | .returned _, none => some (s.setSender t (.returned .invalidPbObj))
  | .idle, some buf | .returned _, some buf => some (s.setSender t (.ensure buf timeout))
  | _, _ => none

/-- `ensure_connection_available`, up to its loop. -/
def wantConnection (s : SpeechConnection) : SpeechConnection :=
  if s.stage = .paused then ((s.setStage .disconn).updateReconnTp 0).notifyAll else s

/-- The loop of `ensure_connection_available`. -/
def untilReady (buf : Bytes) (deadline : Option Nat) (s : SpeechConnection) : SendPc :=
  if s.stage = .ready then .voiceTp buf else .waiting buf { deadline := deadline }

/-- The next step of a call of `send`; `timedOut` tells how a wait ends. -/
def sendStep (t : Nat) (timedOut : Bool) (s : SpeechConnection) : Option SpeechConnection :=
  match s.senders t with
  | .idle | .returned _ => none
  | .ensure buf timeout =>
      if s.stageFree then
        let s := s.wantConnection
        let tp := if timeout = 0 then none else some (s.now + milliseconds timeout)
        some (s.setSender t (s.untilReady buf tp))
      else none
  | .waiting buf w =>
      if s.stageFree then
        if timedOut then
          match w.deadline with
          | none => none
          | some tp =>
              if tp ≤ s.now then some (s.setSender t (.returned .connectionNotAvailable))
              else none
        else some (s.setSender t (s.untilReady buf w.deadline))
      else none
  | .voiceTp buf => some (s.updateVoiceTp.setSender t (.wsTest buf))
  | .wsTest buf =>
      some (s.setSender t (if s.ws.isSome then .wsSend buf else .returned .success))
  | .wsSend buf =>
      if s.ws.isSome then some ((s.wsSend (.binary buf)).setSender t (.returned .success))
      else some { s with crashed := true }

/-- `recv`, after its wait; `valid` tells if `ParseFromArray` succeeds. -/
def takeResp (valid : Bool) (s : SpeechConnection) : SpeechConnection :=
  match s.responses with
  | [] => { s with receiver := .returned .timeout [] }
  | resp :: responses =>
      let r : ConnectionOpResult :=
        match resp.type with
        | .data => if valid then .success else .invalidPbData
        | .error => .connectionBroken
        | .closed => .notReady
      { s with
        responses := responses
        receiver := .returned r (resp.data.take resp.length.toNat) }

/-- The thread `gen_results` calls `recv`, or its wait in `recv` returns. -/
def recv (valid : Bool) (s : SpeechConnection) : SpeechConnection :=
  match s.receiver with
  | .idle | .returned _ _ =>
      if s.responses = [] then { s with receiver := .waiting } else s.takeResp valid
  | .waiting => s.takeResp valid

def maxPendingTraceInfos : Nat := 128

def addTraceInfo (info : TraceInfo) (s : SpeechConnection) : SpeechConnection :=
  let infos := s.traceInfos ++ [info]
  { s with traceInfos := if maxPendingTraceInfos < infos.length then infos.tail else infos }

/-! ### The work thread -/

/-- One iteration of the loop of `run`. -/
def run (fails : Bool) (s : SpeechConnection) : SpeechConnection :=
  match s.stage with
  | .closed => s.setWork .done
  | .disconn =>
      if s.reconnTimepoint ≤ s.now then (s.setStage .connecting).connect fails
      else s.setWork (.waiting { deadline := some s.reconnTimepoint })
  | .paused => s.setWork (.waiting { deadline := none })
  | _ => s.setWork .running

/-- `auth`, the contents of the request left out. -/
def auth (s : SpeechConnection) : SpeechConnection :=
  let opts := s.options
  if opts.key = [] ∨ opts.deviceTypeId = [] ∨ opts.deviceId = [] ∨ opts.secret = [] then s
  else s.wsSend .auth

/-- The locked part of `onConnection`. -/
def onConnection (w : Nat) (s : SpeechConnection) : SpeechConnection :=
  if s.stage = .closed ∨ s.stage = .paused then s
  else ((s.setStage .authorizing).setWs (some w)).auth

/-- The locked part of `onMessage`. -/
def onAuthResult (w : Nat) (msg : Message) (s : SpeechConnection) : SpeechConnection :=
  if msg.accepted then
    let s := (s.markAccepted w).updatePingTp.updateRecvTp.updateVoiceTp
    (s.setStage .ready).notifyAll
  else (s.updateReconnTp s.options.reconnInterval).closeWs

/-- The next step of the work thread, which is not in `hub_.run()`. -/
def workStep (fails : Bool) (s : SpeechConnection) : Option SpeechConnection :=
  match s.work with
  | .relock | .waiting _ => if s.stageFree then some (s.setWork .locked) else none
  | .locked => some (s.run fails)
  | .onConnection w =>
      if s.stageFree then some ((s.onConnection w).setWork .running) else none
  | .authResult w msg =>
      if s.stageFree then some ((s.onAuthResult w msg).setWork .running) else none
  | .recvTp msg => some (s.updateRecvTp.setWork (.pushData msg))
  | .pushData msg => some ((s.pushRespData msg.data).setWork .running)
  | .testPaused => some (s.setWork (if s.stage = .paused then .running else .testClosed))
  | .testClosed => some (s.setWork (if s.stage = .closed then .running else .pushError))
  | .pushError => some ((s.pushStatusResp .error).setWork .testReady)
  | .testReady => some (s.setWork (.reconnTp s.reconnDelay))
  | .reconnTp ms => some ((s.updateReconnTp ms).setWork .setDisconn)
  | .setDisconn => some ((s.setStage .disconn).setWork .notify)
  | .errorClose =>
      if s.stageFree then
        match s.ws with
        | none => some { s with crashed := true }
        | some w => some ((s.close w).setWork .running)
      else none
  | .errorPush => some ((s.pushStatusResp .error).setWork .errorReconnTp)
  | .errorReconnTp =>
      some ((s.updateReconnTp s.options.reconnInterval).setWork .errorTest)
  | .errorTest => some (s.setWork (if s.stage = .closed then .running else .errorDisconn))
  | .errorDisconn => some ((s.setStage .disconn).setWork .notify)
  | .notify => some (s.notifyAll.setWork .running)
  | .running | .deadlock | .done => none

/-- `onMessage`, up to its first access after the test of the stage. -/
def onMessage (w : Nat) (msg : Message) (s : SpeechConnection) : WorkPc :=
  match s.stage with
  | .authorizing => .authResult w msg
  | .ready => .recvTp msg
  | _ => .running

/-- An attempt to connect succeeds. -/
def openSocket (s : SpeechConnection) : SpeechConnection :=
  { s with
    attempts := s.attempts - 1
    sockets := s.sockets ++ [s.fresh]
    fresh := s.fresh + 1 }

/-- The hub reports an event.  `onDisconnection` and `onError` are called without
    `stage_mutex_`. -/
def hub (e : HubEvent) (s : SpeechConnection) : Option SpeechConnection :=
  if s.work = .running then
    match e with
    | .connected =>
        if s.attempts = 0 then none
        else some (s.openSocket.setWork (.onConnection s.fresh))
    | .failed =>
        if s.attempts = 0 then none
        else
          some ({ s with attempts := s.attempts - 1 }.setWork
            (if s.ws.isSome then .errorClose else .errorPush))
    | .message w msg =>
        if w ∈ s.sockets then some (s.setWork (s.onMessage w msg)) else none
    | .disconnected w =>
        if w ∈ s.sockets then some (((s.removeSocket w).setWs none).setWork .testPaused)
        else none
    | .pong w => if w ∈ s.sockets then some s.updateRecvTp else none
    | .finished =>
        if s.attempts = 0 ∧ s.sockets = [] then some (s.setWork .relock) else none
  else none

/-! ### The keepalive thread -/

/-- `send_trace_info`; it returns whether the queue was not empty. -/
def sendTraceInfo (s : SpeechConnection) : SpeechConnection :=
  match s.traceInfos with
  | [] => s
  | info :: infos =>
      let pp : PingPayload := {}
      let pp := (pp.setReqId info.id).setNowTp (toMs s.wall)
      let pp := (pp.setReqTp (toMs info.reqTp)).setRespTp (toMs info.respTp)
      { s with traceInfos := infos, lastestPingTp := s.now }.wsSend (.ping (some pp))

def sendTraceInfoInterval : Int := 1000

/-- `if (now - lastest_ping_tp_ >= ping_interval)`. -/
def pingIfDue (s : SpeechConnection) : SpeechConnection :=
  if milliseconds s.options.pingInterval ≤ s.now - s.lastestPingTp then
    (s.wsSend (.ping none)).updatePingTp
  else s

/-- How long `keepalive_run` waits when the stage is READY, in milliseconds. -/
def keepaliveTimeout (hasTraceInfo : Bool) (s : SpeechConnection) : Nat :=
  let d1 : Int := s.options.pingInterval.toNat - ((s.now - s.lastestPingTp) / 1000000 : Nat)
  let d2 : Int := s.options.noRespTimeout.toNat - ((s.now - s.lastestRecvTp) / 1000000 : Nat)
  let timeout := max (min d1 d2) 0
  (if hasTraceInfo ∧ sendTraceInfoInterval < timeout then sendTraceInfoInterval
    else timeout).toNat

/-- `now - lastest_recv_tp_ >= no_resp_timeout`. -/
def noResponse (s : SpeechConnection) : Bool :=
  milliseconds s.options.noRespTimeout ≤ s.now - s.lastestRecvTp

/-- `now - lastest_voice_tp_ >= conn_duration`. -/
def noVoice (s : SpeechConnection) : Bool :=
  seconds s.options.connDuration ≤ s.now - s.lastestVoiceTp

/-- The rest of an iteration in which the stage is READY. -/
def keepaliveReady (hasTraceInfo : Bool) (s : SpeechConnection) : SpeechConnection :=
  if s.noResponse then (s.updateReconnTp 0).closeWs
  else if s.noVoice then (s.setStage .paused).notifyAll.groupClose
  else
    let timeout := s.keepaliveTimeout hasTraceInfo
    s.setKeepalive (.waiting { deadline := some (s.now + timeout * 1000 * 1000) })

/-- One iteration of the loop of `keepalive_run`. -/
def keepaliveRun (s : SpeechConnection) : SpeechConnection :=
  if s.stage = .closed then s.setKeepalive .done
  else if s.stage = .ready then
    s.sendTraceInfo.pingIfDue.keepaliveReady (!s.traceInfos.isEmpty)
  else s.setKeepalive (.waiting { deadline := none })

def keepaliveStep (s : SpeechConnection) : Option SpeechConnection :=
  match s.keepalive with
  | .relock | .waiting _ => if s.stageFree then some (s.setKeepalive .locked) else none
  | .locked => some s.keepaliveRun
  | .done => none

end SpeechConnection

/-! ### Steps -/

inductive ConnectionAct where
  | prepare (options : PrepareOptions)
  | release
  | reconn
  | send (t : Nat) (buf : Option Bytes) (timeout : BitVec 32)
  | sender (t : Nat) (timedOut : Bool)
  | recv (valid : Bool)
  | addTraceInfo (info : TraceInfo)
  | work (fails : Bool)
  | hub (e : HubEvent)
  | keepalive
  | tick (ns : Nat)
  | setClock (tp : Int)
deriving DecidableEq, Repr

/-- One step; a null pointer that is followed ends the process. -/
def SpeechConnection.step (s : SpeechConnection) (a : ConnectionAct) : Option SpeechConnection :=
  if s.crashed then none
  else
    match a with
    | .prepare options => s.initializeConn options
    | .release => s.release
    | .reconn => s.reconn
    | .send t buf timeout => s.send t buf timeout
    | .sender t timedOut => s.sendStep t timedOut
    | .recv valid => some (s.recv valid)
    | .addTraceInfo info => some (s.addTraceInfo info)
    | .work fails => s.workStep fails
    | .hub e => s.hub e
    | .keepalive => s.keepaliveStep
    | .tick ns => some { s with now := s.now + ns }
    | .setClock tp => some { s with wall := tp }

def SpeechConnection.Steps (s : SpeechConnection) (a : ConnectionAct) (t : SpeechConnection) :
    Prop :=
  s.step a = some t

end OpenVoice
