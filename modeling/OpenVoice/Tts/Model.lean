import OpenVoice.OpCtl.Poll
import OpenVoice.Types

/-!
# `TtsImpl` (`tts_impl.cc`)

A state of the model is a `TtsImpl` object together with its threads.  A step is one critical
section, or one unlocked access, of one thread; a thread is represented by what it does next.

* `req_mutex_` is held across steps only by `release`, while it waits for
  `connection_.release()`; `resp_mutex_` never is.
* A wait on `req_cond_` or `resp_cond_` may return at any time, which covers every notification;
  a wait on `op_cond_` returns when it is notified.
* Of the connection, `connection_.send` and `connection_.recv` are modelled by what they return.
  `recv` returns `NOT_READY` from the moment `connection_.release()` has returned and not before;
  from then on `send` fails, unless it had already found the connection available.

The members below `clients` record what happened since `prepare`; no function reads them.
-/

namespace OpenVoice

abbrev TtsStatus := OpStatus

inductive TtsError where
  | success | unauthenticated | connectionExceed | serverResourceExhasted | serverBusy
  | serverInternal | serviceUnavailable | sdkClosed | timeout | unknown
deriving DecidableEq, Repr

instance : Inhabited TtsError := ⟨.success⟩

inductive TtsResultType where
  | voice | start | end_ | cancelled | error
deriving DecidableEq, Repr

structure TtsResult where
  type : TtsResultType
  id : Int
  err : TtsError
  voice : Sp Bytes
  text : Sp String
deriving DecidableEq, Repr

structure TtsResultIn where
  voice : Sp Bytes
  text : Sp String
deriving DecidableEq, Repr

structure TtsReqInfo where
  id : Int
  deleted : Bool
  data : String
deriving DecidableEq, Repr

structure TtsRequest where
  id : Int
  text : String
  declaimer : String
  codec : String
  sampleRate : BitVec 32
deriving DecidableEq, Repr

structure TtsResponse where
  id : Int
  result : BitVec 32 := 0
  voice : Sp Bytes
  text : Sp String
  finish : Bool
deriving DecidableEq, Repr

structure TtsOptionsHolder where
  codec : Codec := .pcm
  declaimer : String := "zh"
  samplerate : BitVec 32 := 24000
deriving DecidableEq, Repr

/-- `TtsOptionsModifier`: `mask` says which options have been set. -/
structure TtsOptionsModifier extends TtsOptionsHolder where
  mask : BitVec 32 := 0
deriving DecidableEq, Repr

namespace TtsOptionsModifier

def modifyCodec : BitVec 32 := 1
def modifyDeclaimer : BitVec 32 := 2
def modifySamplerate : BitVec 32 := 4

def setCodec (codec : Codec) (m : TtsOptionsModifier) : TtsOptionsModifier :=
  { m with codec := codec, mask := m.mask ||| modifyCodec }

def setDeclaimer (declaimer : String) (m : TtsOptionsModifier) : TtsOptionsModifier :=
  { m with declaimer := declaimer, mask := m.mask ||| modifyDeclaimer }

def setSamplerate (samplerate : BitVec 32) (m : TtsOptionsModifier) : TtsOptionsModifier :=
  { m with samplerate := samplerate, mask := m.mask ||| modifySamplerate }

def modify (m : TtsOptionsModifier) (options : TtsOptionsHolder) : TtsOptionsHolder :=
  { codec := if m.mask &&& modifyCodec ≠ 0 then m.codec else options.codec
    declaimer := if m.mask &&& modifyDeclaimer ≠ 0 then m.declaimer else options.declaimer
    samplerate :=
      if m.mask &&& modifySamplerate ≠ 0 then m.samplerate else options.samplerate }

end TtsOptionsModifier

namespace TtsImpl

/-- Where the thread `send_reqs` is. -/
inductive SendPc where
  /-- about to lock `req_mutex_` -/
  | loop
  /-- in `req_cond_.wait` -/
  | waitReq
  /-- about to enter `do_request` -/
  | request (req : TtsReqInfo)
  /-- in `connection_.send`, before `ensure_connection_available` has returned -/
  | sending (req : TtsReqInfo) (treq : TtsRequest)
  /-- in `connection_.send`, the connection having been available -/
  | writing (req : TtsReqInfo) (treq : TtsRequest)
  /-- `connection_.send` failed; about to lock `resp_mutex_` -/
  | sendFailed (req : TtsReqInfo) (err : TtsError)
  /-- `connection_.send` succeeded; about to lock `resp_mutex_` -/
  | sent (req : TtsReqInfo)
  /-- about to lock `resp_mutex_` for `wait_op_finish` -/
  | waitOp (id : Int)
  /-- in `op_cond_.wait` -/
  | blocked (id : Int)
  | done
deriving DecidableEq, Repr

/-- Where the thread `gen_results` is. -/
inductive GenPc where
  /-- about to lock `resp_mutex_` for `op_timeout` -/
  | loop
  /-- in `connection_.recv` -/
  | recv (timeout : BitVec 32)
  /-- `recv` has returned; about to lock `resp_mutex_` -/
  | handle (r : ConnectionOpResult) (resp : TtsResponse)
  | done
deriving DecidableEq, Repr

/-- Where a thread in `release` is. -/
inductive ReleasePc where
  /-- nobody is in `release` -/
  | idle
  /-- in `connection_.release()`, holding `req_mutex_` -/
  | closing
  /-- in `req_thread_->join()` -/
  | joinReq
  /-- about to lock `resp_mutex_` -/
  | closeResp
  /-- in `resp_thread_->join()` -/
  | joinResp
deriving DecidableEq, Repr

/-- A call of a client thread that is about to lock `req_mutex_`. -/
inductive ClientPc where
  | idle
  | speak (text : String)
  | cancel (id : Int)
deriving DecidableEq, Repr

end TtsImpl

structure TtsImpl where
  nextId : Int := 0
  options : TtsOptionsHolder := {}
  requests : List TtsReqInfo := []
  responses : Streams TtsResultIn Int := .empty
  controller : OpCtl TtsError := .init
  initialized : Bool := false
  connClosed : Bool := false
  now : Int := 0
  send : TtsImpl.SendPc := .done
  gen : TtsImpl.GenPc := .done
  releasing : TtsImpl.ReleasePc := .idle
  clients : Nat → TtsImpl.ClientPc := fun _ => .idle
  /-- calls of `resp_cond_.notify_one()` -/
  respNotifies : Nat := 0
  /-- the requests handed to `connection_.send` with success -/
  sent : List TtsRequest := []
  /-- the ids `speak` returned -/
  spoken : List Int := []
  /-- the results `poll` returned, each with the operation it was returned for -/
  polled : List (Nat × TtsResult) := []
  /-- the first address used for operations of the current session -/
  epoch : Nat := 0
  /-- an assertion has failed -/
  aborted : Bool := false

namespace TtsImpl

def reqFree (s : TtsImpl) : Bool := s.releasing ≠ .closing

def notifyResp (s : TtsImpl) : TtsImpl := { s with respNotifies := s.respNotifies + 1 }

def setController (c : OpCtl TtsError) (s : TtsImpl) : TtsImpl := { s with controller := c }

/-! ### Client calls -/

def prepare (s : TtsImpl) : TtsImpl :=
  if s.initialized then s
  else
    { s with
      nextId := 0
      connClosed := false
      initialized := true
      send := .loop
      gen := .loop
      respNotifies := 0
      sent := []
      spoken := []
      polled := []
      epoch := s.controller.fresh }

/-- `release`, from one blocking point to the next. -/
def release (s : TtsImpl) : Option TtsImpl :=
  match s.releasing with
  | .idle =>
      if s.initialized then some { s with initialized := false, releasing := .closing }
      else some s
  | .closing => some { s with connClosed := true, requests := [], releasing := .joinReq }
  | .joinReq => if s.send = .done then some { s with releasing := .closeResp } else none
  | .closeResp =>
      some { s with
        responses := s.responses.close
        controller := s.controller.finishOp
        respNotifies := s.respNotifies + 1
        releasing := .joinResp }
  | .joinResp => if s.gen = .done then some { s with releasing := .idle } else none

/-- The locked part of `speak`. -/
def speak (text : String) (s : TtsImpl) : TtsImpl :=
  let id := s.nextId + 1
  { s with
    nextId := id
    requests := s.requests ++ [{ id := id, deleted := false, data := text }]
    spoken := s.spoken ++ [id] }

def cancel (id : Int) (s : TtsImpl) : TtsImpl :=
  if !s.initialized then s
  else
    let covers := fun req : TtsReqInfo => id ≤ 0 ∨ req.id = id
    let erased := s.requests.any fun req => covers req
    let requests := s.requests.map fun req =>
      if covers req then { req with deleted := true } else req
    let s := { s with requests := requests }
    if id ≤ 0 then
      let r := s.controller.cancelOp 0
      let s := s.setController r.2
      if r.1 then s.notifyResp else s
    else if !erased then
      let r := s.controller.cancelOp id
      let s := s.setController r.2
      if r.1 then s.notifyResp else s
    else s

/-- A client starts a call: the test of `initialized_` outside the lock. -/
def call (t : Nat) (pc : ClientPc) (s : TtsImpl) : Option TtsImpl :=
  match s.clients t, pc with
  | .idle, .speak text =>
      if s.initialized then
        some { s with clients := Function.update s.clients t (.speak text) }
      else some s
  | .idle, .cancel id => some { s with clients := Function.update s.clients t (.cancel id) }
  | _, _ => none

/-- The locked part of a call. -/
def client (t : Nat) (s : TtsImpl) : Option TtsImpl :=
  if s.reqFree then
    let s' := { s with clients := Function.update s.clients t .idle }
    match s.clients t with
    | .idle => none
    | .speak text => some (s'.speak text)
    | .cancel id => some (s'.cancel id)
  else none

def config (mod : Sp TtsOptionsModifier) (s : TtsImpl) : TtsImpl :=
  match mod with
  | none => s
  | some mod => { s with options := mod.modify s.options }

/-! ### `poll` -/

def poptypeToRestype (type : Int) : Option TtsResultType :=
  if 0 ≤ type then [TtsResultType.voice, .start, .end_][type.toNat]? else none

def integerToReserr (err : BitVec 32) : TtsError :=
  match err.toNat with
  | 0 => .success
  | 2 => .unauthenticated
  | 3 => .connectionExceed
  | 4 => .serverResourceExhasted
  | 5 => .serverBusy
  | 6 => .serverInternal
  | 101 => .serviceUnavailable
  | 102 => .sdkClosed
  | _ => .unknown

/-- The local variables `id`, `resin`, `err` of `poll`. -/
def popArgs : PopArgs TtsResultIn := { id := 0, res := none, err := 0 }

/-- One iteration of the loop of `poll`: `none` is a failed assertion, no result means that the
    thread goes to sleep. -/
def poll (s : TtsImpl) : Option (Option (Nat × TtsResult) × TtsImpl) :=
  match s.controller.frontOp with
  | none => some (none, s)
  | some a =>
      let op := s.controller.heap a
      if op.status = .cancelled then do
        let responses ← dropStream op.id popArgs s.responses
        return (some (a, { type := .cancelled, id := op.id, err := .success,
                           voice := none, text := none }),
          { s with responses := responses, controller := s.controller.removeFrontOp })
      else if op.status = .error then do
        let responses ← dropStream op.id popArgs s.responses
        return (some (a, { type := .error, id := op.id, err := op.error,
                           voice := none, text := none }),
          { s with responses := responses, controller := s.controller.removeFrontOp })
      else
        let p := s.responses.pop popArgs
        let poptype := p.1.1
        if poptype = .empty then some (none, { s with responses := p.2 })
        else if p.1.2.id = op.id then do
          let type ← poptypeToRestype poptype.toInt
          -- `resin` is not null when a piece of data has been popped
          let resin := if poptype = .data then p.1.2.res else none
          let res : TtsResult :=
            { type := type, id := p.1.2.id, err := integerToReserr p.1.2.err,
              voice := resin.bind (·.voice), text := resin.bind (·.text) }
          return (some (a, res),
            { s with
              responses := p.2
              controller :=
                if type = .end_ then s.controller.removeFrontOp else s.controller })
        else none

/-- `poll` as a step: what it returns is recorded. -/
def pollStep (s : TtsImpl) : TtsImpl :=
  if s.initialized then
    match s.poll with
    | none => { s with aborted := true }
    | some (none, s') => s'
    | some (some r, s') => { s' with polled := s'.polled ++ [r] }
  else s

/-! ### The thread `send_reqs` -/

def doCtlNewOp (req : TtsReqInfo) (s : TtsImpl) : TtsStatus × TtsImpl :=
  if req.deleted then
    (.cancelled, (s.setController (s.controller.newOp s.now req.id .cancelled)).notifyResp)
  else (.start, s.setController (s.controller.newOp s.now req.id .start))

def getCodecStr : Codec → String
  | .pcm => "pcm"
  | .opu => "opu"
  | .opu2 => "opu2"
  | .mp3 => "mp3"

def treq (req : TtsReqInfo) (options : TtsOptionsHolder) : TtsRequest :=
  { id := req.id, text := req.data, declaimer := options.declaimer,
    codec := getCodecStr options.codec, sampleRate := options.samplerate }

/-- The error `do_request` sets when `connection_.send` fails. -/
def sendError (r : ConnectionOpResult) : TtsError :=
  if r = .connectionNotAvailable then .serviceUnavailable else .unknown

/-- The next step of `send_reqs`; `r` is what `connection_.send` returns. -/
def sendStep (r : ConnectionOpResult) (s : TtsImpl) : Option TtsImpl :=
  match s.send with
  | .loop =>
      if s.reqFree then
        if !s.initialized then some { s with send := .done }
        else
          match s.requests with
          | [] => some { s with send := .waitReq }
          | req :: requests =>
              let p := doCtlNewOp req { s with requests := requests }
              some { p.2 with send := if p.1 = .start then .request req else .loop }
      else none
  | .waitReq => some { s with send := .loop }
  | .request req => some { s with send := .sending req (treq req s.options) }
  | .sending req treq =>
      if r ≠ .success then some { s with send := .sendFailed req (sendError r) }
      else if s.connClosed then none
      else some { s with send := .writing req treq }
  | .writing req treq => some { s with sent := s.sent ++ [treq], send := .sent req }
  | .sendFailed _ err =>
      let s := (s.setController (s.controller.setOpError err)).notifyResp
      some { s with send := .loop }
  | .sent req =>
      let s := s.setController (s.controller.refreshOpTime s.now false)
      some { s with send := .waitOp req.id }
  | .waitOp id =>
      if s.controller.mustWait id then
        some { s with controller := { s.controller with opWaiting := true }, send := .blocked id }
      else some { s with send := .loop }
  | .blocked _ => if s.controller.opWaiting then none else some { s with send := .loop }
  | .done => none

/-! ### The thread `gen_results` -/

/-- `gen_result_by_resp`: the first response starts the stream. -/
def genStart (resp : TtsResponse) (a : Nat) (s : TtsImpl) : TtsImpl :=
  if (s.controller.heap a).status = .start then
    { s with
      responses := (s.responses.start resp.id).2
      controller := s.controller.setStatus a .streaming }
  else s

/-- `gen_result_by_resp`: a piece of voice data. -/
def genVoice (resp : TtsResponse) (s : TtsImpl) : TtsImpl :=
  if resp.voice.isSome then
    { s with responses :=
        (s.responses.stream resp.id (some { voice := resp.voice, text := resp.text })).2 }
  else s

/-- `gen_result_by_resp`: the last response. -/
def genFinish (resp : TtsResponse) (a : Nat) (s : TtsImpl) : TtsImpl :=
  if resp.finish then
    let st := (s.controller.heap a).status
    let c :=
      if st ≠ .cancelled ∧ st ≠ .error then s.controller.setStatus a .end_ else s.controller
    { s with responses := (s.responses.end_ resp.id none).2, controller := c.finishOp }
  else s

/-- `gen_result_by_resp`, `a` being `current_op_`. -/
def genResultByResp (resp : TtsResponse) (a : Nat) (s : TtsImpl) : TtsImpl :=
  let op := s.controller.heap a
  if op.id = resp.id then
    let newData := op.status = .start ∨ resp.voice.isSome ∨ resp.finish
    let s := genFinish resp a (genVoice resp (genStart resp a s))
    if newData then s.notifyResp else s
  else s

/-- The locked part of an iteration of `gen_results`. -/
def handleResult (r : ConnectionOpResult) (resp : TtsResponse) (s : TtsImpl) : TtsImpl :=
  match r with
  | .success =>
      let s := s.setController (s.controller.refreshOpTime s.now true)
      match s.controller.currentOp with
      | none => s
      | some a => genResultByResp resp a s
  | .timeout =>
      if s.controller.opTimeout s.now = 0 then
        (s.setController (s.controller.setOpError .timeout)).notifyResp
      else s
  | .connectionBroken =>
      (s.setController (s.controller.setOpError .serviceUnavailable)).notifyResp
  | _ => (s.setController (s.controller.setOpError .unknown)).notifyResp

/-- The next step of `gen_results`; `r` and `resp` are what `connection_.recv` returns. -/
def genStep (r : ConnectionOpResult) (resp : TtsResponse) (s : TtsImpl) : Option TtsImpl :=
  match s.gen with
  | .loop => some { s with gen := .recv (s.controller.opTimeout s.now) }
  | .recv _ =>
      if decide (r = .notReady) = s.connClosed then
        if r = .notReady then some { s with gen := .done }
        else some { s with gen := .handle r resp }
      else none
  | .handle r resp => some { s.handleResult r resp with gen := .loop }
  | .done => none

end TtsImpl

/-! ### Steps -/

inductive TtsAct where
  | prepare
  | release
  | call (t : Nat) (pc : TtsImpl.ClientPc)
  | client (t : Nat)
  | poll
  | config (mod : Sp TtsOptionsModifier)
  | send (r : ConnectionOpResult)
  | gen (r : ConnectionOpResult) (resp : TtsResponse)
  | tick (ns : Nat)
deriving DecidableEq, Repr

/-- One step.  `prepare` is called when nobody is in `release`; a failed assertion ends the
    process. -/
def TtsImpl.step (s : TtsImpl) (a : TtsAct) : Option TtsImpl :=
  if s.aborted then none
  else
    match a with
    | .prepare => if s.releasing = .idle then some s.prepare else none
    | .release => s.release
    | .call t pc => s.call t pc
    | .client t => s.client t
    | .poll => some s.pollStep
    | .config mod => some (s.config mod)
    | .send r => s.sendStep r
    | .gen r resp => s.genStep r resp
    | .tick ns => some { s with now := s.now + ns }

end OpenVoice
