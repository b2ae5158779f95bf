import OpenVoice.OpCtl.Poll
import OpenVoice.Speech.Types

/-!
# `SpeechImpl` (`speech_impl.cc`)

A state of the model is a `SpeechImpl` object together with its threads, as for `TtsImpl`: a
step is one critical section, or one unlocked access, of one thread.

* `req_mutex_` is held across steps by `release`, while it waits for `connection_.release()`, and
  by a client in `start_voice`; `resp_mutex_` only by the send thread, in `erase_req` after a
  failed send and between the test and the wait of `wait_op_finish`.
* `++next_id_` is a load and a store: `put_text` does both outside the lock, so either may come
  between those of `start_voice`, which holds it.
* The build is the one without `HAS_OPUS_CODEC`.
* A wait on `req_cond_` or `resp_cond_` may return at any time, which covers every notification;
  a wait on `op_cond_` returns when it is notified.
* `recv` returns `NOT_READY` from the moment `connection_.release()` has returned and not before;
  from then on `send` fails, unless it had already found the connection available.

The members below `holder` record what happened since `prepare`; no function reads them.
-/

namespace OpenVoice

/-- A call of the interface, with its arguments. -/
inductive SpeechCall where
  | putText (text : Sp Bytes) (options : Sp VoiceOptions)
  | startVoice (options : Sp VoiceOptions)
  | putVoice (id : Int) (voice : Sp Bytes)
  | endVoice (id : Int)
  | cancel (id : Int)
deriving DecidableEq, Repr

/-- What a client sees of a session; `t` is the thread that calls. -/
inductive SpeechEvent where
  /-- `put_text` returned an id -/
  | putText (id : Int)
  /-- `start_voice` returned an id -/
  | startVoice (id : Int)
  /-- `cancel` was called, and has returned -/
  | cancelCall (t : Nat) (id : Int)
  | cancelRet (t : Nat) (id : Int)
  /-- `poll` returned a result; `a` is the operation it was returned for -/
  | result (a : Nat) (res : SpeechResult)
deriving DecidableEq, Repr

namespace SpeechImpl

/-- Where the thread `send_reqs` is. -/
inductive SendPc where
  /-- about to lock `req_mutex_` -/
  | loop
  /-- in `req_cond_.wait` -/
  | waitReq
  /-- there is a text request; about to lock `resp_mutex_` and look at `current_op_` -/
  | textCheck
  /-- about to lock `req_mutex_` again, `op` being what `current_op_` was -/
  | textTake (op : Option Nat)
  /-- about to enter `do_ctl_change_op` -/
  | doCtl (info : SpeechReqInfo)
  /-- in `do_ctl_change_op`, `op` being what `current_op_` was -/
  | changeOp (info : SpeechReqInfo) (op : Option Nat)
  /-- about to enter `do_request` -/
  | request (info : SpeechReqInfo)
  /-- in `connection_.send`, before `ensure_connection_available` has returned -/
  | sending (info : SpeechReqInfo) (treq : SpeechRequest)
  /-- in `connection_.send`, the connection having been available -/
  | writing (info : SpeechReqInfo) (treq : SpeechRequest)
  /-- `connection_.send` failed; about to lock `resp_mutex_` -/
  | sendFailed (info : SpeechReqInfo) (err : SpeechError)
  /-- in `erase_req`, holding `resp_mutex_` -/
  | eraseReq (id : Int)
  /-- `connection_.send` succeeded; about to lock `resp_mutex_` -/
  | sent (info : SpeechReqInfo)
  /-- about to lock `resp_mutex_` for `wait_op_finish` -/
  | waitOp (id : Int)
  /-- in `wait_op_finish` after its test, holding `resp_mutex_` -/
  | parking (id : Int)
  /-- in `op_cond_.wait` -/
  | blocked (id : Int)
  | done
deriving DecidableEq, Repr

/-- Where the thread `gen_results` is. -/
inductive GenPc where
  /-- about to lock `resp_mutex_` for `op_timeout` -/
  | loop
  /-- in `connection_.recv` -/
  | recv (timeout : BitVec 32)
  /-- `recv` has returned; about to lock `resp_mutex_` -/
  | handle (r : ConnectionOpResult) (resp : SpeechResponse)
  /-- in `erase_req` -/
  | eraseReq (id : Int)
  | done
deriving DecidableEq, Repr

/-- Where a thread in `release` is. -/
inductive ReleasePc where
  /-- nobody is in `release` -/
  | idle
  /-- in `connection_.release()`, holding `req_mutex_` -/
  | closing
  /-- about to call `set_op_error`, without a lock -/
  | setError
  /-- in `req_thread_->join()` -/
  | joinReq
  /-- about to lock `resp_mutex_` -/
  | closeResp
  /-- in `resp_thread_->join()` -/
  | joinResp
deriving DecidableEq, Repr

/-- Where a client thread is in its call. -/
inductive ClientPc where
  | idle
  /-- in `put_text`, about to load `next_id_` -/
  | loadId (text : Bytes) (options : Sp VoiceOptions)
  /-- in `put_text`, about to store `next_id_` -/
  | storeId (text : Bytes) (options : Sp VoiceOptions) (loaded : Int)
  /-- in `put_text`, about to lock `req_mutex_` -/
  | pushText (text : Bytes) (options : Sp VoiceOptions) (id : Int)
  /-- about to lock `req_mutex_` -/
  | startVoice (options : Sp VoiceOptions)
  /-- in `start_voice`, holding `req_mutex_`, about to store `next_id_` -/
  | storeVoice (options : Sp VoiceOptions) (loaded : Int)
  /-- about to lock `req_mutex_` -/
  | putVoice (id : Int) (voice : Bytes)
  | endVoice (id : Int)
  | cancel (id : Int)
  /-- in `cancel`, about to lock `resp_mutex_` -/
  | cancelOp (id : Int)
deriving DecidableEq, Repr

end SpeechImpl

structure SpeechImpl where
  nextId : Int := 0
  options : SpeechOptionsHolder := {}
  textReqs : List SpeechReqInfo := []
  voiceReqs : Streams Bytes VoiceOptions := .empty
  responses : Streams SpeechResultIn Int := .empty
  controller : OpCtl SpeechError := .init
  initialized : Bool := false
  connClosed : Bool := false
  now : Int := 0
  send : SpeechImpl.SendPc := .done
  gen : SpeechImpl.GenPc := .done
  releasing : SpeechImpl.ReleasePc := .idle
  clients : Nat → SpeechImpl.ClientPc := fun _ => .idle
  /-- the client that holds `req_mutex_` between two steps -/
  holder : Option Nat := none
  /-- calls of `resp_cond_.notify_one()` -/
  respNotifies : Nat := 0
  /-- the requests handed to `connection_.send` with success -/
  sent : List SpeechRequest := []
  /-- the ids `new_op` was called with -/
  created : List Int := []
  log : List SpeechEvent := []
  /-- the first address used for operations of the current session -/
  epoch : Nat := 0
  /-- an assertion has failed -/
  aborted : Bool := false
  /-- `text_reqs_.front()` was called on the empty list -/
  crashed : Bool := false

namespace SpeechImpl

def reqFree (s : SpeechImpl) : Bool := s.releasing ≠ .closing ∧ s.holder = none

def SendPc.holdsResp : SendPc → Bool
  | .eraseReq _ | .parking _ => true
  | _ => false

def respFree (s : SpeechImpl) : Bool := !s.send.holdsResp

def notifyResp (s : SpeechImpl) : SpeechImpl := { s with respNotifies := s.respNotifies + 1 }

def setController (c : OpCtl SpeechError) (s : SpeechImpl) : SpeechImpl :=
  { s with controller := c }

def record (e : SpeechEvent) (s : SpeechImpl) : SpeechImpl := { s with log := s.log ++ [e] }

def setClient (t : Nat) (pc : ClientPc) (s : SpeechImpl) : SpeechImpl :=
  { s with clients := Function.update s.clients t pc }

def setHolder (holder : Option Nat) (s : SpeechImpl) : SpeechImpl := { s with holder := holder }

/-- `erase_req` -/
def eraseReq (id : Int) (s : SpeechImpl) : SpeechImpl :=
  { s with voiceReqs := (s.voiceReqs.erase id SpeechError.timeout).2 }

/-- `new_op` -/
def newOp (id : Int) (status : SpeechStatus) (s : SpeechImpl) : SpeechImpl :=
  { s with controller := s.controller.newOp s.now id status, created := s.created ++ [id] }

/-! ### Sessions -/

def prepare (s : SpeechImpl) : SpeechImpl :=
  if s.initialized then s
  else
    { s with
      nextId := 0
      connClosed := false
      initialized := true
      send := .loop
      gen := .loop
      respNotifies := 0
      sent := []
      created := []
      log := []
      epoch := s.controller.fresh }

/-- `release`, from one blocking point to the next. -/
def release (s : SpeechImpl) : Option SpeechImpl :=
  match s.releasing with
  | .idle =>
      if s.reqFree then
        if s.initialized then some { s with initialized := false, releasing := .closing }
        else some s
      else none
  | .closing =>
      some { s with
        connClosed := true
        voiceReqs := s.voiceReqs.close
        textReqs := []
        releasing := .setError }
  | .setError =>
      some { s with
        controller := s.controller.setOpError SpeechError.sdkClosed, releasing := .joinReq }
  | .joinReq => if s.send = .done then some { s with releasing := .closeResp } else none
  | .closeResp =>
      if s.respFree then
        some { s with
          responses := s.responses.close
          controller := s.controller.finishOp
          respNotifies := s.respNotifies + 1
          releasing := .joinResp }
      else none
  | .joinResp => if s.gen = .done then some { s with releasing := .idle } else none

/-! ### Client calls -/

/-- What a call does before it takes a lock. -/
def call (t : Nat) (c : SpeechCall) (s : SpeechImpl) : Option SpeechImpl :=
  if s.clients t ≠ .idle then none
  else
    match c with
    | .putText none _ => some s
    | .putText (some text) options =>
        if s.initialized then some (s.setClient t (.loadId text options)) else some s
    | .startVoice options =>
        if s.initialized then some (s.setClient t (.startVoice options)) else some s
    | .putVoice _ none => some s
    | .putVoice id (some voice) =>
        if s.initialized ∧ 0 < id ∧ voice ≠ [] then some (s.setClient t (.putVoice id voice))
        else some s
    | .endVoice id =>
        if s.initialized ∧ 0 < id then some (s.setClient t (.endVoice id)) else some s
    | .cancel id => some ((s.setClient t (.cancel id)).record (.cancelCall t id))

/-- The locked part of `put_text`. -/
def pushText (text : Bytes) (options : Sp VoiceOptions) (id : Int) (s : SpeechImpl) :
    SpeechImpl :=
  let p : SpeechReqInfo := { id := id, type := .text, data := some text, options := options }
  { s with textReqs := s.textReqs ++ [p] }

/-- The locked part of `start_voice` from the store of `next_id_` on; no id when it returns
    `-1`. -/
def startVoice (options : Sp VoiceOptions) (loaded : Int) (s : SpeechImpl) :
    Option Int × SpeechImpl :=
  let id := loaded + 1
  let s := { s with nextId := id }
  let r := s.voiceReqs.start id
  if r.1 then (some id, { s with voiceReqs := r.2.setArg id options })
  else (none, { s with voiceReqs := r.2 })

def isStreamCodec (codec : Codec) : Bool := codec = .pcm

/-- The pieces of at most `sz` bytes `put_voice` cuts its argument into.  The first argument
    bounds their number. -/
def cut (sz : Nat) : Nat → Bytes → List Bytes
  | 0, _ => []
  | n + 1, voice => if voice = [] then [] else voice.take sz :: cut sz n (voice.drop sz)

/-- The size of the pieces. -/
def fragmentSize (voice : Bytes) (s : SpeechImpl) : Nat :=
  if isStreamCodec s.options.codec then min voice.length s.options.voiceFragment.toNat
  else voice.length

/-- The locked part of `put_voice`.  With pieces of no bytes its loop does not end. -/
def putVoice (id : Int) (voice : Bytes) (s : SpeechImpl) : Option SpeechImpl :=
  let sz := s.fragmentSize voice
  if voice ≠ [] ∧ sz = 0 then none
  else
    some { s with
      voiceReqs := (cut sz voice.length voice).foldl (fun q piece => (q.stream id (some piece)).2)
        s.voiceReqs }

/-- The locked part of `end_voice`. -/
def endVoice (id : Int) (s : SpeechImpl) : SpeechImpl :=
  { s with voiceReqs := (s.voiceReqs.end_ id none).2 }

/-- The first queued text request with this id, marked as cancelled. -/
def markText (id : Int) : List SpeechReqInfo → Option (List SpeechReqInfo)
  | [] => none
  | p :: ps =>
      if p.id = id then some ({ p with type := .cancelled } :: ps)
      else (markText id ps).map (p :: ·)

/-- The part of `cancel` under `req_mutex_`; the flag says that it goes on to the controller. -/
def cancelReq (id : Int) (s : SpeechImpl) : Bool × SpeechImpl :=
  if !s.initialized then (false, s)
  else if 0 < id then
    let r := s.voiceReqs.erase id 0
    let s := { s with voiceReqs := r.2 }
    if r.1 then (false, s)
    else
      match markText id s.textReqs with
      | some textReqs => (false, { s with textReqs := textReqs })
      | none => (true, s)
  else
    (true, { s with
      voiceReqs := s.voiceReqs.clear.2
      textReqs := s.textReqs.map fun p => { p with type := .cancelled } })

/-- The part of `cancel` under `resp_mutex_`. -/
def cancelOp (id : Int) (s : SpeechImpl) : SpeechImpl :=
  let r := s.controller.cancelOp (if 0 < id then id else 0)
  let s := s.setController r.2
  if r.1 then s.notifyResp else s

/-- The next step of a call. -/
def client (t : Nat) (s : SpeechImpl) : Option SpeechImpl :=
  let idle := s.setClient t .idle
  match s.clients t with
  | .idle => none
  | .loadId text options => some (s.setClient t (.storeId text options s.nextId))
  | .storeId text options loaded =>
      some { s.setClient t (.pushText text options (loaded + 1)) with nextId := loaded + 1 }
  | .pushText text options id =>
      if s.reqFree then some ((idle.pushText text options id).record (.putText id)) else none
  | .startVoice options =>
      if s.reqFree then some ((s.setClient t (.storeVoice options s.nextId)).setHolder (some t))
      else none
  | .storeVoice options loaded =>
      match (idle.setHolder none).startVoice options loaded with
      | (some id, s') => some (s'.record (.startVoice id))
      | (none, s') => some s'
  | .putVoice id voice => if s.reqFree then idle.putVoice id voice else none
  | .endVoice id => if s.reqFree then some (idle.endVoice id) else none
  | .cancel id =>
      if s.reqFree then
        match idle.cancelReq id with
        | (true, s') => some (s'.setClient t (.cancelOp id))
        | (false, s') => some (s'.record (.cancelRet t id))
      else none
  | .cancelOp id =>
      if s.respFree then some ((idle.cancelOp id).record (.cancelRet t id)) else none

def config (mod : Sp SpeechOptionsModifier) (s : SpeechImpl) : SpeechImpl :=
  match mod with
  | none => s
  | some mod => { s with options := mod.modify s.options }

/-! ### `poll` -/

def poptypeToRestype (type : Int) : Option SpeechResultType :=
  if 0 ≤ type then
    [SpeechResultType.inter, .start, .end_, .cancelled, .error][type.toNat]?
  else none

/-- The local variables `id`, `resin`, `err` of `poll`. -/
def popArgs : PopArgs SpeechResultIn := { id := 0, res := none, err := 0 }

/-- `res` with nothing but an id, a type and an error. -/
def bareResult (id : Int) (type : SpeechResultType) (err : SpeechError) : SpeechResult :=
  { id := id, type := type, err := err, asr := "", nlp := "", action := "", extra := "",
    voiceTrigger := "" }

/-- The result for something popped from `responses_`. -/
def popResult (type : SpeechResultType) (out : PopArgs SpeechResultIn) : SpeechResult :=
  match out.res with
  | none => bareResult out.id type out.err
  | some resin =>
      { id := out.id
        type := if resin.asrFinish then .asrFinish else type
        err := out.err
        asr := resin.asr
        nlp := resin.nlp
        action := resin.action
        extra := resin.extra
        voiceTrigger := resin.voiceTrigger }

/-- One iteration of the loop of `poll`: `none` is a failed assertion, no result means that the
    thread goes to sleep. -/
def poll (s : SpeechImpl) : Option (Option (Nat × SpeechResult) × SpeechImpl) :=
  match s.controller.frontOp with
  | none => some (none, s)
  | some a =>
      let op := s.controller.heap a
      if op.status = .cancelled then do
        let responses ← dropStream op.id popArgs s.responses
        return (some (a, bareResult op.id .cancelled SpeechError.success),
          { s with responses := responses, controller := s.controller.removeFrontOp })
      else if op.status = .error then do
        let responses ← dropStream op.id popArgs s.responses
        return (some (a, bareResult op.id .error op.error),
          { s with responses := responses, controller := s.controller.removeFrontOp })
      else
        let p := s.responses.pop popArgs
        let poptype := p.1.1
        if poptype = .empty then some (none, { s with responses := p.2 })
        else if p.1.2.id = op.id then do
          let type ← poptypeToRestype poptype.toInt
          let res := popResult type p.1.2
          return (some (a, res),
            { s with
              responses := p.2
              controller :=
                if res.type.isTerminal then s.controller.removeFrontOp else s.controller })
        else none

/-- `poll` as a step: what it returns is recorded. -/
def pollStep (s : SpeechImpl) : Option SpeechImpl :=
  if s.respFree then
    if s.initialized then
      match s.poll with
      | none => some { s with aborted := true }
      | some (none, s') => some s'
      | some (some r, s') => some (s'.record (.result r.1 r.2))
    else some s
  else none

/-! ### The thread `send_reqs` -/

def sqtypeToReqtype (type : Int) : Option SpeechReqType :=
  if 0 ≤ type then
    -- a stream that was closed by `erase_req` is ended towards the server
    [SpeechReqType.voiceData, .voiceStart, .voiceEnd, .cancelled, .voiceEnd][type.toNat]?
  else none

/-- The local variables `id`, `voice`, `err` of `send_reqs`; what an earlier iteration left in
    `voice` is only ever stored in requests whose `data` nobody reads. -/
def voiceArgs : PopArgs Bytes := { id := 0, res := none, err := 0 }

/-- The error `do_request` sets when `connection_.send` fails. -/
def sendError (r : ConnectionOpResult) : SpeechError :=
  if r = .connectionNotAvailable then SpeechError.serviceUnavailable else SpeechError.unknown

/-- An iteration of `send_reqs` up to the end of its first critical section. -/
def takeReq (s : SpeechImpl) : SpeechImpl :=
  if !s.initialized then { s with send := .done }
  else
    let p := s.voiceReqs.pop voiceArgs
    let s := { s with voiceReqs := p.2 }
    if 0 ≤ p.1.1.toInt then
      match sqtypeToReqtype p.1.1.toInt with
      | none => { s with aborted := true }
      | some type =>
          let info : SpeechReqInfo :=
            { id := p.1.2.id, type := type, data := p.1.2.res
              options := p.2.getArg p.1.2.id }
          { s with send := .doCtl info }
    else if s.textReqs = [] then { s with send := .waitReq }
    else { s with send := .textCheck }

/-- The text branch of `send_reqs`, under `req_mutex_` again. -/
def takeText (op : Option Nat) (s : SpeechImpl) : SpeechImpl :=
  if op.isSome then { s with send := .waitReq }
  else
    match s.textReqs with
    | [] => { s with crashed := true }
    | info :: textReqs => { s with textReqs := textReqs, send := .doCtl info }

/-- `do_ctl_change_op` after it has read `current_op_`; `resp_mutex_` is free. -/
def changeOp (info : SpeechReqInfo) (op : Option Nat) (s : SpeechImpl) : SpeechImpl :=
  match info.type, op with
  | .text, none | .voiceStart, none => { s.newOp info.id .start with send := .request info }
  | .text, some _ | .voiceStart, some _ => { s with aborted := true }
  | .voiceEnd, some _ | .voiceData, some _ => { s with send := .request info }
  | .cancelled, some a =>
      let c := (s.controller.setStatus a .cancelled).clearCurrentOp
      { (s.setController c).notifyResp with send := .request info }
  | .cancelled, none => { (s.newOp info.id .cancelled).notifyResp with send := .loop }
  | .voiceEnd, none | .voiceData, none => { s with send := .loop }

/-- The next step of `send_reqs`; `r` is what `connection_.send` returns. -/
def sendStep (r : ConnectionOpResult) (s : SpeechImpl) : Option SpeechImpl :=
  match s.send with
  | .loop => if s.reqFree then some s.takeReq else none
  | .waitReq => some { s with send := .loop }
  | .textCheck => some { s with send := .textTake s.controller.currentOp }
  | .textTake op => if s.reqFree then some (s.takeText op) else none
  | .doCtl info => some { s with send := .changeOp info s.controller.currentOp }
  | .changeOp info op => some (s.changeOp info op)
  | .request info => some { s with send := .sending info (info.treq s.options) }
  | .sending info treq =>
      if r ≠ .success then some { s with send := .sendFailed info (sendError r) }
      else if s.connClosed then none
      else some { s with send := .writing info treq }
  | .writing info treq => some { s with sent := s.sent ++ [treq], send := .sent info }
  | .sendFailed info err =>
      let s := (s.setController (s.controller.setOpError err)).notifyResp
      some { s with send := .eraseReq info.id }
  | .eraseReq id => if s.reqFree then some { s.eraseReq id with send := .loop } else none
  | .sent info =>
      let s := s.setController (s.controller.refreshOpTime s.now false)
      some { s with send := if info.type.isLast then .waitOp info.id else .loop }
  | .waitOp id =>
      if s.controller.mustWait id then some { s with send := .parking id }
      else some { s with send := .loop }
  | .parking id =>
      some { s with controller := { s.controller with opWaiting := true }, send := .blocked id }
  | .blocked _ => if s.controller.opWaiting then none else some { s with send := .loop }
  | .done => none

/-! ### The thread `gen_results` -/

/-- `gen_result_by_resp`: the first response starts the stream. -/
def genStart (resp : SpeechResponse) (a : Nat) (s : SpeechImpl) : SpeechImpl :=
  if (s.controller.heap a).status = .start then
    { s with
      responses := (s.responses.start resp.id).2
      controller := s.controller.setStatus a .streaming }
  else s

/-- `responses_.stream` -/
def genStream (id : Int) (resin : SpeechResultIn) (s : SpeechImpl) : SpeechImpl :=
  { s with responses := (s.responses.stream id (some resin)).2 }

/-- `gen_result_by_resp`: the extra data comes in a result of its own. -/
def genExtra (resp : SpeechResponse) (s : SpeechImpl) : SpeechImpl :=
  if resp.extra ≠ "" then genStream resp.id { extra := resp.extra } s else s

/-- `gen_result_by_resp`: the last response, and it is a success. -/
def genEnd (resp : SpeechResponse) (a : Nat) (s : SpeechImpl) : SpeechImpl :=
  let resin : SpeechResultIn :=
    { asr := resp.asr, nlp := resp.nlp, action := resp.action, voiceTrigger := resp.voiceTrigger }
  { s with
    responses := (s.responses.end_ resp.id (some resin)).2
    controller := (s.controller.setStatus a .end_).finishOp }

/-- `gen_result_by_resp`: the last response, and it is an error. -/
def genError (resp : SpeechResponse) (s : SpeechImpl) : SpeechImpl :=
  { s with
    responses := (s.responses.erase resp.id resp.result).2
    controller := s.controller.finishOp }

/-- `gen_result_by_resp`, up to `resp_locker.unlock()`; the value is `erase_req_id`. -/
def genResultByResp (resp : SpeechResponse) (a : Nat) (s : SpeechImpl) :
    Option Int × SpeechImpl :=
  let op := s.controller.heap a
  if op.id = resp.id ∧ op.status ≠ .cancelled ∧ op.status ≠ .error then
    let s := genExtra resp (genStart resp a s)
    let resin : SpeechResultIn := { asr := resp.asr, voiceTrigger := resp.voiceTrigger }
    if resp.type = respIntermediate then
      (none, (genStream resp.id resin s).notifyResp)
    else if resp.type = respAsrFinish then
      (none, (genStream resp.id { resin with asrFinish := true } s).notifyResp)
    else if resp.type = respFinish then
      let s := if resp.result = 0 then genEnd resp a s else genError resp s
      (if 0 < resp.id then some resp.id else none, s.notifyResp)
    else
      -- a type it does not know: it returns without notifying anybody
      (none, s)
  else (none, s)

/-- The locked part of an iteration of `gen_results`; the value is the id passed to `erase_req`
    afterwards. -/
def handleResult (r : ConnectionOpResult) (resp : SpeechResponse) (s : SpeechImpl) :
    Option Int × SpeechImpl :=
  let current := s.controller.current.map (·.id)
  match r with
  | .success =>
      let s := s.setController (s.controller.refreshOpTime s.now true)
      match s.controller.currentOp with
      | none => (none, s)
      | some a => genResultByResp resp a s
  | .timeout =>
      if s.controller.opTimeout s.now = 0 then
        (current, (s.setController (s.controller.setOpError SpeechError.timeout)).notifyResp)
      else (none, s)
  | .connectionBroken =>
      let c := s.controller.setOpError SpeechError.serviceUnavailable
      (current, (s.setController c).notifyResp)
  | _ => (current, (s.setController (s.controller.setOpError SpeechError.unknown)).notifyResp)

/-- The next step of `gen_results`; `r` and `resp` are what `connection_.recv` returns. -/
def genStep (r : ConnectionOpResult) (resp : SpeechResponse) (s : SpeechImpl) :
    Option SpeechImpl :=
  match s.gen with
  | .loop =>
      if s.respFree then some { s with gen := .recv (s.controller.opTimeout s.now) } else none
  | .recv _ =>
      if decide (r = .notReady) = s.connClosed then
        if r = .notReady then some { s with gen := .done }
        else some { s with gen := .handle r resp }
      else none
  | .handle r resp =>
      if s.respFree then
        match s.handleResult r resp with
        | (some id, s') => some { s' with gen := .eraseReq id }
        | (none, s') => some { s' with gen := .loop }
      else none
  | .eraseReq id => if s.reqFree then some { s.eraseReq id with gen := .loop } else none
  | .done => none

end SpeechImpl

/-! ### Steps -/

inductive SpeechAct where
  | prepare
  | release
  | call (t : Nat) (c : SpeechCall)
  | client (t : Nat)
  | poll
  | config (mod : Sp SpeechOptionsModifier)
  | send (r : ConnectionOpResult)
  | gen (r : ConnectionOpResult) (resp : SpeechResponse)
  | tick (ns : Nat)
deriving DecidableEq, Repr

/-- One step.  `prepare` locks `init_mutex_`, which `release` holds, and `req_mutex_`; a failed
    assertion ends the process, and so does the access to the front of an empty list. -/
def SpeechImpl.step (s : SpeechImpl) (a : SpeechAct) : Option SpeechImpl :=
  if s.aborted ∨ s.crashed then none
  else
    match a with
    | .prepare => if s.releasing = .idle ∧ s.reqFree then some s.prepare else none
    | .release => s.release
    | .call t c => s.call t c
    | .client t => s.client t
    | .poll => s.pollStep
    | .config mod => some (s.config mod)
    | .send r => s.sendStep r
    | .gen r resp => s.genStep r resp
    | .tick ns => some { s with now := s.now + ns }

end OpenVoice
