import OpenVoice.Connection.Responses
import OpenVoice.OpCtl.Advance

/-!
# A client with its connection

`SpeechImpl` and `TtsImpl` use `connection_` in the same way.  `ServiceClient` is what the two have
in common: which of their steps are calls of `connection_`, and the operations.  A `Service` is a
client together with its `SpeechConnection`: a step is a step of one of them, or a step of both
where the client calls the connection and where a call returns.

* Only the thread `send_reqs` calls `send`; in the connection it is thread 0.
* `release` of the client returns from `connection_.release()` in the step in which CLOSED is
  pushed.
* There is one clock.

A `Service` also records when ERROR was pushed and which operations have had no ERROR since a
request of theirs was sent.  Time is counted in operations created; no step depends on it.
-/

namespace OpenVoice

open OpenVoice.Lib

/-- Whose step an action of a client is. -/
inductive Role where
  | prepare | release
  /-- a step of `send_reqs` -/
  | send
  /-- a step of `gen_results` -/
  | gen
  | tick
  | other
deriving DecidableEq, Repr

/-- A client of `SpeechConnection`: its states, its actions, the messages it receives and its
    errors. -/
structure ServiceClient (σ α ρ E : Type) where
  opened : σ
  step : σ → α → Option σ
  role : α → Role
  prepare : α
  release : α
  /-- `send_reqs`; the argument is what `connection_.send` returns -/
  send : ConnectionOpResult → α
  /-- `gen_results`; the arguments are what `connection_.recv` returns -/
  gen : ConnectionOpResult → ρ → α
  tick : Nat → α
  initialized : σ → Bool
  /-- in `connection_.release()` -/
  closing : σ → Bool
  /-- about to call `connection_.send`, with this timeout -/
  requests : σ → Option (BitVec 32)
  /-- in `connection_.send`, with a request that has this id -/
  sends : σ → Option Int
  /-- in `connection_.recv` -/
  receives : σ → Bool
  /-- what `recv` returned, and `gen_results` has not handled yet -/
  hand : σ → Option ConnectionOpResult
  controller : σ → OpCtl E
  /-- the step is `new_op(id, START)` -/
  starts : σ → α → Bool
  role_prepare : role prepare = .prepare
  role_release : role release = .release
  role_send : ∀ r, role (send r) = .send
  role_gen : ∀ r resp, role (gen r resp) = .gen
  role_tick : ∀ ns, role (tick ns) = .tick
  advances : ∀ {s a t}, step s a = some t → (controller s).Advances (controller t)
  started : ∀ {s a t}, step s a = some t → starts s a = false →
    ∀ x, (controller t).currentOp = some x → (controller s).currentOp = some x
  starts_current : ∀ {s a t}, step s a = some t → starts s a = true →
    (controller t).currentOp = some (controller s).fresh
  hand_kept : ∀ {s a t r}, step s a = some t → hand t = some r →
    hand s = some r ∨ receives s = true ∧ role a = .gen
  hand_send : ∀ {s a t}, step s a = some t → role a = .send → hand t = hand s
  hand_taken : ∀ {s t r resp r'}, step s (gen r resp) = some t → hand t = some r' → r' = r
  starts_alone : ∀ {s a}, starts s a = true → role a = .send ∧ requests s = none ∧ sends s = none

/-- A step of the client that has nothing to do with the connection. -/
def ServiceClient.alone {σ α ρ E : Type} (C : ServiceClient σ α ρ E) (s : σ) (a : α) : Bool :=
  match C.role a with
  | .prepare | .tick => false
  | .release => !C.closing s
  | .send => (C.requests s).isNone && (C.sends s).isNone
  | .gen => !C.receives s
  | .other => true

namespace SpeechConnection

/-- The socket is lost, or an attempt to connect has failed, and ERROR has not been pushed yet. -/
def WorkPc.breaking : WorkPc → Bool
  | .testPaused | .testClosed | .pushError | .errorPush => true
  | _ => false

/-- How many ERROR entries there are in `responses_`. -/
def errorCount (s : SpeechConnection) : Nat := s.responses.countP fun resp => resp.type = .error

/-- A step of the connection's own threads, of the hub, or of another caller. -/
def own : ConnectionAct → Bool
  | .reconn | .addTraceInfo _ | .work _ | .hub _ | .keepalive | .setClock _ => true
  | _ => false

end SpeechConnection

/-- When an ERROR was pushed: the number of operations that had been created. -/
structure Mark where
  /-- when the socket was lost or the attempt to connect failed -/
  lost : Nat
  pushed : Nat
deriving DecidableEq, Repr

structure Service (σ : Type) where
  client : σ
  conn : SpeechConnection := {}
  /-- when the hub last reported a loss -/
  lostAt : Nat := 0
  /-- the marks of the ERROR entries in `responses_` -/
  errors : List Mark := []
  /-- the mark of the ERROR entry that was taken last -/
  taken : Mark := { lost := 0, pushed := 0 }
  /-- the operations of the call of `send` that has found the connection available -/
  calling : List Nat := []
  /-- the operations of the calls that have returned SUCCESS since an ERROR was pushed -/
  awaiting : List Nat := []

inductive ServiceAct (α ρ : Type) where
  | prepare (options : PrepareOptions)
  | release
  /-- `send_reqs` calls `connection_.send`; `buf` is what `SerializeToString` makes -/
  | request (buf : Option Bytes)
  /-- the next step of that call -/
  | sender (timedOut : Bool)
  /-- `gen_results` calls `connection_.recv`, or its wait there returns; `resp` is what
      `ParseFromArray` makes -/
  | recv (valid : Bool) (resp : ρ)
  | client (a : α)
  | conn (a : ConnectionAct)
  | tick (ns : Nat)
deriving DecidableEq, Repr

namespace Service

variable {σ α ρ E : Type}

def setClient (c : σ) (s : Service σ) : Service σ := { s with client := c }

def opened (C : ServiceClient σ α ρ E) : Service σ := { client := C.opened }

/-- The number of operations that have been created. -/
def clock (C : ServiceClient σ α ρ E) (s : Service σ) : Nat := (C.controller s.client).fresh

/-- The connection becomes `c`, and nothing has been taken from `responses_`. -/
def moveConn (C : ServiceClient σ α ρ E) (c : SpeechConnection) (s : Service σ) : Service σ :=
  let lost := if s.conn.work.breaking then s.lostAt else s.clock C
  let pushed := c.errorCount - s.conn.errorCount
  { s with
    conn := c
    lostAt := lost
    errors :=
      if c.responses = [] then []
      else s.errors ++ List.replicate pushed { lost := lost, pushed := s.clock C }
    awaiting := if pushed = 0 then s.awaiting else [] }

/-- The connection becomes `c`, and `recv` has returned `r`. -/
def takeResp (r : ConnectionOpResult) (c : SpeechConnection) (s : Service σ) : Service σ :=
  if r = .connectionBroken then
    { s with conn := c, taken := s.errors.headD s.taken, errors := s.errors.tail }
  else { s with conn := c }

/-- The operations with this id. -/
def opsOf (C : ServiceClient σ α ρ E) (id : Int) (s : Service σ) : List Nat :=
  (C.controller s.client).operations.filter fun a => ((C.controller s.client).heap a).id = id

/-- What is recorded of the calls of `send`. -/
def setCalls (calling awaiting : List Nat) (s : Service σ) : Service σ :=
  { s with calling := calling, awaiting := awaiting }

variable (C : ServiceClient σ α ρ E)

def prepare (options : PrepareOptions) (s : Service σ) : Option (Service σ) :=
  if C.initialized s.client then (C.step s.client C.prepare).map fun c => s.setClient c
  else do
    let conn ← s.conn.step (.prepare options)
    let c ← C.step s.client C.prepare
    return ((s.moveConn C conn).setClient c).setCalls [] []

def release (s : Service σ) : Option (Service σ) :=
  if C.closing s.client then do
    let conn ← s.conn.step .release
    if conn.releasing = .idle then
      (C.step s.client C.release).map fun c => (s.moveConn C conn).setClient c
    else return s.moveConn C conn
  else (C.step s.client C.release).map fun c => s.setClient c

def request (buf : Option Bytes) (s : Service σ) : Option (Service σ) := do
  let timeout ← C.requests s.client
  let conn ← s.conn.step (.send 0 buf timeout)
  let c ← C.step s.client (C.send .success)
  return (s.moveConn C conn).setClient c

/-- The next step of `connection_.send`.  The client moves when the connection is available, and
    when the call returns. -/
def sender (timedOut : Bool) (s : Service σ) : Option (Service σ) := do
  let id ← C.sends s.client
  match s.conn.senders 0 with
  | .returned r => (C.step s.client (C.send r)).map fun c => s.setClient c
  | _ =>
      let conn ← s.conn.step (.sender 0 timedOut)
      match conn.senders 0 with
      | .voiceTp _ =>
          let c ← C.step s.client (C.send .success)
          let s := s.moveConn C conn
          return (s.setClient c).setCalls (s.opsOf C id) s.awaiting
      | .returned .success =>
          let s := s.moveConn C conn
          return s.setCalls [] (s.awaiting ++ s.calling)
      | _ => return s.moveConn C conn

def recv (valid : Bool) (resp : ρ) (s : Service σ) : Option (Service σ) :=
  if C.receives s.client then do
    let conn ← s.conn.step (.recv valid)
    match conn.receiver with
    | .returned r _ =>
        let c ← C.step s.client (C.gen r resp)
        return (s.takeResp r conn).setClient c
    | _ => return { s with conn := conn }
  else none

/-- One step; a null pointer that is followed ends the process. -/
def step (s : Service σ) (a : ServiceAct α ρ) : Option (Service σ) :=
  if s.conn.crashed then none
  else
    match a with
    | .prepare options => s.prepare C options
    | .release => s.release C
    | .request buf => s.request C buf
    | .sender timedOut => s.sender C timedOut
    | .recv valid resp => s.recv C valid resp
    | .client a =>
        if C.alone s.client a then (C.step s.client a).map fun c => s.setClient c else none
    | .conn a =>
        if SpeechConnection.own a then (s.conn.step a).map fun conn => s.moveConn C conn else none
    | .tick ns => do
        let conn ← s.conn.step (.tick ns)
        let c ← C.step s.client (C.tick ns)
        return (s.moveConn C conn).setClient c

def Steps (s : Service σ) (a : ServiceAct α ρ) (t : Service σ) : Prop := s.step C a = some t

end Service

end OpenVoice
