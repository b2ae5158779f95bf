import OpenVoice.Connection.Model

/-!
# The stage, the socket and the threads

`Link` is what the threads of a `SpeechConnection` share that decides who may send: the stage,
the socket and where everybody is.  `Move` lists everything that can happen to it.  Times,
responses, frames and the sockets of the hub are left out; `step_move` is the connection to the
model of the code.
-/

namespace OpenVoice

open OpenVoice.Lib

namespace SpeechConnection

/-- Between the last test of the stage and the write of it that follows. -/
def WorkPc.late : WorkPc → Bool
  | .authResult _ msg => msg.accepted
  | .pushError | .testReady | .reconnTp _ | .setDisconn | .errorDisconn => true
  | _ => false

/-- `onDisconnection` has set `ws_` to null, and not the stage to DISCONN. -/
def WorkPc.losing : WorkPc → Bool
  | .testPaused | .testClosed | .pushError | .testReady | .reconnTp _ | .setDisconn => true
  | _ => false

/-- How long a wait is, and who has been told, is forgotten. -/
def WorkPc.forget : WorkPc → WorkPc
  | .waiting _ => .waiting { deadline := none }
  | pc => pc

@[simp] theorem WorkPc.forget_notified (pc : WorkPc) : pc.notified.forget = pc.forget := by
  cases pc <;> rfl

@[simp] theorem WorkPc.forget_late (pc : WorkPc) : pc.forget.late = pc.late := by
  cases pc <;> rfl

@[simp] theorem WorkPc.forget_losing (pc : WorkPc) : pc.forget.losing = pc.losing := by
  cases pc <;> rfl

/-- Only waits look alike. -/
theorem WorkPc.of_forget {pc pc' : WorkPc} (h : pc.forget = pc')
    (hne : pc' ≠ .waiting { deadline := none }) : pc = pc' := by
  cases pc with
  | waiting w => exact absurd h.symm hne
  | _ => exact h

/-- The keepalive thread holds `stage_mutex_`. -/
def KeepalivePc.holds : KeepalivePc → Bool
  | .locked => true
  | _ => false

@[simp] theorem KeepalivePc.notified_holds (pc : KeepalivePc) : pc.notified.holds = pc.holds := by
  cases pc <;> rfl

structure Link where
  stage : ConnectStage
  ws : Option Nat
  accepted : Option Nat
  released : Bool
  releasing : ReleasePc
  work : WorkPc
  kept : Bool
deriving DecidableEq, Repr

def link (s : SpeechConnection) : Link where
  stage := s.stage
  ws := s.ws
  accepted := s.accepted
  released := s.released
  releasing := s.releasing
  work := s.work.forget
  kept := s.keepalive.holds

namespace Link

/-- Nobody holds `stage_mutex_`. -/
def free (c : Link) : Bool := c.work ≠ .locked ∧ c.work ≠ .deadlock ∧ c.kept = false

/-- `onDisconnection`, with `stage_mutex_` held. -/
def disconnect (c : Link) : Link :=
  if c.stage = .paused ∨ c.stage = .closed then { c with ws := none }
  else { c with ws := none, stage := .disconn }

@[simp] theorem disconnect_ws (c : Link) : c.disconnect.ws = none := by
  unfold disconnect
  split <;> rfl

@[simp] theorem disconnect_released (c : Link) : c.disconnect.released = c.released := by
  unfold disconnect
  split <;> rfl

theorem disconnect_of_idle {c : Link} (h : c.stage = .paused ∨ c.stage = .closed) :
    c.disconnect = { c with ws := none } :=
  if_pos h

theorem disconnect_of_busy {c : Link} (h : ¬ (c.stage = .paused ∨ c.stage = .closed)) :
    c.disconnect = { c with ws := none, stage := .disconn } :=
  if_neg h

@[simp] theorem disconnect_disconnect (c : Link) : c.disconnect.disconnect = c.disconnect := by
  rcases Decidable.em (c.stage = .paused ∨ c.stage = .closed) with h | h
  · rw [disconnect_of_idle h]
    exact disconnect_of_idle h
  · simp [disconnect, h]

end Link

/-! ### Actions -/

/-- The actions a statement restricts. -/
inductive Label where
  /-- `release` closes the connection. -/
  | close
  | work
  /-- The hub reports the end of a socket. -/
  | lose
  /-- The keepalive thread goes to wait, the stage being READY. -/
  | rest
  | other
deriving DecidableEq, Repr

def label (s : SpeechConnection) : ConnectionAct → Label
  | .release => if s.releasing = .closing then .close else .other
  | .work _ => .work
  | .hub (.disconnected _) => .lose
  | .keepalive =>
      if s.keepalive = .locked ∧ s.stage = .ready ∧ s.noResponse = false ∧ s.noVoice = false then
        .rest
      else .other
  | _ => .other

/-! ### What can happen -/

/-- Where an event of the hub, or the next access of a handler, takes the work thread without
    anything being written. -/
inductive Passes (stage : ConnectStage) : WorkPc → WorkPc → Prop where
  | refused {w : Nat} (h : stage = .closed ∨ stage = .paused) :
      Passes stage (.onConnection w) .running
  | rejected {w : Nat} {msg : Message} (h : msg.accepted = false) :
      Passes stage (.authResult w msg) .running
  | recvTp {msg : Message} : Passes stage (.recvTp msg) (.pushData msg)
  | pushData {msg : Message} : Passes stage (.pushData msg) .running
  | idle (h : stage = .paused) : Passes stage .testPaused .running
  | notPaused (h : stage ≠ .paused) : Passes stage .testPaused .testClosed
  | over (h : stage = .closed) : Passes stage .testClosed .running
  | notClosed (h : stage ≠ .closed) : Passes stage .testClosed .pushError
  | pushError : Passes stage .pushError .testReady
  | testReady {ms : BitVec 32} : Passes stage .testReady (.reconnTp ms)
  | reconnTp {ms : BitVec 32} : Passes stage (.reconnTp ms) .setDisconn
  | closed : Passes stage .errorClose .running
  | errorPush : Passes stage .errorPush .errorReconnTp
  | errorReconnTp : Passes stage .errorReconnTp .errorTest
  | errorOver (h : stage = .closed) : Passes stage .errorTest .running
  | errorOpen (h : stage ≠ .closed) : Passes stage .errorTest .errorDisconn
  | notify : Passes stage .notify .running
  | connected (w : Nat) : Passes stage .running (.onConnection w)
  | failed {pc : WorkPc} (h : pc = .errorClose ∨ pc = .errorPush) : Passes stage .running pc
  | authorizing {w : Nat} {msg : Message} (h : stage = .authorizing) :
      Passes stage .running (.authResult w msg)
  | data {msg : Message} (h : stage = .ready) : Passes stage .running (.recvTp msg)
  | finished : Passes stage .running .relock

/-- Everything that can happen to the link. -/
inductive Move (c : Link) (l : Label) : Link → Prop where
  | stay : Move c l c
  | prepare (hidle : c.releasing = .idle) : Move c l
      { c with stage := .paused, work := .relock, kept := false, released := false }
  | proceed {pc : ReleasePc} (h : c.releasing = .joinWork → c.work = .done) :
      Move c l { c with releasing := pc }
  | close {ws : Option Nat} (hl : l = .close) (hpc : c.releasing = .closing)
      (hfree : c.free = true) (hws : ws = none ∨ ws = c.ws) :
      Move c l { c with stage := .closed, ws := ws, released := true, releasing := .joinWork }
  | hangUp {w : Nat} (hws : c.ws = some w) : Move c l c.disconnect
  | want (hfree : c.free = true) (hstage : c.stage = .paused) :
      Move c l { c with stage := .disconn }
  | lock (hfree : c.free = true) (hpc : c.work = .relock ∨ c.work = .waiting { deadline := none }) :
      Move c l { c with work := .locked }
  | exit (hpc : c.work = .locked) (hstage : c.stage = .closed) :
      Move c l { c with work := .done }
  | connect (hpc : c.work = .locked) (hstage : c.stage = .disconn) :
      Move c l { c with stage := .connecting }
  | deadlock (hpc : c.work = .locked) (hstage : c.stage = .disconn) :
      Move c l { c with stage := .connecting, work := .deadlock }
  | unlock {pc : WorkPc} (hpc : c.work = .locked) (hstage : c.stage ≠ .closed)
      (h : pc = .running ∨ pc = .waiting { deadline := none }) : Move c l { c with work := pc }
  | pass {pc : WorkPc} (h : Passes c.stage c.work pc) : Move c l { c with work := pc }
  | connected {w : Nat} (hfree : c.free = true) (hpc : c.work = .onConnection w)
      (hstage : ¬ (c.stage = .closed ∨ c.stage = .paused)) :
      Move c l { c with stage := .authorizing, ws := some w, work := .running }
  | accept {w : Nat} {msg : Message} (hl : l = .work) (hfree : c.free = true)
      (hpc : c.work = .authResult w msg) (h : msg.accepted = true) :
      Move c l { c with stage := .ready, accepted := some w, work := .running }
  | hangUpPass {w : Nat} {pc : WorkPc} (hfree : c.free = true) (hws : c.ws = some w)
      (h : Passes c.stage c.work pc) : Move c l { c.disconnect with work := pc }
  | lose (hl : l = .lose) (hpc : c.work = .running) :
      Move c l { c with ws := none, work := .testPaused }
  | disconn (h : c.work = .setDisconn ∨ c.work = .errorDisconn) :
      Move c l { c with stage := .disconn, work := .notify }
  | keep (hfree : c.free = true) : Move c l { c with kept := true }
  | pause {ws : Option Nat} (hkept : c.kept = true) (hstage : c.stage = .ready)
      (hws : ws = none ∨ ws = c.ws) : Move c l { c with stage := .paused, ws := ws }
  | unkeep (hkept : c.kept = true) (hstage : c.stage ≠ .ready) : Move c l { c with kept := false }
  | rest (hl : l = .rest) (hkept : c.kept = true) (hstage : c.stage = .ready) :
      Move c l { c with kept := false }

end SpeechConnection

end OpenVoice
