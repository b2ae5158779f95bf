import OpenVoice.Connection.Sending

/-!
# What `send` has written on the sockets

The frames written by `send`, whatever socket they are on.  The other frames, of `auth` (binary
ones, too) and of `keepalive_loop`, are written in between.
-/

namespace OpenVoice

namespace SpeechConnection

/-- The bytes of a frame written by `send`. -/
def payload : Frame → Option Bytes
  | .binary data => some data
  | .auth | .ping _ => none

/-- What `send` has written, in this order. -/
def uplink (s : SpeechConnection) : List Bytes := s.frames.filterMap fun f => payload f.2

section Uplink

variable (s : SpeechConnection)

@[simp] theorem uplink_setStage (stage : ConnectStage) : (s.setStage stage).uplink = s.uplink := rfl

@[simp] theorem uplink_setWs (ws : Option Nat) : (s.setWs ws).uplink = s.uplink := rfl

@[simp] theorem uplink_setWork (pc : WorkPc) : (s.setWork pc).uplink = s.uplink := rfl

@[simp] theorem uplink_setSender (n : Nat) (pc : SendPc) : (s.setSender n pc).uplink = s.uplink :=
  rfl

@[simp] theorem uplink_updateReconnTp (ms : BitVec 32) :
    (s.updateReconnTp ms).uplink = s.uplink := rfl

@[simp] theorem uplink_updatePingTp : s.updatePingTp.uplink = s.uplink := rfl

@[simp] theorem uplink_updateVoiceTp : s.updateVoiceTp.uplink = s.uplink := rfl

@[simp] theorem uplink_notifyAll : s.notifyAll.uplink = s.uplink := rfl

/-- `ws_send`, with a socket. -/
theorem uplink_wsSend {w : Nat} (hws : s.ws = some w) (frame : Frame) :
    (s.wsSend frame).uplink = s.uplink ++ (payload frame).toList := by
  unfold wsSend
  rw [hws]
  cases frame with
  | binary data => exact List.filterMap_append
  | auth => exact List.filterMap_append
  | ping payload => exact List.filterMap_append

/-- A frame that `send` does not write. -/
theorem uplink_wsSend_other {frame : Frame} (h : payload frame = none) :
    (s.wsSend frame).uplink = s.uplink := by
  cases hws : s.ws with
  | none =>
      unfold wsSend
      rw [hws]
  | some w =>
      rw [uplink_wsSend s hws, h]
      exact List.append_nil _

@[simp] theorem uplink_onDisconnection : s.onDisconnection.uplink = s.uplink := by
  unfold onDisconnection
  simp only
  split <;> rfl

@[simp] theorem uplink_close (w : Nat) : (s.close w).uplink = s.uplink := uplink_onDisconnection _

@[simp] theorem uplink_closeWs : s.closeWs.uplink = s.uplink := by
  unfold closeWs
  split
  · rfl
  · exact uplink_close s _

@[simp] theorem uplink_groupClose : s.groupClose.uplink = s.uplink := by
  have h : ∀ (ws : List Nat) (t : SpeechConnection),
      (ws.foldl (fun s w => s.close w) t).uplink = t.uplink := by
    intro ws
    induction ws with
    | nil => exact fun t => rfl
    | cons w ws ih =>
        intro t
        rw [List.foldl_cons, ih, uplink_close]
  exact h s.sockets s

@[simp] theorem uplink_connect (fails : Bool) : (s.connect fails).uplink = s.uplink := by
  unfold connect
  split
  · unfold onError
    split
    · rfl
    · simp only
      split <;> rfl
  · rfl

@[simp] theorem uplink_auth : s.auth.uplink = s.uplink := by
  unfold auth
  simp only
  split
  · rfl
  · exact uplink_wsSend_other s rfl

variable {s} {t : SpeechConnection}

theorem uplink_release (hst : s.release = some t) : t.uplink = s.uplink := by
  unfold release at hst
  split at hst
  · split at hst <;> cases hst <;> rfl
  · split at hst
    · cases hst
      exact uplink_groupClose _
    · cases hst
  · split at hst
    · cases hst
      rfl
    · cases hst
  · split at hst
    · cases hst
      rfl
    · cases hst
  · cases hst
    rfl
  · cases hst
    rfl

theorem uplink_run (fails : Bool) : (s.run fails).uplink = s.uplink := by
  unfold run
  split
  · rfl
  · split
    · exact uplink_connect _ _
    · rfl
  · rfl
  · rfl

theorem uplink_onConnection (w : Nat) : (s.onConnection w).uplink = s.uplink := by
  unfold onConnection
  split
  · rfl
  · exact uplink_auth _

theorem uplink_onAuthResult (w : Nat) (msg : Message) :
    (s.onAuthResult w msg).uplink = s.uplink := by
  unfold onAuthResult
  split
  · rfl
  · exact uplink_closeWs _

theorem uplink_workStep {fails : Bool} (hst : s.workStep fails = some t) :
    t.uplink = s.uplink := by
  unfold workStep at hst
  split at hst
  · split at hst
    · cases hst
      rfl
    · cases hst
  · split at hst
    · cases hst
      rfl
    · cases hst
  · cases hst
    exact uplink_run fails
  · split at hst
    · cases hst
      exact uplink_onConnection _
    · cases hst
  · split at hst
    · cases hst
      exact uplink_onAuthResult _ _
    · cases hst
  · cases hst
    rfl
  · cases hst
    rfl
  · cases hst
    rfl
  · cases hst
    rfl
  · cases hst
    rfl
  · cases hst
    rfl
  · cases hst
    rfl
  · cases hst
    rfl
  · split at hst
    · split at hst
      · cases hst
        rfl
      · cases hst
        exact uplink_close s _
    · cases hst
  · cases hst
    rfl
  · cases hst
    rfl
  · cases hst
    rfl
  · cases hst
    rfl
  · cases hst
    rfl
  · cases hst
  · cases hst
  · cases hst

theorem uplink_hub {e : HubEvent} (hst : s.hub e = some t) : t.uplink = s.uplink := by
  unfold hub at hst
  split at hst
  · split at hst
    · split at hst
      · cases hst
      · cases hst
        rfl
    · split at hst
      · cases hst
      · cases hst
        rfl
    · split at hst
      · cases hst
        rfl
      · cases hst
    · split at hst
      · cases hst
        rfl
      · cases hst
    · split at hst
      · cases hst
        rfl
      · cases hst
    · split at hst
      · cases hst
        rfl
      · cases hst
  · cases hst

theorem uplink_keepaliveStep (hst : s.keepaliveStep = some t) : t.uplink = s.uplink := by
  have htrace : s.sendTraceInfo.uplink = s.uplink := by
    unfold sendTraceInfo
    split
    · rfl
    · exact uplink_wsSend_other _ rfl
  have hping : s.sendTraceInfo.pingIfDue.uplink = s.uplink := by
    unfold pingIfDue
    split
    · rw [uplink_updatePingTp, uplink_wsSend_other _ rfl, htrace]
    · exact htrace
  unfold keepaliveStep at hst
  split at hst
  · split at hst
    · cases hst
      rfl
    · cases hst
  · split at hst
    · cases hst
      rfl
    · cases hst
  · cases hst
    unfold keepaliveRun
    split
    · rfl
    · split
      · unfold keepaliveReady
        split
        · rw [uplink_closeWs, uplink_updateReconnTp, hping]
        · split
          · rw [uplink_groupClose, uplink_notifyAll, uplink_setStage, hping]
          · exact hping
      · rfl
  · cases hst

/-- Only `send` writes binary frames. -/
theorem uplink_step {a : ConnectionAct} (hst : s.step a = some t)
    (hsend : ∀ n buf timeout, a ≠ .send n buf timeout) (hsender : ∀ n b, a ≠ .sender n b) :
    t.uplink = s.uplink := by
  unfold step at hst
  split at hst
  · cases hst
  · split at hst
    · unfold initializeConn at hst
      split at hst
      · cases hst
        rfl
      · cases hst
    · exact uplink_release hst
    · unfold reconn at hst
      split at hst
      · cases hst
        exact uplink_closeWs _
      · cases hst
    · exact absurd rfl (hsend _ _ _)
    · exact absurd rfl (hsender _ _)
    · cases hst
      have htake : ∀ valid, (s.takeResp valid).uplink = s.uplink := by
        intro valid
        unfold takeResp
        split <;> rfl
      unfold recv
      split
      · split
        · rfl
        · exact htake _
      · split
        · rfl
        · exact htake _
      · exact htake _
    · cases hst
      rfl
    · exact uplink_workStep hst
    · exact uplink_hub hst
    · exact uplink_keepaliveStep hst
    · cases hst
      rfl
    · cases hst
      rfl

end Uplink

/-! ### A call of `send` -/

/-- A call that is past the test of the stage has a socket. -/
def attached (s : SpeechConnection) (n : Nat) : Bool := !(s.senders n).past || s.ws.isSome

/-- **The call of thread `n`**: what it still has to write, and what is written in a step. -/
inductive Transmits (s : SpeechConnection) (n : Nat) (t : SpeechConnection) : Prop where
  /-- The test of the stage succeeds. -/
  | pass {buf : Bytes} (hbuf : (s.senders n).buf = some buf) (hpast : (s.senders n).past = false)
      (hpc : t.senders n = .voiceTp buf) (hup : t.uplink = s.uplink) : Transmits s n t
  /-- It waits. -/
  | wait {buf : Bytes} (hbuf : (s.senders n).buf = some buf) (hpast : (s.senders n).past = false)
      (hbuf' : (t.senders n).buf = some buf) (hpast' : (t.senders n).past = false)
      (hup : t.uplink = s.uplink) : Transmits s n t
  /-- The wait ends. -/
  | fail {buf : Bytes} (hbuf : (s.senders n).buf = some buf) (hpast : (s.senders n).past = false)
      (hpc : t.senders n = .returned .connectionNotAvailable) (hup : t.uplink = s.uplink) :
      Transmits s n t
  /-- It is past the test, and goes on. -/
  | go {buf : Bytes} (hbuf : (s.senders n).buf = some buf) (hpast : (s.senders n).past = true)
      (hbuf' : (t.senders n).buf = some buf) (hpast' : (t.senders n).past = true)
      (hpc : ∀ buf', t.senders n ≠ .voiceTp buf') (hup : t.uplink = s.uplink) : Transmits s n t
  /-- There is no socket any more. -/
  | drop {buf : Bytes} (hbuf : (s.senders n).buf = some buf) (hpast : (s.senders n).past = true)
      (hws : s.ws = none) (hpc : t.senders n = .returned .success) (hup : t.uplink = s.uplink) :
      Transmits s n t
  | write {buf : Bytes} (hbuf : (s.senders n).buf = some buf) (hpast : (s.senders n).past = true)
      (hpc : t.senders n = .returned .success) (hup : t.uplink = s.uplink ++ [buf]) :
      Transmits s n t
  | crash {buf : Bytes} (hbuf : (s.senders n).buf = some buf) (hpast : (s.senders n).past = true)
      (hpc : ∀ buf', t.senders n ≠ .voiceTp buf') (hcalls : t.calls = s.calls)
      (hup : t.uplink = s.uplink) : Transmits s n t

variable {s t : SpeechConnection}

theorem uplink_wantConnection : s.wantConnection.uplink = s.uplink := by
  unfold wantConnection
  split <;> rfl

/-- Nothing is written before `ws_->send`. -/
theorem uplink_sendStep {n : Nat} {timedOut : Bool} (hst : s.sendStep n timedOut = some t)
    (hno : ∀ buf, s.senders n ≠ .wsSend buf) : t.uplink = s.uplink := by
  unfold sendStep at hst
  split at hst
  · cases hst
  · cases hst
  · split at hst
    · cases hst
      exact uplink_wantConnection
    · cases hst
  · split at hst
    · split at hst
      · split at hst
        · cases hst
        · split at hst
          · cases hst
            rfl
          · cases hst
      · cases hst
        rfl
    · cases hst
  · cases hst
    rfl
  · cases hst
    rfl
  · rename_i buf hpc
    exact absurd hpc (hno buf)

theorem setSender_senders (u : SpeechConnection) (n : Nat) (pc : SendPc) :
    (u.setSender n pc).senders n = pc := by
  simp [setSender]

theorem sendStep_transmits {n : Nat} {timedOut : Bool} (hst : s.sendStep n timedOut = some t) :
    Transmits s n t := by
  have hbefore : (s.senders n).past = false → t.uplink = s.uplink := by
    intro hpast
    apply uplink_sendStep hst
    intro buf hpc
    rw [hpc] at hpast
    cases hpast
  cases sendStep_sender hst with
  | enter hbuf hpast henters =>
      exact .pass hbuf hpast (setSender_senders s n _) (hbefore hpast)
  | wait hbuf hpast hstage hu =>
      refine .wait hbuf hpast ?_ ?_ (hbefore hpast)
      · rw [setSender_senders]
        rfl
      · rw [setSender_senders]
        rfl
  | timeout hbuf hpast => exact .fail hbuf hpast (setSender_senders s n _) (hbefore hpast)
  | touch hpc =>
      refine .go (congrArg SendPc.buf hpc) (congrArg SendPc.past hpc) ?_ ?_ ?_ rfl
      · rw [setSender_senders]
        rfl
      · rw [setSender_senders]
        rfl
      · simp [setSender]
  | drop hpc hws =>
      exact .drop (congrArg SendPc.buf hpc) (congrArg SendPc.past hpc) hws
        (setSender_senders s n _) rfl
  | test hpc hws =>
      refine .go (congrArg SendPc.buf hpc) (congrArg SendPc.past hpc) ?_ ?_ ?_ rfl
      · rw [setSender_senders]
        rfl
      · rw [setSender_senders]
        rfl
      · simp [setSender]
  | write hpc hws =>
      exact .write (congrArg SendPc.buf hpc) (congrArg SendPc.past hpc)
        (setSender_senders _ n _) (uplink_wsSend s hws _)
  | crash hpc hws =>
      refine .crash (congrArg SendPc.buf hpc) (congrArg SendPc.past hpc) ?_ rfl rfl
      intro buf' hpc'
      rw [hpc] at hpc'
      cases hpc'

end SpeechConnection

end OpenVoice
