import OpenVoice.Connection.Socket

/-!
# Waiting on `stage_changed_`

Three kinds of threads wait on `stage_changed_`: the work thread until there is something to do,
the keepalive thread until the next ping or until the stage is READY, callers of `send` until the
stage is READY.  Whoever changes the stage such that one of them has to go on calls
`stage_changed_.notify_all`; where a handler does so without `stage_mutex_`, the call follows.
-/

namespace OpenVoice

open OpenVoice.Lib

namespace SpeechConnection

/-- A thread that waits and has not been notified still has a reason to wait. -/
structure Waits (s : SpeechConnection) : Prop where
  /-- The work thread waits until the stage is not PAUSED. -/
  paused : s.work = .waiting { deadline := none } → s.stage = .paused
  /-- The work thread waits until it is time to connect. -/
  disconn : ∀ d, s.work = .waiting { deadline := some d } →
    s.stage = .disconn ∧ s.reconnTimepoint ≤ max d s.now
  /-- The keepalive thread waits until there is a connection, or until it has to quit. -/
  idle : s.keepalive = .waiting { deadline := none } → s.stage ≠ .ready ∧ s.stage ≠ .closed
  /-- The keepalive thread waits until the next ping, or it is about to be notified. -/
  busy : ∀ d, s.keepalive = .waiting { deadline := some d } →
    s.stage = .ready ∨ s.work = .notify
  /-- A caller of `send` waits until there is a connection. -/
  sender : ∀ n buf d, s.senders n = .waiting buf { deadline := d } → s.stage ≠ .ready

theorem WorkPc.notified_ne (pc : WorkPc) (d : Option Nat) :
    pc.notified ≠ .waiting { deadline := d } := by
  cases pc <;> simp [WorkPc.notified, Wait.notify]

theorem KeepalivePc.notified_ne (pc : KeepalivePc) (d : Option Nat) :
    pc.notified ≠ .waiting { deadline := d } := by
  cases pc <;> simp [KeepalivePc.notified, Wait.notify]

theorem SendPc.notified_ne (pc : SendPc) (buf : Bytes) (d : Option Nat) :
    pc.notified ≠ .waiting buf { deadline := d } := by
  cases pc <;> simp [SendPc.notified, Wait.notify]

namespace Waits

variable {s t u : SpeechConnection}

/-- Nobody waits who has not been notified. -/
theorem notifyAll (s : SpeechConnection) : s.notifyAll.Waits where
  paused h := absurd h (s.work.notified_ne none)
  disconn d h := absurd h (s.work.notified_ne (some d))
  idle h := absurd h (s.keepalive.notified_ne none)
  busy d h := absurd h (s.keepalive.notified_ne (some d))
  sender n buf d h := absurd h ((s.senders n).notified_ne buf d)

/-- Who waits, and for what, stays as it is; `reconn_timepoint_` may be moved to the present. -/
theorem same (h : s.Waits) (hstage : t.stage = s.stage) (hwork : t.work = s.work)
    (hkeep : t.keepalive = s.keepalive) (hsend : t.senders = s.senders) (hnow : s.now ≤ t.now)
    (htp : t.reconnTimepoint = s.reconnTimepoint ∨ t.reconnTimepoint = t.now) : t.Waits where
  paused hw := by
    rw [hstage]
    rw [hwork] at hw
    exact h.paused hw
  disconn d hw := by
    rw [hwork] at hw
    obtain ⟨hdis, hle⟩ := h.disconn d hw
    refine ⟨hstage.trans hdis, ?_⟩
    omega
  idle hk := by
    rw [hstage]
    rw [hkeep] at hk
    exact h.idle hk
  busy d hk := by
    rw [hstage, hwork]
    rw [hkeep] at hk
    exact h.busy d hk
  sender n buf d hn := by
    rw [hstage]
    rw [hsend] at hn
    exact h.sender n buf d hn

/-- It is time to connect. -/
theorem updateReconnTp (h : s.Waits) : (s.updateReconnTp 0).Waits := by
  refine h.same rfl rfl rfl rfl (Nat.le_refl s.now) (.inr ?_)
  simp [SpeechConnection.updateReconnTp, milliseconds]

/-- A field nobody waits for. -/
theorem wsSend (h : s.Waits) (frame : Frame) : (s.wsSend frame).Waits := by
  unfold SpeechConnection.wsSend
  split
  · exact h
  · exact h.same rfl rfl rfl rfl (Nat.le_refl _) (.inl rfl)

/-- `onDisconnection` tells everybody, unless the connection has been closed on purpose. -/
theorem onDisconnection (h : s.Waits) : s.onDisconnection.Waits := by
  rcases Decidable.em (s.stage = .paused ∨ s.stage = .closed) with hidle | hbusy
  · rw [onDisconnection_of_idle hidle]
    exact h.same rfl rfl rfl rfl (Nat.le_refl _) (.inl rfl)
  · rw [onDisconnection_of_busy hbusy]
    exact notifyAll _

theorem close (h : s.Waits) (w : Nat) : (s.close w).Waits :=
  (h.same rfl rfl rfl rfl (Nat.le_refl _) (.inl rfl) : (s.removeSocket w).Waits).onDisconnection

theorem closeWs (h : s.Waits) : s.closeWs.Waits := by
  unfold SpeechConnection.closeWs
  split
  · exact h
  · exact h.close _

theorem groupClose (h : s.Waits) : s.groupClose.Waits := by
  have hfold : ∀ (ws : List Nat) (t : SpeechConnection), t.Waits →
      (ws.foldl (fun s w => s.close w) t).Waits := by
    intro ws
    induction ws with
    | nil => exact fun t ht => ht
    | cons w ws ih => exact fun t ht => ih _ (ht.close w)
  exact hfold s.sockets s h

/-- The work thread is elsewhere than in a wait. -/
def awake (pc : WorkPc) : Prop := ∀ d, pc ≠ .waiting { deadline := d }

/-- The work thread goes on. -/
theorem goto {pc : WorkPc} (h : s.Waits) (hpc : s.work ≠ .notify) (hawake : awake pc) :
    (s.setWork pc).Waits where
  paused hw := absurd hw (hawake none)
  disconn d hw := absurd hw (hawake (some d))
  idle := h.idle
  busy d hk := .inl ((h.busy d hk).resolve_right hpc)
  sender := h.sender

/-- The work thread goes on when everybody has been told. -/
theorem goOn {pc : WorkPc} (hawake : awake pc) : (s.notifyAll.setWork pc).Waits where
  paused hw := absurd hw (hawake none)
  disconn d hw := absurd hw (hawake (some d))
  idle := (notifyAll s).idle
  busy d hk := absurd hk (s.keepalive.notified_ne (some d))
  sender := (notifyAll s).sender

/-- The work thread does not wait for `reconn_timepoint_` itself. -/
theorem retime {pc : WorkPc} (h : s.Waits) (hpc : s.work = pc) (hawake : awake pc)
    (ms : BitVec 32) : (s.updateReconnTp ms).Waits where
  paused := h.paused
  disconn d hw := absurd (hpc.symm.trans hw) (hawake (some d))
  idle := h.idle
  busy := h.busy
  sender := h.sender

/-- The keepalive thread is not in a wait. -/
theorem keep {pc : KeepalivePc} (h : s.Waits) (hpc : ∀ d, pc ≠ .waiting { deadline := d }) :
    (s.setKeepalive pc).Waits where
  paused := h.paused
  disconn := h.disconn
  idle hk := absurd hk (hpc none)
  busy d hk := absurd hk (hpc (some d))
  sender := h.sender

/-- A caller of `send` goes on, or waits because the stage is not READY. -/
theorem setSender {pc : SendPc} (h : s.Waits) (n : Nat)
    (hpc : ∀ buf d, pc = .waiting buf { deadline := d } → s.stage ≠ .ready) :
    (s.setSender n pc).Waits where
  paused := h.paused
  disconn := h.disconn
  idle := h.idle
  busy := h.busy
  sender m buf d hm := by
    have hm' : Function.update s.senders n pc m = .waiting buf { deadline := d } := hm
    rcases eq_or_ne m n with rfl | hne
    · rw [Function.update_self] at hm'
      exact hpc buf d hm'
    · rw [Function.update_of_ne hne] at hm'
      exact h.sender m buf d hm'

/-- A handler sets the stage to DISCONN, and is about to tell everybody. -/
theorem setDisconn (s : SpeechConnection) : ((s.setStage .disconn).setWork .notify).Waits where
  paused hw := by cases hw
  disconn d hw := by cases hw
  idle hk := ⟨by simp [setWork, setStage], by simp [setWork, setStage]⟩
  busy d hk := .inr rfl
  sender n buf d hn := by simp [setWork, setStage]

/-! ### The steps -/

theorem initializeConn {options : PrepareOptions}
    (hst : s.initializeConn options = some t) : t.Waits := by
  unfold SpeechConnection.initializeConn at hst
  split at hst
  · cases hst
    exact {
      paused := fun hw => by cases hw
      disconn := fun d hw => by cases hw
      idle := fun hk => by cases hk
      busy := fun d hk => by cases hk
      sender := fun n buf d hn => by simp }
  · cases hst

theorem release (h : s.Waits) (hst : s.release = some t) : t.Waits := by
  unfold SpeechConnection.release at hst
  split at hst
  · split at hst
    · cases hst
      exact h.same rfl rfl rfl rfl (Nat.le_refl _) (.inl rfl)
    · cases hst
      exact h
  · split at hst
    · cases hst
      have hclose := (notifyAll (s.markReleased.setStage .closed)).groupClose
      exact hclose.same rfl rfl rfl rfl (Nat.le_refl _) (.inl rfl)
    · cases hst
  · split at hst
    · cases hst
      exact h.same rfl rfl rfl rfl (Nat.le_refl _) (.inl rfl)
    · cases hst
  · split at hst
    · cases hst
      exact h.same rfl rfl rfl rfl (Nat.le_refl _) (.inl rfl)
    · cases hst
  · cases hst
    exact h.same rfl rfl rfl rfl (Nat.le_refl _) (.inl rfl)
  · cases hst
    exact h.same rfl rfl rfl rfl (Nat.le_refl _) (.inl rfl)

theorem reconn (h : s.Waits) (hst : s.reconn = some t) : t.Waits := by
  unfold SpeechConnection.reconn at hst
  split at hst
  · cases hst
    exact h.updateReconnTp.closeWs
  · cases hst

theorem send {n : Nat} {buf : Option Bytes} {timeout : BitVec 32} (h : s.Waits)
    (hst : s.send n buf timeout = some t) : t.Waits := by
  unfold SpeechConnection.send at hst
  split at hst
  · cases hst
    exact h.setSender n (by simp)
  · cases hst
    exact h.setSender n (by simp)
  · cases hst
    exact h.setSender n (by simp)
  · cases hst
    exact h.setSender n (by simp)
  · cases hst

/-- The loop of `ensure_connection_available` waits only when the stage is not READY. -/
theorem untilReady_waiting {buf buf' : Bytes} {tp d : Option Nat}
    (hpc : s.untilReady buf tp = .waiting buf' { deadline := d }) : s.stage ≠ .ready := by
  unfold untilReady at hpc
  split at hpc
  · cases hpc
  · rename_i hstage
    exact hstage

theorem sendStep {n : Nat} {timedOut : Bool} (h : s.Waits) (hst : s.sendStep n timedOut = some t) :
    t.Waits := by
  unfold SpeechConnection.sendStep at hst
  split at hst
  · cases hst
  · cases hst
  · split at hst
    · cases hst
      have hwant : s.wantConnection.Waits := by
        unfold wantConnection
        split
        · exact notifyAll _
        · exact h
      exact hwant.setSender n fun buf d => untilReady_waiting
    · cases hst
  · split at hst
    · split at hst
      · split at hst
        · cases hst
        · split at hst
          · cases hst
            exact h.setSender n (by simp)
          · cases hst
      · cases hst
        exact h.setSender n fun buf d => untilReady_waiting
    · cases hst
  · cases hst
    have hvoice : s.updateVoiceTp.Waits := h.same rfl rfl rfl rfl (Nat.le_refl _) (.inl rfl)
    exact hvoice.setSender n (by simp)
  · cases hst
    apply h.setSender n
    intro buf d hpc
    split at hpc
    · cases hpc
    · cases hpc
  · split at hst
    · cases hst
      exact (h.wsSend _).setSender n (by simp)
    · cases hst
      exact h.same rfl rfl rfl rfl (Nat.le_refl _) (.inl rfl)

theorem recv (h : s.Waits) (valid : Bool) : (s.recv valid).Waits := by
  have htake : (s.takeResp valid).Waits := by
    unfold takeResp
    split <;> exact h.same rfl rfl rfl rfl (Nat.le_refl _) (.inl rfl)
  unfold SpeechConnection.recv
  split
  · split
    · exact h.same rfl rfl rfl rfl (Nat.le_refl _) (.inl rfl)
    · exact htake
  · split
    · exact h.same rfl rfl rfl rfl (Nat.le_refl _) (.inl rfl)
    · exact htake
  · exact htake

/-- The work thread looks at the stage. -/
theorem run {fails : Bool} (h : s.Waits) (hpc : s.work = .locked) : (s.run fails).Waits := by
  have hne : s.work ≠ .notify := by simp [hpc]
  unfold SpeechConnection.run
  split
  · exact h.goto hne (by simp [awake])
  · rename_i hdis
    have hconn : (s.setStage .connecting).Waits := {
      paused := fun hw => by cases hpc.symm.trans hw
      disconn := fun d hw => by cases hpc.symm.trans hw
      idle := fun _ => ⟨by simp [setStage], by simp [setStage]⟩
      busy := fun d hk => by
        rcases h.busy d hk with hready | hnotify
        · cases hdis.symm.trans hready
        · exact absurd hnotify hne
      sender := fun n buf d _ => by simp [setStage] }
    split
    · unfold connect
      split
      · unfold onError
        split
        · exact hconn.goto hne (by simp [awake])
        · simp only
          split
          · rename_i hclosed
            cases hclosed
          · exact notifyAll _
      · exact hconn.same rfl rfl rfl rfl (Nat.le_refl _) (.inl rfl)
    · exact {
        paused := fun hw => by cases hw
        disconn := fun d hw => by
          cases hw
          exact ⟨hdis, Nat.le_max_left _ _⟩
        idle := h.idle
        busy := fun d hk => .inl ((h.busy d hk).resolve_right hne)
        sender := h.sender }
  · rename_i hpaused
    exact {
      paused := fun _ => hpaused
      disconn := fun d hw => by cases hw
      idle := h.idle
      busy := fun d hk => .inl ((h.busy d hk).resolve_right hne)
      sender := h.sender }
  · exact h.goto hne (by simp [awake])

/-- A connection is opened while nobody waits for the end of another one. -/
theorem onConnection {w : Nat} (h : s.Waits) (hsingle : s.hubPart.Single)
    (hpc : s.work = .onConnection w) : ((s.onConnection w).setWork .running).Waits := by
  have hne : s.work ≠ .notify := by simp [hpc]
  unfold SpeechConnection.onConnection
  split
  · exact h.goto hne (by simp [awake])
  · rename_i hstage
    obtain ⟨-, hclosed | ⟨hconn, -⟩⟩ := hsingle.opening w (by simp [hubPart, hpc, WorkPc.forget])
    · exact absurd (.inl hclosed) hstage
    · have hauth : ((s.setStage .authorizing).setWs (some w)).Waits := {
        paused := fun hw => by cases hpc.symm.trans hw
        disconn := fun d hw => by cases hpc.symm.trans hw
        idle := fun _ => ⟨by simp [setStage, setWs], by simp [setStage, setWs]⟩
        busy := fun d hk => by
          rcases h.busy d hk with hready | hnotify
          · have hconn' : s.stage = .connecting := hconn
            cases hconn'.symm.trans hready
          · exact absurd hnotify hne
        sender := fun n buf d _ => by simp [setStage, setWs] }
      unfold auth
      simp only
      split
      · exact hauth.goto hne (by simp [awake])
      · refine (hauth.wsSend .auth).goto ?_ (by simp [awake])
        simpa [SpeechConnection.wsSend, setWs, setStage] using hne

theorem onAuthResult {w : Nat} {msg : Message} (h : s.Waits) (hpc : s.work = .authResult w msg) :
    ((s.onAuthResult w msg).setWork .running).Waits := by
  unfold SpeechConnection.onAuthResult
  split
  · exact goOn (by simp [awake])
  · -- nobody waits for `reconn_timepoint_`
    have htp := h.retime hpc (by simp [awake]) s.options.reconnInterval
    refine htp.closeWs.goto ?_ (by simp [awake])
    intro hnotify
    have hlink := link_closeWs (s.updateReconnTp s.options.reconnInterval)
    have hwork : (s.updateReconnTp s.options.reconnInterval).closeWs.link.work = .notify := by
      simp [link, hnotify, WorkPc.forget]
    have hwork' : s.link.work = .authResult w msg := by simp [link, hpc, WorkPc.forget]
    rcases hlink with ⟨-, heq⟩ | ⟨w', -, heq⟩
    · rw [heq, link_updateReconnTp, hwork'] at hwork
      cases hwork
    · rw [heq, link_updateReconnTp] at hwork
      unfold Link.disconnect at hwork
      split at hwork
      · cases hwork'.symm.trans hwork
      · cases hwork'.symm.trans hwork

theorem workStep {fails : Bool} (h : s.Waits) (hsingle : s.hubPart.Single)
    (hst : s.workStep fails = some t) : t.Waits := by
  have hgoto : ∀ {u : SpeechConnection} {pc pc' : WorkPc}, u.Waits → u.work = pc → pc ≠ .notify →
      awake pc' → (u.setWork pc').Waits := by
    intro u pc pc' hu hpc hne hawake
    exact hu.goto (by rw [hpc]; exact hne) hawake
  unfold SpeechConnection.workStep at hst
  split at hst
  · rename_i hpc
    split at hst
    · cases hst
      exact hgoto h hpc (by simp) (by simp [awake])
    · cases hst
  · rename_i w hpc
    split at hst
    · cases hst
      exact hgoto h hpc (by simp) (by simp [awake])
    · cases hst
  · rename_i hpc
    cases hst
    exact h.run hpc
  · rename_i w hpc
    split at hst
    · cases hst
      exact h.onConnection hsingle hpc
    · cases hst
  · rename_i w msg hpc
    split at hst
    · cases hst
      exact h.onAuthResult hpc
    · cases hst
  · rename_i msg hpc
    cases hst
    have hrecv : s.updateRecvTp.Waits := h.same rfl rfl rfl rfl (Nat.le_refl _) (.inl rfl)
    exact hgoto hrecv hpc (by simp) (by simp [awake])
  · rename_i msg hpc
    cases hst
    have hpush : (s.pushRespData msg.data).Waits := h.same rfl rfl rfl rfl (Nat.le_refl _) (.inl rfl)
    exact hgoto hpush hpc (by simp) (by simp [awake])
  · rename_i hpc
    cases hst
    exact hgoto h hpc (by simp) (by split <;> simp [awake])
  · rename_i hpc
    cases hst
    exact hgoto h hpc (by simp) (by split <;> simp [awake])
  · rename_i hpc
    cases hst
    have hpush : (s.pushStatusResp .error).Waits := h.same rfl rfl rfl rfl (Nat.le_refl _) (.inl rfl)
    exact hgoto hpush hpc (by simp) (by simp [awake])
  · rename_i hpc
    cases hst
    exact hgoto h hpc (by simp) (by simp [awake])
  · rename_i ms hpc
    cases hst
    exact (h.retime hpc (by simp [awake]) ms).goto (by simp [SpeechConnection.updateReconnTp, hpc])
      (by simp [awake])
  · cases hst
    exact setDisconn s
  · rename_i hpc
    have hserved : s.hubPart.work ≠ .errorClose := hsingle.served.1
    exact absurd (by simp [hubPart, hpc, WorkPc.forget]) hserved
  · rename_i hpc
    cases hst
    have hpush : (s.pushStatusResp .error).Waits := h.same rfl rfl rfl rfl (Nat.le_refl _) (.inl rfl)
    exact hgoto hpush hpc (by simp) (by simp [awake])
  · rename_i hpc
    cases hst
    exact (h.retime hpc (by simp [awake]) _).goto (by simp [SpeechConnection.updateReconnTp, hpc])
      (by simp [awake])
  · rename_i hpc
    cases hst
    exact hgoto h hpc (by simp) (by split <;> simp [awake])
  · cases hst
    exact setDisconn s
  · rename_i hpc
    cases hst
    exact goOn (by simp [awake])
  · cases hst
  · cases hst
  · cases hst

theorem hub {e : HubEvent} (h : s.Waits) (hst : s.hub e = some t) : t.Waits := by
  unfold SpeechConnection.hub at hst
  split at hst
  · rename_i hpc
    have hgoto : ∀ {u : SpeechConnection} {pc : WorkPc}, u.Waits → u.work = .running → awake pc →
        (u.setWork pc).Waits := by
      intro u pc hu hrun hawake
      exact hu.goto (by simp [hrun]) hawake
    split at hst
    · split at hst
      · cases hst
      · cases hst
        have hopen : s.openSocket.Waits := h.same rfl rfl rfl rfl (Nat.le_refl _) (.inl rfl)
        exact hgoto hopen hpc (by simp [awake])
    · split at hst
      · cases hst
      · cases hst
        have hfail : ({ s with attempts := s.attempts - 1 } : SpeechConnection).Waits :=
          h.same rfl rfl rfl rfl (Nat.le_refl _) (.inl rfl)
        exact hgoto hfail hpc (by split <;> simp [awake])
    · split at hst
      · cases hst
        exact hgoto h hpc (by unfold onMessage; split <;> simp [awake])
      · cases hst
    · rename_i w
      split at hst
      · cases hst
        have hlost : ((s.removeSocket w).setWs none).Waits :=
          h.same rfl rfl rfl rfl (Nat.le_refl _) (.inl rfl)
        exact hgoto hlost hpc (by simp [awake])
      · cases hst
    · split at hst
      · cases hst
        exact h.same rfl rfl rfl rfl (Nat.le_refl _) (.inl rfl)
      · cases hst
    · split at hst
      · cases hst
        exact hgoto h hpc (by simp [awake])
      · cases hst
  · cases hst

/-- What is sent in between does not change who waits. -/
theorem sends (h : s.Waits) : s.sendTraceInfo.pingIfDue.Waits := by
  have htrace : s.sendTraceInfo.Waits := by
    unfold sendTraceInfo
    split
    · exact h
    · apply wsSend
      exact h.same rfl rfl rfl rfl (Nat.le_refl _) (.inl rfl)
  unfold pingIfDue
  split
  · exact (htrace.wsSend _).same rfl rfl rfl rfl (Nat.le_refl _) (.inl rfl)
  · exact htrace

theorem keepaliveStep (h : s.Waits) (hst : s.keepaliveStep = some t) : t.Waits := by
  unfold SpeechConnection.keepaliveStep at hst
  split at hst
  · split at hst
    · cases hst
      exact h.keep (by simp)
    · cases hst
  · split at hst
    · cases hst
      exact h.keep (by simp)
    · cases hst
  · cases hst
    unfold keepaliveRun
    split
    · exact h.keep (by simp)
    · rename_i hclosed
      split
      · rename_i hready
        have hsends := h.sends
        have hstage : s.sendTraceInfo.pingIfDue.stage = .ready := by
          rw [← hready]
          exact congrArg Link.stage sends_ready.1
        unfold keepaliveReady
        split
        · exact hsends.updateReconnTp.closeWs
        · split
          · exact (notifyAll _).groupClose
          · exact {
              paused := hsends.paused
              disconn := hsends.disconn
              idle := fun hk => by cases hk
              busy := fun _ _ => .inl hstage
              sender := hsends.sender }
      · rename_i hready
        exact {
          paused := h.paused
          disconn := h.disconn
          idle := fun _ => ⟨hready, hclosed⟩
          busy := fun d hk => by cases hk
          sender := h.sender }
  · cases hst

theorem step {a : ConnectionAct} (h : s.Waits) (hsingle : s.hubPart.Single)
    (hst : s.step a = some t) : t.Waits := by
  unfold SpeechConnection.step at hst
  split at hst
  · cases hst
  · cases a with
    | prepare options => exact initializeConn hst
    | release => exact h.release hst
    | reconn => exact h.reconn hst
    | send n buf timeout => exact h.send hst
    | sender n timedOut => exact h.sendStep hst
    | recv valid =>
        cases hst
        exact h.recv valid
    | addTraceInfo info =>
        cases hst
        exact h.same rfl rfl rfl rfl (Nat.le_refl _) (.inl rfl)
    | work fails => exact h.workStep hsingle hst
    | hub e => exact h.hub hst
    | keepalive => exact h.keepaliveStep hst
    | tick ns =>
        cases hst
        exact h.same rfl rfl rfl rfl (Nat.le_add_right _ _) (.inl rfl)
    | setClock tp =>
        cases hst
        exact h.same rfl rfl rfl rfl (Nat.le_refl _) (.inl rfl)

end Waits

/-- A state in which nobody sleeps for too long, and there is at most one socket. -/
structure Sound (s : SpeechConnection) : Prop where
  waits : s.Waits
  single : s.hubPart.Single

end SpeechConnection

end OpenVoice
