import OpenVoice.Connection.Closed
import OpenVoice.Connection.Waits

/-!
# The timers of the keepalive thread

`keepalive_run` computes how long it may wait from `lastest_ping_tp_` and `lastest_recv_tp_`, in
whole milliseconds.  The time points that are set while it waits only move forward, so the wait
ends at most one millisecond after the ping is due, and at most one millisecond after the server
has been silent for `no_resp_timeout`.
-/

namespace OpenVoice

open OpenVoice.Lib

namespace SpeechConnection

/-- One millisecond, in nanoseconds: what `duration_cast<milliseconds>` may drop. -/
def grain : Nat := 1000000

/-- When the next ping is due, with what is dropped. -/
def pingDue (s : SpeechConnection) : Nat :=
  s.lastestPingTp + milliseconds s.options.pingInterval + grain

/-- When the server has been silent for too long, with what is dropped. -/
def silenceDue (s : SpeechConnection) : Nat :=
  s.lastestRecvTp + milliseconds s.options.noRespTimeout + grain

/-- The wait of the keepalive thread ends in time. -/
structure Timed (s : SpeechConnection) : Prop where
  ping : s.lastestPingTp ≤ s.now
  recv : s.lastestRecvTp ≤ s.now
  wait : ∀ d, s.keepalive = .waiting { deadline := some d } → d < s.pingDue ∧ d < s.silenceDue

/-- A connection that is READY has been pinged, and has been heard of, not long ago. -/
def Fresh (s : SpeechConnection) : Prop :=
  s.stage = .ready → s.keepalive ≠ .done → s.now < s.pingDue ∧ s.now < s.silenceDue

/-- What a step of another thread does to what the keepalive thread looks at. -/
structure Keeps (s t : SpeechConnection) : Prop where
  now : t.now = s.now
  options : t.options = s.options
  ping : t.lastestPingTp = s.lastestPingTp ∨ t.lastestPingTp = s.now
  recv : t.lastestRecvTp = s.lastestRecvTp ∨ t.lastestRecvTp = s.now
  keepalive : t.keepalive = s.keepalive ∨ t.keepalive = s.keepalive.notified
  ready : t.stage = .ready → s.stage = .ready ∨ t.lastestPingTp = s.now ∧ t.lastestRecvTp = s.now

@[simp] theorem KeepalivePc.notified_notified (pc : KeepalivePc) :
    pc.notified.notified = pc.notified := by
  cases pc <;> rfl

namespace Keeps

variable {s t u : SpeechConnection}

theorem refl (s : SpeechConnection) : Keeps s s where
  now := rfl
  options := rfl
  ping := .inl rfl
  recv := .inl rfl
  keepalive := .inl rfl
  ready := .inl

theorem trans (h : Keeps s t) (h' : Keeps t u) : Keeps s u where
  now := h'.now.trans h.now
  options := h'.options.trans h.options
  ping := by
    rcases h'.ping with heq | heq
    · rw [heq]
      exact h.ping
    · exact .inr (heq.trans h.now)
  recv := by
    rcases h'.recv with heq | heq
    · rw [heq]
      exact h.recv
    · exact .inr (heq.trans h.now)
  keepalive := by
    rcases h'.keepalive with heq | heq
    · rw [heq]
      exact h.keepalive
    · right
      rcases h.keepalive with heq' | heq'
      · rw [heq, heq']
      · rw [heq, heq', KeepalivePc.notified_notified]
  ready := by
    intro hu
    rcases h'.ready hu with ht | ⟨hping, hrecv⟩
    · rcases h.ready ht with hs | ⟨hping, hrecv⟩
      · exact .inl hs
      · right
        constructor
        · rcases h'.ping with heq | heq
          · exact heq.trans hping
          · exact heq.trans h.now
        · rcases h'.recv with heq | heq
          · exact heq.trans hrecv
          · exact heq.trans h.now
    · exact .inr ⟨hping.trans h.now, hrecv.trans h.now⟩

/-- The keepalive thread is not told, and the stage does not become READY. -/
theorem same (hnow : t.now = s.now) (hopt : t.options = s.options)
    (hping : t.lastestPingTp = s.lastestPingTp ∨ t.lastestPingTp = s.now)
    (hrecv : t.lastestRecvTp = s.lastestRecvTp ∨ t.lastestRecvTp = s.now)
    (hkeep : t.keepalive = s.keepalive) (hstage : t.stage = s.stage ∨ t.stage ≠ .ready) :
    Keeps s t where
  now := hnow
  options := hopt
  ping := hping
  recv := hrecv
  keepalive := .inl hkeep
  ready ht := by
    rcases hstage with heq | hne
    · exact .inl (heq.symm.trans ht)
    · exact absurd ht hne

/-- Neither the time points nor the keepalive thread are touched. -/
theorem frame (hnow : t.now = s.now) (hopt : t.options = s.options)
    (hping : t.lastestPingTp = s.lastestPingTp) (hrecv : t.lastestRecvTp = s.lastestRecvTp)
    (hkeep : t.keepalive = s.keepalive) (hstage : t.stage = s.stage ∨ t.stage ≠ .ready) :
    Keeps s t :=
  same hnow hopt (.inl hping) (.inl hrecv) hkeep hstage

theorem notifyAll (s : SpeechConnection) : Keeps s s.notifyAll where
  now := rfl
  options := rfl
  ping := .inl rfl
  recv := .inl rfl
  keepalive := .inr rfl
  ready := .inl

theorem wsSend (s : SpeechConnection) (f : Frame) : Keeps s (s.wsSend f) := by
  unfold SpeechConnection.wsSend
  split
  · exact refl s
  · exact frame rfl rfl rfl rfl rfl (.inl rfl)

theorem setStage (s : SpeechConnection) (stage : ConnectStage) (h : stage ≠ .ready) :
    Keeps s (s.setStage stage) :=
  frame rfl rfl rfl rfl rfl (.inr h)

theorem onDisconnection (s : SpeechConnection) : Keeps s s.onDisconnection := by
  rcases Decidable.em (s.stage = .paused ∨ s.stage = .closed) with h | h
  · rw [onDisconnection_of_idle h]
    exact frame rfl rfl rfl rfl rfl (.inl rfl)
  · rw [onDisconnection_of_busy h]
    refine trans ?_ (notifyAll _)
    refine trans ?_ (setStage _ .disconn (by decide))
    exact frame rfl rfl rfl rfl rfl (.inl rfl)

theorem close (s : SpeechConnection) (w : Nat) : Keeps s (s.close w) :=
  (frame rfl rfl rfl rfl rfl (.inl rfl) : Keeps s (s.removeSocket w)).trans (onDisconnection _)

theorem closeWs (s : SpeechConnection) : Keeps s s.closeWs := by
  unfold SpeechConnection.closeWs
  split
  · exact refl s
  · exact close s _

theorem groupClose (s : SpeechConnection) : Keeps s s.groupClose := by
  have h : ∀ (ws : List Nat) (t : SpeechConnection),
      Keeps t (ws.foldl (fun s w => s.close w) t) := by
    intro ws
    induction ws with
    | nil => exact refl
    | cons w ws ih => exact fun t => (close t w).trans (ih _)
  exact h s.sockets s

theorem onError (s : SpeechConnection) : Keeps s s.onError := by
  unfold SpeechConnection.onError
  split
  · exact frame rfl rfl rfl rfl rfl (.inl rfl)
  · simp only
    split
    · exact frame rfl rfl rfl rfl rfl (.inl rfl)
    · refine trans ?_ (notifyAll _)
      refine trans ?_ (setStage _ .disconn (by decide))
      exact frame rfl rfl rfl rfl rfl (.inl rfl)

theorem run (s : SpeechConnection) (fails : Bool) : Keeps s (s.run fails) := by
  unfold SpeechConnection.run
  split
  · exact frame rfl rfl rfl rfl rfl (.inl rfl)
  · split
    · refine (setStage s .connecting (by decide)).trans ?_
      unfold connect
      split
      · exact onError _
      · exact frame rfl rfl rfl rfl rfl (.inl rfl)
    · exact frame rfl rfl rfl rfl rfl (.inl rfl)
  · exact frame rfl rfl rfl rfl rfl (.inl rfl)
  · exact frame rfl rfl rfl rfl rfl (.inl rfl)

theorem onConnection (s : SpeechConnection) (w : Nat) : Keeps s (s.onConnection w) := by
  unfold SpeechConnection.onConnection
  split
  · exact refl s
  · unfold auth
    simp only
    split
    · exact frame rfl rfl rfl rfl rfl (.inr (by simp [SpeechConnection.setStage, setWs]))
    · refine trans ?_ (wsSend _ _)
      exact frame rfl rfl rfl rfl rfl (.inr (by simp [SpeechConnection.setStage, setWs]))

/-- When the server accepts the connection, both time points are set. -/
theorem onAuthResult (s : SpeechConnection) (w : Nat) (msg : Message) :
    Keeps s (s.onAuthResult w msg) := by
  unfold SpeechConnection.onAuthResult
  split
  · exact {
      now := rfl
      options := rfl
      ping := .inr rfl
      recv := .inr rfl
      keepalive := .inr rfl
      ready := fun _ => .inr ⟨rfl, rfl⟩ }
  · refine trans ?_ (closeWs _)
    exact frame rfl rfl rfl rfl rfl (.inl rfl)

theorem workStep {fails : Bool} (hst : s.workStep fails = some t) : Keeps s t := by
  have hwork : ∀ (u : SpeechConnection) (pc : WorkPc), Keeps u (u.setWork pc) :=
    fun u pc => frame rfl rfl rfl rfl rfl (.inl rfl)
  unfold SpeechConnection.workStep at hst
  split at hst
  · split at hst
    · cases hst
      exact hwork s _
    · cases hst
  · split at hst
    · cases hst
      exact hwork s _
    · cases hst
  · cases hst
    exact run s fails
  · split at hst
    · cases hst
      exact (onConnection s _).trans (hwork _ _)
    · cases hst
  · split at hst
    · cases hst
      exact (onAuthResult s _ _).trans (hwork _ _)
    · cases hst
  · cases hst
    exact same rfl rfl (.inl rfl) (.inr rfl) rfl (.inl rfl)
  · cases hst
    exact frame rfl rfl rfl rfl rfl (.inl rfl)
  · cases hst
    exact hwork s _
  · cases hst
    exact hwork s _
  · cases hst
    exact frame rfl rfl rfl rfl rfl (.inl rfl)
  · cases hst
    exact hwork s _
  · cases hst
    exact frame rfl rfl rfl rfl rfl (.inl rfl)
  · cases hst
    exact (setStage s .disconn (by decide)).trans (hwork _ _)
  · split at hst
    · split at hst
      · cases hst
        exact frame rfl rfl rfl rfl rfl (.inl rfl)
      · cases hst
        exact (close s _).trans (hwork _ _)
    · cases hst
  · cases hst
    exact frame rfl rfl rfl rfl rfl (.inl rfl)
  · cases hst
    exact frame rfl rfl rfl rfl rfl (.inl rfl)
  · cases hst
    exact hwork s _
  · cases hst
    exact (setStage s .disconn (by decide)).trans (hwork _ _)
  · cases hst
    exact (notifyAll s).trans (hwork _ _)
  · cases hst
  · cases hst
  · cases hst

theorem hub {e : HubEvent} (hst : s.hub e = some t) : Keeps s t := by
  unfold SpeechConnection.hub at hst
  split at hst
  · split at hst
    · split at hst
      · cases hst
      · cases hst
        exact frame rfl rfl rfl rfl rfl (.inl rfl)
    · split at hst
      · cases hst
      · cases hst
        exact frame rfl rfl rfl rfl rfl (.inl rfl)
    · split at hst
      · cases hst
        exact frame rfl rfl rfl rfl rfl (.inl rfl)
      · cases hst
    · split at hst
      · cases hst
        exact frame rfl rfl rfl rfl rfl (.inl rfl)
      · cases hst
    · split at hst
      · cases hst
        exact same rfl rfl (.inl rfl) (.inr rfl) rfl (.inl rfl)
      · cases hst
    · split at hst
      · cases hst
        exact frame rfl rfl rfl rfl rfl (.inl rfl)
      · cases hst
  · cases hst

theorem release (hst : s.release = some t) : Keeps s t := by
  unfold SpeechConnection.release at hst
  split at hst
  · split at hst
    · cases hst
      exact frame rfl rfl rfl rfl rfl (.inl rfl)
    · cases hst
      exact refl s
  · split at hst
    · cases hst
      have hclosed : Keeps s (s.markReleased.setStage .closed) :=
        frame rfl rfl rfl rfl rfl (.inr (by simp [SpeechConnection.setStage]))
      refine (hclosed.trans (notifyAll _)).trans ((groupClose _).trans ?_)
      exact frame rfl rfl rfl rfl rfl (.inl rfl)
    · cases hst
  · split at hst
    · cases hst
      exact frame rfl rfl rfl rfl rfl (.inl rfl)
    · cases hst
  · split at hst
    · cases hst
      exact frame rfl rfl rfl rfl rfl (.inl rfl)
    · cases hst
  · cases hst
    exact frame rfl rfl rfl rfl rfl (.inl rfl)
  · cases hst
    exact frame rfl rfl rfl rfl rfl (.inl rfl)

theorem reconn (hst : s.reconn = some t) : Keeps s t := by
  unfold SpeechConnection.reconn at hst
  split at hst
  · cases hst
    refine trans ?_ (closeWs _)
    exact frame rfl rfl rfl rfl rfl (.inl rfl)
  · cases hst

theorem send {n : Nat} {buf : Option Bytes} {timeout : BitVec 32}
    (hst : s.send n buf timeout = some t) : Keeps s t := by
  unfold SpeechConnection.send at hst
  split at hst
  · cases hst
    exact frame rfl rfl rfl rfl rfl (.inl rfl)
  · cases hst
    exact frame rfl rfl rfl rfl rfl (.inl rfl)
  · cases hst
    exact frame rfl rfl rfl rfl rfl (.inl rfl)
  · cases hst
    exact frame rfl rfl rfl rfl rfl (.inl rfl)
  · cases hst

theorem sendStep {n : Nat} {timedOut : Bool} (hst : s.sendStep n timedOut = some t) :
    Keeps s t := by
  have hsender : ∀ (u : SpeechConnection) (pc : SendPc), Keeps u (u.setSender n pc) :=
    fun u pc => frame rfl rfl rfl rfl rfl (.inl rfl)
  unfold SpeechConnection.sendStep at hst
  split at hst
  · cases hst
  · cases hst
  · split at hst
    · cases hst
      refine trans ?_ (hsender _ _)
      unfold wantConnection
      split
      · refine trans ?_ (notifyAll _)
        exact frame rfl rfl rfl rfl rfl (.inr (by simp [SpeechConnection.setStage, updateReconnTp]))
      · exact refl s
    · cases hst
  · split at hst
    · split at hst
      · split at hst
        · cases hst
        · split at hst
          · cases hst
            exact hsender s _
          · cases hst
      · cases hst
        exact hsender s _
    · cases hst
  · cases hst
    exact frame rfl rfl rfl rfl rfl (.inl rfl)
  · cases hst
    exact hsender s _
  · split at hst
    · cases hst
      exact (wsSend s _).trans (hsender _ _)
    · cases hst
      exact frame rfl rfl rfl rfl rfl (.inl rfl)

theorem takes (s : SpeechConnection) (valid : Bool) : Keeps s (s.recv valid) := by
  have htake : Keeps s (s.takeResp valid) := by
    unfold takeResp
    split <;> exact frame rfl rfl rfl rfl rfl (.inl rfl)
  unfold SpeechConnection.recv
  split
  · split
    · exact frame rfl rfl rfl rfl rfl (.inl rfl)
    · exact htake
  · split
    · exact frame rfl rfl rfl rfl rfl (.inl rfl)
    · exact htake
  · exact htake

/-- `send_trace_info` and the ping. -/
theorem sends (s : SpeechConnection) : Keeps s s.sendTraceInfo.pingIfDue := by
  have htrace : Keeps s s.sendTraceInfo := by
    unfold sendTraceInfo
    split
    · exact refl s
    · refine trans ?_ (wsSend _ _)
      exact same rfl rfl (.inr rfl) (.inl rfl) rfl (.inl rfl)
  refine htrace.trans ?_
  unfold pingIfDue
  split
  · exact (wsSend _ _).trans (same rfl rfl (.inr rfl) (.inl rfl) rfl (.inl rfl))
  · exact refl _

end Keeps

variable {s t : SpeechConnection}

/-- What is due is not due earlier than before. -/
theorem Timed.due_le (h : s.Timed) (hkeeps : Keeps s t) :
    s.pingDue ≤ t.pingDue ∧ s.silenceDue ≤ t.silenceDue := by
  have hping := h.ping
  have hrecv := h.recv
  unfold pingDue silenceDue
  rw [hkeeps.options]
  constructor
  · rcases hkeeps.ping with heq | heq
    · omega
    · omega
  · rcases hkeeps.recv with heq | heq
    · omega
    · omega

theorem Timed.keeps (h : s.Timed) (hkeeps : Keeps s t) : t.Timed where
  ping := by
    rw [hkeeps.now]
    rcases hkeeps.ping with heq | heq
    · rw [heq]
      exact h.ping
    · omega
  recv := by
    rw [hkeeps.now]
    rcases hkeeps.recv with heq | heq
    · rw [heq]
      exact h.recv
    · omega
  wait d hd := by
    obtain ⟨hping, hsilence⟩ := h.due_le hkeeps
    rcases hkeeps.keepalive with heq | heq
    · have hwait := h.wait d (heq.symm.trans hd)
      exact ⟨Nat.lt_of_lt_of_le hwait.1 hping, Nat.lt_of_lt_of_le hwait.2 hsilence⟩
    · exact absurd (heq.symm.trans hd) (KeepalivePc.notified_ne _ _)

theorem Fresh.keeps (h : s.Fresh) (htimed : s.Timed) (hkeeps : Keeps s t) : t.Fresh := by
  intro hready hdone
  have hdone' : s.keepalive ≠ .done := by
    intro heq
    rcases hkeeps.keepalive with heq' | heq'
    · exact hdone (heq'.trans heq)
    · rw [heq] at heq'
      exact hdone heq'
  rw [hkeeps.now]
  rcases hkeeps.ready hready with hready' | ⟨hping, hrecv⟩
  · obtain ⟨hping, hsilence⟩ := htimed.due_le hkeeps
    have hlt := h hready' hdone'
    exact ⟨Nat.lt_of_lt_of_le hlt.1 hping, Nat.lt_of_lt_of_le hlt.2 hsilence⟩
  · unfold pingDue silenceDue grain
    omega

/-! ### The wait -/

/-- A ping that was due has been sent. -/
theorem pingIfDue_pinged (s : SpeechConnection) :
    s.pingIfDue.now - s.pingIfDue.lastestPingTp <
      milliseconds s.pingIfDue.options.pingInterval ∨
      s.pingIfDue.lastestPingTp = s.pingIfDue.now := by
  unfold pingIfDue
  split
  · exact .inr rfl
  · rename_i hdue
    exact .inl (Nat.lt_of_not_le hdue)

/-- **How long the keepalive thread waits.** -/
theorem keepaliveTimeout_lt (hasTraceInfo : Bool) (h : s.Timed)
    (hping : s.now - s.lastestPingTp < milliseconds s.options.pingInterval ∨
      s.lastestPingTp = s.now)
    (hresp : s.noResponse = false) :
    s.now + s.keepaliveTimeout hasTraceInfo * 1000 * 1000 < s.pingDue ∧
      s.now + s.keepaliveTimeout hasTraceInfo * 1000 * 1000 < s.silenceDue := by
  have hp := h.ping
  have hr := h.recv
  have hresp' : s.now - s.lastestRecvTp < milliseconds s.options.noRespTimeout := by
    simpa [noResponse] using hresp
  have hbound : ((s.keepaliveTimeout hasTraceInfo : Nat) : Int) ≤
      max (min ((s.options.pingInterval.toNat : Int) - ((s.now - s.lastestPingTp) / 1000000 : Nat))
        ((s.options.noRespTimeout.toNat : Int) - ((s.now - s.lastestRecvTp) / 1000000 : Nat))) 0 := by
    unfold keepaliveTimeout sendTraceInfoInterval
    simp only
    split <;> omega
  unfold milliseconds at hping hresp'
  unfold pingDue silenceDue milliseconds grain
  omega

/-! ### The steps -/

/-- The keepalive thread takes `stage_mutex_`, or quits, or waits for a connection. -/
theorem Timed.untimed {pc : KeepalivePc} (h : s.Timed)
    (hpc : ∀ d, pc ≠ .waiting { deadline := some d }) : (s.setKeepalive pc).Timed where
  ping := h.ping
  recv := h.recv
  wait d hd := absurd hd (hpc d)

theorem Timed.keepaliveStep (h : s.Timed) (hst : s.keepaliveStep = some t) : t.Timed := by
  unfold SpeechConnection.keepaliveStep at hst
  split at hst
  · split at hst
    · cases hst
      exact h.untimed (by simp)
    · cases hst
  · split at hst
    · cases hst
      exact h.untimed (by simp)
    · cases hst
  · cases hst
    unfold keepaliveRun
    split
    · exact h.untimed (by simp)
    · split
      · have hsends := h.keeps (Keeps.sends s)
        unfold keepaliveReady
        split
        · refine hsends.keeps (Keeps.trans ?_ (Keeps.closeWs _))
          exact .frame rfl rfl rfl rfl rfl (.inl rfl)
        · rename_i hresp
          split
          · refine hsends.keeps (Keeps.trans ?_ (Keeps.groupClose _))
            exact (Keeps.setStage _ .paused (by decide)).trans (Keeps.notifyAll _)
          · have hlt := keepaliveTimeout_lt (!s.traceInfos.isEmpty) hsends
              (pingIfDue_pinged s.sendTraceInfo) (by simpa using hresp)
            exact {
              ping := hsends.ping
              recv := hsends.recv
              wait := fun d hd => by
                cases hd
                exact hlt }
      · exact h.untimed (by simp)
  · cases hst

/-- The keepalive thread stays; the connection is as fresh as before. -/
theorem Fresh.setKeepalive {pc : KeepalivePc} (h : s.Fresh) (hpc : s.keepalive ≠ .done) :
    (s.setKeepalive pc).Fresh :=
  fun hready _ => h hready hpc

theorem Fresh.keepaliveStep (h : s.Fresh) (htimed : s.Timed) (hst : s.keepaliveStep = some t) :
    t.Fresh := by
  unfold SpeechConnection.keepaliveStep at hst
  split at hst
  · rename_i hpc
    split at hst
    · cases hst
      exact h.setKeepalive (by simp [hpc])
    · cases hst
  · rename_i w hpc
    split at hst
    · cases hst
      exact h.setKeepalive (by simp [hpc])
    · cases hst
  · rename_i hpc
    cases hst
    unfold keepaliveRun
    split
    · exact h.setKeepalive (by simp [hpc])
    · split
      · have hsends := h.keeps htimed (Keeps.sends s)
        have htimed' := htimed.keeps (Keeps.sends s)
        unfold keepaliveReady
        split
        · refine hsends.keeps htimed' (Keeps.trans ?_ (Keeps.closeWs _))
          exact .frame rfl rfl rfl rfl rfl (.inl rfl)
        · split
          · refine hsends.keeps htimed' (Keeps.trans ?_ (Keeps.groupClose _))
            exact (Keeps.setStage _ .paused (by decide)).trans (Keeps.notifyAll _)
          · refine hsends.setKeepalive ?_
            intro hdone
            rcases (Keeps.sends s).keepalive with heq | heq
            · rw [heq, hpc] at hdone
              cases hdone
            · rw [heq, hpc] at hdone
              cases hdone
      · exact h.setKeepalive (by simp [hpc])
  · cases hst

/-- Time passes while the keepalive thread waits, and not beyond the end of its wait. -/
def punctual (s : SpeechConnection) : ConnectionAct → Bool
  | .tick ns =>
      match s.keepalive with
      | .waiting w => !w.notified && w.deadline.all fun d => s.now + ns ≤ d
      | .done => true
      | .relock | .locked => false
  | _ => true

/-- The keepalive thread is scheduled at once when its wait is over. -/
def Punctual (s : SpeechConnection) (a : ConnectionAct) : Prop := s.punctual a = true

instance (s : SpeechConnection) (a : ConnectionAct) : Decidable (Punctual s a) :=
  inferInstanceAs (Decidable (_ = true))

/-- The clock moves on. -/
theorem Fresh.tick {ns : Nat} (hwaits : s.Waits) (htimed : s.Timed)
    (hok : Punctual s (.tick ns)) : ({ s with now := s.now + ns } : SpeechConnection).Fresh := by
  intro hready hdone
  unfold Punctual punctual at hok
  simp only at hok
  split at hok
  · rename_i w hpc
    obtain ⟨deadline, notified⟩ := w
    simp only [Bool.and_eq_true, Bool.not_eq_true'] at hok
    obtain ⟨rfl, hdead⟩ := hok
    cases deadline with
    | none => exact absurd hready (hwaits.idle hpc).1
    | some d =>
        have hle : s.now + ns ≤ d := by simpa using hdead
        have hlt := htimed.wait d hpc
        exact ⟨Nat.lt_of_le_of_lt hle hlt.1, Nat.lt_of_le_of_lt hle hlt.2⟩
  · rename_i hpc
    exact absurd hpc hdone
  · cases hok
  · cases hok

/-- Everything the timers rest on. -/
structure Kept (s : SpeechConnection) : Prop where
  sound : s.Sound
  timed : s.Timed
  fresh : s.Fresh

theorem Kept.step {a : ConnectionAct} (h : s.Kept) (hok : Punctual s a) (hst : s.step a = some t) :
    t.Kept := by
  obtain ⟨hsound, htimed, hfresh⟩ := h
  have hkeeps : Keeps s t → t.Timed ∧ t.Fresh := fun hk => ⟨htimed.keeps hk, hfresh.keeps htimed hk⟩
  have hboth : t.Timed ∧ t.Fresh := by
    unfold SpeechConnection.step at hst
    split at hst
    · cases hst
    · cases a with
      | prepare options =>
          simp only at hst
          unfold initializeConn at hst
          split at hst
          · cases hst
            refine ⟨⟨htimed.ping, htimed.recv, fun d hd => by cases hd⟩, fun hready => ?_⟩
            cases hready
          · cases hst
      | release => exact hkeeps (.release hst)
      | reconn => exact hkeeps (.reconn hst)
      | send n buf timeout => exact hkeeps (.send hst)
      | sender n timedOut => exact hkeeps (.sendStep hst)
      | recv valid =>
          cases hst
          exact hkeeps (.takes s valid)
      | addTraceInfo info =>
          cases hst
          exact hkeeps (.frame rfl rfl rfl rfl rfl (.inl rfl))
      | work fails => exact hkeeps (.workStep hst)
      | hub e => exact hkeeps (.hub hst)
      | keepalive => exact ⟨htimed.keepaliveStep hst, hfresh.keepaliveStep htimed hst⟩
      | tick ns =>
          cases hst
          refine ⟨⟨?_, ?_, htimed.wait⟩, Fresh.tick hsound.waits htimed hok⟩
          · exact Nat.le_trans htimed.ping (Nat.le_add_right _ _)
          · exact Nat.le_trans htimed.recv (Nat.le_add_right _ _)
      | setClock tp =>
          cases hst
          exact hkeeps (.frame rfl rfl rfl rfl rfl (.inl rfl))
  exact ⟨⟨hsound.waits.step hsound.single hst, single_step hsound.single hst⟩, hboth.1, hboth.2⟩

end SpeechConnection

end OpenVoice
