import OpenVoice.Connection.Closed

/-!
# `reconn`

`reconn` is to try a connection at once.  It sets `reconn_timepoint_` to the present and closes the
socket, if there is one; but `onDisconnection`, which `close` calls, sets `reconn_timepoint_` again,
and without a socket nobody is notified.

`reconn` holds `stage_mutex_` from its first access to its last.  Between the two the other threads
go on as far as they do without the mutex: a handler of the work thread may set `reconn_timepoint_`
in the meantime.
-/

namespace OpenVoice

open OpenVoice.Lib

namespace SpeechConnection

/-- The step is taken with `stage_mutex_`, or takes it. -/
def locks (s : SpeechConnection) : ConnectionAct → Bool
  | .reconn => true
  | .release => s.releasing = .closing
  | .sender t _ =>
      match s.senders t with
      | .ensure _ _ | .waiting _ _ => true
      | _ => false
  | .work _ =>
      match s.work with
      | .relock | .waiting _ | .locked | .onConnection _ | .authResult _ _ | .errorClose => true
      | _ => false
  | .keepalive => s.keepalive ≠ .done
  | _ => false

/-- No handler puts the reconnection off. -/
def undelayed (s : SpeechConnection) : ConnectionAct → Bool
  | .work _ =>
      match s.work with
      | .reconnTp ms => ms = 0
      | .errorReconnTp => s.options.reconnInterval = 0
      | _ => true
  | _ => true

/-- A step of another thread while `reconn` holds `stage_mutex_`, and not one that puts the
    reconnection off. -/
def Meanwhile (s : SpeechConnection) (a : ConnectionAct) : Prop :=
  s.locks a = false ∧ s.undelayed a = true

instance (s : SpeechConnection) (a : ConnectionAct) : Decidable (Meanwhile s a) :=
  inferInstanceAs (Decidable (_ ∧ _))

/-- The work thread sleeps until a time to come, and nobody has woken it. -/
def sleeps (s : SpeechConnection) : Bool :=
  match s.work with
  | .waiting w =>
      !w.notified &&
        match w.deadline with
        | none => false
        | some tp => s.now < tp
  | _ => false

/-- The next connection is due. -/
def Due (s : SpeechConnection) : Prop := s.reconnTimepoint ≤ s.now

instance (s : SpeechConnection) : Decidable s.Due :=
  inferInstanceAs (Decidable (s.reconnTimepoint ≤ s.now))

/-- Nothing delays the next connection. -/
structure AtOnce (s : SpeechConnection) : Prop where
  due : s.stage = .disconn → s.Due
  awake : s.stage = .disconn → s.sleeps = false

/-- What `reconn` finds when it looks at `ws_`: a socket whose end asks for no delay, or no socket
    and no sleeping work thread. -/
def prompt (s : SpeechConnection) : Bool :=
  if s.ws.isSome then
    s.stage = .paused || s.stage = .closed || s.stage = .ready || s.options.reconnInterval = 0
  else s.stage ≠ .disconn || !s.sleeps

/-- `reconn` in one step, as when nothing happens in between. -/
theorem reconn_eq {s t : SpeechConnection} (hst : s.reconn = some t) :
    t = (s.updateReconnTp 0).closeWs := by
  unfold reconn at hst
  split at hst
  · cases hst
    rfl
  · cases hst

section Meanwhile

variable {s t : SpeechConnection}

theorem release_unlocked (h : s.locks .release = false) (hst : s.release = some t) :
    t.reconnTimepoint = s.reconnTimepoint ∧ t.now = s.now := by
  unfold release at hst
  cases hpc : s.releasing with
  | closing => simp [locks, hpc] at h
  | idle =>
      simp only [hpc] at hst
      split at hst
      · cases hst
        exact ⟨rfl, rfl⟩
      · cases hst
        exact ⟨rfl, rfl⟩
  | joinWork | joinKeepalive =>
      simp only [hpc] at hst
      split at hst
      · cases hst
        exact ⟨rfl, rfl⟩
      · cases hst
  | clear | pushClosed =>
      simp only [hpc] at hst
      cases hst
      exact ⟨rfl, rfl⟩

theorem sendStep_unlocked {n : Nat} {timedOut : Bool} (h : s.locks (.sender n timedOut) = false)
    (hst : s.sendStep n timedOut = some t) :
    t.reconnTimepoint = s.reconnTimepoint ∧ t.now = s.now := by
  unfold sendStep at hst
  cases hpc : s.senders n with
  | idle | returned r =>
      simp only [hpc] at hst
      cases hst
  | ensure buf timeout => simp [locks, hpc] at h
  | waiting buf w => simp [locks, hpc] at h
  | voiceTp buf | wsTest buf =>
      simp only [hpc] at hst
      cases hst
      exact ⟨rfl, rfl⟩
  | wsSend buf =>
      simp only [hpc] at hst
      split at hst
      · cases hst
        unfold wsSend
        split
        · exact ⟨rfl, rfl⟩
        · exact ⟨rfl, rfl⟩
      · cases hst
        exact ⟨rfl, rfl⟩

/-- A handler that runs without `stage_mutex_` sets the time to the present, or leaves it. -/
theorem workStep_unlocked {fails : Bool} (h : Meanwhile s (.work fails))
    (hst : s.workStep fails = some t) :
    t.now = s.now ∧ (t.reconnTimepoint = s.reconnTimepoint ∨ t.reconnTimepoint = s.now) := by
  obtain ⟨hlocks, hdelay⟩ := h
  unfold workStep at hst
  cases hpc : s.work with
  | relock | locked | onConnection ws | authResult ws msg | waiting w | errorClose =>
      simp [locks, hpc] at hlocks
  | recvTp msg | pushData msg | testPaused | testClosed | pushError | testReady | setDisconn
  | errorPush | errorTest | errorDisconn | notify =>
      simp only [hpc] at hst
      cases hst
      exact ⟨rfl, .inl rfl⟩
  | reconnTp ms =>
      have hms : ms = 0 := by simpa [undelayed, hpc] using hdelay
      simp only [hpc] at hst
      cases hst
      rw [hms]
      exact ⟨rfl, .inr rfl⟩
  | errorReconnTp =>
      have hms : s.options.reconnInterval = 0 := by simpa [undelayed, hpc] using hdelay
      simp only [hpc] at hst
      cases hst
      rw [hms]
      exact ⟨rfl, .inr rfl⟩
  | running | deadlock | done =>
      simp only [hpc] at hst
      cases hst

theorem hub_unlocked {e : HubEvent} (hst : s.hub e = some t) :
    t.reconnTimepoint = s.reconnTimepoint ∧ t.now = s.now := by
  unfold hub at hst
  split at hst
  · cases e with
    | connected | failed | message ws msg | disconnected ws | pong ws | finished =>
        simp only at hst
        split at hst
        all_goals
          cases hst <;> exact ⟨rfl, rfl⟩
  · cases hst

theorem recv_unlocked (valid : Bool) :
    (s.recv valid).reconnTimepoint = s.reconnTimepoint ∧ (s.recv valid).now = s.now := by
  have htake : (s.takeResp valid).reconnTimepoint = s.reconnTimepoint ∧
      (s.takeResp valid).now = s.now := by
    unfold takeResp
    split
    · exact ⟨rfl, rfl⟩
    · exact ⟨rfl, rfl⟩
  unfold recv
  split
  · split
    · exact ⟨rfl, rfl⟩
    · exact htake
  · split
    · exact ⟨rfl, rfl⟩
    · exact htake
  · exact htake

/-- The time stays due. -/
theorem Due.step {a : ConnectionAct} (h : s.Due) (hok : Meanwhile s a)
    (hst : s.step a = some t) : t.Due := by
  have hsame : t.reconnTimepoint = s.reconnTimepoint ∧ t.now = s.now → t.Due := by
    rintro ⟨htp, hnow⟩
    rw [Due, htp, hnow]
    exact h
  unfold SpeechConnection.step at hst
  split at hst
  · cases hst
  · cases a with
    | prepare options =>
        simp only [initializeConn] at hst
        split at hst
        · cases hst
          exact h
        · cases hst
    | release => exact hsame (release_unlocked hok.1 hst)
    | reconn => exact absurd hok.1 (by simp [locks])
    | send n buf timeout =>
        simp only [send] at hst
        split at hst
        all_goals
          cases hst <;> exact h
    | sender n timedOut => exact hsame (sendStep_unlocked hok.1 hst)
    | recv valid =>
        cases hst
        exact hsame (recv_unlocked valid)
    | addTraceInfo info =>
        cases hst
        exact h
    | work fails =>
        obtain ⟨hnow, htp | htp⟩ := workStep_unlocked hok hst
        · exact hsame ⟨htp, hnow⟩
        · exact Nat.le_of_eq (htp.trans hnow.symm)
    | hub e => exact hsame (hub_unlocked hst)
    | keepalive =>
        have hdone : s.keepalive = .done := by simpa [locks] using hok.1
        simp only [keepaliveStep, hdone] at hst
        cases hst
    | tick ns =>
        cases hst
        exact Nat.le_trans h (Nat.le_add_right _ _)
    | setClock tp =>
        cases hst
        exact h

end Meanwhile

/-! ### What `reconn` leaves -/

section AtOnce

variable {s u : SpeechConnection}

theorem atOnce_of_stage (h : s.stage ≠ .disconn) : s.AtOnce :=
  ⟨fun hstage => absurd hstage h, fun hstage => absurd hstage h⟩

/-- Without a socket nothing is closed. -/
theorem closeWs_atOnce_none (hdue : u.Due) (hws : u.ws = none) :
    u.closeWs.AtOnce ↔ u.prompt = true := by
  have hsame : u.closeWs = u := by rw [closeWs, hws]
  have hprompt : u.prompt = true ↔ (u.stage = .disconn → u.sleeps = false) := by
    simp [prompt, hws, Decidable.imp_iff_not_or]
  rw [hsame, hprompt]
  exact ⟨fun h => h.awake, fun h => ⟨fun _ => hdue, h⟩⟩

/-- The end of the socket wakes the work thread, and it may ask for a delay. -/
theorem closeWs_atOnce_some {w : Nat} (hws : u.ws = some w) :
    u.closeWs.AtOnce ↔ u.prompt = true := by
  have hclose : u.closeWs = (u.removeSocket w).onDisconnection := by
    rw [closeWs, hws]
    rfl
  by_cases hidle : u.stage = .paused ∨ u.stage = .closed
  · -- nothing is to be connected
    have hprompt : u.prompt = true := by
      rcases hidle with hidle | hidle <;> simp [prompt, hws, hidle]
    have hstage : u.closeWs.stage ≠ .disconn := by
      rw [hclose, onDisconnection_of_idle (by exact hidle)]
      rcases hidle with hidle | hidle <;> simp [setWs, removeSocket, hidle]
    exact ⟨fun _ => hprompt, fun _ => atOnce_of_stage hstage⟩
  · have hbusy : (u.removeSocket w).onDisconnection =
        (((((u.removeSocket w).setWs none).pushStatusResp .error).updateReconnTp
          u.reconnDelay).setStage .disconn).notifyAll :=
      onDisconnection_of_busy (by exact hidle)
    have htp : u.closeWs.reconnTimepoint = u.now + milliseconds u.reconnDelay := by
      rw [hclose, hbusy]
      rfl
    have hnow : u.closeWs.now = u.now := by
      rw [hclose, hbusy]
      rfl
    have hstage : u.closeWs.stage = .disconn := by
      rw [hclose, hbusy]
      rfl
    have hawake : u.closeWs.sleeps = false := by
      rw [hclose, hbusy]
      simp only [sleeps, notifyAll]
      cases hpc : u.work <;> simp [hpc, setStage, updateReconnTp, pushStatusResp, setWs,
        removeSocket, WorkPc.notified, Wait.notify]
    have hdue : u.closeWs.Due ↔ u.reconnDelay = 0 := by
      rw [Due, htp, hnow, milliseconds]
      bv_omega
    have hprompt : u.prompt = true ↔ u.reconnDelay = 0 := by
      rw [not_or] at hidle
      by_cases hready : u.stage = .ready
      · simp [prompt, reconnDelay, hws, hready]
      · simp [prompt, reconnDelay, hws, hready, hidle]
    rw [hprompt, ← hdue]
    exact ⟨fun h => h.due hstage, fun h => ⟨fun _ => h, fun _ => hawake⟩⟩

end AtOnce

/-- **`reconn` takes effect at once** exactly if it finds a socket whose end asks for no delay, or
    no socket and no sleeping work thread, provided that no handler puts the reconnection off in the
    meantime. -/
theorem reconn_atOnce_iff {s u : SpeechConnection}
    (hrun : Run Steps Meanwhile (s.updateReconnTp 0) u) :
    u.closeWs.AtOnce ↔ u.prompt = true := by
  have hstep : ∀ t a v, t.Due → Meanwhile t a → Steps t a v → v.Due :=
    fun t a v h hok hst => h.step hok hst
  have hdue : u.Due := hrun.invariant hstep (Nat.le_refl _)
  cases hws : u.ws with
  | none => exact closeWs_atOnce_none hdue hws
  | some w => exact closeWs_atOnce_some hws

/-- A connection whose authorization has been accepted; between the two accesses of `reconn` a
    message comes in, the work thread queues it, a client takes it, and time passes. -/
theorem reconn_atOnce_between :
    ∃ s u, exec step {} (answered ++ [.work false]) = some s ∧ s.stage = .ready ∧
      exec step (s.updateReconnTp 0) [.hub (.message 0 acceptance), .work false, .tick 5,
        .work false, .recv true] = some u ∧
      u.now = s.now + 5 ∧ u.closeWs.stage = .disconn ∧ u.closeWs.AtOnce := by
  refine ⟨_, _, rfl, rfl, rfl, rfl, rfl, ?_⟩
  have hok : allOk step Meanwhile (((exec step {} (answered ++ [.work false])).getD
      {}).updateReconnTp 0) [.hub (.message 0 acceptance), .work false, .tick 5, .work false,
      .recv true] = true := by
    decide +kernel
  exact (reconn_atOnce_iff (Run.of_exec hok rfl)).mpr (by decide +kernel)

/-- The server has not answered the authorization yet; or the connection could not be made, and the
    work thread sleeps for the twenty seconds of `reconn_interval`. -/
theorem reconn_delayed :
    (∃ s t, Run Steps Always {} s ∧ s.stage = .authorizing ∧ s.reconn = some t ∧
        t.stage = .disconn ∧ ¬ t.AtOnce) ∧
      ∃ s t, Run Steps Always {} s ∧ s.stage = .disconn ∧ s.reconn = some t ∧
        t.stage = .disconn ∧ ¬ t.AtOnce := by
  constructor
  · have hok : allOk step Always {} (answered.take 8) = true := by
      decide +kernel
    refine ⟨_, _, Run.of_exec hok rfl, rfl, rfl, rfl, ?_⟩
    intro h
    exact absurd (h.due rfl) (by decide +kernel)
  · have hok : allOk step Always {} (answered.take 4 ++ [.work true, .work false]) = true := by
      decide +kernel
    refine ⟨_, _, Run.of_exec hok rfl, rfl, rfl, rfl, ?_⟩
    intro h
    exact absurd (h.awake rfl) (by decide +kernel)

end SpeechConnection

end OpenVoice
