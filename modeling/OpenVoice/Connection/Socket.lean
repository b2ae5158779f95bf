import OpenVoice.Connection.Refinement

/-!
# One socket at a time

`connect` is called only by the work thread, outside `hub_.run()`, and `hub_.run()` returns only
when there is neither a socket nor an attempt to connect.  So there is at most one of them, and
`ws_` is that socket or null.  The comments at `onError` follow: it is called when `ws_` is null
and the stage is CONNECTING or CLOSED.

`Hub` is the part of a `SpeechConnection` that this is about.
-/

namespace OpenVoice

open OpenVoice.Lib

namespace SpeechConnection

/-- The thread is in `hub_.run()`. -/
def WorkPc.inHub : WorkPc → Bool
  | .relock | .locked | .waiting _ | .deadlock | .done => false
  | _ => true

/-- The thread is in `onError`, which has found no socket. -/
def WorkPc.failing : WorkPc → Bool
  | .errorPush | .errorReconnTp | .errorTest | .errorDisconn => true
  | _ => false

structure Hub where
  attempts : Nat
  sockets : List Nat
  ws : Option Nat
  stage : ConnectStage
  work : WorkPc
  hasThreads : Bool
deriving DecidableEq, Repr

def hubPart (s : SpeechConnection) : Hub where
  attempts := s.attempts
  sockets := s.sockets
  ws := s.ws
  stage := s.stage
  work := s.work.forget
  hasThreads := s.hasThreads

namespace Hub

/-- `ws->close()` of the socket in `ws_`, with `stage_mutex_` held. -/
def close (w : Nat) (h : Hub) : Hub :=
  { h with
    sockets := h.sockets.erase w
    ws := none
    stage := if h.stage = .paused ∨ h.stage = .closed then h.stage else .disconn }

/-- `onError` has been told of a failure, or is about to be. -/
def Dials (h : Hub) : Prop := h.stage = .connecting ∨ h.stage = .closed

/-- There is at most one socket or attempt to connect, and none outside `hub_.run()`. -/
structure Single (h : Hub) : Prop where
  count : h.attempts + h.sockets.length ≤ 1
  socket : ∀ w, h.ws = some w → h.sockets = [w]
  outside : h.work.inHub = false →
    h.sockets = [] ∧ (h.attempts = 0 ∨ h.work = .locked ∧ h.stage = .connecting)
  dialing : h.attempts ≠ 0 → (h.work = .locked ∨ h.work = .running) ∧ h.Dials
  opening : ∀ w, h.work = .onConnection w →
    h.ws = none ∧ (h.stage = .closed ∨ h.stage = .connecting ∧ h.sockets = [w])
  failing : h.work.failing = true → h.ws = none ∧ h.Dials
  served : h.work ≠ .errorClose ∧ h.work ≠ .deadlock
  threads : h.hasThreads = false → h.work = .done

/-- No connection is being established. -/
structure Calm (h : Hub) : Prop where
  attempts : h.attempts = 0
  opening : ∀ w, h.work ≠ .onConnection w
  failing : h.work.failing = false

namespace Single

variable {h : Hub}

/-- Nothing is open: there is no socket in `ws_`. -/
theorem ws_none (hs : h.Single) (hsock : h.sockets = []) : h.ws = none := by
  cases hws : h.ws with
  | none => rfl
  | some w =>
      have heq := hs.socket w hws
      rw [hsock] at heq
      cases heq

/-- While an attempt is under way nothing is open. -/
theorem attempt (hs : h.Single) (hatt : h.attempts ≠ 0) :
    h.attempts = 1 ∧ h.sockets = [] ∧ h.ws = none := by
  have hcount := hs.count
  have hsock : h.sockets = [] := List.length_eq_zero_iff.mp (by omega)
  exact ⟨by omega, hsock, hs.ws_none hsock⟩

/-- While a socket is open nobody is connecting. -/
theorem attempts_zero (hs : h.Single) (hsock : h.sockets ≠ []) : h.attempts = 0 := by
  have hcount := hs.count
  have hlen := List.length_pos_iff.mpr hsock
  omega

/-- The stage tells whether a connection is being established. -/
theorem calm (hs : h.Single) (hstage : ¬ h.Dials) : h.Calm where
  attempts := by
    rcases Nat.eq_zero_or_pos h.attempts with hatt | hatt
    · exact hatt
    · exact absurd (hs.dialing (Nat.ne_of_gt hatt)).2 hstage
  opening := by
    intro w hpc
    obtain ⟨-, hclosed | ⟨hconn, -⟩⟩ := hs.opening w hpc
    · exact hstage (.inr hclosed)
    · exact hstage (.inl hconn)
  failing := by
    rw [← Bool.not_eq_true]
    intro hfail
    exact hstage (hs.failing hfail).2

/-- The stage is set while no connection is being established. -/
theorem setStage (stage : ConnectStage) (hs : h.Single) (hcalm : h.Calm) :
    ({ h with stage := stage } : Hub).Single where
  count := hs.count
  socket := hs.socket
  outside hout := ⟨(hs.outside hout).1, .inl hcalm.attempts⟩
  dialing hatt := absurd hcalm.attempts hatt
  opening w hpc := absurd hpc (hcalm.opening w)
  failing hfail := by
    rw [hcalm.failing] at hfail
    cases hfail
  served := hs.served
  threads := hs.threads

/-- `release` closes the connection. -/
theorem shut (hs : h.Single) (hpc : h.work ≠ .locked) :
    ({ h with stage := .closed } : Hub).Single where
  count := hs.count
  socket := hs.socket
  outside hout := by
    obtain ⟨hsock, hatt | ⟨hlocked, -⟩⟩ := hs.outside hout
    · exact ⟨hsock, .inl hatt⟩
    · exact absurd hlocked hpc
  dialing hatt := ⟨(hs.dialing hatt).1, .inr rfl⟩
  opening w hpc := ⟨(hs.opening w hpc).1, .inl rfl⟩
  failing hfail := ⟨(hs.failing hfail).1, .inr rfl⟩
  served := hs.served
  threads := hs.threads

/-- The socket is closed: by somebody who has found it in `ws_`, or who has set the stage
    before. -/
theorem close {w : Nat} (hs : h.Single) (hsock : h.sockets = [w])
    (hws : h.ws = some w ∨ h.stage = .paused ∨ h.stage = .closed) : (h.close w).Single where
  count := by
    have hatt := hs.attempts_zero (by simp [hsock])
    simp [Hub.close, hatt, hsock]
  socket := by
    intro w' hw'
    cases hw'
  outside hout := ⟨by simp [Hub.close, hsock], .inl (hs.attempts_zero (by simp [hsock]))⟩
  dialing hatt := absurd (hs.attempts_zero (by simp [hsock])) hatt
  opening w' hpc := by
    refine ⟨rfl, .inl ?_⟩
    obtain ⟨hnone, hstage⟩ := hs.opening w' hpc
    rcases hws with hws | hpaused | hclosed
    · rw [hnone] at hws
      cases hws
    · rw [hpaused] at hstage
      simp at hstage
    · simp [Hub.close, hclosed]
  failing hfail := by
    refine ⟨rfl, .inr ?_⟩
    obtain ⟨hnone, hstage⟩ := hs.failing hfail
    rcases hws with hws | hpaused | hclosed
    · rw [hnone] at hws
      cases hws
    · rw [Dials, hpaused] at hstage
      simp at hstage
    · simp [Hub.close, hclosed]
  served := hs.served
  threads := hs.threads

/-- The work thread goes on; where it starts a handler, it does so rightly. -/
theorem goto (pc : WorkPc) (hs : h.Single) (hdone : h.work ≠ .done)
    (hatt : h.attempts ≠ 0 → pc = .running)
    (hempty : pc.inHub = false → h.sockets = [])
    (hopen : ∀ w, pc = .onConnection w →
      h.ws = none ∧ (h.stage = .closed ∨ h.stage = .connecting ∧ h.sockets = [w]))
    (hfail : pc.failing = true → h.ws = none ∧ h.Dials)
    (hserved : pc ≠ .errorClose ∧ pc ≠ .deadlock) :
    ({ h with work := pc } : Hub).Single where
  count := hs.count
  socket := hs.socket
  outside hout := by
    refine ⟨hempty hout, .inl (Decidable.byContradiction fun hne => ?_)⟩
    rw [hatt hne] at hout
    cases hout
  dialing hne := ⟨.inr (hatt hne), (hs.dialing hne).2⟩
  opening := hopen
  failing := hfail
  served := hserved
  threads hno := absurd (hs.threads hno) hdone

/-- The work thread goes to wait, or ends. -/
theorem leave {pc : WorkPc} (hs : h.Single) (hdone : h.work ≠ .done) (hatt : h.attempts = 0)
    (hsock : h.sockets = []) (hpc : pc = .done ∨ pc = .waiting { deadline := none }) :
    ({ h with work := pc } : Hub).Single := by
  rcases hpc with rfl | rfl
  · exact hs.goto _ hdone (fun hne => absurd hatt hne) (fun _ => hsock) (fun w hw => by cases hw)
      (fun hfail => by cases hfail) ⟨by decide, by decide⟩
  · exact hs.goto _ hdone (fun hne => absurd hatt hne) (fun _ => hsock) (fun w hw => by cases hw)
      (fun hfail => by cases hfail) ⟨by decide, by decide⟩

/-- A handler ends, or goes on to its next access. -/
theorem pass {pc : WorkPc} (hs : h.Single) (hhub : h.work.inHub = true) (hpc' : pc.inHub = true)
    (hatt : h.work = .running → pc = .running)
    (hopen : ∀ w, pc ≠ .onConnection w) (hfail : pc.failing = true → h.work.failing = true)
    (hserved : pc ≠ .errorClose ∧ pc ≠ .deadlock) :
    ({ h with work := pc } : Hub).Single := by
  refine hs.goto _ ?_ ?_ ?_ (fun w hw => absurd hw (hopen w))
    (fun hf => hs.failing (hfail hf)) hserved
  · intro hdone
    rw [hdone] at hhub
    cases hhub
  · intro hne
    rcases (hs.dialing hne).1 with hlocked | hrun
    · rw [hlocked] at hhub
      cases hhub
    · exact hatt hrun
  · intro hout
    rw [hpc'] at hout
    cases hout

end Single

end Hub

/-! ### The operations -/

variable (s : SpeechConnection)

@[simp] theorem hubPart_setStage (stage : ConnectStage) :
    (s.setStage stage).hubPart = { s.hubPart with stage := stage } := rfl

@[simp] theorem hubPart_setWork (pc : WorkPc) :
    (s.setWork pc).hubPart = { s.hubPart with work := pc.forget } := rfl

@[simp] theorem hubPart_setWs (ws : Option Nat) :
    (s.setWs ws).hubPart = { s.hubPart with ws := ws } := rfl

@[simp] theorem hubPart_setKeepalive (pc : KeepalivePc) :
    (s.setKeepalive pc).hubPart = s.hubPart := rfl

@[simp] theorem hubPart_setReleasing (pc : ReleasePc) :
    (s.setReleasing pc).hubPart = s.hubPart := rfl

@[simp] theorem hubPart_setSender (t : Nat) (pc : SendPc) :
    (s.setSender t pc).hubPart = s.hubPart := rfl

@[simp] theorem hubPart_updateReconnTp (ms : BitVec 32) :
    (s.updateReconnTp ms).hubPart = s.hubPart := rfl

@[simp] theorem hubPart_pushStatusResp (tp : BinRespType) :
    (s.pushStatusResp tp).hubPart = s.hubPart := rfl

@[simp] theorem hubPart_notifyAll : s.notifyAll.hubPart = s.hubPart := by
  simp [notifyAll, hubPart]

@[simp] theorem hubPart_wsSend (frame : Frame) : (s.wsSend frame).hubPart = s.hubPart := by
  unfold wsSend
  split <;> rfl

@[simp] theorem hubPart_auth : s.auth.hubPart = s.hubPart := by
  unfold auth
  simp only
  split
  · rfl
  · exact hubPart_wsSend s _

@[simp] theorem hubPart_close (w : Nat) : (s.close w).hubPart = s.hubPart.close w := by
  unfold close onDisconnection
  simp only [Hub.close]
  split
  · rename_i hstage
    rw [if_pos (by exact hstage)]
    rfl
  · rename_i hstage
    rw [if_neg (by exact hstage), hubPart_notifyAll]
    rfl

@[simp] theorem hubPart_sends : s.sendTraceInfo.pingIfDue.hubPart = s.hubPart := by
  have hping : ∀ u : SpeechConnection, u.pingIfDue.hubPart = u.hubPart := by
    intro u
    unfold pingIfDue
    split
    · exact hubPart_wsSend u _
    · rfl
  rw [hping]
  unfold sendTraceInfo
  split
  · rfl
  · exact hubPart_wsSend _ _

/-! ### The steps -/

variable {s} {t : SpeechConnection}

theorem Hub.Single.closeWs (h : s.hubPart.Single) : s.closeWs.hubPart.Single := by
  unfold SpeechConnection.closeWs
  split
  · exact h
  · rename_i w hws
    rw [hubPart_close]
    exact h.close (h.socket w hws) (.inl hws)

/-- The group has at most one socket. -/
theorem Hub.Single.groupClose (h : s.hubPart.Single) (hstage : s.stage = .paused ∨ s.stage = .closed) :
    s.groupClose.hubPart.Single := by
  unfold SpeechConnection.groupClose
  have hcount : s.attempts + s.sockets.length ≤ 1 := h.count
  match hsock : s.sockets with
  | [] => exact h
  | [w] =>
      have hclose : (s.close w).hubPart.Single := by
        rw [hubPart_close]
        exact h.close hsock (.inr hstage)
      exact hclose
  | _ :: _ :: _ =>
      rw [hsock] at hcount
      simp only [List.length_cons] at hcount
      omega

/-- A thread that takes `stage_mutex_` finds the work thread elsewhere. -/
theorem work_of_stageFree (hfree : s.stageFree = true) : s.hubPart.work ≠ .locked := by
  have hpc : s.work ≠ .locked := by
    simp only [stageFree, decide_eq_true_eq] at hfree
    exact hfree.1
  intro heq
  exact hpc (WorkPc.of_forget heq (by simp))

theorem single_initializeConn {options : PrepareOptions} (h : s.hubPart.Single)
    (hst : s.initializeConn options = some t) : t.hubPart.Single := by
  unfold initializeConn at hst
  split at hst
  · rename_i hno
    cases hst
    have hdone : s.hubPart.work = .done := h.threads hno.2
    obtain ⟨hsock, hatt | ⟨hlocked, -⟩⟩ := h.outside (by rw [hdone]; rfl)
    · exact {
        count := h.count
        socket := h.socket
        outside := fun _ => ⟨hsock, .inl hatt⟩
        dialing := fun hne => absurd hatt hne
        opening := fun w hpc => by cases hpc
        failing := fun hfail => by cases hfail
        served := ⟨by simp [hubPart, WorkPc.forget], by simp [hubPart, WorkPc.forget]⟩
        threads := fun hno => by cases hno }
    · rw [hdone] at hlocked
      cases hlocked
  · cases hst

theorem single_release (h : s.hubPart.Single) (hst : s.release = some t) : t.hubPart.Single := by
  unfold release at hst
  split at hst
  · split at hst
    · cases hst
      exact h
    · cases hst
      exact h
  · split at hst
    · rename_i hfree
      cases hst
      rw [hubPart_setReleasing]
      apply Hub.Single.groupClose
      · rw [hubPart_notifyAll]
        exact h.shut (work_of_stageFree hfree)
      · exact .inr rfl
    · cases hst
  · split at hst
    · rename_i hdone
      cases hst
      exact { h with threads := fun _ => by simp [hubPart, hdone, WorkPc.forget] }
    · cases hst
  · split at hst
    · cases hst
      exact h
    · cases hst
  · cases hst
    exact h
  · cases hst
    exact h

theorem single_reconn (h : s.hubPart.Single) (hst : s.reconn = some t) : t.hubPart.Single := by
  unfold reconn at hst
  split at hst
  · cases hst
    exact Hub.Single.closeWs (s := s.updateReconnTp 0) h
  · cases hst

theorem single_send {n : Nat} {buf : Option Bytes} {timeout : BitVec 32} (h : s.hubPart.Single)
    (hst : s.send n buf timeout = some t) : t.hubPart.Single := by
  unfold send at hst
  split at hst
  · cases hst
    exact h
  · cases hst
    exact h
  · cases hst
    exact h
  · cases hst
    exact h
  · cases hst

theorem single_sendStep {n : Nat} {timedOut : Bool} (h : s.hubPart.Single)
    (hst : s.sendStep n timedOut = some t) : t.hubPart.Single := by
  unfold sendStep at hst
  split at hst
  · cases hst
  · cases hst
  · split at hst
    · cases hst
      rw [hubPart_setSender]
      unfold wantConnection
      split
      · rename_i hpaused
        rw [hubPart_notifyAll]
        have hcalm : s.hubPart.Calm := by
          apply h.calm
          rintro (hconn | hclosed)
          · cases hpaused.symm.trans hconn
          · cases hpaused.symm.trans hclosed
        exact h.setStage _ hcalm
      · exact h
    · cases hst
  · split at hst
    · split at hst
      · split at hst
        · cases hst
        · split at hst
          · cases hst
            exact h
          · cases hst
      · cases hst
        exact h
    · cases hst
  · cases hst
    exact h
  · cases hst
    exact h
  · split at hst
    · cases hst
      rw [hubPart_setSender, hubPart_wsSend]
      exact h
    · cases hst
      exact h

/-- The work thread, holding `stage_mutex_`, finds nothing open unless it has just connected. -/
theorem Hub.Single.locked (h : s.hubPart.Single) (hpc : s.work = .locked)
    (hstage : s.stage ≠ .connecting) : s.attempts = 0 ∧ s.sockets = [] ∧ s.ws = none := by
  obtain ⟨hsock, hatt | ⟨-, hconn⟩⟩ := h.outside (by simp [hubPart, hpc, WorkPc.forget, WorkPc.inHub])
  · exact ⟨hatt, hsock, h.ws_none hsock⟩
  · exact absurd hconn hstage

theorem single_run {fails : Bool} (h : s.hubPart.Single) (hpc : s.work = .locked) :
    (s.run fails).hubPart.Single := by
  have hwork : s.hubPart.work = .locked := by simp [hubPart, hpc, WorkPc.forget]
  have hdone : s.hubPart.work ≠ .done := by
    rw [hwork]
    decide
  unfold run
  split
  · rename_i hclosed
    obtain ⟨hatt, hsock, -⟩ := h.locked hpc (by simp [hclosed])
    exact h.leave hdone hatt hsock (.inl rfl)
  · rename_i hdis
    obtain ⟨hatt, hsock, hws⟩ := h.locked hpc (by simp [hdis])
    have hcalm : s.hubPart.Calm := ⟨hatt, by simp [hwork], by simp [hwork, WorkPc.failing]⟩
    split
    · unfold connect
      split
      · -- `hub_.connect` has failed at once
        unfold onError
        have hnone : ((s.setStage .connecting).ws.isSome = true) = False := by
          simp [SpeechConnection.setStage, hws]
        simp only [hnone, if_false]
        split
        · exact h.setStage _ hcalm
        · rw [hubPart_notifyAll]
          exact h.setStage _ hcalm
      · exact {
          count := by simp [hubPart, SpeechConnection.setStage, hatt, hsock]
          socket := h.socket
          outside := fun _ => ⟨hsock, .inr ⟨hwork, rfl⟩⟩
          dialing := fun _ => ⟨.inl hwork, .inl rfl⟩
          opening := fun w hw => by cases hwork.symm.trans hw
          failing := fun hfail => absurd hfail (by simp [hubPart, SpeechConnection.setStage, hpc,
            WorkPc.forget, WorkPc.failing])
          served := h.served
          threads := h.threads }
    · exact h.leave hdone hatt hsock (.inr rfl)
  · rename_i hpaused
    obtain ⟨hatt, hsock, -⟩ := h.locked hpc (by simp [hpaused])
    exact h.leave hdone hatt hsock (.inr rfl)
  · rw [hubPart_setWork]
    exact h.goto _ hdone (fun _ => rfl) (fun hout => by cases hout) (fun w hw => by cases hw)
      (fun hfail => by cases hfail) ⟨by decide, by decide⟩

/-- The next access of a handler; nothing but the place of the thread matters. -/
theorem Hub.Single.next {u : SpeechConnection} {pc pc' : WorkPc} (h : s.hubPart.Single)
    (hu : u.hubPart = s.hubPart) (hpc : s.work = pc)
    (hgo : pc.inHub = true ∧ pc ≠ .running ∧ pc'.inHub = true ∧ (∀ w, pc' ≠ .onConnection w) ∧
      pc' ≠ .errorClose ∧ (pc'.failing = true → pc.failing = true)) :
    (u.setWork pc').hubPart.Single := by
  obtain ⟨hhub, hrun, hhub', hopen, hserved, hfail⟩ := hgo
  have hforget : ∀ q : WorkPc, q.inHub = true → q.forget = q := by
    intro q hq
    cases q with
    | waiting w => cases hq
    | _ => rfl
  have hwork : s.hubPart.work = pc := by
    rw [← hforget pc hhub, ← hpc]
    rfl
  have hdead : pc' ≠ .deadlock := by
    rintro rfl
    cases hhub'
  rw [hubPart_setWork, hu, hforget pc' hhub']
  exact h.pass (by rw [hwork]; exact hhub) hhub' (fun hr => absurd (hwork.symm.trans hr) hrun) hopen
    (fun hf => by rw [hwork]; exact hfail hf) ⟨hserved, hdead⟩

/-- A handler sets the stage to DISCONN. -/
theorem Hub.Single.disconn (h : s.hubPart.Single)
    (hpc : s.work = .setDisconn ∨ s.work = .errorDisconn) :
    ((s.setStage .disconn).setWork .notify).hubPart.Single := by
  have hwork : s.hubPart.work = s.work.forget := rfl
  have hne : s.hubPart.work ≠ .locked ∧ s.hubPart.work ≠ .running ∧ s.hubPart.work ≠ .done := by
    rcases hpc with hpc | hpc <;> simp [hwork, hpc, WorkPc.forget]
  have hatt : s.attempts = 0 := by
    rcases Nat.eq_zero_or_pos s.attempts with hatt | hatt
    · exact hatt
    · rcases (h.dialing (Nat.ne_of_gt hatt)).1 with hlocked | hrun
      · exact absurd hlocked hne.1
      · exact absurd hrun hne.2.1
  have hpass := h.goto .notify hne.2.2 (fun hne => absurd hatt hne)
    (fun hout => by cases hout) (fun w hw => by cases hw) (fun hfail => by cases hfail)
    ⟨by decide, by decide⟩
  exact hpass.setStage _ ⟨hatt, by simp, rfl⟩

theorem single_workStep {fails : Bool} (h : s.hubPart.Single) (hst : s.workStep fails = some t) :
    t.hubPart.Single := by
  have hwork : s.hubPart.work = s.work.forget := rfl
  -- the thread takes `stage_mutex_` again
  have hlock : s.work.inHub = false → s.work ≠ .locked → s.work ≠ .done →
      (s.setWork .locked).hubPart.Single := by
    intro hout hlocked hdone
    have hne : s.hubPart.work ≠ .locked := fun heq => hlocked (WorkPc.of_forget heq (by simp))
    have hout' : s.hubPart.work.inHub = false := by
      rw [hwork]
      cases hpc : s.work with
      | waiting w => rfl
      | _ => simpa [hpc, WorkPc.forget] using hout
    obtain ⟨hsock, hatt | ⟨heq, -⟩⟩ := h.outside hout'
    · rw [hubPart_setWork]
      exact h.goto _ (fun heq => hdone (WorkPc.of_forget heq (by simp)))
        (fun hne => absurd hatt hne) (fun _ => hsock) (fun w hw => by cases hw)
        (fun hfail => by cases hfail) ⟨by decide, by decide⟩
    · exact absurd heq hne
  unfold workStep at hst
  split at hst
  · rename_i hpc
    split at hst
    · cases hst
      exact hlock (by rw [hpc]; rfl) (by simp [hpc]) (by simp [hpc])
    · cases hst
  · rename_i w hpc
    split at hst
    · cases hst
      exact hlock (by rw [hpc]; rfl) (by simp [hpc]) (by simp [hpc])
    · cases hst
  · rename_i hpc
    cases hst
    exact single_run h hpc
  · rename_i w hpc
    have hwork' : s.hubPart.work = .onConnection w := by simp [hwork, hpc, WorkPc.forget]
    split at hst
    · cases hst
      unfold onConnection
      split
      · exact h.next rfl hpc (by simp [WorkPc.inHub, WorkPc.failing])
      · rename_i hstage
        obtain ⟨-, hclosed | ⟨-, hsock⟩⟩ := h.opening w hwork'
        · exact absurd (.inl hclosed) hstage
        · have hatt : s.attempts = 0 := h.attempts_zero (by simp [hsock])
          have hpass := h.goto .running (by simp [hwork']) (fun _ => rfl)
            (fun hout => by cases hout) (fun w hw => by cases hw) (fun hfail => by cases hfail)
            ⟨by decide, by decide⟩
          have hset := hpass.setStage .authorizing ⟨hatt, by simp, rfl⟩
          rw [hubPart_setWork, hubPart_auth]
          exact { hset with
            socket := by
              rintro w' hw'
              cases hw'
              exact hsock
            opening := fun w' hw' => by cases hw'
            failing := fun hfail => by cases hfail }
    · cases hst
  · rename_i w msg hpc
    split at hst
    · cases hst
      unfold onAuthResult
      have hnext : ∀ u : SpeechConnection, u.hubPart = s.hubPart →
          (u.setWork .running).hubPart.Single := fun u hu =>
        h.next hu hpc (by simp [WorkPc.inHub, WorkPc.failing])
      split
      · have hrun := hnext s rfl
        have hatt : s.attempts = 0 := by
          rcases Nat.eq_zero_or_pos s.attempts with hatt | hatt
          · exact hatt
          · have hpcs := (h.dialing (Nat.ne_of_gt hatt)).1
            rw [hwork, hpc] at hpcs
            simp [WorkPc.forget] at hpcs
        have hset := hrun.setStage .ready ⟨hatt, by simp [WorkPc.forget], rfl⟩
        rw [hubPart_setWork, hubPart_notifyAll]
        exact hset
      · have hclose := Hub.Single.closeWs (hnext (s.updateReconnTp s.options.reconnInterval) rfl)
        have heq : ∀ u : SpeechConnection, (u.setWork .running).closeWs.hubPart =
            (u.closeWs.setWork .running).hubPart := by
          intro u
          unfold SpeechConnection.closeWs
          have hws : (u.setWork .running).ws = u.ws := rfl
          rw [hws]
          cases u.ws with
          | none => rfl
          | some w =>
              simp only [hubPart_setWork, hubPart_close]
              rfl
        rw [heq] at hclose
        exact hclose
    · cases hst
  · rename_i msg hpc
    cases hst
    exact h.next rfl hpc (by simp [WorkPc.inHub, WorkPc.failing])
  · rename_i msg hpc
    cases hst
    exact h.next rfl hpc (by simp [WorkPc.inHub, WorkPc.failing])
  · rename_i hpc
    cases hst
    split
    · exact h.next rfl hpc (by simp [WorkPc.inHub, WorkPc.failing])
    · exact h.next rfl hpc (by simp [WorkPc.inHub, WorkPc.failing])
  · rename_i hpc
    cases hst
    split
    · exact h.next rfl hpc (by simp [WorkPc.inHub, WorkPc.failing])
    · exact h.next rfl hpc (by simp [WorkPc.inHub, WorkPc.failing])
  · rename_i hpc
    cases hst
    exact h.next rfl hpc (by simp [WorkPc.inHub, WorkPc.failing])
  · rename_i hpc
    cases hst
    exact h.next rfl hpc (by simp [WorkPc.inHub, WorkPc.failing])
  · rename_i ms hpc
    cases hst
    exact h.next rfl hpc (by simp [WorkPc.inHub, WorkPc.failing])
  · rename_i hpc
    cases hst
    exact h.disconn (.inl hpc)
  · rename_i hpc
    exact absurd (hwork.trans (by rw [hpc]; rfl)) h.served.1
  · rename_i hpc
    cases hst
    exact h.next rfl hpc (by simp [WorkPc.inHub, WorkPc.failing])
  · rename_i hpc
    cases hst
    exact h.next rfl hpc (by simp [WorkPc.inHub, WorkPc.failing])
  · rename_i hpc
    cases hst
    split
    · exact h.next rfl hpc (by simp [WorkPc.inHub, WorkPc.failing])
    · exact h.next rfl hpc (by simp [WorkPc.inHub, WorkPc.failing])
  · rename_i hpc
    cases hst
    exact h.disconn (.inr hpc)
  · rename_i hpc
    cases hst
    exact h.next (hubPart_notifyAll s) hpc (by simp [WorkPc.inHub, WorkPc.failing])
  · cases hst
  · cases hst
  · cases hst

theorem single_hub {e : HubEvent} (h : s.hubPart.Single) (hst : s.hub e = some t) :
    t.hubPart.Single := by
  unfold hub at hst
  split at hst
  · rename_i hpc
    have hwork : s.hubPart.work = .running := by simp [hubPart, hpc, WorkPc.forget]
    have hdone : s.hubPart.work ≠ .done := by
      rw [hwork]
      decide
    cases e with
    | connected =>
        simp only at hst
        split at hst
        · cases hst
        · rename_i hne
          cases hst
          obtain ⟨hone, hsock, hws⟩ := h.attempt hne
          obtain ⟨-, hstage⟩ := h.dialing hne
          have hatt' : s.attempts - 1 = 0 := by
            have : s.attempts = 1 := hone
            omega
          have hsock' : s.sockets ++ [s.fresh] = [s.fresh] := by
            rw [show s.sockets = [] from hsock]
            rfl
          have hws' : s.ws = none := hws
          exact {
            count := by
              simp [hubPart, SpeechConnection.setWork, openSocket, hatt', hsock']
            socket := fun w hw => by
              cases hws'.symm.trans hw
            outside := fun hout => by cases hout
            dialing := fun hne' => absurd hatt' hne'
            opening := fun w hw => by
              cases hw
              refine ⟨hws', ?_⟩
              rcases hstage with hconn | hclosed
              · exact .inr ⟨hconn, hsock'⟩
              · exact .inl hclosed
            failing := fun hfail => by cases hfail
            served := ⟨by simp [hubPart, SpeechConnection.setWork, WorkPc.forget],
              by simp [hubPart, SpeechConnection.setWork, WorkPc.forget]⟩
            threads := fun hno => absurd (h.threads hno) hdone }
    | failed =>
        simp only at hst
        split at hst
        · cases hst
        · rename_i hne
          cases hst
          obtain ⟨hone, hsock, hws⟩ := h.attempt hne
          obtain ⟨-, hstage⟩ := h.dialing hne
          have hatt' : s.attempts - 1 = 0 := by
            have : s.attempts = 1 := hone
            omega
          have hws' : s.ws = none := hws
          rw [if_neg (by simp [hws'])]
          exact {
            count := by
              have hsock' : s.sockets = [] := hsock
              simp [hubPart, SpeechConnection.setWork, hatt', hsock']
            socket := fun w hw => by cases hws'.symm.trans hw
            outside := fun hout => by cases hout
            dialing := fun hne' => absurd hatt' hne'
            opening := fun w hw => by cases hw
            failing := fun _ => ⟨hws', hstage⟩
            served := ⟨by simp [hubPart, SpeechConnection.setWork, WorkPc.forget],
              by simp [hubPart, SpeechConnection.setWork, WorkPc.forget]⟩
            threads := fun hno => absurd (h.threads hno) hdone }
    | message w msg =>
        simp only at hst
        split at hst
        · rename_i hmem
          cases hst
          have hatt : s.hubPart.attempts = 0 := h.attempts_zero (List.ne_nil_of_mem hmem)
          rw [hubPart_setWork]
          unfold onMessage
          split
          · exact h.goto _ hdone (fun hne => absurd hatt hne) (fun hout => by cases hout)
              (fun w hw => by cases hw) (fun hfail => by cases hfail) ⟨by simp [WorkPc.forget],
                by simp [WorkPc.forget]⟩
          · exact h.goto _ hdone (fun hne => absurd hatt hne) (fun hout => by cases hout)
              (fun w hw => by cases hw) (fun hfail => by cases hfail) ⟨by simp [WorkPc.forget],
                by simp [WorkPc.forget]⟩
          · exact h.goto _ hdone (fun hne => absurd hatt hne) (fun hout => by cases hout)
              (fun w hw => by cases hw) (fun hfail => by cases hfail) ⟨by decide, by decide⟩
        · cases hst
    | disconnected w =>
        simp only at hst
        split at hst
        · rename_i hmem
          cases hst
          have hatt : s.hubPart.attempts = 0 := h.attempts_zero (List.ne_nil_of_mem hmem)
          have hpass := h.goto .testPaused hdone (fun hne => absurd hatt hne)
            (fun hout => by cases hout) (fun w hw => by cases hw) (fun hfail => by cases hfail)
            ⟨by decide, by decide⟩
          exact { hpass with
            count := by
              have hlen := (List.erase_sublist (a := w) (l := s.sockets)).length_le
              have hcount : s.attempts + s.sockets.length ≤ 1 := h.count
              simp only [hubPart, SpeechConnection.setWork, setWs, removeSocket]
              omega
            socket := fun w' hw' => by cases hw'
            outside := fun hout => by cases hout
            opening := fun w' hw' => by cases hw'
            failing := fun hfail => by cases hfail }
        · cases hst
    | pong w =>
        simp only at hst
        split at hst
        · cases hst
          exact h
        · cases hst
    | finished =>
        simp only at hst
        split at hst
        · rename_i hempty
          cases hst
          rw [hubPart_setWork]
          exact h.goto _ hdone (fun hne => absurd hempty.1 hne) (fun _ => hempty.2)
            (fun w hw => by cases hw) (fun hfail => by cases hfail) ⟨by decide, by decide⟩
        · cases hst
  · cases hst

theorem single_keepaliveStep (h : s.hubPart.Single) (hst : s.keepaliveStep = some t) :
    t.hubPart.Single := by
  unfold keepaliveStep at hst
  split at hst
  · split at hst
    · cases hst
      exact h
    · cases hst
  · split at hst
    · cases hst
      exact h
    · cases hst
  · cases hst
    unfold keepaliveRun
    split
    · exact h
    · split
      · rename_i hready
        have hsends : s.sendTraceInfo.pingIfDue.hubPart.Single := by
          rw [hubPart_sends]
          exact h
        unfold keepaliveReady
        split
        · exact Hub.Single.closeWs (s := s.sendTraceInfo.pingIfDue.updateReconnTp 0) hsends
        · split
          · apply Hub.Single.groupClose
            · rw [hubPart_notifyAll, hubPart_setStage, hubPart_sends]
              refine h.setStage _ (h.calm ?_)
              rintro (hconn | hclosed)
              · cases hready.symm.trans hconn
              · cases hready.symm.trans hclosed
            · exact .inl rfl
          · exact hsends
      · exact h
  · cases hst

theorem single_step {a : ConnectionAct} (h : s.hubPart.Single) (hst : s.step a = some t) :
    t.hubPart.Single := by
  unfold step at hst
  split at hst
  · cases hst
  · cases a with
    | prepare options => exact single_initializeConn h hst
    | release => exact single_release h hst
    | reconn => exact single_reconn h hst
    | send n buf timeout => exact single_send h hst
    | sender n timedOut => exact single_sendStep h hst
    | recv valid =>
        cases hst
        unfold recv takeResp
        split
        · split
          · exact h
          · split <;> exact h
        · split
          · exact h
          · split <;> exact h
        · split <;> exact h
    | addTraceInfo info =>
        cases hst
        exact h
    | work fails => exact single_workStep h hst
    | hub e => exact single_hub h hst
    | keepalive => exact single_keepaliveStep h hst
    | tick ns =>
        cases hst
        exact h
    | setClock tp =>
        cases hst
        exact h

theorem Hub.single_of_run {s : SpeechConnection} (hrun : Run Steps Always {} s) : s.hubPart.Single := by
  have hstep : ∀ (t : SpeechConnection) (a : ConnectionAct) (u : SpeechConnection),
      t.hubPart.Single → Always t a → Steps t a u → u.hubPart.Single :=
    fun t a u h _ hst => single_step h hst
  have hopen : ({} : SpeechConnection).hubPart.Single := {
    count := Nat.zero_le 1
    socket := fun w hw => by cases hw
    outside := fun _ => ⟨rfl, .inl rfl⟩
    dialing := fun hne => absurd rfl hne
    opening := fun w hw => by cases hw
    failing := fun hfail => by cases hfail
    served := ⟨by decide, by decide⟩
    threads := fun _ => rfl }
  have hsingle := hrun.invariant hstep hopen
  exact hsingle

/-- **One socket at a time.**  There is at most one socket or attempt to connect, `ws_` is that
    socket or null, and `connect` is called when there is neither.  `onError` never finds a socket
    in `ws_`, so it never takes `stage_mutex_` while it is held, and it finds the stage CONNECTING
    or CLOSED. -/
theorem one_socket {s : SpeechConnection} (hrun : Run Steps Always {} s) :
    s.attempts + s.sockets.length ≤ 1 ∧
      (∀ w, s.ws = some w → s.sockets = [w]) ∧
      (s.work = .locked → s.stage = .disconn →
        s.attempts = 0 ∧ s.sockets = [] ∧ s.ws = none) ∧
      (s.work = .errorPush → s.ws = none ∧ (s.stage = .connecting ∨ s.stage = .closed)) ∧
      s.work ≠ .errorClose ∧ s.work ≠ .deadlock := by
  have h := Hub.single_of_run hrun
  refine ⟨h.count, h.socket, ?_, ?_, ?_, ?_⟩
  · intro hpc hstage
    exact h.locked hpc (by simp [hstage])
  · intro hpc
    exact h.failing (by simp [hubPart, hpc, WorkPc.forget, WorkPc.failing])
  · intro hpc
    exact h.served.1 (by simp [hubPart, hpc, WorkPc.forget])
  · intro hpc
    exact h.served.2 (by simp [hubPart, hpc, WorkPc.forget])

/-- The server refuses a connection that somebody asked for. -/
def refused : List ConnectionAct :=
  [.prepare {}, .work false, .work false, .send 0 (some [1]) 0, .sender 0 false,
    .work false, .work false, .work false, .hub .failed]

theorem one_socket_refused :
    ∃ s, exec step {} refused = some s ∧ s.work = .errorPush ∧ s.ws = none ∧
      (s.stage = .connecting ∨ s.stage = .closed) := by
  have hok : allOk step Always {} refused = true := by
    decide +kernel
  exact ⟨_, rfl, rfl, (one_socket (Run.of_exec hok rfl)).2.2.2.1 rfl⟩

end SpeechConnection

end OpenVoice
