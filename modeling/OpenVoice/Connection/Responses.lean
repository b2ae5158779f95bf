import OpenVoice.Connection.Sending
import Mathlib.Data.List.Infix

/-!
# The responses of a connection, and the stage PAUSED

`responses_` grows at its end, but for `recv`, which takes the first response, and `release`,
which drops them all.  Apart from `initialize` only the keepalive thread sets the stage to PAUSED,
and it does so without a response.
-/

namespace OpenVoice

open OpenVoice.Lib

namespace SpeechConnection

/-- Responses are pushed, and the stage is not set to PAUSED. -/
structure Pushes (s t : SpeechConnection) : Prop where
  responses : s.responses <+: t.responses
  paused : t.stage = .paused → s.stage = .paused

namespace Pushes

variable {s t u : SpeechConnection}

/-- Neither is touched. -/
theorem same (hr : t.responses = s.responses) (hs : t.stage = s.stage) : Pushes s t where
  responses := by rw [hr]
  paused h := by rw [← hs, h]

theorem refl (s : SpeechConnection) : Pushes s s := same rfl rfl

theorem trans (h : Pushes s t) (h' : Pushes t u) : Pushes s u where
  responses := h.responses.trans h'.responses
  paused hu := h.paused (h'.paused hu)

/-- Another stage is set, after a push or without one. -/
theorem leave (hr : s.responses <+: t.responses) (hs : t.stage ≠ .paused) : Pushes s t where
  responses := hr
  paused h := absurd h hs

theorem wsSend (s : SpeechConnection) (frame : Frame) : Pushes s (s.wsSend frame) := by
  unfold SpeechConnection.wsSend
  split
  · exact refl s
  · exact same rfl rfl

theorem pushStatusResp (s : SpeechConnection) (tp : BinRespType) :
    Pushes s (s.pushStatusResp tp) where
  responses := List.prefix_append _ _
  paused h := h

theorem onDisconnection (s : SpeechConnection) : Pushes s s.onDisconnection := by
  rcases Decidable.em (s.stage = .paused ∨ s.stage = .closed) with h | h
  · rw [onDisconnection_of_idle h]
    exact same rfl rfl
  · rw [onDisconnection_of_busy h]
    apply leave
    · exact (pushStatusResp s .error).responses
    · intro hs
      cases hs

theorem close (s : SpeechConnection) (w : Nat) : Pushes s (s.close w) :=
  (same rfl rfl : Pushes s (s.removeSocket w)).trans (onDisconnection _)

theorem closeWs (s : SpeechConnection) : Pushes s s.closeWs := by
  unfold SpeechConnection.closeWs
  split
  · exact refl s
  · exact close s _

theorem groupClose (s : SpeechConnection) : Pushes s s.groupClose := by
  have h : ∀ (ws : List Nat) (t : SpeechConnection),
      Pushes t (ws.foldl (fun s w => s.close w) t) := by
    intro ws
    induction ws with
    | nil => exact refl
    | cons w ws ih =>
        intro t
        rw [List.foldl_cons]
        exact (close t w).trans (ih _)
  exact h s.sockets s

theorem onError (s : SpeechConnection) : Pushes s s.onError := by
  unfold SpeechConnection.onError
  split
  · exact same rfl rfl
  · simp only
    split
    · exact (pushStatusResp s .error).trans (same rfl rfl)
    · apply leave
      · exact (pushStatusResp s .error).responses
      · intro hs
        cases hs

theorem connect (s : SpeechConnection) (fails : Bool) : Pushes s (s.connect fails) := by
  unfold SpeechConnection.connect
  split
  · exact onError s
  · exact same rfl rfl

theorem auth (s : SpeechConnection) : Pushes s s.auth := by
  unfold SpeechConnection.auth
  simp only
  split
  · exact refl s
  · exact wsSend s _

theorem run (s : SpeechConnection) (fails : Bool) : Pushes s (s.run fails) := by
  unfold SpeechConnection.run
  split
  · exact same rfl rfl
  · split
    · refine trans (leave ?_ ?_) (connect (s.setStage .connecting) fails)
      · exact List.prefix_rfl
      · intro hs
        cases hs
    · exact same rfl rfl
  · exact same rfl rfl
  · exact same rfl rfl

theorem onConnection (s : SpeechConnection) (w : Nat) : Pushes s (s.onConnection w) := by
  unfold SpeechConnection.onConnection
  split
  · exact refl s
  · refine trans (leave ?_ ?_) (auth ((s.setStage .authorizing).setWs (some w)))
    · exact List.prefix_rfl
    · intro hs
      cases hs

theorem onAuthResult (s : SpeechConnection) (w : Nat) (msg : Message) :
    Pushes s (s.onAuthResult w msg) := by
  unfold SpeechConnection.onAuthResult
  split
  · apply leave
    · exact List.prefix_rfl
    · intro hs
      cases hs
  · exact (same rfl rfl : Pushes s (s.updateReconnTp _)).trans (closeWs _)

theorem workStep {fails : Bool} (hst : s.workStep fails = some t) : Pushes s t := by
  unfold SpeechConnection.workStep at hst
  split at hst
  · split at hst
    · cases hst
      exact same rfl rfl
    · cases hst
  · split at hst
    · cases hst
      exact same rfl rfl
    · cases hst
  · cases hst
    exact run s fails
  · split at hst
    · cases hst
      exact (onConnection s _).trans (same rfl rfl)
    · cases hst
  · split at hst
    · cases hst
      exact (onAuthResult s _ _).trans (same rfl rfl)
    · cases hst
  · cases hst
    exact same rfl rfl
  · cases hst
    exact ⟨List.prefix_append _ _, fun h => h⟩
  · cases hst
    exact same rfl rfl
  · cases hst
    exact same rfl rfl
  · cases hst
    exact (pushStatusResp s .error).trans (same rfl rfl)
  · cases hst
    exact same rfl rfl
  · cases hst
    exact same rfl rfl
  · cases hst
    apply leave
    · exact List.prefix_rfl
    · intro hs
      cases hs
  · split at hst
    · split at hst
      · cases hst
        exact same rfl rfl
      · cases hst
        exact (close s _).trans (same rfl rfl)
    · cases hst
  · cases hst
    exact (pushStatusResp s .error).trans (same rfl rfl)
  · cases hst
    exact same rfl rfl
  · cases hst
    exact same rfl rfl
  · cases hst
    apply leave
    · exact List.prefix_rfl
    · intro hs
      cases hs
  · cases hst
    exact same rfl rfl
  · cases hst
  · cases hst
  · cases hst

theorem hub {e : HubEvent} (hst : s.hub e = some t) : Pushes s t := by
  unfold SpeechConnection.hub at hst
  split at hst
  · split at hst
    · split at hst
      · cases hst
      · cases hst
        exact same rfl rfl
    · split at hst
      · cases hst
      · cases hst
        exact same rfl rfl
    · split at hst
      · cases hst
        exact same rfl rfl
      · cases hst
    · split at hst
      · cases hst
        exact same rfl rfl
      · cases hst
    · split at hst
      · cases hst
        exact same rfl rfl
      · cases hst
    · split at hst
      · cases hst
        exact same rfl rfl
      · cases hst
  · cases hst

theorem reconn (hst : s.reconn = some t) : Pushes s t := by
  unfold SpeechConnection.reconn at hst
  split at hst
  · cases hst
    exact (same rfl rfl : Pushes s (s.updateReconnTp 0)).trans (closeWs _)
  · cases hst

theorem send {n : Nat} {buf : Option Bytes} {timeout : BitVec 32}
    (hst : s.send n buf timeout = some t) : Pushes s t := by
  unfold SpeechConnection.send at hst
  split at hst
  · cases hst
    exact same rfl rfl
  · cases hst
    exact same rfl rfl
  · cases hst
    exact same rfl rfl
  · cases hst
    exact same rfl rfl
  · cases hst

theorem wantConnection (s : SpeechConnection) : Pushes s s.wantConnection := by
  unfold SpeechConnection.wantConnection
  split
  · apply leave
    · exact List.prefix_rfl
    · intro hs
      cases hs
  · exact refl s

theorem sendStep {n : Nat} {timedOut : Bool} (hst : s.sendStep n timedOut = some t) :
    Pushes s t := by
  unfold SpeechConnection.sendStep at hst
  split at hst
  · cases hst
  · cases hst
  · split at hst
    · cases hst
      exact (wantConnection s).trans (same rfl rfl)
    · cases hst
  · split at hst
    · split at hst
      · split at hst
        · cases hst
        · split at hst
          · cases hst
            exact same rfl rfl
          · cases hst
      · cases hst
        exact same rfl rfl
    · cases hst
  · cases hst
    exact same rfl rfl
  · cases hst
    exact same rfl rfl
  · split at hst
    · cases hst
      exact (wsSend s _).trans (same rfl rfl)
    · cases hst
      exact same rfl rfl

/-- `release` may drop the responses. -/
theorem release (hst : s.release = some t) : Pushes s t ∨ t.responses = [] ∧ t.stage = s.stage := by
  unfold SpeechConnection.release at hst
  split at hst
  · split at hst
    · cases hst
      exact .inl (same rfl rfl)
    · cases hst
      exact .inl (refl s)
  · split at hst
    · cases hst
      refine .inl ((leave ?_ ?_ : Pushes s (s.markReleased.setStage .closed).notifyAll).trans
        ((groupClose _).trans (same rfl rfl)))
      · exact List.prefix_rfl
      · intro hs
        cases hs
    · cases hst
  · split at hst
    · cases hst
      exact .inl (same rfl rfl)
    · cases hst
  · split at hst
    · cases hst
      exact .inl (same rfl rfl)
    · cases hst
  · cases hst
    exact .inr ⟨rfl, rfl⟩
  · cases hst
    exact .inl ((pushStatusResp s .closed).trans (same rfl rfl))

end Pushes

/-! ### The idle close -/

/-- The next step of the keepalive thread closes the connection because nothing has been sent for
    `conn_duration`. -/
def closesIdle (s : SpeechConnection) : Bool :=
  s.keepalive = .locked ∧ s.stage = .ready ∧ s.noResponse = false ∧ s.noVoice = true

variable {s t : SpeechConnection}

/-- Sockets that are closed in the stage PAUSED leave nothing behind. -/
theorem groupClose_of_paused (h : s.stage = .paused) :
    s.groupClose.responses = s.responses ∧ s.groupClose.stage = .paused := by
  have hclose : ∀ (ws : List Nat) (t : SpeechConnection), t.stage = .paused →
      (ws.foldl (fun s w => s.close w) t).responses = t.responses ∧
        (ws.foldl (fun s w => s.close w) t).stage = .paused := by
    intro ws
    induction ws with
    | nil => exact fun t ht => ⟨rfl, ht⟩
    | cons w ws ih =>
        intro t ht
        have heq : t.close w = (t.removeSocket w).setWs none := onDisconnection_of_idle (.inl ht)
        rw [List.foldl_cons, heq]
        exact ih _ ht
  exact hclose s.sockets s h

/-- What is sent in between is of no account. -/
theorem sends_pushes : Pushes s s.sendTraceInfo.pingIfDue ∧
    s.sendTraceInfo.pingIfDue.responses = s.responses := by
  have hsend : ∀ (u : SpeechConnection) (frame : Frame),
      (u.wsSend frame).responses = u.responses := by
    intro u frame
    unfold wsSend
    split
    · rfl
    · rfl
  have hresp : s.sendTraceInfo.pingIfDue.responses = s.responses := by
    have htrace : s.sendTraceInfo.responses = s.responses := by
      unfold sendTraceInfo
      split
      · rfl
      · exact hsend _ _
    unfold pingIfDue
    split
    · exact (hsend _ _).trans htrace
    · exact htrace
  refine ⟨.same hresp ?_, hresp⟩
  exact congrArg Link.stage sends_ready.1

/-- **What the keepalive thread does.** -/
theorem keepaliveStep_pushes (hst : s.keepaliveStep = some t) :
    s.closesIdle = false ∧ Pushes s t ∨
      s.closesIdle = true ∧ t.stage = .paused ∧ t.responses = s.responses := by
  unfold keepaliveStep at hst
  split at hst
  · rename_i hpc
    split at hst
    · cases hst
      exact .inl ⟨by simp [closesIdle, hpc], .same rfl rfl⟩
    · cases hst
  · rename_i hpc
    split at hst
    · cases hst
      exact .inl ⟨by simp [closesIdle, hpc], .same rfl rfl⟩
    · cases hst
  · rename_i hpc
    cases hst
    unfold keepaliveRun
    split
    · rename_i hclosed
      exact .inl ⟨by simp [closesIdle, hclosed], .same rfl rfl⟩
    · split
      · rename_i hready
        obtain ⟨-, hresp, hvoice⟩ := sends_ready (s := s)
        obtain ⟨hpush, hsame⟩ := sends_pushes (s := s)
        unfold keepaliveReady
        rw [hresp, hvoice]
        split
        · rename_i hno
          refine .inl ⟨by simp [closesIdle, hno], hpush.trans ?_⟩
          exact (Pushes.same rfl rfl : Pushes s.sendTraceInfo.pingIfDue
            (s.sendTraceInfo.pingIfDue.updateReconnTp 0)).trans (.closeWs _)
        · rename_i hno
          split
          · rename_i hdue
            have hpaused := groupClose_of_paused
              (s := (s.sendTraceInfo.pingIfDue.setStage .paused).notifyAll) rfl
            refine .inr ⟨by simp [closesIdle, hpc, hready, hno, hdue], hpaused.2, ?_⟩
            exact hpaused.1.trans hsame
          · rename_i hdue
            exact .inl ⟨by simp [closesIdle, hdue], hpush.trans (.same rfl rfl)⟩
      · rename_i hready
        exact .inl ⟨by simp [closesIdle, hready], .same rfl rfl⟩
  · cases hst

end SpeechConnection

end OpenVoice
