import OpenVoice.Connection.Link

/-!
# Every step of the code is a move of the link

One lemma for each operation says what it does to the link; `step_move` puts them together.
-/

namespace OpenVoice

namespace SpeechConnection

variable (s : SpeechConnection)

/-! ### The operations -/

@[simp] theorem link_setStage (stage : ConnectStage) :
    (s.setStage stage).link = { s.link with stage := stage } := rfl

@[simp] theorem link_setWs (ws : Option Nat) : (s.setWs ws).link = { s.link with ws := ws } := rfl

@[simp] theorem link_setWork (pc : WorkPc) :
    (s.setWork pc).link = { s.link with work := pc.forget } := rfl

@[simp] theorem link_setKeepalive (pc : KeepalivePc) :
    (s.setKeepalive pc).link = { s.link with kept := pc.holds } := rfl

@[simp] theorem link_setReleasing (pc : ReleasePc) :
    (s.setReleasing pc).link = { s.link with releasing := pc } := rfl

@[simp] theorem link_setSender (t : Nat) (pc : SendPc) : (s.setSender t pc).link = s.link := rfl

@[simp] theorem link_notifyAll : s.notifyAll.link = s.link := by
  simp [notifyAll, link]

theorem link_reconnTimepoint (tp : Nat) :
    ({ s with reconnTimepoint := tp } : SpeechConnection).link = s.link := rfl

@[simp] theorem link_updateReconnTp (ms : BitVec 32) : (s.updateReconnTp ms).link = s.link :=
  link_reconnTimepoint s _

@[simp] theorem link_updateVoiceTp : s.updateVoiceTp.link = s.link := rfl

@[simp] theorem link_pushStatusResp (tp : BinRespType) : (s.pushStatusResp tp).link = s.link := rfl

@[simp] theorem link_removeSocket (w : Nat) : (s.removeSocket w).link = s.link := rfl

@[simp] theorem link_wsSend (frame : Frame) : (s.wsSend frame).link = s.link := by
  unfold wsSend
  split <;> rfl

variable {s} in
/-- Nobody is told when the connection has been closed on purpose. -/
theorem onDisconnection_of_idle (h : s.stage = .paused ∨ s.stage = .closed) :
    s.onDisconnection = s.setWs none :=
  if_pos h

variable {s} in
theorem onDisconnection_of_busy (h : ¬ (s.stage = .paused ∨ s.stage = .closed)) :
    s.onDisconnection =
      ((((s.setWs none).pushStatusResp .error).updateReconnTp s.reconnDelay).setStage
        .disconn).notifyAll :=
  if_neg h

@[simp] theorem link_onDisconnection : s.onDisconnection.link = s.link.disconnect := by
  rcases Decidable.em (s.stage = .paused ∨ s.stage = .closed) with h | h
  · rw [onDisconnection_of_idle h, Link.disconnect_of_idle h]
    rfl
  · rw [onDisconnection_of_busy h, Link.disconnect_of_busy h, link_notifyAll]
    rfl

@[simp] theorem link_close (w : Nat) : (s.close w).link = s.link.disconnect :=
  link_onDisconnection _

@[simp] theorem link_auth : s.auth.link = s.link := by
  unfold auth
  simp only
  split
  · rfl
  · exact link_wsSend s _

/-- `ws_->close()`, if there is a socket. -/
theorem link_closeWs :
    (s.ws = none ∧ s.closeWs.link = s.link) ∨
      ∃ w, s.ws = some w ∧ s.closeWs.link = s.link.disconnect := by
  unfold closeWs
  split
  · rename_i hws
    exact .inl ⟨hws, rfl⟩
  · rename_i w hws
    exact .inr ⟨w, hws, link_close s w⟩

/-- However many sockets are closed, the link is disconnected once. -/
theorem link_groupClose : s.groupClose.link = s.link ∨ s.groupClose.link = s.link.disconnect := by
  have h : ∀ (ws : List Nat) (t : SpeechConnection),
      t.link = s.link ∨ t.link = s.link.disconnect →
      (ws.foldl (fun s w => s.close w) t).link = s.link ∨
        (ws.foldl (fun s w => s.close w) t).link = s.link.disconnect := by
    intro ws
    induction ws with
    | nil => exact fun t ht => ht
    | cons w ws ih =>
        intro t ht
        apply ih
        rw [link_close]
        rcases ht with ht | ht
        · exact .inr (by rw [ht])
        · exact .inr (by rw [ht, Link.disconnect_disconnect])
  exact h s.sockets s (.inl rfl)

/-- The group is closed by somebody who has just set the stage to PAUSED or CLOSED. -/
theorem link_groupClose_idle (h : s.stage = .paused ∨ s.stage = .closed) :
    ∃ ws, (ws = none ∨ ws = s.ws) ∧ s.groupClose.link = { s.link with ws := ws } := by
  rcases link_groupClose s with heq | heq
  · exact ⟨s.ws, .inr rfl, heq⟩
  · exact ⟨none, .inl rfl, by rw [heq, Link.disconnect_of_idle h]⟩

@[simp] theorem link_free : s.link.free = s.stageFree := by
  have hlocked : s.work.forget = .locked ↔ s.work = .locked := by
    cases s.work <;> simp [WorkPc.forget]
  have hdead : s.work.forget = .deadlock ↔ s.work = .deadlock := by
    cases s.work <;> simp [WorkPc.forget]
  have hkept : s.keepalive.holds = false ↔ s.keepalive ≠ .locked := by
    cases s.keepalive <;> simp [KeepalivePc.holds]
  simp [Link.free, stageFree, link, hlocked, hdead, hkept]

/-! ### The steps -/

variable {s} {t : SpeechConnection} {l : Label}

theorem initializeConn_move {options : PrepareOptions} (hst : s.initializeConn options = some t) :
    Move s.link l t.link := by
  unfold initializeConn at hst
  split at hst
  · rename_i h
    cases hst
    exact .prepare h.1
  · cases hst

theorem release_move (hst : s.release = some t) : Move s.link (s.label .release) t.link := by
  unfold release at hst
  split at hst
  · rename_i hr
    split at hst
    · cases hst
      exact .proceed fun h => by cases hr.symm.trans h
    · cases hst
      exact .stay
  · rename_i hr
    split at hst
    · rename_i hfree
      cases hst
      obtain ⟨ws, hws, heq⟩ :=
        link_groupClose_idle (s.markReleased.setStage .closed).notifyAll (.inr rfl)
      rw [link_setReleasing, heq, link_notifyAll]
      exact .close (if_pos hr) hr (by rwa [link_free]) hws
    · cases hst
  · split at hst
    · rename_i hdone
      cases hst
      exact .proceed fun _ => by simp [link, hdone, WorkPc.forget]
    · cases hst
  · rename_i hr
    split at hst
    · cases hst
      exact .proceed fun h => by cases hr.symm.trans h
    · cases hst
  · rename_i hr
    cases hst
    exact .proceed fun h => by cases hr.symm.trans h
  · rename_i hr
    cases hst
    exact .proceed fun h => by cases hr.symm.trans h

theorem reconn_move (hst : s.reconn = some t) : Move s.link l t.link := by
  unfold reconn at hst
  split at hst
  · cases hst
    rcases link_closeWs (s.updateReconnTp 0) with ⟨-, heq⟩ | ⟨w, hws, heq⟩
    · rw [heq]
      exact .stay
    · rw [heq]
      exact .hangUp hws
  · cases hst

theorem send_move {n : Nat} {buf : Option Bytes} {timeout : BitVec 32}
    (hst : s.send n buf timeout = some t) : Move s.link l t.link := by
  unfold send at hst
  split at hst
  · cases hst
    exact .stay
  · cases hst
    exact .stay
  · cases hst
    exact .stay
  · cases hst
    exact .stay
  · cases hst

theorem sendStep_move {n : Nat} {timedOut : Bool} (hst : s.sendStep n timedOut = some t) :
    Move s.link l t.link := by
  unfold sendStep at hst
  split at hst
  · cases hst
  · cases hst
  · split at hst
    · rename_i hfree
      cases hst
      rw [link_setSender]
      unfold wantConnection
      split
      · rename_i hpaused
        rw [link_notifyAll]
        exact .want (by rwa [link_free]) hpaused
      · exact .stay
    · cases hst
  · split at hst
    · split at hst
      · split at hst
        · cases hst
        · split at hst
          · cases hst
            exact .stay
          · cases hst
      · cases hst
        exact .stay
    · cases hst
  · cases hst
    exact .stay
  · cases hst
    exact .stay
  · split at hst
    · cases hst
      rw [link_setSender, link_wsSend]
      exact .stay
    · cases hst
      exact .stay

theorem run_move {fails : Bool} (hpc : s.work = .locked) : Move s.link l (s.run fails).link := by
  have hpc' : s.link.work = .locked := by
    unfold link
    rw [hpc]
    rfl
  unfold run
  split
  · rename_i hstage
    exact .exit hpc' hstage
  · rename_i hstage
    split
    · unfold connect
      split
      · unfold onError
        split
        · exact .deadlock hpc' hstage
        · simp only
          split
          · rename_i hclosed
            cases hclosed
          · -- back to DISCONN before anybody sees the stage
            rw [link_notifyAll]
            have heq : { s.link with stage := .disconn } = s.link := by
              have hstage' : s.link.stage = .disconn := hstage
              rw [← hstage']
            have hmove : Move s.link l { s.link with stage := .disconn } := by
              rw [heq]
              exact .stay
            exact hmove
      · exact .connect hpc' hstage
    · exact .unlock hpc' (by simp [link, hstage]) (.inr rfl)
  · rename_i hstage
    exact .unlock hpc' (by simp [link, hstage]) (.inr rfl)
  · rename_i hclosed _ _
    exact .unlock hpc' hclosed (.inl rfl)

/-- A handler that closes the socket, if there is one, and returns. -/
theorem closeWs_move {u : SpeechConnection} (hu : u.link = s.link) (hfree : s.stageFree = true)
    (h : Passes s.stage s.link.work .running) :
    Move s.link l ((u.closeWs).setWork .running).link := by
  rcases link_closeWs u with ⟨-, heq⟩ | ⟨w, hws, heq⟩
  · rw [link_setWork, heq, hu]
    exact .pass h
  · have hws' : s.link.ws = some w := by
      rw [← hu]
      exact hws
    rw [link_setWork, heq, hu]
    exact .hangUpPass (by rwa [link_free]) hws' h

theorem workStep_move {fails : Bool} (hst : s.workStep fails = some t) :
    Move s.link .work t.link := by
  have hwork : s.link.work = s.work.forget := rfl
  unfold workStep at hst
  split at hst
  · rename_i hpc
    split at hst
    · rename_i hfree
      cases hst
      exact .lock (by rwa [link_free]) (.inl (by rw [hwork, hpc]; rfl))
    · cases hst
  · rename_i w hpc
    split at hst
    · rename_i hfree
      cases hst
      exact .lock (by rwa [link_free]) (.inr (by rw [hwork, hpc]; rfl))
    · cases hst
  · rename_i hpc
    cases hst
    exact run_move hpc
  · rename_i w hpc
    rw [hpc] at hwork
    split at hst
    · rename_i hfree
      cases hst
      rw [link_setWork]
      unfold onConnection
      split
      · rename_i hstage
        exact .pass (by rw [hwork]; exact .refused hstage)
      · rename_i hstage
        rw [link_auth]
        exact .connected (by rwa [link_free]) hwork hstage
    · cases hst
  · rename_i w msg hpc
    rw [hpc] at hwork
    split at hst
    · rename_i hfree
      cases hst
      unfold onAuthResult
      split
      · rename_i hacc
        rw [link_setWork, link_notifyAll]
        exact .accept rfl (by rwa [link_free]) hwork hacc
      · rename_i hacc
        refine closeWs_move (link_updateReconnTp s _) hfree ?_
        rw [hwork]
        exact .rejected (by simpa using hacc)
    · cases hst
  · rename_i msg hpc
    rw [hpc] at hwork
    cases hst
    exact .pass (by rw [hwork]; exact .recvTp)
  · rename_i msg hpc
    rw [hpc] at hwork
    cases hst
    exact .pass (by rw [hwork]; exact .pushData)
  · rename_i hpc
    rw [hpc] at hwork
    cases hst
    rw [link_setWork]
    split
    · rename_i hstage
      exact .pass (by rw [hwork]; exact .idle hstage)
    · rename_i hstage
      exact .pass (by rw [hwork]; exact .notPaused hstage)
  · rename_i hpc
    rw [hpc] at hwork
    cases hst
    rw [link_setWork]
    split
    · rename_i hstage
      exact .pass (by rw [hwork]; exact .over hstage)
    · rename_i hstage
      exact .pass (by rw [hwork]; exact .notClosed hstage)
  · rename_i hpc
    rw [hpc] at hwork
    cases hst
    exact .pass (by rw [hwork]; exact .pushError)
  · rename_i hpc
    rw [hpc] at hwork
    cases hst
    exact .pass (by rw [hwork]; exact .testReady)
  · rename_i ms hpc
    rw [hpc] at hwork
    cases hst
    rw [link_setWork, link_updateReconnTp]
    exact .pass (by rw [hwork]; exact .reconnTp)
  · rename_i hpc
    rw [hpc] at hwork
    cases hst
    exact .disconn (.inl hwork)
  · rename_i hpc
    rw [hpc] at hwork
    split at hst
    · rename_i hfree
      split at hst
      · cases hst
        exact .stay
      · rename_i w hws
        cases hst
        rw [link_setWork, link_close]
        exact .hangUpPass (by rwa [link_free]) hws (by rw [hwork]; exact .closed)
    · cases hst
  · rename_i hpc
    rw [hpc] at hwork
    cases hst
    exact .pass (by rw [hwork]; exact .errorPush)
  · rename_i hpc
    rw [hpc] at hwork
    cases hst
    rw [link_setWork, link_updateReconnTp]
    exact .pass (by rw [hwork]; exact .errorReconnTp)
  · rename_i hpc
    rw [hpc] at hwork
    cases hst
    rw [link_setWork]
    split
    · rename_i hstage
      exact .pass (by rw [hwork]; exact .errorOver hstage)
    · rename_i hstage
      exact .pass (by rw [hwork]; exact .errorOpen hstage)
  · rename_i hpc
    rw [hpc] at hwork
    cases hst
    exact .disconn (.inr hwork)
  · rename_i hpc
    rw [hpc] at hwork
    cases hst
    rw [link_setWork, link_notifyAll]
    exact .pass (by rw [hwork]; exact .notify)
  · cases hst
  · cases hst
  · cases hst

theorem hub_move {e : HubEvent} (hst : s.hub e = some t) :
    Move s.link (s.label (.hub e)) t.link := by
  unfold hub at hst
  split at hst
  · rename_i hpc
    have hwork : s.link.work = .running := by
      unfold link
      rw [hpc]
      rfl
    cases e with
    | connected =>
        simp only at hst
        split at hst
        · cases hst
        · cases hst
          exact .pass (by rw [hwork]; exact .connected _)
    | failed =>
        simp only at hst
        split at hst
        · cases hst
        · cases hst
          rw [link_setWork]
          split
          · exact .pass (by rw [hwork]; exact .failed (.inl rfl))
          · exact .pass (by rw [hwork]; exact .failed (.inr rfl))
    | message w msg =>
        simp only at hst
        split at hst
        · cases hst
          rw [link_setWork]
          unfold onMessage
          split
          · rename_i hstage
            exact .pass (by rw [hwork]; exact .authorizing hstage)
          · rename_i hstage
            exact .pass (by rw [hwork]; exact .data hstage)
          · have hmove : Move s.link (s.label (.hub (.message w msg)))
                { s.link with work := s.link.work } := .stay
            rw [hwork] at hmove
            exact hmove
        · cases hst
    | disconnected w =>
        simp only at hst
        split at hst
        · cases hst
          exact .lose rfl hwork
        · cases hst
    | pong w =>
        simp only at hst
        split at hst
        · cases hst
          exact .stay
        · cases hst
    | finished =>
        simp only at hst
        split at hst
        · cases hst
          exact .pass (by rw [hwork]; exact .finished)
        · cases hst
  · cases hst

/-- What the keepalive thread sends does not matter. -/
theorem sends_ready : s.sendTraceInfo.pingIfDue.link = s.link ∧
    s.sendTraceInfo.pingIfDue.noResponse = s.noResponse ∧
    s.sendTraceInfo.pingIfDue.noVoice = s.noVoice := by
  have hsend : ∀ (u : SpeechConnection) (frame : Frame), (u.wsSend frame).link = u.link ∧
      (u.wsSend frame).noResponse = u.noResponse ∧ (u.wsSend frame).noVoice = u.noVoice := by
    intro u frame
    unfold wsSend
    split
    · exact ⟨rfl, rfl, rfl⟩
    · exact ⟨rfl, rfl, rfl⟩
  have hping : ∀ u : SpeechConnection, u.pingIfDue.link = u.link ∧
      u.pingIfDue.noResponse = u.noResponse ∧ u.pingIfDue.noVoice = u.noVoice := by
    intro u
    unfold pingIfDue
    split
    · exact hsend u (.ping none)
    · exact ⟨rfl, rfl, rfl⟩
  obtain ⟨hlink, hresp, hvoice⟩ := hping s.sendTraceInfo
  rw [hlink, hresp, hvoice]
  unfold sendTraceInfo
  split
  · exact ⟨rfl, rfl, rfl⟩
  · exact hsend _ _

/-- The keepalive thread closes the connection. -/
theorem pause_move {u : SpeechConnection} (hu : u.link = s.link) (hkept : s.link.kept = true)
    (hready : s.link.stage = .ready) :
    Move s.link l (u.setStage .paused).notifyAll.groupClose.link := by
  obtain ⟨ws, hws, heq⟩ := link_groupClose_idle (u.setStage .paused).notifyAll (.inl rfl)
  have hws' : ws = none ∨ ws = s.link.ws := by
    rw [← hu]
    exact hws
  rw [heq, link_notifyAll, link_setStage, hu]
  exact .pause hkept hready hws'

theorem keepaliveStep_move (hst : s.keepaliveStep = some t) :
    Move s.link (s.label .keepalive) t.link := by
  unfold keepaliveStep at hst
  split at hst
  · split at hst
    · rename_i hfree
      cases hst
      exact .keep (by rwa [link_free])
    · cases hst
  · split at hst
    · rename_i hfree
      cases hst
      exact .keep (by rwa [link_free])
    · cases hst
  · rename_i hpc
    have hkept : s.link.kept = true := by
      unfold link
      rw [hpc]
      rfl
    cases hst
    unfold keepaliveRun
    split
    · rename_i hclosed
      exact .unkeep hkept (by rw [show s.link.stage = .closed from hclosed]; decide)
    · split
      · rename_i hready
        obtain ⟨hlink, hresp, hvoice⟩ := sends_ready (s := s)
        unfold keepaliveReady
        rw [hresp, hvoice]
        split
        · rcases link_closeWs (s.sendTraceInfo.pingIfDue.updateReconnTp 0) with
            ⟨-, heq⟩ | ⟨w, hws, heq⟩
          · rw [heq, link_updateReconnTp, hlink]
            exact .stay
          · rw [heq, link_updateReconnTp, hlink]
            have hws' : s.link.ws = some w := by
              rw [← hlink]
              exact hws
            exact .hangUp hws'
        · rename_i hresp'
          split
          · exact pause_move hlink hkept hready
          · rename_i hvoice'
            have hl : s.label .keepalive = .rest :=
              if_pos ⟨hpc, hready, by simpa using hresp', by simpa using hvoice'⟩
            rw [link_setKeepalive, hlink]
            exact .rest hl hkept hready
      · rename_i hready
        exact .unkeep hkept hready
  · cases hst

/-- **The refinement.**  Every step of a `SpeechConnection` is a move of its link. -/
theorem step_move {a : ConnectionAct} (hst : s.step a = some t) :
    Move s.link (s.label a) t.link := by
  unfold step at hst
  split at hst
  · cases hst
  · cases a with
    | prepare options => exact initializeConn_move hst
    | release => exact release_move hst
    | reconn => exact reconn_move hst
    | send n buf timeout => exact send_move hst
    | sender n timedOut => exact sendStep_move hst
    | recv valid =>
        cases hst
        unfold recv takeResp
        split
        · split
          · exact .stay
          · split
            · exact .stay
            · exact .stay
        · split
          · exact .stay
          · split
            · exact .stay
            · exact .stay
        · split
          · exact .stay
          · exact .stay
    | addTraceInfo info =>
        cases hst
        exact .stay
    | work fails => exact workStep_move hst
    | hub e => exact hub_move hst
    | keepalive => exact keepaliveStep_move hst
    | tick ns =>
        cases hst
        exact .stay
    | setClock tp =>
        cases hst
        exact .stay

end SpeechConnection

end OpenVoice
