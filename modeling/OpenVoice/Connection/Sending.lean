import OpenVoice.Connection.Live

/-!
# What `send` has done when it returns SUCCESS

`ensure_connection_available` tests the stage under `stage_mutex_` and gives the mutex back;
`ws_send` looks at nothing but `ws_`.  Whatever happens to the connection in between decides
whether the bytes get to a socket at all, and to which.

An `Observed` connection records, for each thread, the bytes of its last call of `send` and the
writes made in that call.
-/

namespace OpenVoice

open OpenVoice.Lib

namespace SpeechConnection

/-! ### Where the calls of `send` are -/

/-- How long a wait is, and who has been told, is forgotten. -/
def SendPc.forget : SendPc → SendPc
  | .waiting buf _ => .waiting buf { deadline := none }
  | pc => pc

@[simp] theorem SendPc.forget_notified (pc : SendPc) : pc.notified.forget = pc.forget := by
  cases pc <;> rfl

/-- The calls of `send`, by the thread that makes them. -/
def calls (s : SpeechConnection) : Nat → SendPc := fun n => (s.senders n).forget

section Calls

variable (s : SpeechConnection)

@[simp] theorem calls_setStage (stage : ConnectStage) : (s.setStage stage).calls = s.calls := rfl

@[simp] theorem calls_setWs (ws : Option Nat) : (s.setWs ws).calls = s.calls := rfl

@[simp] theorem calls_setWork (pc : WorkPc) : (s.setWork pc).calls = s.calls := rfl

@[simp] theorem calls_setKeepalive (pc : KeepalivePc) : (s.setKeepalive pc).calls = s.calls := rfl

@[simp] theorem calls_setReleasing (pc : ReleasePc) : (s.setReleasing pc).calls = s.calls := rfl

@[simp] theorem calls_markAccepted (w : Nat) : (s.markAccepted w).calls = s.calls := rfl

@[simp] theorem calls_markReleased : s.markReleased.calls = s.calls := rfl

@[simp] theorem calls_updateReconnTp (ms : BitVec 32) : (s.updateReconnTp ms).calls = s.calls :=
  rfl

@[simp] theorem calls_updatePingTp : s.updatePingTp.calls = s.calls := rfl

@[simp] theorem calls_updateRecvTp : s.updateRecvTp.calls = s.calls := rfl

@[simp] theorem calls_updateVoiceTp : s.updateVoiceTp.calls = s.calls := rfl

@[simp] theorem calls_pushStatusResp (tp : BinRespType) : (s.pushStatusResp tp).calls = s.calls :=
  rfl

@[simp] theorem calls_pushRespData (msg : Bytes) : (s.pushRespData msg).calls = s.calls := rfl

@[simp] theorem calls_removeSocket (w : Nat) : (s.removeSocket w).calls = s.calls := rfl

@[simp] theorem calls_openSocket : s.openSocket.calls = s.calls := rfl

@[simp] theorem calls_notifyAll : s.notifyAll.calls = s.calls := by
  funext n
  exact SendPc.forget_notified (s.senders n)

@[simp] theorem calls_wsSend (frame : Frame) : (s.wsSend frame).calls = s.calls := by
  unfold wsSend
  split <;> rfl

@[simp] theorem calls_onDisconnection : s.onDisconnection.calls = s.calls := by
  unfold onDisconnection
  simp only
  split
  · rfl
  · rw [calls_notifyAll]
    rfl

@[simp] theorem calls_close (w : Nat) : (s.close w).calls = s.calls := calls_onDisconnection _

@[simp] theorem calls_closeWs : s.closeWs.calls = s.calls := by
  unfold closeWs
  split
  · rfl
  · exact calls_close s _

@[simp] theorem calls_groupClose : s.groupClose.calls = s.calls := by
  have h : ∀ (ws : List Nat) (t : SpeechConnection),
      (ws.foldl (fun s w => s.close w) t).calls = t.calls := by
    intro ws
    induction ws with
    | nil => exact fun t => rfl
    | cons w ws ih =>
        intro t
        rw [List.foldl_cons, ih, calls_close]
  exact h s.sockets s

@[simp] theorem calls_connect (fails : Bool) : (s.connect fails).calls = s.calls := by
  unfold connect
  split
  · unfold onError
    split
    · rfl
    · simp only
      split
      · rfl
      · rw [calls_notifyAll]
        rfl
  · rfl

@[simp] theorem calls_auth : s.auth.calls = s.calls := by
  unfold auth
  simp only
  split
  · rfl
  · exact calls_wsSend s _

variable {s} {t : SpeechConnection}

theorem calls_release (hst : s.release = some t) : t.calls = s.calls := by
  unfold release at hst
  split at hst
  · split at hst <;> cases hst <;> rfl
  · split at hst
    · cases hst
      simp
    · cases hst
  · split at hst
    · cases hst
      rfl
    · cases hst
  · split at hst
    · cases hst
      rfl
    · cases hst
  · cases hst
    rfl
  · cases hst
    rfl

theorem calls_run (fails : Bool) : (s.run fails).calls = s.calls := by
  unfold run
  split
  · rfl
  · split
    · rw [calls_connect]
      rfl
    · rfl
  · rfl
  · rfl

theorem calls_onConnection (w : Nat) : (s.onConnection w).calls = s.calls := by
  unfold onConnection
  split
  · rfl
  · rw [calls_auth]
    rfl

theorem calls_onAuthResult (w : Nat) (msg : Message) :
    (s.onAuthResult w msg).calls = s.calls := by
  unfold onAuthResult
  split
  · simp
  · simp

theorem calls_workStep {fails : Bool} (hst : s.workStep fails = some t) : t.calls = s.calls := by
  unfold workStep at hst
  split at hst
  · split at hst
    · cases hst
      rfl
    · cases hst
  · split at hst
    · cases hst
      rfl
    · cases hst
  · cases hst
    exact calls_run fails
  · split at hst
    · cases hst
      exact calls_onConnection _
    · cases hst
  · split at hst
    · cases hst
      exact calls_onAuthResult _ _
    · cases hst
  · cases hst
    rfl
  · cases hst
    rfl
  · cases hst
    rfl
  · cases hst
    rfl
  · cases hst
    rfl
  · cases hst
    rfl
  · cases hst
    rfl
  · cases hst
    rfl
  · split at hst
    · split at hst
      · cases hst
        rfl
      · cases hst
        exact calls_close s _
    · cases hst
  · cases hst
    rfl
  · cases hst
    rfl
  · cases hst
    rfl
  · cases hst
    rfl
  · cases hst
    exact calls_notifyAll s
  · cases hst
  · cases hst
  · cases hst

theorem calls_hub {e : HubEvent} (hst : s.hub e = some t) : t.calls = s.calls := by
  unfold hub at hst
  split at hst
  · split at hst
    · split at hst
      · cases hst
      · cases hst
        rfl
    · split at hst
      · cases hst
      · cases hst
        rfl
    · split at hst
      · cases hst
        rfl
      · cases hst
    · split at hst
      · cases hst
        rfl
      · cases hst
    · split at hst
      · cases hst
        rfl
      · cases hst
    · split at hst
      · cases hst
        rfl
      · cases hst
  · cases hst

theorem calls_keepaliveStep (hst : s.keepaliveStep = some t) : t.calls = s.calls := by
  have htrace : s.sendTraceInfo.calls = s.calls := by
    unfold sendTraceInfo
    split
    · rfl
    · exact calls_wsSend _ _
  have hping : s.sendTraceInfo.pingIfDue.calls = s.calls := by
    unfold pingIfDue
    split
    · rw [calls_updatePingTp, calls_wsSend, htrace]
    · exact htrace
  unfold keepaliveStep at hst
  split at hst
  · split at hst
    · cases hst
      rfl
    · cases hst
  · split at hst
    · cases hst
      rfl
    · cases hst
  · cases hst
    unfold keepaliveRun
    split
    · rfl
    · split
      · unfold keepaliveReady
        split
        · rw [calls_closeWs, calls_updateReconnTp, hping]
        · split
          · rw [calls_groupClose, calls_notifyAll, calls_setStage, hping]
          · exact hping
      · rfl
  · cases hst

/-- The calls of `send` go on by their own steps only. -/
theorem calls_step {a : ConnectionAct} (hst : s.step a = some t)
    (hsend : ∀ n buf timeout, a ≠ .send n buf timeout) (hsender : ∀ n b, a ≠ .sender n b) :
    t.calls = s.calls := by
  unfold step at hst
  split at hst
  · cases hst
  · split at hst
    · unfold initializeConn at hst
      split at hst
      · cases hst
        rfl
      · cases hst
    · exact calls_release hst
    · unfold reconn at hst
      split at hst
      · cases hst
        exact calls_closeWs _
      · cases hst
    · exact absurd rfl (hsend _ _ _)
    · exact absurd rfl (hsender _ _)
    · cases hst
      have htake : ∀ valid, (s.takeResp valid).calls = s.calls := by
        intro valid
        unfold takeResp
        split <;> rfl
      unfold recv
      split
      · split
        · rfl
        · exact htake _
      · split
        · rfl
        · exact htake _
      · exact htake _
    · cases hst
      rfl
    · exact calls_workStep hst
    · exact calls_hub hst
    · exact calls_keepaliveStep hst
    · cases hst
      rfl
    · cases hst
      rfl

end Calls

/-! ### Observing the writes -/

/-- The bytes of a call that has not returned. -/
def SendPc.buf : SendPc → Option Bytes
  | .idle | .returned _ => none
  | .ensure buf _ | .waiting buf _ | .voiceTp buf | .wsTest buf | .wsSend buf => some buf

/-- `ensure_connection_available` has returned true, and `ws_->send` has not been called. -/
def SendPc.past : SendPc → Bool
  | .voiceTp _ | .wsTest _ | .wsSend _ => true
  | .idle | .ensure _ _ | .waiting _ _ | .returned _ => false

@[simp] theorem SendPc.forget_buf (pc : SendPc) : pc.forget.buf = pc.buf := by
  cases pc <;> rfl

@[simp] theorem SendPc.forget_past (pc : SendPc) : pc.forget.past = pc.past := by
  cases pc <;> rfl

/-- The stage is READY and `ws_` is the socket the server has accepted. -/
def live (s : SpeechConnection) : Bool :=
  s.stage = .ready && s.ws.isSome && s.ws = s.accepted

/-- A call of `ws_->send`, and how the connection was then. -/
structure Write where
  buf : Bytes
  socket : Nat
  stage : ConnectStage
  /-- `socket` is the one the server has accepted last. -/
  authorized : Bool
deriving DecidableEq, Repr

structure Observed where
  conn : SpeechConnection := {}
  /-- The bytes of the last call of `send`, for each thread. -/
  buf : Nat → Bytes := fun _ => []
  /-- The writes of that call. -/
  writes : Nat → List Write := fun _ => []
  /-- The threads whose call is between `ensure_connection_available` and `ws_->send`. -/
  past : List Nat := []

/-- The write the next step of a call makes. -/
def written (n : Nat) (s : SpeechConnection) : List Write :=
  match s.senders n, s.ws with
  | .wsSend buf, some w => [{ buf := buf, socket := w, stage := s.stage,
                              authorized := s.accepted = some w }]
  | _, _ => []

namespace Observed

/-- The connection has gone on to `t`. -/
def observe (a : ConnectionAct) (t : SpeechConnection) (o : Observed) : Observed :=
  match a with
  | .send n (some buf) _ =>
      { o with
        conn := t, buf := Function.update o.buf n buf, writes := Function.update o.writes n [] }
  | .sender n _ =>
      let others := o.past.filter fun m => m ≠ n
      { o with
        conn := t
        writes := Function.update o.writes n (o.writes n ++ o.conn.written n)
        past := if (t.senders n).past then n :: others else others }
  | _ => { o with conn := t }

def step (o : Observed) (a : ConnectionAct) : Option Observed :=
  (o.conn.step a).map fun t => o.observe a t

def Steps (o : Observed) (a : ConnectionAct) (o' : Observed) : Prop := o.step a = some o'

/-- The last call of thread `n` was worth its SUCCESS: the bytes were written once, to an
    authorized socket, while the stage was READY. -/
def Delivered (n : Nat) (o : Observed) : Prop :=
  ∃ w, o.writes n = [{ buf := o.buf n, socket := w, stage := .ready, authorized := true }]

instance (n : Nat) (o : Observed) : Decidable (o.Delivered n) :=
  decidable_of_iff
    (∃ x ∈ (o.writes n).head?, o.writes n =
      [{ buf := o.buf n, socket := x.socket, stage := .ready, authorized := true }])
    (by
      constructor
      · rintro ⟨x, -, hx⟩
        exact ⟨x.socket, hx⟩
      · rintro ⟨w, hw⟩
        exact ⟨_, by rw [hw]; rfl, hw⟩)

end Observed

/-! ### What must not happen -/

/-- `ensure_connection_available` finds the stage READY. -/
def enters (n : Nat) (s : SpeechConnection) : Bool :=
  match s.senders n with
  | .ensure _ _ | .waiting _ _ => s.stage = .ready
  | _ => false

/-- The step takes the stage away from READY, or the socket. -/
def disturbs (s : SpeechConnection) (a : ConnectionAct) : Bool :=
  match s.step a with
  | none => false
  | some t => s.live && !t.live

namespace Observed

/-- `ensure_connection_available` finds READY only with the socket that was accepted, and nobody
    takes the stage or the socket away before `ws_->send`. -/
def undisturbed (o : Observed) (a : ConnectionAct) : Bool :=
  (o.past.isEmpty || !o.conn.disturbs a) &&
    match a with
    | .sender n _ => !o.conn.enters n || o.conn.live
    | _ => true

def Undisturbed (o : Observed) (a : ConnectionAct) : Prop := o.undisturbed a = true

instance (o : Observed) (a : ConnectionAct) : Decidable (Undisturbed o a) :=
  inferInstanceAs (Decidable (_ = true))

end Observed

/-! ### A step of `send` -/

/-- **What a call of `send` can do next.** -/
inductive SenderMove (s : SpeechConnection) (n : Nat) : SpeechConnection → Prop where
  | enter {buf : Bytes} (hbuf : (s.senders n).buf = some buf) (hpast : (s.senders n).past = false)
      (henters : s.enters n = true) : SenderMove s n (s.setSender n (.voiceTp buf))
  | wait {buf : Bytes} {w : Wait} {u : SpeechConnection} (hbuf : (s.senders n).buf = some buf)
      (hpast : (s.senders n).past = false) (hstage : s.stage ≠ .ready) (hu : u.calls = s.calls) :
      SenderMove s n (u.setSender n (.waiting buf w))
  | timeout {buf : Bytes} (hbuf : (s.senders n).buf = some buf)
      (hpast : (s.senders n).past = false) :
      SenderMove s n (s.setSender n (.returned .connectionNotAvailable))
  | touch {buf : Bytes} (hpc : s.senders n = .voiceTp buf) :
      SenderMove s n (s.updateVoiceTp.setSender n (.wsTest buf))
  | drop {buf : Bytes} (hpc : s.senders n = .wsTest buf) (hws : s.ws = none) :
      SenderMove s n (s.setSender n (.returned .success))
  | test {buf : Bytes} {w : Nat} (hpc : s.senders n = .wsTest buf) (hws : s.ws = some w) :
      SenderMove s n (s.setSender n (.wsSend buf))
  | write {buf : Bytes} {w : Nat} (hpc : s.senders n = .wsSend buf) (hws : s.ws = some w) :
      SenderMove s n ((s.wsSend (.binary buf)).setSender n (.returned .success))
  | crash {buf : Bytes} (hpc : s.senders n = .wsSend buf) (hws : s.ws = none) :
      SenderMove s n { s with crashed := true }

variable {s t : SpeechConnection}

theorem wantConnection_ready (h : s.stage = .ready) : s.wantConnection = s := by
  unfold wantConnection
  rw [h]
  rfl

theorem calls_wantConnection : s.wantConnection.calls = s.calls := by
  unfold wantConnection
  split
  · rw [calls_notifyAll]
    rfl
  · rfl

theorem wantConnection_not_ready (h : s.stage ≠ .ready) : s.wantConnection.stage ≠ .ready := by
  unfold wantConnection
  split
  · simp [notifyAll, updateReconnTp, setStage]
  · exact h

theorem sendStep_sender {n : Nat} {timedOut : Bool} (hst : s.sendStep n timedOut = some t) :
    SenderMove s n t := by
  unfold sendStep at hst
  split at hst
  · cases hst
  · cases hst
  · rename_i buf timeout hpc
    split at hst
    · cases hst
      have hbuf : (s.senders n).buf = some buf := by rw [hpc]; rfl
      have hpast : (s.senders n).past = false := by rw [hpc]; rfl
      by_cases hstage : s.stage = .ready
      · rw [wantConnection_ready hstage, untilReady, if_pos hstage]
        exact .enter hbuf hpast (by simp [enters, hpc, hstage])
      · rw [untilReady, if_neg (wantConnection_not_ready hstage)]
        exact .wait hbuf hpast hstage calls_wantConnection
    · cases hst
  · rename_i buf w hpc
    have hbuf : (s.senders n).buf = some buf := by rw [hpc]; rfl
    have hpast : (s.senders n).past = false := by rw [hpc]; rfl
    split at hst
    · split at hst
      · split at hst
        · cases hst
        · split at hst
          · cases hst
            exact .timeout hbuf hpast
          · cases hst
      · cases hst
        by_cases hstage : s.stage = .ready
        · rw [untilReady, if_pos hstage]
          exact .enter hbuf hpast (by simp [enters, hpc, hstage])
        · rw [untilReady, if_neg hstage]
          exact .wait hbuf hpast hstage rfl
    · cases hst
  · rename_i buf hpc
    cases hst
    exact .touch hpc
  · rename_i buf hpc
    cases hst
    cases hws : s.ws with
    | none => exact .drop hpc hws
    | some w => exact .test hpc hws
  · rename_i buf hpc
    split at hst
    · rename_i hsome
      cases hst
      obtain ⟨w, hws⟩ := Option.isSome_iff_exists.mp hsome
      exact .write hpc hws
    · rename_i hnone
      cases hst
      exact .crash hpc (by simpa using hnone)

/-! ### The invariant -/

theorem pc_of_calls (h : t.calls = s.calls) (n : Nat) :
    (t.senders n).buf = (s.senders n).buf ∧ (t.senders n).past = (s.senders n).past ∧
      ∀ r, t.senders n = .returned r → s.senders n = .returned r := by
  have hn : (t.senders n).forget = (s.senders n).forget := congrFun h n
  refine ⟨?_, ?_, ?_⟩
  · rw [← SendPc.forget_buf, hn, SendPc.forget_buf]
  · rw [← SendPc.forget_past, hn, SendPc.forget_past]
  · intro r hr
    rw [hr] at hn
    cases hs : s.senders n with
    | returned r' =>
        rw [hs] at hn
        exact hn.symm
    | _ =>
        rw [hs] at hn
        cases hn

namespace Observed

structure Sending (o : Observed) : Prop where
  past : ∀ n, (o.conn.senders n).past = true → n ∈ o.past
  /-- A call that has passed the test still sees what the test saw. -/
  live : o.past ≠ [] → o.conn.live = true
  /-- A call that has not returned has written nothing. -/
  unsent : ∀ n b, (o.conn.senders n).buf = some b → b = o.buf n ∧ o.writes n = []
  done : ∀ n, o.conn.senders n = .returned .success → o.Delivered n
  sound : ∀ n, ∀ x ∈ o.writes n, x.stage = .ready ∧ x.authorized = true

variable {o o' : Observed} {a : ConnectionAct}

theorem Sending.start : ({} : Observed).Sending where
  past := fun _ h => by cases h
  live := fun h => absurd rfl h
  unsent := fun _ _ h => by cases h
  done := fun _ h => by cases h
  sound := fun _ _ h => by cases h

theorem Undisturbed.live {t : SpeechConnection} (h : o.Sending) (hok : o.Undisturbed a)
    (hst : o.conn.step a = some t) (hpast : o.past ≠ []) : t.live = true := by
  have hlive := h.live hpast
  simp only [Undisturbed, undisturbed, Bool.and_eq_true, Bool.or_eq_true, List.isEmpty_iff,
    hpast, false_or] at hok
  obtain ⟨hquiet, -⟩ := hok
  by_contra hdead
  rw [Bool.not_eq_true] at hdead
  have hdisturbs : o.conn.disturbs a = true := by
    unfold disturbs
    rw [hst]
    simp [hlive, hdead]
  rw [hdisturbs] at hquiet
  cases hquiet

theorem Undisturbed.enter {n : Nat} {timedOut : Bool}
    (hok : o.Undisturbed (.sender n timedOut)) (henters : o.conn.enters n = true) :
    o.conn.live = true := by
  simp only [Undisturbed, undisturbed, Bool.and_eq_true, henters] at hok
  simpa using hok.2

/-- Whoever else moves, the calls and their writes are as they were. -/
theorem Sending.others {t : SpeechConnection} (h : o.Sending) (hcalls : t.calls = o.conn.calls)
    (hlive : o.past ≠ [] → t.live = true) : ({ o with conn := t } : Observed).Sending where
  past := by
    intro n hn
    obtain ⟨-, hpast, -⟩ := pc_of_calls hcalls n
    exact h.past n (hpast.symm.trans hn)
  live := hlive
  unsent := by
    intro n b hb
    obtain ⟨hbuf, -, -⟩ := pc_of_calls hcalls n
    exact h.unsent n b (hbuf.symm.trans hb)
  done := by
    intro n hn
    obtain ⟨-, -, hret⟩ := pc_of_calls hcalls n
    exact h.done n (hret _ hn)
  sound := h.sound

/-- Thread `n` moves to `pc`; `buf` and `writes` are those of its call then. -/
theorem Sending.own {u : SpeechConnection} {n : Nat} {pc : SendPc} {buf : Bytes}
    {writes : List Write} {past : List Nat} (h : o.Sending) (hcalls : u.calls = o.conn.calls)
    (hothers : ∀ m, m ≠ n → m ∈ o.past → m ∈ past) (hpast : pc.past = true → n ∈ past)
    (hlive : past ≠ [] → u.live = true)
    (hunsent : ∀ b, pc.buf = some b → b = buf ∧ writes = [])
    (hdone : pc = .returned .success →
      ∃ w, writes = [{ buf := buf, socket := w, stage := .ready, authorized := true }])
    (hsound : ∀ x ∈ writes, x.stage = .ready ∧ x.authorized = true) :
    ({ conn := u.setSender n pc, buf := Function.update o.buf n buf,
       writes := Function.update o.writes n writes, past := past } : Observed).Sending where
  past := by
    intro m hm
    by_cases hmn : m = n
    · subst hmn
      exact hpast (by simpa [setSender] using hm)
    · obtain ⟨-, hsame, -⟩ := pc_of_calls hcalls m
      have hm' : (u.senders m).past = true := by simpa [setSender, hmn] using hm
      exact hothers m hmn (h.past m (hsame.symm.trans hm'))
  live := hlive
  unsent := by
    intro m b hb
    by_cases hmn : m = n
    · subst hmn
      simpa using hunsent b (by simpa [setSender] using hb)
    · obtain ⟨hsame, -, -⟩ := pc_of_calls hcalls m
      have hb' : (u.senders m).buf = some b := by simpa [setSender, hmn] using hb
      simpa [hmn] using h.unsent m b (hsame.symm.trans hb')
  done := by
    intro m hm
    by_cases hmn : m = n
    · subst hmn
      simpa [Delivered] using hdone (by simpa [setSender] using hm)
    · obtain ⟨-, -, hsame⟩ := pc_of_calls hcalls m
      have hm' : u.senders m = .returned .success := by simpa [setSender, hmn] using hm
      simpa [Delivered, hmn] using h.done m (hsame _ hm')
  sound := by
    intro m x hx
    by_cases hmn : m = n
    · subst hmn
      exact hsound x (by simpa using hx)
    · exact h.sound m x (by simpa [hmn] using hx)

/-- A call of `send` begins, or fails at once. -/
theorem Sending.call {t : SpeechConnection} {n : Nat} {buf : Option Bytes}
    {timeout : BitVec 32} (h : o.Sending) (hst : o.conn.send n buf timeout = some t)
    (hlive : o.past ≠ [] → t.live = true) :
    (o.observe (.send n buf timeout) t).Sending := by
  have hothers : ∀ m, m ≠ n → m ∈ o.past → m ∈ o.past := fun _ _ hm => hm
  have hrefuse : ({ o with conn := o.conn.setSender n (.returned .invalidPbObj) } :
      Observed).Sending := by
    have hsame : ({
        conn := o.conn.setSender n (.returned .invalidPbObj)
        buf := Function.update o.buf n (o.buf n)
        writes := Function.update o.writes n (o.writes n)
        past := o.past } : Observed).Sending := by
      apply h.own rfl hothers
      · intro hp
        cases hp
      · exact h.live
      · intro b hb
        cases hb
      · intro hr
        cases hr
      · exact h.sound n
    rwa [Function.update_eq_self, Function.update_eq_self] at hsame
  have hbegin : ∀ buf, ({ o with
      conn := o.conn.setSender n (.ensure buf timeout)
      buf := Function.update o.buf n buf
      writes := Function.update o.writes n [] } : Observed).Sending := by
    intro buf
    apply h.own rfl hothers
    · intro hp
      cases hp
    · exact h.live
    · intro b hb
      cases hb
      exact ⟨rfl, rfl⟩
    · intro hr
      cases hr
    · intro x hx
      cases hx
  unfold send at hst
  split at hst
  · cases hst
    exact hrefuse
  · cases hst
    exact hrefuse
  · cases hst
    exact hbegin _
  · cases hst
    exact hbegin _
  · cases hst

/-- A call of `send` goes on to `pc`. -/
theorem Sending.goesOn {u : SpeechConnection} {n : Nat} {timedOut : Bool} {pc : SendPc}
    (h : o.Sending) (hcalls : u.calls = o.conn.calls)
    (hlive : pc.past = true ∨ o.past ≠ [] → u.live = true)
    (hunsent : ∀ b, pc.buf = some b → b = o.buf n ∧ o.writes n ++ o.conn.written n = [])
    (hdone : pc = .returned .success → ∃ w, o.writes n ++ o.conn.written n =
      [{ buf := o.buf n, socket := w, stage := .ready, authorized := true }])
    (hsound : ∀ x ∈ o.conn.written n, x.stage = .ready ∧ x.authorized = true) :
    (o.observe (.sender n timedOut) (u.setSender n pc)).Sending := by
  have hpc : ((u.setSender n pc).senders n) = pc := by simp [setSender]
  have hmem : ∀ m, m ≠ n → m ∈ o.past → m ∈ o.past.filter fun m => m ≠ n :=
    fun m hmn hm => List.mem_filter.mpr ⟨hm, by simpa using hmn⟩
  have hown : ({
      conn := u.setSender n pc
      buf := Function.update o.buf n (o.buf n)
      writes := Function.update o.writes n (o.writes n ++ o.conn.written n)
      past := if pc.past then n :: o.past.filter fun m => m ≠ n
        else o.past.filter fun m => m ≠ n } : Observed).Sending := by
    apply h.own hcalls
    · intro m hmn hm
      split
      · exact List.mem_cons_of_mem _ (hmem m hmn hm)
      · exact hmem m hmn hm
    · intro hp
      rw [if_pos hp]
      exact List.mem_cons_self
    · intro hne
      apply hlive
      by_cases hp : pc.past = true
      · exact .inl hp
      · rw [if_neg hp] at hne
        right
        intro hnil
        rw [hnil] at hne
        exact hne rfl
    · exact hunsent
    · exact hdone
    · intro x hx
      rcases List.mem_append.mp hx with hx | hx
      · exact h.sound n x hx
      · exact hsound x hx
  rw [Function.update_eq_self] at hown
  unfold observe
  simp only [hpc]
  exact hown

/-- It goes on without a write, and not to SUCCESS. -/
theorem Sending.goesOnUnsent {u : SpeechConnection} {n : Nat} {timedOut : Bool} {pc : SendPc}
    (h : o.Sending) (hcalls : u.calls = o.conn.calls)
    (hlive : pc.past = true ∨ o.past ≠ [] → u.live = true)
    (hwritten : ∀ buf, o.conn.senders n ≠ .wsSend buf)
    (hbuf : ∀ b, pc.buf = some b → (o.conn.senders n).buf = some b)
    (hpc : pc ≠ .returned .success) :
    (o.observe (.sender n timedOut) (u.setSender n pc)).Sending := by
  have hnone : o.conn.written n = [] := by
    unfold written
    split
    · rename_i buf w hsend hws
      exact absurd hsend (hwritten buf)
    · rfl
  refine h.goesOn hcalls hlive ?_ ?_ ?_
  · intro b hb
    obtain ⟨hsame, hw⟩ := h.unsent n b (hbuf b hb)
    exact ⟨hsame, by rw [hw, hnone]; rfl⟩
  · intro hr
    exact absurd hr hpc
  · intro x hx
    rw [hnone] at hx
    cases hx

/-- A call of `send` goes on. -/
theorem Sending.sender {t : SpeechConnection} {n : Nat} {timedOut : Bool} (h : o.Sending)
    (hok : o.Undisturbed (.sender n timedOut)) (hst : o.conn.sendStep n timedOut = some t)
    (hlive : o.past ≠ [] → t.live = true) :
    (o.observe (.sender n timedOut) t).Sending := by
  have hwaits : (o.conn.senders n).past = false → ∀ buf, o.conn.senders n ≠ .wsSend buf := by
    intro hp buf hpc
    rw [hpc] at hp
    cases hp
  have hsocket : (o.conn.senders n).past = true → o.conn.live = true :=
    fun hp => h.live (List.ne_nil_of_mem (h.past n hp))
  cases sendStep_sender hst with
  | enter hbuf hpast henters =>
      apply h.goesOnUnsent rfl
      · exact fun _ => hok.enter henters
      · exact hwaits hpast
      · intro b hb
        cases hb
        exact hbuf
      · simp
  | wait hbuf hpast hstage hu =>
      apply h.goesOnUnsent hu
      · rintro (hp | hne)
        · cases hp
        · exact hlive hne
      · exact hwaits hpast
      · intro b hb
        cases hb
        exact hbuf
      · simp
  | timeout hbuf hpast =>
      apply h.goesOnUnsent rfl
      · rintro (hp | hne)
        · cases hp
        · exact hlive hne
      · exact hwaits hpast
      · intro b hb
        cases hb
      · simp
  | touch hpc =>
      apply h.goesOnUnsent (calls_updateVoiceTp _)
      · exact fun _ => hsocket (by rw [hpc]; rfl)
      · simp [hpc]
      · intro b hb
        cases hb
        exact congrArg SendPc.buf hpc
      · simp
  | drop hpc hws =>
      have hdead := hsocket (by rw [hpc]; rfl)
      simp [SpeechConnection.live, hws] at hdead
  | test hpc hws =>
      apply h.goesOnUnsent rfl
      · exact fun _ => hsocket (by rw [hpc]; rfl)
      · simp [hpc]
      · intro b hb
        cases hb
        exact congrArg SendPc.buf hpc
      · simp
  | @write buf w hpc hws =>
      have hready := hsocket (by rw [hpc]; rfl)
      obtain ⟨hb, hw⟩ := h.unsent n _ (congrArg SendPc.buf hpc)
      obtain ⟨⟨hstage, -⟩, hacc⟩ : (o.conn.stage = .ready ∧ o.conn.ws.isSome = true) ∧
          o.conn.ws = o.conn.accepted := by
        simpa [SpeechConnection.live] using hready
      have hwritten : o.conn.written n =
          [{ buf := buf, socket := w, stage := .ready, authorized := true }] := by
        unfold written
        rw [hpc, hws, ← hacc, hws, hstage]
        simp
      apply h.goesOn (calls_wsSend _ _)
      · rintro (hp | hne)
        · cases hp
        · exact hlive hne
      · intro b hb'
        cases hb'
      · intro _
        exact ⟨w, by rw [hw, hwritten, ← hb]; rfl⟩
      · intro x hx
        rw [hwritten] at hx
        obtain rfl := List.mem_singleton.mp hx
        exact ⟨rfl, rfl⟩
  | crash hpc hws =>
      have hdead := hsocket (by rw [hpc]; rfl)
      simp [SpeechConnection.live, hws] at hdead

/-- **One step.** -/
theorem Sending.step (h : o.Sending) (hok : o.Undisturbed a) (hst : o.Steps a o') :
    o'.Sending := by
  unfold Steps Observed.step at hst
  obtain ⟨t, ht, rfl⟩ := Option.map_eq_some_iff.mp hst
  have hlive : o.past ≠ [] → t.live = true := Undisturbed.live h hok ht
  have hlocal : (∀ n buf timeout, a ≠ .send n buf timeout) → (∀ n b, a ≠ .sender n b) →
      ({ o with conn := t } : Observed).Sending :=
    fun hsend hsender => h.others (calls_step ht hsend hsender) hlive
  cases a with
  | send n buf timeout =>
      apply h.call _ hlive
      unfold SpeechConnection.step at ht
      split at ht
      · cases ht
      · exact ht
  | sender n timedOut =>
      apply h.sender hok _ hlive
      unfold SpeechConnection.step at ht
      split at ht
      · cases ht
      · exact ht
  | _ =>
      apply hlocal
      · intro n buf timeout hn
        cases hn
      · intro n b hn
        cases hn

end Observed

open Observed

/-- **SUCCESS means delivered** in every run in which nobody disturbs a call on its way to
    `ws_->send`: the bytes were written once, on the socket the server has accepted, while the
    stage was READY; and no call has ever written to another socket. -/
theorem send_delivers {o : Observed} (hrun : Run Observed.Steps Undisturbed {} o) :
    (∀ n, o.conn.senders n = .returned .success → o.Delivered n) ∧
      ∀ n, ∀ x ∈ o.writes n, x.stage = .ready ∧ x.authorized = true := by
  have h : o.Sending := hrun.invariant (fun _ _ _ h hok hst => h.step hok hst) .start
  exact ⟨h.done, h.sound⟩

/-! ### Runs -/

/-- The server accepts the connection, and the byte a thread waits to send is sent. -/
theorem send_delivers_answered :
    ∃ o, exec Observed.step {} (answered ++ [.work false, .sender 0 false, .sender 0 false,
        .sender 0 false, .sender 0 false]) = some o ∧
      o.conn.senders 0 = .returned .success ∧ o.Delivered 0 := by
  have hok : allOk Observed.step Undisturbed {} (answered ++ [.work false, .sender 0 false,
      .sender 0 false, .sender 0 false, .sender 0 false]) = true := by
    decide +kernel
  exact ⟨_, rfl, rfl, (send_delivers (Run.of_exec hok rfl)).1 0 rfl⟩

/-- The stage is READY, and a thread has passed the test of it. -/
def passed : List ConnectionAct := answered ++ [.work false, .sender 0 false]

/-- `reconn` takes the socket away in between: SUCCESS without a write.  When the work thread has
    opened the next socket before the thread goes on, the bytes go there, before its
    authorization. -/
theorem send_undelivered :
    (∃ o, Run Observed.Steps Always {} o ∧ o.conn.senders 0 = .returned .success ∧
      o.writes 0 = []) ∧
    ∃ o, Run Observed.Steps Always {} o ∧ o.conn.senders 0 = .returned .success ∧
      o.writes 0 = [{ buf := [1], socket := 1, stage := .authorizing, authorized := false }] := by
  have hlost : allOk Observed.step Always {} (passed ++ [.reconn, .sender 0 false,
      .sender 0 false]) = true := by
    decide +kernel
  have hearly : allOk Observed.step Always {} (passed ++ [.reconn, .hub .finished, .work false,
      .work false, .work false, .hub .connected, .work false, .sender 0 false, .sender 0 false,
      .sender 0 false]) = true := by
    decide +kernel
  exact ⟨⟨_, Run.of_exec hlost rfl, rfl, rfl⟩, ⟨_, Run.of_exec hearly rfl, rfl, rfl⟩⟩

end SpeechConnection

end OpenVoice
