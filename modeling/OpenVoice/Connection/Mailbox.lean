import OpenVoice.Connection.Closed
import OpenVoice.Connection.Socket
import OpenVoice.Lib.Traced

/-!
# What `recv` returns

The hub hands a message to `onMessage`, which in the stage READY puts it into `responses_`; another
thread takes the responses out in `recv`.  In between other threads put entries without data into
`responses_`, and `release` clears it.  The messages come out as they came in.
-/

namespace OpenVoice

open OpenVoice.Lib

namespace SpeechConnection

/-- What `recv` makes of a message: the length of an entry is a `uint32_t`. -/
def mailed (data : Bytes) : Bytes := data.take (BitVec.ofNat 32 data.length).toNat

/-- Messages of less than 4 GiB are returned whole. -/
theorem mailed_of_lt {data : Bytes} (h : data.length < 4294967296) : mailed data = data := by
  unfold mailed
  rw [BitVec.toNat_ofNat, Nat.mod_eq_of_lt h, List.take_length]

/-- The messages in `responses_`. -/
def mail (s : SpeechConnection) : List Bytes :=
  (s.responses.filter fun resp => resp.type = .data).map fun resp =>
    resp.data.take resp.length.toNat

/-- The message that `onMessage` is about to put into `responses_`. -/
def WorkPc.hand : WorkPc → List Bytes
  | .recvTp msg | .pushData msg => [mailed msg.data]
  | _ => []

/-- The messages that have come in and not gone out. -/
def pending (s : SpeechConnection) : List Bytes := s.mail ++ s.work.hand

/-- What comes in and what goes out. -/
inductive MailEvent where
  /-- The hub reports a message while the stage is READY. -/
  | arrived (data : Bytes)
  /-- `recv` returns data. -/
  | received (data : Bytes)
  /-- `release` clears `responses_`. -/
  | dropped (mail : List Bytes)
deriving DecidableEq, Repr

def MailEvent.comes : MailEvent → List Bytes
  | .arrived data => [mailed data]
  | _ => []

def MailEvent.goes : MailEvent → List Bytes
  | .arrived _ => []
  | .received data => [data]
  | .dropped mail => mail

/-- The data that a call of `recv` returns. -/
def RecvPc.data : RecvPc → List MailEvent
  | .returned .success data | .returned .invalidPbData data => [.received data]
  | _ => []

/-- What is observed in a step. -/
def mailEvents (s : SpeechConnection) : ConnectionAct → List MailEvent
  | .hub (.message _ msg) => if s.stage = .ready then [.arrived msg.data] else []
  | .recv valid => (s.recv valid).receiver.data
  | .release => if s.releasing = .clear then [.dropped s.mail] else []
  | _ => []

/-- Everything that comes in, in order. -/
def arrivals (trace : List MailEvent) : List Bytes := trace.flatMap MailEvent.comes

/-- Everything that goes out, in order. -/
def departures (trace : List MailEvent) : List Bytes := trace.flatMap MailEvent.goes

/-! ### Operations that leave the messages alone -/

variable (s : SpeechConnection)

@[simp] theorem WorkPc.forget_hand (pc : WorkPc) : pc.forget.hand = pc.hand := by
  cases pc <;> rfl

@[simp] theorem WorkPc.notified_hand (pc : WorkPc) : pc.notified.hand = pc.hand := by
  cases pc <;> rfl

theorem mail_pushStatusResp (tp : BinRespType) (h : tp ≠ .data) :
    (s.pushStatusResp tp).mail = s.mail := by
  simp [mail, pushStatusResp, List.filter_append, h]

theorem mail_pushRespData (msg : Bytes) :
    (s.pushRespData msg).mail = s.mail ++ [mailed msg] := by
  simp [mail, pushRespData, List.filter_append, mailed]

@[simp] theorem mail_wsSend (frame : Frame) : (s.wsSend frame).mail = s.mail := by
  unfold wsSend
  split <;> rfl

@[simp] theorem mail_onDisconnection : s.onDisconnection.mail = s.mail := by
  rcases Decidable.em (s.stage = .paused ∨ s.stage = .closed) with h | h
  · rw [onDisconnection_of_idle h]
    rfl
  · rw [onDisconnection_of_busy h]
    exact mail_pushStatusResp (s.setWs none) .error (by decide)

@[simp] theorem mail_close (w : Nat) : (s.close w).mail = s.mail :=
  mail_onDisconnection _

@[simp] theorem mail_closeWs : s.closeWs.mail = s.mail := by
  unfold closeWs
  split
  · rfl
  · exact mail_close s _

@[simp] theorem mail_groupClose : s.groupClose.mail = s.mail := by
  have h : ∀ (ws : List Nat) (t : SpeechConnection),
      (ws.foldl (fun s w => s.close w) t).mail = t.mail := by
    intro ws
    induction ws with
    | nil => exact fun t => rfl
    | cons w ws ih => exact fun t => (ih _).trans (mail_close t w)
  exact h s.sockets s

@[simp] theorem mail_connect (fails : Bool) : (s.connect fails).mail = s.mail := by
  unfold connect
  split
  · unfold onError
    have hmail := mail_pushStatusResp s .error (by decide)
    split
    · rfl
    · simp only
      split
      · exact hmail
      · exact hmail
  · rfl

@[simp] theorem mail_run (fails : Bool) : (s.run fails).mail = s.mail := by
  unfold run
  split
  · rfl
  · split
    · exact mail_connect (s.setStage .connecting) fails
    · rfl
  · rfl
  · rfl

@[simp] theorem mail_onConnection (w : Nat) : (s.onConnection w).mail = s.mail := by
  unfold onConnection
  split
  · rfl
  · unfold auth
    simp only
    split
    · rfl
    · exact mail_wsSend _ _

@[simp] theorem mail_onAuthResult (w : Nat) (msg : Message) :
    (s.onAuthResult w msg).mail = s.mail := by
  unfold onAuthResult
  split
  · rfl
  · exact mail_closeWs (s.updateReconnTp _)

theorem hand_run {fails : Bool} (hpc : s.work = .locked) : (s.run fails).work.hand = [] := by
  have hhand : s.work.hand = [] := by
    rw [hpc]
    rfl
  unfold run
  split
  · rfl
  · split
    · unfold connect
      split
      · unfold onError
        split
        · rfl
        · simp only
          split
          · exact hhand
          · exact (WorkPc.notified_hand _).trans hhand
      · exact hhand
    · rfl
  · rfl
  · rfl

/-- What the keepalive thread sends. -/
@[simp] theorem mail_sends : s.sendTraceInfo.pingIfDue.mail = s.mail := by
  have htrace : s.sendTraceInfo.mail = s.mail := by
    unfold sendTraceInfo
    split
    · rfl
    · exact mail_wsSend _ _
  unfold pingIfDue
  split
  · exact (mail_wsSend s.sendTraceInfo _).trans htrace
  · exact htrace

variable {s} {t : SpeechConnection}

/-- Nothing comes in, nothing goes out. -/
theorem pending_eq (hmail : t.mail = s.mail) (hhand : t.work.hand = s.work.hand) :
    t.pending = s.pending := by
  unfold pending
  rw [hmail, hhand]

/-- Another thread than the work thread. -/
theorem pending_of_link (hmail : t.mail = s.mail) (hlink : t.link.work = s.link.work) :
    t.pending = s.pending := by
  have hwork : t.work.forget = s.work.forget := hlink
  apply pending_eq hmail
  rw [← t.work.forget_hand, hwork, WorkPc.forget_hand]

theorem link_work_closeWs (s : SpeechConnection) : s.closeWs.link.work = s.link.work := by
  rcases link_closeWs s with ⟨-, heq⟩ | ⟨w, -, heq⟩
  · rw [heq]
  · rw [heq]
    unfold Link.disconnect
    split <;> rfl

theorem link_work_groupClose (s : SpeechConnection) : s.groupClose.link.work = s.link.work := by
  rcases link_groupClose s with heq | heq
  · rw [heq]
  · rw [heq]
    unfold Link.disconnect
    split <;> rfl

/-! ### The steps -/

theorem pending_initializeConn {options : PrepareOptions} (hsingle : s.hubPart.Single)
    (hst : s.initializeConn options = some t) : t.pending = s.pending := by
  unfold initializeConn at hst
  split at hst
  · rename_i hno
    cases hst
    apply pending_eq
    · rfl
    · have hdone : s.work.forget = .done := hsingle.threads hno.2
      rw [← s.work.forget_hand, hdone]
      rfl
  · cases hst

/-- `release` clears the responses when the threads are gone. -/
theorem pending_release (hst : s.release = some t) :
    if s.releasing = .clear then s.pending = s.mail ++ t.pending else t.pending = s.pending := by
  unfold release at hst
  split at hst
  · rename_i hpc
    rw [if_neg (by simp [hpc])]
    split at hst
    · cases hst
      rfl
    · cases hst
      rfl
  · rename_i hpc
    rw [if_neg (by simp [hpc])]
    split at hst
    · cases hst
      apply pending_of_link
      · exact mail_groupClose _
      · rw [link_setReleasing]
        refine (link_work_groupClose _).trans ?_
        rw [link_notifyAll]
        rfl
    · cases hst
  · rename_i hpc
    rw [if_neg (by simp [hpc])]
    split at hst
    · cases hst
      rfl
    · cases hst
  · rename_i hpc
    rw [if_neg (by simp [hpc])]
    split at hst
    · cases hst
      rfl
    · cases hst
  · rename_i hpc
    rw [if_pos hpc]
    cases hst
    rfl
  · rename_i hpc
    rw [if_neg (by simp [hpc])]
    cases hst
    apply pending_eq
    · exact mail_pushStatusResp s .closed (by decide)
    · rfl

theorem pending_reconn (hst : s.reconn = some t) : t.pending = s.pending := by
  unfold reconn at hst
  split at hst
  · cases hst
    apply pending_of_link
    · exact mail_closeWs (s.updateReconnTp 0)
    · exact link_work_closeWs (s.updateReconnTp 0)
  · cases hst

theorem pending_send {n : Nat} {buf : Option Bytes} {timeout : BitVec 32}
    (hst : s.send n buf timeout = some t) : t.pending = s.pending := by
  unfold send at hst
  split at hst
  · cases hst
    rfl
  · cases hst
    rfl
  · cases hst
    rfl
  · cases hst
    rfl
  · cases hst

theorem pending_sendStep {n : Nat} {timedOut : Bool} (hst : s.sendStep n timedOut = some t) :
    t.pending = s.pending := by
  unfold sendStep at hst
  split at hst
  · cases hst
  · cases hst
  · split at hst
    · cases hst
      have hwant : s.wantConnection.pending = s.pending := by
        unfold wantConnection
        split
        · apply pending_of_link
          · rfl
          · rw [link_notifyAll]
            rfl
        · rfl
      exact hwant
    · cases hst
  · split at hst
    · split at hst
      · split at hst
        · cases hst
        · split at hst
          · cases hst
            rfl
          · cases hst
      · cases hst
        rfl
    · cases hst
  · cases hst
    rfl
  · cases hst
    rfl
  · split at hst
    · cases hst
      apply pending_of_link
      · exact mail_wsSend s _
      · rw [link_setSender, link_wsSend]
    · cases hst
      rfl

theorem pending_keepaliveStep (hst : s.keepaliveStep = some t) : t.pending = s.pending := by
  unfold keepaliveStep at hst
  split at hst
  · split at hst
    · cases hst
      rfl
    · cases hst
  · split at hst
    · cases hst
      rfl
    · cases hst
  · cases hst
    unfold keepaliveRun
    split
    · rfl
    · split
      · have hmail := mail_sends s
        have hlink := (sends_ready (s := s)).1
        unfold keepaliveReady
        split
        · apply pending_of_link
          · exact (mail_closeWs _).trans hmail
          · rw [link_work_closeWs, link_updateReconnTp, hlink]
        · split
          · apply pending_of_link
            · exact (mail_groupClose _).trans hmail
            · rw [link_work_groupClose, link_notifyAll, link_setStage, hlink]
          · apply pending_of_link
            · exact hmail
            · rw [link_setKeepalive, hlink]
      · rfl
  · cases hst

theorem pending_workStep {fails : Bool} (hst : s.workStep fails = some t) :
    t.pending = s.pending := by
  -- the thread goes from one place without a message in hand to another
  have hempty : ∀ {u : SpeechConnection} {pc : WorkPc}, u.mail = s.mail → s.work.hand = [] →
      pc.hand = [] → (u.setWork pc).pending = s.pending := by
    intro u pc hmail hhand hpc
    apply pending_eq
    · exact hmail
    · rw [hhand]
      exact hpc
  unfold workStep at hst
  split at hst
  · rename_i hpc
    split at hst
    · cases hst
      exact hempty rfl (by rw [hpc]; rfl) rfl
    · cases hst
  · rename_i w hpc
    split at hst
    · cases hst
      exact hempty rfl (by rw [hpc]; rfl) rfl
    · cases hst
  · rename_i hpc
    cases hst
    apply pending_eq
    · exact mail_run s fails
    · rw [hand_run s hpc, hpc]
      rfl
  · rename_i w hpc
    split at hst
    · cases hst
      exact hempty (mail_onConnection s w) (by rw [hpc]; rfl) rfl
    · cases hst
  · rename_i w msg hpc
    split at hst
    · cases hst
      exact hempty (mail_onAuthResult s w msg) (by rw [hpc]; rfl) rfl
    · cases hst
  · rename_i msg hpc
    cases hst
    apply pending_eq
    · rfl
    · rw [hpc]
      rfl
  · rename_i msg hpc
    cases hst
    unfold pending
    rw [show ((s.pushRespData msg.data).setWork .running).mail = (s.pushRespData msg.data).mail
      from rfl, mail_pushRespData, hpc]
    exact List.append_nil _
  · rename_i hpc
    cases hst
    exact hempty rfl (by rw [hpc]; rfl) (by split <;> rfl)
  · rename_i hpc
    cases hst
    exact hempty rfl (by rw [hpc]; rfl) (by split <;> rfl)
  · rename_i hpc
    cases hst
    exact hempty (mail_pushStatusResp s .error (by decide)) (by rw [hpc]; rfl) rfl
  · rename_i hpc
    cases hst
    exact hempty rfl (by rw [hpc]; rfl) rfl
  · rename_i ms hpc
    cases hst
    exact hempty rfl (by rw [hpc]; rfl) rfl
  · rename_i hpc
    cases hst
    exact hempty rfl (by rw [hpc]; rfl) rfl
  · rename_i hpc
    split at hst
    · split at hst
      · cases hst
        rfl
      · cases hst
        exact hempty (mail_close s _) (by rw [hpc]; rfl) rfl
    · cases hst
  · rename_i hpc
    cases hst
    exact hempty (mail_pushStatusResp s .error (by decide)) (by rw [hpc]; rfl) rfl
  · rename_i hpc
    cases hst
    exact hempty rfl (by rw [hpc]; rfl) rfl
  · rename_i hpc
    cases hst
    exact hempty rfl (by rw [hpc]; rfl) (by split <;> rfl)
  · rename_i hpc
    cases hst
    exact hempty rfl (by rw [hpc]; rfl) rfl
  · rename_i hpc
    cases hst
    exact hempty rfl (by rw [hpc]; rfl) rfl
  · cases hst
  · cases hst
  · cases hst

/-- The message that the hub reports comes in if the stage is READY. -/
theorem pending_hub {e : HubEvent} (hst : s.hub e = some t) :
    t.pending = s.pending ++ arrivals (s.mailEvents (.hub e)) := by
  unfold hub at hst
  split at hst
  · rename_i hpc
    have hhand : s.work.hand = [] := by
      rw [hpc]
      rfl
    have hempty : ∀ {u : SpeechConnection} {pc : WorkPc}, u.mail = s.mail → pc.hand = [] →
        (u.setWork pc).pending = s.pending ++ [] := by
      intro u pc hmail hpc
      rw [List.append_nil]
      apply pending_eq
      · exact hmail
      · rw [hhand]
        exact hpc
    split at hst
    · split at hst
      · cases hst
      · cases hst
        exact hempty rfl rfl
    · split at hst
      · cases hst
      · cases hst
        exact hempty rfl (by split <;> rfl)
    · rename_i w msg
      split at hst
      · cases hst
        unfold onMessage
        simp only [mailEvents]
        split
        · rename_i hstage
          rw [if_neg (by simp [hstage])]
          exact hempty rfl rfl
        · rename_i hready
          rw [if_pos hready]
          unfold pending
          rw [hhand, List.append_nil]
          rfl
        · rename_i hready
          rw [if_neg hready]
          exact hempty rfl rfl
      · cases hst
    · split at hst
      · cases hst
        exact hempty rfl rfl
      · cases hst
    · split at hst
      · cases hst
        exact (List.append_nil _).symm
      · cases hst
    · split at hst
      · cases hst
        exact hempty rfl rfl
      · cases hst
  · cases hst

/-- `recv` takes the first response. -/
theorem pending_recv (valid : Bool) :
    s.pending = departures (s.mailEvents (.recv valid)) ++ (s.recv valid).pending := by
  have htake : s.pending = departures (s.takeResp valid).receiver.data ++
      (s.takeResp valid).pending := by
    unfold takeResp
    split
    · rfl
    · rename_i resp responses hresp
      obtain ⟨type, length, data⟩ := resp
      cases type with
      | data =>
          cases valid <;>
            simp [pending, mail, hresp, RecvPc.data, departures, MailEvent.goes]
      | error => simp [pending, mail, hresp, RecvPc.data, departures]
      | closed => simp [pending, mail, hresp, RecvPc.data, departures]
  have hrecv : s.pending = departures (s.recv valid).receiver.data ++ (s.recv valid).pending := by
    unfold SpeechConnection.recv
    split
    · split
      · rfl
      · exact htake
    · split
      · rfl
      · exact htake
    · exact htake
  exact hrecv

/-- **One step.** -/
theorem pending_step {a : ConnectionAct} (hsingle : s.hubPart.Single) (hst : s.step a = some t) :
    s.pending ++ arrivals (s.mailEvents a) = departures (s.mailEvents a) ++ t.pending := by
  have hquiet : s.mailEvents a = [] → t.pending = s.pending →
      s.pending ++ arrivals (s.mailEvents a) = departures (s.mailEvents a) ++ t.pending := by
    intro hevents hpending
    rw [hevents, hpending]
    exact List.append_nil _
  unfold step at hst
  split at hst
  · cases hst
  · cases a with
    | prepare options => exact hquiet rfl (pending_initializeConn hsingle hst)
    | release =>
        have hrel := pending_release hst
        unfold mailEvents
        split at hrel
        · rename_i hpc
          rw [if_pos hpc, hrel]
          simp [arrivals, departures, MailEvent.comes, MailEvent.goes]
        · rename_i hpc
          rw [if_neg hpc, hrel]
          exact List.append_nil _
    | reconn => exact hquiet rfl (pending_reconn hst)
    | send n buf timeout => exact hquiet rfl (pending_send hst)
    | sender n timedOut => exact hquiet rfl (pending_sendStep hst)
    | recv valid =>
        cases hst
        have hnone : arrivals (s.mailEvents (.recv valid)) = [] := by
          simp only [mailEvents]
          unfold RecvPc.data
          split <;> rfl
        rw [hnone, List.append_nil]
        exact pending_recv valid
    | addTraceInfo info =>
        cases hst
        exact hquiet rfl rfl
    | work fails => exact hquiet rfl (pending_workStep hst)
    | hub e =>
        have hnone : departures (s.mailEvents (.hub e)) = [] := by
          cases e with
          | message w msg =>
              simp only [mailEvents]
              split <;> rfl
          | _ => rfl
        rw [hnone, List.nil_append]
        exact (pending_hub hst).symm
    | keepalive => exact hquiet rfl (pending_keepaliveStep hst)
    | tick ns =>
        cases hst
        exact hquiet rfl rfl
    | setClock tp =>
        cases hst
        exact hquiet rfl rfl

/-- A step together with what comes in and goes out. -/
def mailStep (u : Traced SpeechConnection MailEvent) (a : ConnectionAct) :
    Option (Traced SpeechConnection MailEvent) :=
  Traced.step step mailEvents u a

/-- Nothing is lost, nothing comes twice, and the order is kept. -/
structure Posted (u : Traced SpeechConnection MailEvent) : Prop where
  single : u.state.hubPart.Single
  balance : arrivals u.trace = departures u.trace ++ u.state.pending

theorem Posted.step {u v : Traced SpeechConnection MailEvent} {a : ConnectionAct} (h : Posted u)
    (hst : mailStep u a = some v) : Posted v := by
  obtain ⟨hstep, htrace⟩ := Traced.step_eq_some.mp hst
  refine ⟨single_step h.single hstep, ?_⟩
  have hpending := pending_step h.single hstep
  rw [htrace]
  unfold arrivals departures at hpending ⊢
  rw [List.flatMap_append, List.flatMap_append]
  calc u.trace.flatMap MailEvent.comes ++ (u.state.mailEvents a).flatMap MailEvent.comes
      = u.trace.flatMap MailEvent.goes ++
          (u.state.pending ++ (u.state.mailEvents a).flatMap MailEvent.comes) := by
        rw [← List.append_assoc]
        exact congrArg (· ++ _) h.balance
    _ = u.trace.flatMap MailEvent.goes ++ (u.state.mailEvents a).flatMap MailEvent.goes ++
          v.state.pending := by
        rw [hpending, List.append_assoc]

/-- **`recv` is a FIFO.**  In every run, the messages that the hub has reported while the stage was
    READY are, in this order: those `recv` has returned or `release` has dropped, those in
    `responses_`, and the one that `onMessage` is about to put there.  However the other threads
    come in between, no message is lost, none is returned twice, and the order is kept. -/
theorem recv_fifo {u : Traced SpeechConnection MailEvent}
    (hrun : Run (fun u a v => mailStep u a = some v) Always ⟨{}, []⟩ u) :
    arrivals u.trace = departures u.trace ++ (u.state.mail ++ u.state.work.hand) := by
  have hstep : ∀ (v : Traced SpeechConnection MailEvent) (a : ConnectionAct)
      (w : Traced SpeechConnection MailEvent),
      Posted v → Always v a → mailStep v a = some w → Posted w :=
    fun v a w h _ hst => h.step hst
  have hopen : Posted ⟨{}, []⟩ := ⟨Hub.single_of_run (.refl _), rfl⟩
  have hposted := hrun.invariant hstep hopen
  exact hposted.balance

/-- Two messages arrive; the first is returned after the connection has ended. -/
def arriving : List ConnectionAct :=
  answered ++ [.work false, .hub (.message 0 { data := [1], authResult := none }), .work false,
    .work false, .hub (.message 0 { data := [2], authResult := none }), .reconn, .work false,
    .recv true]

theorem recv_fifo_arriving :
    ∃ u, Run (fun u a v => mailStep u a = some v) Always ⟨{}, []⟩ u ∧
      u.trace = [.arrived [1], .arrived [2], .received [1]] ∧
      u.state.work.hand = [[2]] ∧
      arrivals u.trace = departures u.trace ++ (u.state.mail ++ u.state.work.hand) := by
  have hexec : (exec mailStep ⟨{}, []⟩ arriving).map
      (fun u => (u.trace, u.state.work.hand)) =
      some ([.arrived [1], .arrived [2], .received [1]], [[2]]) := by
    decide +kernel
  obtain ⟨u, hu, heq⟩ := Option.map_eq_some_iff.mp hexec
  obtain ⟨htrace, hhand⟩ := Prod.mk.inj heq
  have hrun := Run.of_exec (allOk_always _ _) hu
  exact ⟨u, hrun, htrace, hhand, recv_fifo hrun⟩

end SpeechConnection

end OpenVoice
