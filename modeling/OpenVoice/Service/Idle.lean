import OpenVoice.Service.Moves
import OpenVoice.Service.Speech
import OpenVoice.Service.Tts

/-!
# The idle close

The keepalive thread closes a connection on which nothing has been sent for `conn_duration`.  It
sets the stage to PAUSED first, so that `onDisconnection` leaves the connection alone, and that
also keeps ERROR from being pushed.  An operation whose response is still to come is left to the
timeouts of `OperationController`.
-/

namespace OpenVoice

open OpenVoice.Lib

namespace SpeechConnection

/-- `ensure_connection_available` returns true when it has seen the stage READY. -/
theorem voiceTp_ready {s t : SpeechConnection} {n : Nat} {timedOut : Bool} {buf : Bytes}
    (hst : s.step (.sender n timedOut) = some t) (hpc : t.senders n = .voiceTp buf) :
    t.stage = .ready := by
  unfold step at hst
  split at hst
  · cases hst
  · cases sendStep_sender hst with
    | enter hbuf hpast henters =>
        unfold enters at henters
        split at henters
        · exact of_decide_eq_true henters
        · exact of_decide_eq_true henters
        · cases henters
    | wait hbuf hpast hstage hu => simp [setSender] at hpc
    | timeout hbuf hpast => simp [setSender] at hpc
    | touch hpc' => simp [setSender] at hpc
    | drop hpc' hws => simp [setSender] at hpc
    | test hpc' hws => simp [setSender] at hpc
    | write hpc' hws => simp [setSender] at hpc
    | crash hpc' hws =>
        rw [show s.senders n = .wsSend _ from hpc'] at hpc
        cases hpc

theorem recv_stage {s t : SpeechConnection} {valid : Bool}
    (hst : s.step (.recv valid) = some t) : t.stage = s.stage := by
  unfold step at hst
  split at hst
  · cases hst
  · cases hst
    have htake : (s.takeResp valid).stage = s.stage := by
      unfold takeResp
      split
      · rfl
      · rfl
    unfold recv
    split
    · split
      · rfl
      · exact htake
    · split
      · rfl
      · exact htake
    · exact htake

end SpeechConnection

namespace Service

variable {σ α ρ E : Type} (C : ServiceClient σ α ρ E)

/-- The operations with a request that `send` has accepted, or is bound to accept, and for which
    no ERROR has been pushed since. -/
def inFlight (s : Service σ) : List Nat := s.calling ++ s.awaiting

def Finished (a : Nat) (s : Service σ) : Prop :=
  ((C.controller s.client).heap a).status.Terminal

instance (a : Nat) (s : Service σ) : Decidable (Finished C a s) :=
  inferInstanceAs (Decidable (OpStatus.Terminal _))

/-- The keepalive thread does not close the connection while an operation that is not finished is
    in flight. -/
def closesAtRest (s : Service σ) : ServiceAct α ρ → Bool
  | .conn .keepalive => !s.conn.closesIdle || s.inFlight.all fun a => Finished C a s
  | _ => true

def ClosesAtRest (s : Service σ) (a : ServiceAct α ρ) : Prop := s.closesAtRest C a = true

instance (s : Service σ) (a : ServiceAct α ρ) : Decidable (ClosesAtRest C s a) :=
  inferInstanceAs (Decidable (s.closesAtRest C a = true))

/-- In the stage PAUSED an operation that was sent is finished, or ERROR was pushed after that. -/
def Unswallowed (s : Service σ) : Prop :=
  s.conn.stage = .paused → ∀ a ∈ s.inFlight, Finished C a s

/-- The operations that are in the list or in flight have been created. -/
structure Known (s : Service σ) : Prop where
  operations : ∀ a ∈ (C.controller s.client).operations, a < s.clock C
  inFlight : ∀ a ∈ s.inFlight, a < s.clock C

variable {C} {s t : Service σ}

theorem mem_opsOf {id : Int} {a : Nat} (h : a ∈ s.opsOf C id) :
    a ∈ (C.controller s.client).operations :=
  (List.mem_filter.mp h).1

/-- What is in flight when the connection has moved. -/
theorem moveConn_inFlight (c : SpeechConnection) {a : Nat} (h : a ∈ (s.moveConn C c).inFlight) :
    a ∈ s.inFlight := by
  unfold Service.inFlight Service.moveConn at h
  simp only at h
  rcases List.mem_append.mp h with h | h
  · exact List.mem_append_left _ h
  · split at h
    · exact List.mem_append_right _ h
    · cases h

/-! ### One step -/

namespace Known

theorem setClient (h : Known C s) {b : α} {c : σ} (hst : C.step s.client b = some c) :
    Known C (s.setClient c) := by
  have hadv := C.advances hst
  refine ⟨?_, fun a ha => Nat.lt_of_lt_of_le (h.inFlight a ha) hadv.fresh⟩
  intro a ha
  rcases hadv.operations a ha with hmem | ⟨-, hlt⟩
  · exact Nat.lt_of_lt_of_le (h.operations a hmem) hadv.fresh
  · exact hlt

theorem moveConn (h : Known C s) (c : SpeechConnection) : Known C (s.moveConn C c) :=
  ⟨h.operations, fun a ha => h.inFlight a (moveConn_inFlight c ha)⟩

theorem setCalls (h : Known C s) {calling awaiting : List Nat}
    (hsub : ∀ a ∈ calling ++ awaiting, a < s.clock C) : Known C (s.setCalls calling awaiting) :=
  ⟨h.operations, hsub⟩

end Known

/-- What is finished is still finished when the client has moved. -/
theorem finished_setClient (h : Known C s) {b : α} {c : σ} (hst : C.step s.client b = some c)
    {a : Nat} (ha : a ∈ s.inFlight) (hfin : Finished C a s) : Finished C a (s.setClient c) :=
  (C.advances hst).terminal a (h.inFlight a ha) hfin

namespace Unswallowed

theorem setClient (h : s.Unswallowed C) (hknown : Known C s) {b : α} {c : σ}
    (hst : C.step s.client b = some c) : (s.setClient c).Unswallowed C := by
  intro hpaused a ha
  exact finished_setClient hknown hst ha (h hpaused a ha)

/-- The connection moves, and PAUSED is not new. -/
theorem moveConn (h : s.Unswallowed C) {c : SpeechConnection}
    (hstage : c.stage = .paused → s.conn.stage = .paused) : (s.moveConn C c).Unswallowed C := by
  intro hpaused a ha
  exact h (hstage hpaused) a (moveConn_inFlight c ha)

/-- A call of the client sets the stage to PAUSED in no case. -/
theorem called (h : s.Unswallowed C) {b : ConnectionAct} {c : SpeechConnection}
    (hcalled : SpeechConnection.called b = true) (hst : s.conn.step b = some c) :
    (s.moveConn C c).Unswallowed C := by
  cases SpeechConnection.step_shifts hst (.inr hcalled) with
  | push hpush hidle => exact h.moveConn hpush.paused
  | clear hresp hstage ha =>
      apply h.moveConn
      rw [hstage]
      exact fun hpaused => hpaused
  | closeIdle ha hidle hstage hresp =>
      rw [ha] at hcalled
      cases hcalled

end Unswallowed

/-- `recv` touches neither the stage nor what is in flight. -/
theorem takeResp_frame (r : ConnectionOpResult) (c : SpeechConnection) (s : Service σ) :
    (s.takeResp r c).inFlight = s.inFlight ∧ (s.takeResp r c).clock C = s.clock C := by
  unfold takeResp
  split
  · exact ⟨rfl, rfl⟩
  · exact ⟨rfl, rfl⟩

/-- Both hold in every state of a run in which the connection is closed at rest. -/
structure Kept (C : ServiceClient σ α ρ E) (s : Service σ) : Prop where
  known : Known C s
  unswallowed : s.Unswallowed C

namespace Kept

theorem opened (C : ServiceClient σ α ρ E) (hempty : (C.controller C.opened).operations = []) :
    Kept C (opened C) where
  known :=
    { operations := by
        intro a ha
        rw [show (C.controller (Service.opened C).client).operations = [] from hempty] at ha
        cases ha
      inFlight := by
        intro a ha
        cases ha }
  unswallowed := by
    intro hpaused
    cases hpaused

theorem setClient (h : Kept C s) {b : α} {c : σ} (hst : C.step s.client b = some c) :
    Kept C (s.setClient c) :=
  ⟨h.known.setClient hst, h.unswallowed.setClient h.known hst⟩

theorem called (h : Kept C s) {b : ConnectionAct} {c : SpeechConnection}
    (hcalled : SpeechConnection.called b = true) (hst : s.conn.step b = some c) :
    Kept C (s.moveConn C c) :=
  ⟨h.known.moveConn c, h.unswallowed.called hcalled hst⟩

/-- A step of the connection's own. -/
theorem conn (h : Kept C s) {b : ConnectionAct} {c : SpeechConnection}
    (hown : SpeechConnection.own b = true) (hst : s.conn.step b = some c)
    (hok : ClosesAtRest C s (.conn b)) : Kept C (s.moveConn C c) := by
  refine ⟨h.known.moveConn c, ?_⟩
  cases SpeechConnection.step_shifts hst (.inl hown) with
  | push hpush hidle => exact h.unswallowed.moveConn hpush.paused
  | clear hresp hstage ha =>
      rw [ha] at hown
      cases hown
  | closeIdle ha hidle hstage hresp =>
      subst ha
      intro _ a hmem
      have hall : s.inFlight.all (fun a => Finished C a s) = true := by
        simpa [ClosesAtRest, closesAtRest, hidle] using hok
      rw [List.all_eq_true] at hall
      exact of_decide_eq_true (hall a (moveConn_inFlight c hmem))

/-- `send` has found the connection available. -/
theorem sent (h : Kept C s) {timedOut : Bool} {id : Int} {buf : Bytes} {b : α}
    {c : SpeechConnection} {c' : σ} (hst : s.conn.step (.sender 0 timedOut) = some c)
    (hpc : c.senders 0 = .voiceTp buf) (hst' : C.step s.client b = some c') :
    Kept C (((s.moveConn C c).setClient c').setCalls ((s.moveConn C c).opsOf C id)
      (s.moveConn C c).awaiting) := by
  have hmoved := h.called rfl hst
  have hready := SpeechConnection.voiceTp_ready hst hpc
  have hclock : (s.moveConn C c).clock C ≤ ((s.moveConn C c).setClient c').clock C :=
    (C.advances hst').fresh
  refine ⟨(hmoved.setClient (s := s.moveConn C c) hst').known.setCalls ?_, ?_⟩
  · intro a ha
    apply Nat.lt_of_lt_of_le _ hclock
    rcases List.mem_append.mp ha with ha | ha
    · exact hmoved.known.operations a (mem_opsOf ha)
    · exact hmoved.known.inFlight a (List.mem_append_right _ ha)
  · intro hpaused
    rw [show c.stage = .paused from hpaused] at hready
    cases hready

/-- `send` is about to return SUCCESS. -/
theorem written (h : Kept C s) : Kept C (s.setCalls [] (s.awaiting ++ s.calling)) := by
  have hsame : ∀ a, a ∈ [] ++ (s.awaiting ++ s.calling) → a ∈ s.inFlight := by
    intro a ha
    rw [List.nil_append] at ha
    rcases List.mem_append.mp ha with ha | ha
    · exact List.mem_append_right _ ha
    · exact List.mem_append_left _ ha
  refine ⟨h.known.setCalls fun a ha => h.known.inFlight a (hsame a ha), ?_⟩
  intro hpaused a ha
  exact h.unswallowed hpaused a (hsame a ha)

theorem take (h : Kept C s) {valid : Bool} {r : ConnectionOpResult} {c : SpeechConnection}
    (hst : s.conn.step (.recv valid) = some c) : Kept C (s.takeResp r c) := by
  obtain ⟨hflight, hclock⟩ := takeResp_frame (C := C) r c s
  refine ⟨⟨?_, ?_⟩, ?_⟩
  · rw [hclock, takeResp_client]
    exact h.known.operations
  · rw [hclock, hflight]
    exact h.known.inFlight
  · intro hpaused a ha
    rw [hflight] at ha
    rw [takeResp_conn, SpeechConnection.recv_stage hst] at hpaused
    unfold Finished
    rw [takeResp_client]
    exact h.unswallowed hpaused a ha

/-- **One step.** -/
theorem step (h : Kept C s) {a : ServiceAct α ρ} (hok : ClosesAtRest C s a)
    (hstep : s.step C a = some t) : Kept C t := by
  cases step_move hstep with
  | own halone hst => exact h.setClient hst
  | call hcalls hst hact => exact h.setClient hst
  | conn hown hst => exact h.conn hown hst hok
  | served hcalled hst hact => exact h.called hcalled hst
  | both hcalled hst hcalls hst' hact => exact (h.called hcalled hst).setClient hst'
  | sent hst hpc hcalls hst' => exact h.sent hst hpc hst'
  | written hst => exact (h.called rfl hst).written
  | @prepare options b c c' hst hcalls hst' =>
      have hknown := (h.known.moveConn c).setClient (s := s.moveConn C c) hst'
      refine ⟨hknown.setCalls ?_, ?_⟩
      · intro a ha
        cases ha
      · intro _ a ha
        cases ha
  | @wait valid resp c hst hwait =>
      refine ⟨⟨h.known.operations, h.known.inFlight⟩, ?_⟩
      intro hpaused a ha
      rw [SpeechConnection.recv_stage hst] at hpaused
      exact h.unswallowed hpaused a ha
  | @take valid resp r data c c' hst hret hst' =>
      rw [← takeResp_client r c s] at hst'
      exact (h.take hst).setClient hst'

end Kept

/-- The condition cannot be weakened: a close that does not meet it swallows a request. -/
theorem swallows {a : ServiceAct α ρ} (hstep : s.step C a = some t)
    (hno : ¬ ClosesAtRest C s a) : ¬ t.Unswallowed C := by
  -- the step is an idle close with an operation in flight
  obtain ⟨rfl, hidle, x, hx, hfin⟩ : a = .conn .keepalive ∧ s.conn.closesIdle = true ∧
      ∃ x ∈ s.inFlight, ¬ Finished C x s := by
    unfold ClosesAtRest closesAtRest at hno
    split at hno
    · simp only [Bool.or_eq_true, Bool.not_eq_true', List.all_eq_true, decide_eq_true_eq,
        not_or, Bool.not_eq_false, not_forall] at hno
      obtain ⟨hidle, x, hx, hfin⟩ := hno
      exact ⟨rfl, hidle, x, hx, hfin⟩
    · exact absurd rfl hno
  intro h
  cases step_move hstep with
  | call hcalls hst hact => exact hact.2 _ rfl
  | served hcalled hst hact => exact hact.2 _ rfl
  | both hcalled hst hcalls hst' hact => exact hact.2 _ rfl
  | @conn b c hown hst =>
      cases SpeechConnection.step_shifts hst (.inl hown) with
      | push hpush hno =>
          rw [hno rfl] at hidle
          cases hidle
      | clear hresp hstage ha => cases ha
      | closeIdle ha hidle hstage hresp =>
          -- nothing is pushed, so the operation is still in flight
          have hflight : (s.moveConn C c).inFlight = s.inFlight := by
            simp [Service.inFlight, Service.moveConn, SpeechConnection.errorCount, hresp]
          apply hfin
          apply h hstage x
          rw [hflight]
          exact hx

/-- In every run of a client with its connection in which the connection is closed at rest; the
    first close that is not breaks it. -/
theorem unswallowed_of_run (hempty : (C.controller C.opened).operations = [])
    (hrun : Run (Steps C) (ClosesAtRest C) (opened C) s) :
    s.Unswallowed C ∧
      ∀ a t, s.step C a = some t → (t.Unswallowed C ↔ ClosesAtRest C s a) := by
  have h : Kept C s :=
    hrun.invariant (fun _ _ _ hk hok hst => hk.step hok hst) (.opened C hempty)
  refine ⟨h.unswallowed, ?_⟩
  intro a t hst
  constructor
  · intro hsafe
    by_contra hno
    exact swallows hst hno hsafe
  · intro hok
    exact (h.step hok hst).unswallowed

end Service

/-- **An idle close swallows no request**, in every run, over any number of sessions and with any
    options, in which the keepalive thread closes the connection only while every operation that
    is in flight is finished; the first close that is different does swallow one. -/
theorem idle_unswallowed (s : Service TtsImpl) (u : Service SpeechImpl) :
    (Run (Service.Steps ttsClient) (Service.ClosesAtRest ttsClient)
        (Service.opened ttsClient) s → s.Unswallowed ttsClient ∧
          ∀ a t, s.step ttsClient a = some t →
            (t.Unswallowed ttsClient ↔ Service.ClosesAtRest ttsClient s a)) ∧
      (Run (Service.Steps speechClient) (Service.ClosesAtRest speechClient)
        (Service.opened speechClient) u → u.Unswallowed speechClient ∧
          ∀ a t, u.step speechClient a = some t →
            (t.Unswallowed speechClient ↔ Service.ClosesAtRest speechClient u a)) := by
  constructor
  · intro hrun
    exact Service.unswallowed_of_run rfl hrun
  · intro hrun
    exact Service.unswallowed_of_run rfl hrun

/-! ### Runs -/

/-- Ten seconds in which nothing is sent. -/
def Service.rests {α ρ : Type} : List (ServiceAct α ρ) :=
  [.tick 10000000000, .conn .keepalive, .conn .keepalive]

/-- The request has been answered when the connection is closed. -/
theorem idle_unswallowed_answered :
    (∃ s, exec (Service.step ttsClient) (Service.opened ttsClient)
        (TtsImpl.requested 10 ++ TtsImpl.answered ++ Service.rests) = some s ∧
      s.conn.stage = .paused ∧ s.inFlight = [0] ∧ s.Unswallowed ttsClient) ∧
      ∃ s, exec (Service.step speechClient) (Service.opened speechClient)
        (SpeechImpl.requested 10 ++ SpeechImpl.answered ++ Service.rests) = some s ∧
      s.conn.stage = .paused ∧ s.inFlight = [0] ∧ s.Unswallowed speechClient := by
  constructor
  · have hok : allOk (Service.step ttsClient) (Service.ClosesAtRest ttsClient)
        (Service.opened ttsClient)
        (TtsImpl.requested 10 ++ TtsImpl.answered ++ Service.rests) = true := by
      decide +kernel
    refine ⟨_, rfl, by decide +kernel, by decide +kernel, ?_⟩
    exact ((idle_unswallowed _ (Service.opened speechClient)).1 (Run.of_exec hok rfl)).1
  · have hok : allOk (Service.step speechClient) (Service.ClosesAtRest speechClient)
        (Service.opened speechClient)
        (SpeechImpl.requested 10 ++ SpeechImpl.answered ++ Service.rests) = true := by
      decide +kernel
    refine ⟨_, rfl, by decide +kernel, by decide +kernel, ?_⟩
    exact ((idle_unswallowed (Service.opened ttsClient) _).2 (Run.of_exec hok rfl)).1

/-- With a `conn_duration` of ten seconds the connection is closed while the response is still to
    come, and nobody is told. -/
theorem idle_swallowed :
    (∃ s, Run (Service.Steps ttsClient) Always (Service.opened ttsClient) s ∧
        ¬ s.Unswallowed ttsClient) ∧
      ∃ s, Run (Service.Steps speechClient) Always (Service.opened speechClient) s ∧
        ¬ s.Unswallowed speechClient := by
  constructor
  · have hok : allOk (Service.step ttsClient) Always (Service.opened ttsClient)
        (TtsImpl.requested 10 ++ Service.rests) = true := by
      decide +kernel
    refine ⟨_, Run.of_exec hok rfl, ?_⟩
    intro h
    exact absurd (h (by decide +kernel) 0 (by decide +kernel)) (by decide +kernel)
  · have hok : allOk (Service.step speechClient) Always (Service.opened speechClient)
        (SpeechImpl.requested 10 ++ Service.rests) = true := by
      decide +kernel
    refine ⟨_, Run.of_exec hok rfl, ?_⟩
    intro h
    exact absurd (h (by decide +kernel) 0 (by decide +kernel)) (by decide +kernel)

end OpenVoice
