import OpenVoice.Service.Model

/-!
# What can happen to a client and its connection

Every step is a step of the client, of the connection, or of both; each of the two behaves as it
does on its own (`step_client`, `step_conn`).
-/

namespace OpenVoice

open OpenVoice.Lib

namespace SpeechConnection

/-- A step that is taken when a client calls the connection, other than `prepare` and `recv`. -/
def called : ConnectionAct → Bool
  | .release | .send _ _ _ | .sender _ _ | .tick _ => true
  | _ => false

variable {s t : SpeechConnection}

/-- What a step does to the responses and to the stage PAUSED. -/
inductive Shifts (s : SpeechConnection) (a : ConnectionAct) (t : SpeechConnection) : Prop where
  | push (h : Pushes s t) (hidle : a = .keepalive → s.closesIdle = false) : Shifts s a t
  | clear (hresp : t.responses = []) (hstage : t.stage = s.stage) (ha : a = .release) :
      Shifts s a t
  | closeIdle (ha : a = .keepalive) (hidle : s.closesIdle = true) (hstage : t.stage = .paused)
      (hresp : t.responses = s.responses) : Shifts s a t

theorem step_shifts {a : ConnectionAct} (hst : s.step a = some t)
    (ha : own a = true ∨ called a = true) : Shifts s a t := by
  unfold step at hst
  split at hst
  · cases hst
  · cases a with
    | prepare options => simp [own, called] at ha
    | release =>
        rcases Pushes.release hst with hpush | ⟨hresp, hstage⟩
        · exact .push hpush (by simp)
        · exact .clear hresp hstage rfl
    | reconn => exact .push (.reconn hst) (by simp)
    | send n buf timeout => exact .push (.send hst) (by simp)
    | sender n timedOut => exact .push (.sendStep hst) (by simp)
    | recv valid => simp [own, called] at ha
    | addTraceInfo info =>
        cases hst
        exact .push (.same rfl rfl) (by simp)
    | work fails => exact .push (.workStep hst) (by simp)
    | hub e => exact .push (.hub hst) (by simp)
    | keepalive =>
        rcases keepaliveStep_pushes hst with ⟨hidle, hpush⟩ | ⟨hidle, hstage, hresp⟩
        · exact .push hpush fun _ => hidle
        · exact .closeIdle rfl hidle hstage hresp
    | tick ns =>
        cases hst
        exact .push (.same rfl rfl) (by simp)
    | setClock tp =>
        cases hst
        exact .push (.same rfl rfl) (by simp)

/-- `initialize` leaves the responses as they are. -/
theorem prepare_responses {options : PrepareOptions} (hst : s.step (.prepare options) = some t) :
    t.responses = s.responses := by
  unfold step at hst
  split at hst
  · cases hst
  · simp only at hst
    unfold initializeConn at hst
    split at hst
    · cases hst
      rfl
    · cases hst

/-- `responses_` keeps its ERROR entries, or it is empty. -/
theorem Shifts.errorCount {a : ConnectionAct} (h : Shifts s a t) :
    s.errorCount ≤ t.errorCount ∨ t.responses = [] := by
  cases h with
  | push h hidle =>
      obtain ⟨l, hl⟩ := h.responses
      left
      unfold SpeechConnection.errorCount
      rw [← hl, List.countP_append]
      omega
  | clear hresp hstage ha => exact .inr hresp
  | closeIdle ha hidle hstage hresp =>
      left
      unfold SpeechConnection.errorCount
      rw [hresp]

end SpeechConnection

namespace Service

variable {σ α ρ E : Type} (C : ServiceClient σ α ρ E)

/-- The client calls the connection, or returns from a call other than `recv`. -/
structure Calls (s : σ) (a : α) : Prop where
  starts : C.starts s a = false
  role : C.role a ≠ .gen

theorem calls_of_role {s : σ} {a : α} (h : C.role a ≠ .send) (h' : C.role a ≠ .gen) :
    Calls C s a where
  starts := by
    rw [← Bool.not_eq_true]
    intro hstarts
    exact h (C.starts_alone hstarts).1
  role := h'

theorem calls_send {s : σ} {r : ConnectionOpResult}
    (h : C.requests s ≠ none ∨ C.sends s ≠ none) : Calls C s (C.send r) where
  starts := by
    rw [← Bool.not_eq_true]
    intro hstarts
    obtain ⟨-, hreq, hsend⟩ := C.starts_alone hstarts
    rcases h with h | h
    · exact h hreq
    · exact h hsend
  role := by
    rw [C.role_send]
    decide

theorem calls_prepare (s : σ) : Calls C s C.prepare := by
  apply calls_of_role
  · rw [C.role_prepare]
    decide
  · rw [C.role_prepare]
    decide

theorem calls_release (s : σ) : Calls C s C.release := by
  apply calls_of_role
  · rw [C.role_release]
    decide
  · rw [C.role_release]
    decide

theorem calls_tick (s : σ) (ns : Nat) : Calls C s (C.tick ns) := by
  apply calls_of_role
  · rw [C.role_tick]
    decide
  · rw [C.role_tick]
    decide

/-- **What a step can do.** -/
inductive Move (s : Service σ) : ServiceAct α ρ → Service σ → Prop where
  | own {a : α} {c : σ} (halone : C.alone s.client a = true) (hst : C.step s.client a = some c) :
      Move s (.client a) (s.setClient c)
  | call {a : ServiceAct α ρ} {b : α} {c : σ} (hcalls : Calls C s.client b)
      (hst : C.step s.client b = some c)
      (hact : (∀ b', a ≠ .client b') ∧ ∀ b', a ≠ .conn b') : Move s a (s.setClient c)
  | conn {b : ConnectionAct} {c : SpeechConnection} (hown : SpeechConnection.own b = true)
      (hst : s.conn.step b = some c) : Move s (.conn b) (s.moveConn C c)
  | served {a : ServiceAct α ρ} {b : ConnectionAct} {c : SpeechConnection}
      (hcalled : SpeechConnection.called b = true) (hst : s.conn.step b = some c)
      (hact : (∀ b', a ≠ .client b') ∧ ∀ b', a ≠ .conn b') : Move s a (s.moveConn C c)
  | both {a : ServiceAct α ρ} {b : ConnectionAct} {b' : α} {c : SpeechConnection} {c' : σ}
      (hcalled : SpeechConnection.called b = true) (hst : s.conn.step b = some c)
      (hcalls : Calls C s.client b') (hst' : C.step s.client b' = some c')
      (hact : (∀ b', a ≠ .client b') ∧ ∀ b', a ≠ .conn b') :
      Move s a ((s.moveConn C c).setClient c')
  | sent {timedOut : Bool} {id : Int} {buf : Bytes} {b' : α} {c : SpeechConnection} {c' : σ}
      (hst : s.conn.step (.sender 0 timedOut) = some c) (hpc : c.senders 0 = .voiceTp buf)
      (hcalls : Calls C s.client b') (hst' : C.step s.client b' = some c') :
      Move s (.sender timedOut)
        (((s.moveConn C c).setClient c').setCalls ((s.moveConn C c).opsOf C id)
          (s.moveConn C c).awaiting)
  | written {timedOut : Bool} {c : SpeechConnection}
      (hst : s.conn.step (.sender 0 timedOut) = some c) :
      Move s (.sender timedOut)
        ((s.moveConn C c).setCalls [] ((s.moveConn C c).awaiting ++ (s.moveConn C c).calling))
  | prepare {options : PrepareOptions} {b' : α} {c : SpeechConnection} {c' : σ}
      (hst : s.conn.step (.prepare options) = some c)
      (hcalls : Calls C s.client b') (hst' : C.step s.client b' = some c') :
      Move s (.prepare options) (((s.moveConn C c).setClient c').setCalls [] [])
  | wait {valid : Bool} {resp : ρ} {c : SpeechConnection}
      (hst : s.conn.step (.recv valid) = some c) (hwait : ∀ r data, c.receiver ≠ .returned r data) :
      Move s (.recv valid resp) { s with conn := c }
  | take {valid : Bool} {resp : ρ} {r : ConnectionOpResult} {data : Bytes} {c : SpeechConnection}
      {c' : σ} (hst : s.conn.step (.recv valid) = some c) (hret : c.receiver = .returned r data)
      (hst' : C.step s.client (C.gen r resp) = some c') :
      Move s (.recv valid resp) ((s.takeResp r c).setClient c')

variable {C} {s t : Service σ}

theorem prepare_move {options : PrepareOptions} (h : s.prepare C options = some t) :
    Move C s (.prepare options) t := by
  unfold Service.prepare at h
  split at h
  · obtain ⟨c, hc, rfl⟩ := Option.map_eq_some_iff.mp h
    exact .call (calls_prepare C _) hc (by simp)
  · obtain ⟨conn, hconn, h⟩ := Option.bind_eq_some_iff.mp h
    obtain ⟨c, hc, h⟩ := Option.bind_eq_some_iff.mp h
    cases h
    exact .prepare hconn (calls_prepare C _) hc

theorem release_move (h : s.release C = some t) : Move C s .release t := by
  unfold Service.release at h
  split at h
  · obtain ⟨conn, hconn, h⟩ := Option.bind_eq_some_iff.mp h
    split at h
    · obtain ⟨c, hc, rfl⟩ := Option.map_eq_some_iff.mp h
      exact .both rfl hconn (calls_release C _) hc (by simp)
    · cases h
      exact .served rfl hconn (by simp)
  · obtain ⟨c, hc, rfl⟩ := Option.map_eq_some_iff.mp h
    exact .call (calls_release C _) hc (by simp)

theorem request_move {buf : Option Bytes} (h : s.request C buf = some t) :
    Move C s (.request buf) t := by
  unfold Service.request at h
  obtain ⟨timeout, htime, h⟩ := Option.bind_eq_some_iff.mp h
  obtain ⟨conn, hconn, h⟩ := Option.bind_eq_some_iff.mp h
  obtain ⟨c, hc, h⟩ := Option.bind_eq_some_iff.mp h
  cases h
  exact .both rfl hconn (calls_send C (.inl (by simp [htime]))) hc (by simp)

theorem sender_move {timedOut : Bool} (h : s.sender C timedOut = some t) :
    Move C s (.sender timedOut) t := by
  unfold Service.sender at h
  obtain ⟨id, hid, h⟩ := Option.bind_eq_some_iff.mp h
  have hcalls : ∀ r, Calls C s.client (C.send r) := fun r => calls_send C (.inr (by simp [hid]))
  split at h
  · obtain ⟨c, hc, rfl⟩ := Option.map_eq_some_iff.mp h
    exact .call (hcalls _) hc (by simp)
  · obtain ⟨conn, hconn, h⟩ := Option.bind_eq_some_iff.mp h
    split at h
    · rename_i buf hpc
      obtain ⟨c, hc, h⟩ := Option.bind_eq_some_iff.mp h
      cases h
      exact .sent hconn hpc (hcalls _) hc
    · cases h
      exact .written hconn
    · cases h
      exact .served rfl hconn (by simp)

theorem recv_move {valid : Bool} {resp : ρ} (h : s.recv C valid resp = some t) :
    Move C s (.recv valid resp) t := by
  unfold Service.recv at h
  split at h
  · obtain ⟨conn, hconn, h⟩ := Option.bind_eq_some_iff.mp h
    split at h
    · rename_i r data hret
      obtain ⟨c, hc, h⟩ := Option.bind_eq_some_iff.mp h
      cases h
      exact .take hconn hret hc
    · rename_i hwait
      cases h
      exact .wait hconn hwait
  · cases h

theorem step_move {a : ServiceAct α ρ} (h : s.step C a = some t) : Move C s a t := by
  unfold Service.step at h
  split at h
  · cases h
  · cases a with
    | prepare options => exact prepare_move h
    | release => exact release_move h
    | request buf => exact request_move h
    | sender timedOut => exact sender_move h
    | recv valid resp => exact recv_move h
    | client a =>
        simp only at h
        split at h
        · rename_i halone
          obtain ⟨c, hc, rfl⟩ := Option.map_eq_some_iff.mp h
          exact .own halone hc
        · cases h
    | conn a =>
        simp only at h
        split at h
        · rename_i hown
          obtain ⟨c, hc, rfl⟩ := Option.map_eq_some_iff.mp h
          exact .conn hown hc
        · cases h
    | tick ns =>
        obtain ⟨conn, hconn, h⟩ := Option.bind_eq_some_iff.mp h
        obtain ⟨c, hc, h⟩ := Option.bind_eq_some_iff.mp h
        cases h
        exact .both rfl hconn (calls_tick C _ ns) hc (by simp)

@[simp] theorem takeResp_client (r : ConnectionOpResult) (c : SpeechConnection) (s : Service σ) :
    (s.takeResp r c).client = s.client := by
  unfold takeResp
  split <;> rfl

@[simp] theorem takeResp_conn (r : ConnectionOpResult) (c : SpeechConnection) (s : Service σ) :
    (s.takeResp r c).conn = c := by
  unfold takeResp
  split <;> rfl

/-- The client takes its own steps. -/
theorem step_client {a : ServiceAct α ρ} (h : s.step C a = some t) :
    t.client = s.client ∨ ∃ b, C.step s.client b = some t.client := by
  cases step_move h with
  | own halone hst => exact .inr ⟨_, hst⟩
  | call hcalls hst hact => exact .inr ⟨_, hst⟩
  | conn hown hst => exact .inl rfl
  | served hcalled hst hact => exact .inl rfl
  | both hcalled hst hcalls hst' hact => exact .inr ⟨_, hst'⟩
  | sent hst hpc hcalls hst' => exact .inr ⟨_, hst'⟩
  | written hst => exact .inl rfl
  | prepare hst hcalls hst' => exact .inr ⟨_, hst'⟩
  | wait hst hwait => exact .inl rfl
  | take hst hret hst' => exact .inr ⟨_, hst'⟩

/-- The connection takes its own steps. -/
theorem step_conn {a : ServiceAct α ρ} (h : s.step C a = some t) :
    t.conn = s.conn ∨ ∃ b, s.conn.step b = some t.conn := by
  cases step_move h with
  | own halone hst => exact .inl rfl
  | call hcalls hst hact => exact .inl rfl
  | conn hown hst => exact .inr ⟨_, hst⟩
  | served hcalled hst hact => exact .inr ⟨_, hst⟩
  | both hcalled hst hcalls hst' hact => exact .inr ⟨_, hst⟩
  | sent hst hpc hcalls hst' => exact .inr ⟨_, hst⟩
  | written hst => exact .inr ⟨_, hst⟩
  | prepare hst hcalls hst' => exact .inr ⟨_, hst⟩
  | wait hst hwait => exact .inr ⟨_, hst⟩
  | @take valid resp r data c c' hst hret hst' =>
      have hconn : ((s.takeResp r c).setClient c').conn = c := takeResp_conn r c s
      rw [hconn]
      exact .inr ⟨_, hst⟩

/-- **Refinement of the two models.**  A run of a client with its connection is a run of the
    client and a run of the connection. -/
theorem run_client {ok : Service σ → ServiceAct α ρ → Prop}
    (hrun : Run (Steps C) ok (opened C) s) :
    Run (fun s a t => C.step s a = some t) Always C.opened s.client ∧
      Run SpeechConnection.Steps Always {} s.conn := by
  induction hrun with
  | refl => exact ⟨.refl _, .refl _⟩
  | snoc _ _ hst ih =>
      obtain ⟨hclient, hconn⟩ := ih
      constructor
      · rcases step_client hst with heq | ⟨b, hb⟩
        · rw [heq]
          exact hclient
        · exact hclient.snoc trivial hb
      · rcases step_conn hst with heq | ⟨b, hb⟩
        · rw [heq]
          exact hconn
        · exact hconn.snoc trivial hb

/-! ### Parts of runs -/

/-- Options the server accepts, with this `conn_duration`. -/
def options (connDuration : BitVec 32) : PrepareOptions :=
  { key := ascii "k", deviceTypeId := ascii "t", secret := ascii "s", deviceId := ascii "d"
    connDuration := connDuration }

/-- A step of the work thread, in which an attempt to connect does not fail at once. -/
def works : ServiceAct α ρ := .conn (.work false)

/-- The connection is established, and the server accepts it. -/
def connects : List (ServiceAct α ρ) :=
  [works, works, works, .conn (.hub .connected), works,
    .conn (.hub (.message 0 { data := [], authResult := some 0 })), works]

/-- `connection_.send` with a connection that is being established. -/
def sends : List (ServiceAct α ρ) :=
  [.request (some [1]), .sender false] ++ connects ++ [.sender false, .sender false,
    .sender false, .sender false, .sender false]

/-- The server answers. -/
def receives : List (ServiceAct α ρ) :=
  [.conn (.hub (.message 0 { data := [2], authResult := none })), works, works]

/-- The connection ends. -/
def loses : List (ServiceAct α ρ) := [.conn (.hub (.disconnected 0)), works, works, works]

end Service

end OpenVoice
