import OpenVoice.Service.Moves
import OpenVoice.Service.Speech
import OpenVoice.Service.Tts

/-!
# CONNECTION_BROKEN

A lost connection reaches the operations through `responses_`: ERROR is pushed, `recv` returns
CONNECTION_BROKEN, and some time later `gen_results` takes `resp_mutex_` and fails whatever
operation is current then.  Unlike a response, ERROR does not say which operation it is about.  It
meets the operations it was meant for if none is made current while one is on its way.
-/

namespace OpenVoice

open OpenVoice.Lib

/-- A mark that may have been made by now. -/
structure Mark.Past (m : Mark) (now : Nat) : Prop where
  lost : m.lost ≤ m.pushed
  pushed : m.pushed ≤ now

theorem Mark.Past.later {m : Mark} {now now' : Nat} (h : m.Past now) (hle : now ≤ now') :
    m.Past now' :=
  ⟨h.lost, Nat.le_trans h.pushed hle⟩

namespace Service

variable {σ α ρ E : Type} (C : ServiceClient σ α ρ E)

/-- A loss has been reported, and `gen_results` has not handled it yet. -/
def breaking (s : Service σ) : Bool :=
  s.conn.work.breaking || s.conn.responses.any (fun resp => resp.type = .error) ||
    C.hand s.client = some .connectionBroken

/-- `new_op(id, START)` is not called while a loss is on its way. -/
def startsClear (s : Service σ) : ServiceAct α ρ → Bool
  | .client a => !(C.starts s.client a && s.breaking C)
  | _ => true

def StartsClear (s : Service σ) (a : ServiceAct α ρ) : Prop := s.startsClear C a = true

instance (s : Service σ) (a : ServiceAct α ρ) : Decidable (StartsClear C s a) :=
  inferInstanceAs (Decidable (s.startsClear C a = true))

/-- What `gen_results` is about to fail because of CONNECTION_BROKEN was created before the
    connection was lost, and before ERROR was pushed.  An operation that is current has been so
    since it was created. -/
def Concerned (s : Service σ) : Prop :=
  C.hand s.client = some .connectionBroken →
    ∀ a, (C.controller s.client).currentOp = some a → a < s.taken.lost ∧ a < s.taken.pushed

/-- The operation `a` was created before every loss that is on its way. -/
structure Before (a : Nat) (s : Service σ) : Prop where
  created : a < s.clock C
  losing : s.conn.work.breaking = true → a < s.lostAt
  pending : ∀ m ∈ s.errors, a < m.lost
  hand : C.hand s.client = some .connectionBroken → a < s.taken.lost

/-- Every loss that is on its way came after the current operation. -/
def Ordered (s : Service σ) : Prop :=
  ∀ a, (C.controller s.client).currentOp = some a → Before C a s

/-- The marks tell the truth, and the current operation is older than all of them. -/
structure Dated (s : Service σ) : Prop where
  count : s.errors.length = s.conn.errorCount
  errors : ∀ m ∈ s.errors, m.Past (s.clock C)
  taken : s.taken.Past (s.clock C)
  lostAt : s.lostAt ≤ s.clock C
  current : s.Ordered C

variable {C} {s t : Service σ}

theorem Dated.concerned (h : Dated C s) : s.Concerned C := by
  intro hhand a hcur
  have hlost := (h.current a hcur).hand hhand
  exact ⟨hlost, Nat.lt_of_lt_of_le hlost h.taken.lost⟩

/-- Without an ERROR on its way there are no marks. -/
theorem Dated.errors_nil (h : Dated C s) (hclear : s.breaking C = false) : s.errors = [] := by
  simp only [breaking, Bool.or_eq_false_iff, List.any_eq_false] at hclear
  rw [← List.length_eq_zero_iff, h.count]
  unfold SpeechConnection.errorCount
  rw [List.countP_eq_zero]
  exact hclear.1.2

/-- What `gen_results` holds after a step other than the return of `recv`. -/
theorem hand_of_alone {b : α} {c : σ} (halone : C.alone s.client b = true)
    (hst : C.step s.client b = some c) {r : ConnectionOpResult} (hhand : C.hand c = some r) :
    C.hand s.client = some r := by
  rcases C.hand_kept hst hhand with hkept | ⟨hrecv, hrole⟩
  · exact hkept
  · simp [ServiceClient.alone, hrole, hrecv] at halone

theorem hand_of_calls {b : α} {c : σ} (hcalls : Calls C s.client b)
    (hst : C.step s.client b = some c) {r : ConnectionOpResult} (hhand : C.hand c = some r) :
    C.hand s.client = some r := by
  rcases C.hand_kept hst hhand with hkept | ⟨-, hrole⟩
  · exact hkept
  · exact absurd hrole hcalls.role

/-! ### One step -/

namespace Dated

theorem opened (C : ServiceClient σ α ρ E)
    (hnone : (C.controller C.opened).currentOp = none) : Dated C (opened C) where
  count := rfl
  errors := by
    intro m hm
    cases hm
  taken := ⟨Nat.le_refl _, Nat.zero_le _⟩
  lostAt := Nat.zero_le _
  current := by
    intro a ha
    rw [show (C.controller (Service.opened C).client).currentOp = none from hnone] at ha
    cases ha

/-- The marks stay true while operations are created. -/
theorem setClient_of_current (h : Dated C s) {b : α} {c : σ} (hst : C.step s.client b = some c)
    (hcur : (s.setClient c).Ordered C) : Dated C (s.setClient c) := by
  have hclock : s.clock C ≤ (s.setClient c).clock C := (C.advances hst).fresh
  exact ⟨h.count, fun m hm => (h.errors m hm).later hclock, h.taken.later hclock,
    Nat.le_trans h.lostAt hclock, hcur⟩

/-- The client moves, and no operation is made current. -/
theorem setClient (h : Dated C s) {b : α} {c : σ} (hst : C.step s.client b = some c)
    (hstarts : C.starts s.client b = false)
    (hhand : C.hand c = some .connectionBroken → C.hand s.client = some .connectionBroken) :
    Dated C (s.setClient c) := by
  have hclock : s.clock C ≤ (s.setClient c).clock C := (C.advances hst).fresh
  apply h.setClient_of_current hst
  intro a ha
  have hbefore := h.current a (C.started hst hstarts a ha)
  exact
    { created := Nat.lt_of_lt_of_le hbefore.created hclock
      losing := hbefore.losing
      pending := hbefore.pending
      hand := fun hh => hbefore.hand (hhand hh) }

/-- An operation is made current while no loss is on its way. -/
theorem start (h : Dated C s) {b : α} {c : σ} (hst : C.step s.client b = some c)
    (hhand : C.hand c = some .connectionBroken → C.hand s.client = some .connectionBroken)
    (hclear : s.breaking C = false) : Dated C (s.setClient c) := by
  have hclock : s.clock C ≤ (s.setClient c).clock C := (C.advances hst).fresh
  have hnil := h.errors_nil hclear
  simp only [breaking, Bool.or_eq_false_iff, decide_eq_false_iff_not] at hclear
  obtain ⟨⟨hwork, -⟩, hnone⟩ := hclear
  apply h.setClient_of_current hst
  intro a ha
  have hcreated : a < (s.setClient c).clock C := by
    rcases (C.advances hst).current a ha with hcur | ⟨-, hlt⟩
    · exact Nat.lt_of_lt_of_le (h.current a hcur).created hclock
    · exact hlt
  exact
    { created := hcreated
      losing := by
        intro hw
        rw [show (s.setClient c).conn.work.breaking = false from hwork] at hw
        cases hw
      pending := by
        intro m hm
        rw [show (s.setClient c).errors = [] from hnil] at hm
        cases hm
      hand := fun hh => absurd (hhand hh) hnone }

/-- The mark of a loss, if it were reported or pushed now. -/
theorem lost_le (h : Dated C s) :
    (if s.conn.work.breaking then s.lostAt else s.clock C) ≤ s.clock C := by
  split
  · exact h.lostAt
  · exact Nat.le_refl _

theorem lt_lost (h : Dated C s) {a : Nat} (ha : (C.controller s.client).currentOp = some a) :
    a < if s.conn.work.breaking then s.lostAt else s.clock C := by
  have hbefore := h.current a ha
  split
  · rename_i hwork
    exact hbefore.losing hwork
  · exact hbefore.created

/-- The connection moves: what is pushed now is pushed after the current operation was created. -/
theorem moveConn (h : Dated C s) {c : SpeechConnection}
    (hcount : s.conn.errorCount ≤ c.errorCount ∨ c.responses = []) :
    Dated C (s.moveConn C c) where
  count := by
    unfold Service.moveConn
    simp only
    split
    · rename_i hnil
      simp [SpeechConnection.errorCount, hnil]
    · rename_i hne
      rcases hcount with hle | hnil
      · rw [List.length_append, List.length_replicate, h.count]
        omega
      · exact absurd hnil hne
  errors := by
    intro m hm
    unfold Service.moveConn at hm
    simp only at hm
    split at hm
    · cases hm
    · rcases List.mem_append.mp hm with hm | hm
      · exact h.errors m hm
      · obtain ⟨-, rfl⟩ := List.mem_replicate.mp hm
        exact ⟨h.lost_le, Nat.le_refl _⟩
  taken := h.taken
  lostAt := h.lost_le
  current := by
    intro a ha
    have hbefore := h.current a ha
    refine ⟨hbefore.created, fun _ => h.lt_lost ha, ?_, hbefore.hand⟩
    intro m hm
    unfold Service.moveConn at hm
    simp only at hm
    split at hm
    · cases hm
    · rcases List.mem_append.mp hm with hm | hm
      · exact hbefore.pending m hm
      · obtain ⟨-, rfl⟩ := List.mem_replicate.mp hm
        exact h.lt_lost ha

end Dated

/-- `recv` takes the first response: an ERROR if it returns CONNECTION_BROKEN. -/
theorem recv_errorCount {s t : SpeechConnection} {valid : Bool}
    (hst : s.step (.recv valid) = some t) :
    t.work = s.work ∧
      ((∃ data, t.receiver = .returned .connectionBroken data) ∧
          t.errorCount + 1 = s.errorCount ∨
        (∀ data, t.receiver ≠ .returned .connectionBroken data) ∧
          t.errorCount = s.errorCount) := by
  have htake : t = s.takeResp valid → t.work = s.work ∧
      ((∃ data, t.receiver = .returned .connectionBroken data) ∧
          t.errorCount + 1 = s.errorCount ∨
        (∀ data, t.receiver ≠ .returned .connectionBroken data) ∧
          t.errorCount = s.errorCount) := by
    rintro rfl
    unfold SpeechConnection.takeResp
    split
    · exact ⟨rfl, .inr ⟨by simp, rfl⟩⟩
    · rename_i resp responses hresp
      refine ⟨rfl, ?_⟩
      unfold SpeechConnection.errorCount
      rw [hresp]
      cases htype : resp.type with
      | data =>
          right
          cases valid with
          | true => simp [htype]
          | false => simp [htype]
      | error =>
          left
          simp [htype]
      | closed =>
          right
          simp [htype]
  unfold SpeechConnection.step at hst
  split at hst
  · cases hst
  · have heq : s.recv valid = t := Option.some.inj hst
    unfold SpeechConnection.recv at heq
    split at heq
    · split at heq
      · cases heq
        exact ⟨rfl, .inr ⟨by simp, rfl⟩⟩
      · exact htake heq.symm
    · split at heq
      · cases heq
        exact ⟨rfl, .inr ⟨by simp, rfl⟩⟩
      · exact htake heq.symm
    · exact htake heq.symm

namespace Dated

/-- `recv` returns to `gen_results`, which then holds the oldest mark. -/
theorem take (h : Dated C s) {valid : Bool} {resp : ρ} {r : ConnectionOpResult} {data : Bytes}
    {c : SpeechConnection} {c' : σ} (hst : s.conn.step (.recv valid) = some c)
    (hret : c.receiver = .returned r data) (hst' : C.step s.client (C.gen r resp) = some c') :
    Dated C ((s.takeResp r c).setClient c') := by
  obtain ⟨hwork, hcase⟩ := recv_errorCount hst
  have hclock : s.clock C ≤ (s.setClient c').clock C := (C.advances hst').fresh
  have hstarts : C.starts s.client (C.gen r resp) = false := by
    rw [← Bool.not_eq_true]
    intro hs
    have hrole := (C.starts_alone hs).1
    rw [C.role_gen] at hrole
    cases hrole
  have hcur : ∀ a, (C.controller c').currentOp = some a → Before C a s :=
    fun a ha => h.current a (C.started hst' hstarts a ha)
  rcases hcase with ⟨⟨data', hbroken⟩, hcount⟩ | ⟨hother, hcount⟩
  · obtain rfl : r = .connectionBroken := by
      rw [hret] at hbroken
      cases hbroken
      rfl
    -- the first mark is the one of the entry
    cases herrors : s.errors with
    | nil =>
        have hlen := h.count
        rw [herrors, List.length_nil] at hlen
        omega
    | cons m rest =>
        have heq : s.takeResp .connectionBroken c =
            { s with conn := c, taken := m, errors := rest } := by
          simp [takeResp, herrors]
        rw [heq]
        exact
          { count := by
              have hlen := h.count
              rw [herrors, List.length_cons] at hlen
              simp only [Service.setClient]
              omega
            errors := by
              intro m' hm'
              apply (h.errors m' _).later hclock
              rw [herrors]
              exact List.mem_cons_of_mem _ hm'
            taken := by
              apply (h.errors m _).later hclock
              rw [herrors]
              exact List.mem_cons_self
            lostAt := Nat.le_trans h.lostAt hclock
            current := by
              intro a ha
              have hbefore := hcur a ha
              have hpending := hbefore.pending
              rw [herrors] at hpending
              exact
                { created := Nat.lt_of_lt_of_le hbefore.created hclock
                  losing := by
                    intro hw
                    apply hbefore.losing
                    rw [← hwork]
                    exact hw
                  pending := fun m' hm' => hpending m' (List.mem_cons_of_mem _ hm')
                  hand := fun _ => hpending m List.mem_cons_self } }
  · have hr : r ≠ .connectionBroken := by
      rintro rfl
      exact hother data hret
    have heq : s.takeResp r c = { s with conn := c } := if_neg hr
    rw [heq]
    exact
      { count := h.count.trans hcount.symm
        errors := fun m hm => (h.errors m hm).later hclock
        taken := h.taken.later hclock
        lostAt := Nat.le_trans h.lostAt hclock
        current := by
          intro a ha
          have hbefore := hcur a ha
          exact
            { created := Nat.lt_of_lt_of_le hbefore.created hclock
              losing := by
                intro hw
                apply hbefore.losing
                rw [← hwork]
                exact hw
              pending := hbefore.pending
              hand := fun hh => absurd (C.hand_taken hst' hh).symm hr } }

/-- `gen_results` waits in `recv`. -/
theorem wait (h : Dated C s) {valid : Bool} {c : SpeechConnection}
    (hst : s.conn.step (.recv valid) = some c)
    (hwait : ∀ r data, c.receiver ≠ .returned r data) : Dated C { s with conn := c } := by
  obtain ⟨hwork, hcase⟩ := recv_errorCount hst
  rcases hcase with ⟨⟨data, hbroken⟩, -⟩ | ⟨-, hcount⟩
  · exact absurd hbroken (hwait _ _)
  · refine ⟨h.count.trans hcount.symm, h.errors, h.taken, h.lostAt, ?_⟩
    intro a ha
    have hbefore := h.current a ha
    refine ⟨hbefore.created, ?_, hbefore.pending, hbefore.hand⟩
    intro hw
    apply hbefore.losing
    rw [← hwork]
    exact hw

/-- The marks have nothing to do with the calls of `send`. -/
theorem setCalls (h : Dated C s) (calling awaiting : List Nat) :
    Dated C (s.setCalls calling awaiting) where
  count := h.count
  errors := h.errors
  taken := h.taken
  lostAt := h.lostAt
  current := by
    intro a ha
    have hbefore := h.current a ha
    exact ⟨hbefore.created, hbefore.losing, hbefore.pending, hbefore.hand⟩

/-- The connection moves, and then the client. -/
theorem both (h : Dated C s) {b : α} {c : SpeechConnection} {c' : σ}
    (hcount : s.conn.errorCount ≤ c.errorCount ∨ c.responses = [])
    (hcalls : Calls C s.client b) (hst : C.step s.client b = some c') :
    Dated C ((s.moveConn C c).setClient c') :=
  (h.moveConn hcount).setClient (s := s.moveConn C c) hst hcalls.starts
    fun hh => hand_of_calls hcalls hst hh

/-- **One step.** -/
theorem step (h : Dated C s) {a : ServiceAct α ρ} (hok : StartsClear C s a)
    (hstep : s.step C a = some t) : Dated C t := by
  cases step_move hstep with
  | @own a c halone hst =>
      have hhand : C.hand c = some .connectionBroken →
          C.hand s.client = some .connectionBroken := fun hh => hand_of_alone halone hst hh
      cases hstarts : C.starts s.client a with
      | false => exact h.setClient hst hstarts hhand
      | true =>
          apply h.start hst hhand
          simpa [StartsClear, startsClear, hstarts] using hok
  | call hcalls hst hact =>
      exact h.setClient hst hcalls.starts fun hh => hand_of_calls hcalls hst hh
  | conn hown hst =>
      exact h.moveConn (SpeechConnection.step_shifts hst (.inl hown)).errorCount
  | served hcalled hst hact =>
      exact h.moveConn (SpeechConnection.step_shifts hst (.inr hcalled)).errorCount
  | both hcalled hst hcalls hst' hact =>
      exact h.both (SpeechConnection.step_shifts hst (.inr hcalled)).errorCount hcalls hst'
  | sent hst hpc hcalls hst' =>
      have hcount := (SpeechConnection.step_shifts hst (.inr rfl)).errorCount
      exact (h.both hcount hcalls hst').setCalls _ _
  | written hst =>
      have hcount := (SpeechConnection.step_shifts hst (.inr rfl)).errorCount
      exact (h.moveConn hcount).setCalls _ _
  | @prepare options b c c' hst hcalls hst' =>
      have hcount : s.conn.errorCount ≤ c.errorCount := by
        unfold SpeechConnection.errorCount
        rw [SpeechConnection.prepare_responses hst]
      exact (h.both (.inl hcount) hcalls hst').setCalls [] []
  | wait hst hwait => exact h.wait hst hwait
  | take hst hret hst' => exact h.take hst hret hst'

end Dated

/-- The condition leaves out nothing else: an operation that is made current while a loss is on
    its way is younger than the loss. -/
theorem misdirects (h : Dated C s) {a : ServiceAct α ρ} (hstep : s.step C a = some t)
    (hno : ¬ StartsClear C s a) : ¬ t.Ordered C := by
  obtain ⟨b, rfl, hstarts, hbreaking⟩ :
      ∃ b, a = .client b ∧ C.starts s.client b = true ∧ s.breaking C = true := by
    unfold StartsClear startsClear at hno
    split at hno
    · simp only [Bool.not_eq_true', Bool.not_eq_false, Bool.and_eq_true] at hno
      exact ⟨_, rfl, hno.1, hno.2⟩
    · exact absurd rfl hno
  intro hordered
  cases step_move hstep with
  | call hcalls hst hact => exact hact.1 _ rfl
  | served hcalled hst hact => exact hact.1 _ rfl
  | both hcalled hst hcalls hst' hact => exact hact.1 _ rfl
  | @own _ c halone hst =>
      have hbefore := hordered _ (C.starts_current hst hstarts)
      simp only [breaking, Bool.or_eq_true, decide_eq_true_eq] at hbreaking
      rcases hbreaking with (hwork | hany) | hhand
      · exact absurd (hbefore.losing hwork) (Nat.not_lt.mpr h.lostAt)
      · -- there is an entry, and so there is a mark
        have hpos : 0 < s.errors.length := by
          rw [h.count]
          unfold SpeechConnection.errorCount
          rw [List.countP_pos_iff]
          exact List.any_eq_true.mp hany
        obtain ⟨m, hm⟩ := List.exists_mem_of_length_pos hpos
        have hlt := hbefore.pending m hm
        have hpast := h.errors m hm
        exact absurd hlt (Nat.not_lt.mpr (Nat.le_trans hpast.lost hpast.pushed))
      · have hsame := C.hand_send hst (C.starts_alone hstarts).1
        have hlt := hbefore.hand (hsame.trans hhand)
        exact absurd hlt (Nat.not_lt.mpr (Nat.le_trans h.taken.lost h.taken.pushed))

/-- In every run of a client with its connection in which no operation is made current while a
    loss is on its way; the first one that is breaks it. -/
theorem concerned_of_run (hnone : (C.controller C.opened).currentOp = none)
    (hrun : Run (Steps C) (StartsClear C) (opened C) s) :
    s.Concerned C ∧ ∀ a t, s.step C a = some t → (t.Ordered C ↔ StartsClear C s a) := by
  have h : Dated C s :=
    hrun.invariant (fun _ _ _ hd hok hst => hd.step hok hst) (.opened C hnone)
  refine ⟨h.concerned, ?_⟩
  intro a t hst
  constructor
  · intro hordered
    by_contra hno
    exact misdirects h hst hno hordered
  · intro hok
    exact (h.step hok hst).current

end Service

/-- **A lost connection fails the operations it concerns**, in every run, over any number of
    sessions, in which `new_op(id, START)` is not called while a loss is on its way; the first such
    call puts an operation in the way of a loss that came before it. -/
theorem broken_concerns (s : Service TtsImpl) (u : Service SpeechImpl) :
    (Run (Service.Steps ttsClient) (Service.StartsClear ttsClient)
        (Service.opened ttsClient) s → s.Concerned ttsClient ∧
          ∀ a t, s.step ttsClient a = some t →
            (t.Ordered ttsClient ↔ Service.StartsClear ttsClient s a)) ∧
      (Run (Service.Steps speechClient) (Service.StartsClear speechClient)
        (Service.opened speechClient) u → u.Concerned speechClient ∧
          ∀ a t, u.step speechClient a = some t →
            (t.Ordered speechClient ↔ Service.StartsClear speechClient u a)) := by
  constructor
  · intro hrun
    exact Service.concerned_of_run rfl hrun
  · intro hrun
    exact Service.concerned_of_run rfl hrun

/-! ### Runs -/

/-- The server ends the connection after a request has been sent. -/
theorem broken_concerns_sent :
    (∃ s, exec (Service.step ttsClient) (Service.opened ttsClient) (TtsImpl.requested 7200 ++
        [.client (.gen .timeout TtsImpl.noResp)] ++ Service.loses ++
        [.recv true TtsImpl.noResp]) = some s ∧
      s.client.gen = .handle .connectionBroken TtsImpl.noResp ∧
      s.client.controller.currentOp = some 0 ∧ s.Concerned ttsClient) ∧
      ∃ s, exec (Service.step speechClient) (Service.opened speechClient)
        (SpeechImpl.requested 7200 ++ [.client (.gen .timeout SpeechImpl.finishedText)] ++
          Service.loses ++ [.recv true SpeechImpl.finishedText]) = some s ∧
      s.client.gen = .handle .connectionBroken SpeechImpl.finishedText ∧
      s.client.controller.currentOp = some 0 ∧ s.Concerned speechClient := by
  constructor
  · have hok : allOk (Service.step ttsClient) (Service.StartsClear ttsClient)
        (Service.opened ttsClient) (TtsImpl.requested 7200 ++
          [.client (.gen .timeout TtsImpl.noResp)] ++ Service.loses ++
          [.recv true TtsImpl.noResp]) = true := by
      decide +kernel
    refine ⟨_, rfl, by decide +kernel, by decide +kernel, ?_⟩
    exact ((broken_concerns _ (Service.opened speechClient)).1 (Run.of_exec hok rfl)).1
  · have hok : allOk (Service.step speechClient) (Service.StartsClear speechClient)
        (Service.opened speechClient) (SpeechImpl.requested 7200 ++
          [.client (.gen .timeout SpeechImpl.finishedText)] ++ Service.loses ++
          [.recv true SpeechImpl.finishedText]) = true := by
      decide +kernel
    refine ⟨_, rfl, by decide +kernel, by decide +kernel, ?_⟩
    exact ((broken_concerns (Service.opened ttsClient) _).2 (Run.of_exec hok rfl)).1

/-- The server ends the connection after it has answered the first request, and the second
    operation is made current before `gen_results` has handled that. -/
theorem broken_misdirected :
    (∃ s, Run (Service.Steps ttsClient) Always (Service.opened ttsClient) s ∧
        ¬ s.Concerned ttsClient) ∧
      ∃ s, Run (Service.Steps speechClient) Always (Service.opened speechClient) s ∧
        ¬ s.Concerned speechClient := by
  constructor
  · have hok : allOk (Service.step ttsClient) Always (Service.opened ttsClient)
        (TtsImpl.requested 7200 ++ TtsImpl.answered ++ Service.loses ++
          [.client (.send .success), .recv true TtsImpl.noResp]) = true := by
      decide +kernel
    refine ⟨_, Run.of_exec hok rfl, ?_⟩
    intro h
    exact absurd (h (by decide +kernel) 1 (by decide +kernel)).1 (by decide +kernel)
  · have hok : allOk (Service.step speechClient) Always (Service.opened speechClient)
        (SpeechImpl.requested 7200 ++ SpeechImpl.answered ++ Service.loses ++
          [.client (.send .success), .client (.send .success), .client (.send .success),
            .client (.send .success), .client (.send .success),
            .recv true SpeechImpl.finishedText]) = true := by
      decide +kernel
    refine ⟨_, Run.of_exec hok rfl, ?_⟩
    intro h
    exact absurd (h (by decide +kernel) 1 (by decide +kernel)).1 (by decide +kernel)

end OpenVoice
