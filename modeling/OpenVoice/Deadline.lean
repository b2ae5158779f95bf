import OpenVoice.OpCtl.Deadline
import OpenVoice.Speech.SendThread
import OpenVoice.Tts.Moves

/-!
# The timeout of an operation in progress

`gen_results` evaluates `op_timeout` twice: at the top of its loop, for the timeout of
`connection_.recv`, and after a `TIMEOUT`, to see whether the deadline of the current operation
has been reached.  A deadline that passes between the two is found at the top of the loop, where
the 0 that says so makes `recv` wait without bound.
-/

namespace OpenVoice

open OpenVoice.Lib

namespace TtsImpl

/-- `gen_results` does not start an iteration with an operation that is overdue. -/
def inTime (s : TtsImpl) : TtsAct → Bool
  | .gen _ _ => s.gen ≠ .loop || !s.controller.overdue s.now
  | _ => true

def InTime (s : TtsImpl) (a : TtsAct) : Prop := s.inTime a = true

instance (s : TtsImpl) (a : TtsAct) : Decidable (InTime s a) :=
  inferInstanceAs (Decidable (s.inTime a = true))

/-- No operation is left without a timeout: `recv` is called without bound only if no time is
    counted, and a `TIMEOUT` fails the operation that is overdue. -/
structure Timed (s : TtsImpl) : Prop where
  bounded : s.gen = .recv 0 → s.controller.counting = false
  failed : ∀ r resp resp' t a, s.gen = .handle .timeout resp → s.step (.gen r resp') = some t →
    s.controller.overdue s.now = true → s.controller.currentOp = some a →
    t.controller.currentOp = none ∧ (t.controller.heap a).status = .error ∧
      (t.controller.heap a).error = .timeout

theorem step_failed {s t : TtsImpl} {r : ConnectionOpResult} {resp resp' : TtsResponse}
    (hgen : s.gen = .handle .timeout resp) (hst : s.step (.gen r resp') = some t)
    (hdue : s.controller.overdue s.now = true) :
    t.controller = s.controller.setOpError .timeout := by
  have hzero : s.controller.opTimeout s.now = 0 := OpCtl.opTimeout_eq_zero.mpr hdue
  unfold step at hst
  split at hst
  · cases hst
  · simp only [genStep, hgen] at hst
    cases hst
    simp only [handleResult, hzero, if_true]
    rfl

/-- `recv` is called with timeout 0 only when the deadline has been reached. -/
theorem genStep_bounded {s t : TtsImpl} {r : ConnectionOpResult} {resp : TtsResponse}
    (hok : InTime s (.gen r resp)) (hst : s.genStep r resp = some t) : t.gen ≠ .recv 0 := by
  unfold genStep at hst
  split at hst
  · rename_i hpc
    cases hst
    intro h
    have hdue : s.controller.overdue s.now = true :=
      OpCtl.opTimeout_eq_zero.mp (by simpa using h)
    simp [InTime, inTime, hpc, hdue] at hok
  · split at hst
    · split at hst
      · cases hst
        simp
      · cases hst
        simp
    · cases hst
  · cases hst
    simp
  · cases hst

theorem step_bounded {s t : TtsImpl} {a : TtsAct} (h : s.gen ≠ .recv 0) (hok : InTime s a)
    (hst : s.step a = some t) : t.gen ≠ .recv 0 := by
  cases step_move hst with
  | prepared => exact h
  | prepare => simp
  | release hmove => cases hmove <;> exact h
  | send hmove => cases hmove <;> exact h
  | gen hgen => exact genStep_bounded hok hgen
  | client => exact h

theorem timed_run {s : TtsImpl} (hrun : Run Steps InTime {} s) : s.Timed := by
  have hstep : ∀ t a u, t.gen ≠ .recv 0 → InTime t a → Steps t a u → u.gen ≠ .recv 0 :=
    fun t a u h hok hst => step_bounded h hok hst
  have h := hrun.invariant hstep (by simp)
  constructor
  · intro hgen
    exact absurd hgen h
  · intro r resp resp' t a hgen hst hdue hcur
    rw [step_failed hgen hst hdue]
    obtain ⟨hstatus, herror, hnone⟩ := OpCtl.setOpError_fails TtsError.timeout hcur
    exact ⟨hnone, hstatus, herror⟩

/-- An iteration that starts with an operation overdue waits without bound. -/
theorem not_inTime {s t : TtsImpl} {a : TtsAct} (hok : ¬ InTime s a) (hst : s.step a = some t) :
    t.gen = .recv 0 ∧ t.controller.counting = true := by
  cases a with
  | gen r resp =>
      have hpc : s.gen = .loop ∧ s.controller.overdue s.now = true := by
        simpa [InTime, inTime] using hok
      unfold step at hst
      split at hst
      · cases hst
      · simp only [genStep, hpc.1] at hst
        cases hst
        refine ⟨?_, OpCtl.counting_of_overdue hpc.2⟩
        simp only [OpCtl.opTimeout_eq_zero.mpr hpc.2]
  | _ => exact absurd rfl hok

end TtsImpl

namespace SpeechImpl

/-- `gen_results` does not start an iteration with an operation that is overdue. -/
def inTime (s : SpeechImpl) : SpeechAct → Bool
  | .gen _ _ => s.gen ≠ .loop || !s.controller.overdue s.now
  | _ => true

def InTime (s : SpeechImpl) (a : SpeechAct) : Prop := s.inTime a = true

instance (s : SpeechImpl) (a : SpeechAct) : Decidable (InTime s a) :=
  inferInstanceAs (Decidable (s.inTime a = true))

/-- No operation is left without a timeout: `recv` is called without bound only if no time is
    counted, and a `TIMEOUT` fails the operation that is overdue. -/
structure Timed (s : SpeechImpl) : Prop where
  bounded : s.gen = .recv 0 → s.controller.counting = false
  failed : ∀ r resp resp' t a, s.gen = .handle .timeout resp → s.step (.gen r resp') = some t →
    s.controller.overdue s.now = true → s.controller.currentOp = some a →
    t.controller.currentOp = none ∧ (t.controller.heap a).status = .error ∧
      (t.controller.heap a).error = SpeechError.timeout

theorem handleResult_failed {s : SpeechImpl} {resp : SpeechResponse}
    (hdue : s.controller.overdue s.now = true) :
    (s.handleResult .timeout resp).2.controller = s.controller.setOpError SpeechError.timeout := by
  have hzero : s.controller.opTimeout s.now = 0 := OpCtl.opTimeout_eq_zero.mpr hdue
  simp only [handleResult, hzero, if_true]
  rfl

theorem step_failed {s t : SpeechImpl} {r : ConnectionOpResult} {resp resp' : SpeechResponse}
    (hgen : s.gen = .handle .timeout resp) (hst : s.step (.gen r resp') = some t)
    (hdue : s.controller.overdue s.now = true) :
    t.controller = s.controller.setOpError SpeechError.timeout := by
  have hctl : (s.handleResult .timeout resp).2.controller =
      s.controller.setOpError SpeechError.timeout := handleResult_failed hdue
  unfold step at hst
  split at hst
  · cases hst
  · simp only [genStep, hgen] at hst
    split at hst
    · split at hst
      · rename_i id u hres
        cases hst
        rw [hres] at hctl
        exact hctl
      · rename_i u hres
        cases hst
        rw [hres] at hctl
        exact hctl
    · cases hst

/-- `recv` is called with timeout 0 only when the deadline has been reached. -/
theorem genStep_bounded {s t : SpeechImpl} {r : ConnectionOpResult} {resp : SpeechResponse}
    (hok : InTime s (.gen r resp)) (hst : s.genStep r resp = some t) : t.gen ≠ .recv 0 := by
  unfold genStep at hst
  split at hst
  · rename_i hpc
    split at hst
    · cases hst
      intro h
      have hdue : s.controller.overdue s.now = true :=
        OpCtl.opTimeout_eq_zero.mp (by simpa using h)
      simp [InTime, inTime, hpc, hdue] at hok
    · cases hst
  · split at hst
    · split at hst
      · cases hst
        simp
      · cases hst
        simp
    · cases hst
  · split at hst
    · split at hst
      · cases hst
        simp
      · cases hst
        simp
    · cases hst
  · split at hst
    · cases hst
      simp
    · cases hst
  · cases hst

theorem step_bounded {s t : SpeechImpl} {a : SpeechAct} (h : s.gen ≠ .recv 0) (hok : InTime s a)
    (hst : s.step a = some t) : t.gen ≠ .recv 0 := by
  cases step_move hst with
  | prepared => exact h
  | prepare => simp
  | release hmove => cases hmove <;> exact h
  | send hmove => cases hmove <;> exact h
  | gen hgen => exact genStep_bounded hok hgen
  | client => exact h

theorem timed_run {s : SpeechImpl} (hrun : Run Steps InTime {} s) : s.Timed := by
  have hstep : ∀ t a u, t.gen ≠ .recv 0 → InTime t a → Steps t a u → u.gen ≠ .recv 0 :=
    fun t a u h hok hst => step_bounded h hok hst
  have h := hrun.invariant hstep (by simp)
  constructor
  · intro hgen
    exact absurd hgen h
  · intro r resp resp' t a hgen hst hdue hcur
    rw [step_failed hgen hst hdue]
    obtain ⟨hstatus, herror, hnone⟩ := OpCtl.setOpError_fails SpeechError.timeout hcur
    exact ⟨hnone, hstatus, herror⟩

/-- An iteration that starts with an operation overdue waits without bound. -/
theorem not_inTime {s t : SpeechImpl} {a : SpeechAct} (hok : ¬ InTime s a)
    (hst : s.step a = some t) : t.gen = .recv 0 ∧ t.controller.counting = true := by
  cases a with
  | gen r resp =>
      have hpc : s.gen = .loop ∧ s.controller.overdue s.now = true := by
        simpa [InTime, inTime] using hok
      unfold step at hst
      split at hst
      · cases hst
      · simp only [genStep, hpc.1] at hst
        split at hst
        · cases hst
          refine ⟨?_, OpCtl.counting_of_overdue hpc.2⟩
          simp only [OpCtl.opTimeout_eq_zero.mpr hpc.2]
        · cases hst
  | _ => exact absurd rfl hok

end SpeechImpl

/-- **Every operation keeps its timeout**, in every run in which no iteration of `gen_results`
    starts with an operation that is overdue.  An iteration that does waits without bound for the
    operation it should fail. -/
theorem operations_timed (s : TtsImpl) (u : SpeechImpl) :
    (Run TtsImpl.Steps TtsImpl.InTime {} s → s.Timed) ∧
      (Run SpeechImpl.Steps SpeechImpl.InTime {} u → u.Timed) ∧
      (∀ t a, ¬ TtsImpl.InTime s a → TtsImpl.Steps s a t →
        t.gen = .recv 0 ∧ t.controller.counting = true) ∧
      ∀ t a, ¬ SpeechImpl.InTime u a → SpeechImpl.Steps u a t →
        t.gen = .recv 0 ∧ t.controller.counting = true :=
  ⟨fun hrun => TtsImpl.timed_run hrun, fun hrun => SpeechImpl.timed_run hrun,
    fun _ _ hok hst => TtsImpl.not_inTime hok hst,
    fun _ _ hok hst => SpeechImpl.not_inTime hok hst⟩

/-! ### Runs -/

/-- `recv` is called before there is an operation, with the timeout for that; one nanosecond
    later a request has been sent. -/
def TtsImpl.sentLate : List TtsAct :=
  [.prepare, .gen .success noResp, .call 0 (.speak "a"), .client 0, .send .success, .send .success,
    .send .success, .send .success, .tick 1, .send .success]

/-- `recv` returns when its time is up, a nanosecond before the deadline of the request. -/
def TtsImpl.returned : List TtsAct :=
  TtsImpl.sentLate ++ [.tick 19999999999, .gen .timeout noResp]

/-- The same for a text request. -/
def SpeechImpl.sentLate : List SpeechAct :=
  [.prepare, .gen .success { id := 0, type := 0, result := 0 }, .call 0 (.putText (some [104]) none),
    .client 0, .client 0, .client 0, .send .success, .send .success, .send .success, .send .success,
    .send .success, .send .success, .send .success, .send .success, .tick 1, .send .success]

/-- `recv` has returned when its time was up, and then the deadline has passed. -/
def TtsImpl.late : TtsImpl :=
  (exec TtsImpl.step {} (TtsImpl.returned ++ [.gen .success noResp, .tick 1])).getD {}

def SpeechImpl.late : SpeechImpl :=
  (exec SpeechImpl.step {} (SpeechImpl.sentLate ++
    [.tick 19999999999, .gen .timeout { id := 0, type := 0, result := 0 },
      .gen .success { id := 0, type := 0, result := 0 }, .tick 1])).getD {}

/-- The deadline passes while `recv` waits; in the last two parts, just after it has returned. -/
theorem operations_timed_overdue :
    (∃ s, exec TtsImpl.step {} (TtsImpl.sentLate ++
        [.tick 20000000000, .gen .timeout TtsImpl.noResp]) = some s ∧
      s.gen = .handle .timeout TtsImpl.noResp ∧ s.controller.overdue s.now = true ∧ s.Timed) ∧
    (∃ s, exec SpeechImpl.step {} (SpeechImpl.sentLate ++
        [.tick 20000000000, .gen .timeout { id := 0, type := 0, result := 0 }]) = some s ∧
      s.gen = .handle .timeout { id := 0, type := 0, result := 0 } ∧
      s.controller.overdue s.now = true ∧ s.Timed) ∧
    (∃ t, TtsImpl.Steps TtsImpl.late (.gen .success TtsImpl.noResp) t ∧ t.gen = .recv 0 ∧
      t.controller.counting = true) ∧
    ∃ t, SpeechImpl.Steps SpeechImpl.late (.gen .success { id := 0, type := 0, result := 0 }) t ∧
      t.gen = .recv 0 ∧ t.controller.counting = true := by
  refine ⟨⟨_, rfl, by decide +kernel, by decide +kernel, ?_⟩,
    ⟨_, rfl, by decide +kernel, by decide +kernel, ?_⟩, ?_, ?_⟩
  · have hok : allOk TtsImpl.step TtsImpl.InTime {} (TtsImpl.sentLate ++
        [.tick 20000000000, .gen .timeout TtsImpl.noResp]) = true := by
      decide +kernel
    exact (operations_timed _ {}).1 (Run.of_exec hok rfl)
  · have hok : allOk SpeechImpl.step SpeechImpl.InTime {} (SpeechImpl.sentLate ++
        [.tick 20000000000, .gen .timeout { id := 0, type := 0, result := 0 }]) = true := by
      decide +kernel
    exact (operations_timed {} _).2.1 (Run.of_exec hok rfl)
  · have hstep : (TtsImpl.late.step (.gen .success TtsImpl.noResp)).isSome = true := by
      decide +kernel
    obtain ⟨t, ht⟩ := Option.isSome_iff_exists.mp hstep
    exact ⟨t, ht, (operations_timed _ {}).2.2.1 _ _ (by decide +kernel) ht⟩
  · have hstep : (SpeechImpl.late.step
        (.gen .success { id := 0, type := 0, result := 0 })).isSome = true := by
      decide +kernel
    obtain ⟨t, ht⟩ := Option.isSome_iff_exists.mp hstep
    exact ⟨t, ht, (operations_timed {} _).2.2.2 _ _ (by decide +kernel) ht⟩

/-- The deadline passes while `gen_results` goes back to the top of its loop. -/
theorem waits_overdue : ∃ s, Run TtsImpl.Steps Always {} s ∧ ¬ s.Timed := by
  have hok : allOk TtsImpl.step Always {} (TtsImpl.returned ++
      [.gen .success TtsImpl.noResp, .tick 1, .gen .success TtsImpl.noResp]) = true := by
    decide +kernel
  refine ⟨_, Run.of_exec hok rfl, ?_⟩
  intro h
  have hnot := h.bounded (by decide +kernel)
  revert hnot
  decide +kernel

end OpenVoice
