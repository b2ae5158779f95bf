import OpenVoice.Speech.Shutdown
import OpenVoice.Tts.Shutdown

/-!
# `release` and an operation that is waited for

When the send thread is past the test of the connection, `TtsImpl::release` leaves it waiting for
an operation nobody ends any more (`release_stuck`), unless `gen_results` happens to hold a result
for it.  `SpeechImpl::release` ends the operation itself (`release_wakes`).
-/

namespace OpenVoice

open OpenVoice.Lib

/-- **`release` gets past the request thread**: that of `TtsImpl` in every run in which the
    connection is closed only while the send thread needs nobody, or while `gen_results` holds a
    result that ends the operation; that of `SpeechImpl` in every run. -/
theorem release_wakes (s : TtsImpl) (u : SpeechImpl) :
    (Run TtsImpl.Steps TtsImpl.Wakes {} s → ¬ s.Stuck) ∧
      (Run SpeechImpl.Steps Always {} u → ¬ u.Stuck) := by
  constructor
  · intro hrun
    have h : s.Closing :=
      hrun.invariant (fun _ _ _ hcl hok hst => hcl.step hok hst) TtsImpl.Closing.opened
    exact h.not_stuck
  · intro hrun
    have h : u.Closing :=
      hrun.invariant (fun _ _ _ hcl _ hst => hcl.step hst) SpeechImpl.Closing.opened
    exact h.not_stuck

/-! ### Runs -/

/-- A request that is sent and waited for. -/
def TtsImpl.waitedFor : List TtsAct :=
  [.prepare, .call 0 (.speak "a"), .client 0, .send .success, .send .success, .send .success,
    .send .success, .send .success, .send .success]

/-- The same for a text request. -/
def SpeechImpl.waitedFor : List SpeechAct :=
  [.prepare, .call 0 (.putText (some [104]) none), .client 0, .client 0, .client 0,
    .send .success, .send .success, .send .success, .send .success, .send .success,
    .send .success, .send .success, .send .success, .send .success, .send .success,
    .send .success]

/-- The connection is broken just before `release` closes it. -/
theorem release_wakes_broken :
    (∃ s, exec TtsImpl.step {} (TtsImpl.waitedFor ++ [.gen .connectionBroken TtsImpl.noResp,
        .gen .connectionBroken TtsImpl.noResp, .release, .release]) = some s ∧
      s.releasing = .joinReq ∧ s.send = .blocked 1 ∧ ¬ s.Stuck) ∧
      ∃ s, exec SpeechImpl.step {} (SpeechImpl.waitedFor ++ [.release, .release, .release]) =
        some s ∧ s.releasing = .joinReq ∧ s.send = .blocked 1 ∧ ¬ s.Stuck := by
  constructor
  · have hok : allOk TtsImpl.step TtsImpl.Wakes {} (TtsImpl.waitedFor ++
        [.gen .connectionBroken TtsImpl.noResp, .gen .connectionBroken TtsImpl.noResp, .release,
          .release]) = true := by
      decide +kernel
    refine ⟨_, rfl, by decide +kernel, by decide +kernel, ?_⟩
    exact (release_wakes _ {}).1 (Run.of_exec hok rfl)
  · have hok : allOk SpeechImpl.step Always {} (SpeechImpl.waitedFor ++
        [.release, .release, .release]) = true := by
      decide +kernel
    refine ⟨_, rfl, by decide +kernel, by decide +kernel, ?_⟩
    exact (release_wakes {} _).2 (Run.of_exec hok rfl)

/-- Without anything from the server `TtsImpl::release` does not return. -/
theorem release_stuck : ∃ s, Run TtsImpl.Steps Always {} s ∧ s.Stuck := by
  have hok : allOk TtsImpl.step Always {} (TtsImpl.waitedFor ++ [.release, .release]) = true := by
    decide +kernel
  refine ⟨_, Run.of_exec hok rfl, ?_⟩
  have h : TtsImpl.Hung 1 0 ((exec TtsImpl.step {} (TtsImpl.waitedFor ++
      [.release, .release])).getD {}) :=
    { running := by decide +kernel
      joining := by decide +kernel
      init := by decide +kernel
      closed := by decide +kernel
      send := by decide +kernel
      waiting := by decide +kernel
      current := by decide +kernel
      id_eq := by decide +kernel
      gen := by
        intro r resp hgen
        cases hgen }
  exact h.stuck

end OpenVoice
