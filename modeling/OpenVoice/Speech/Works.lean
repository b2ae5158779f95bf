import OpenVoice.OpCtl.Works
import OpenVoice.Speech.SendThread

/-!
# What the threads of `SpeechImpl` do with the controller

Every step of every thread works on the controller with its own functions, and the clock does not
go back.
-/

namespace OpenVoice

open OpenVoice.Lib OpCtl

namespace SpeechImpl

variable {s t : SpeechImpl}

theorem genResultByResp_works (resp : SpeechResponse) (a : Nat) (s : SpeechImpl) :
    Works s.now s.controller (genResultByResp resp a s).2.controller := by
  have hstart : Works s.now s.controller (genExtra resp (genStart resp a s)).controller := by
    rw [genExtra_controller]
    unfold genStart
    split
    · rename_i hst
      exact .stream .refl hst
    · exact .refl
  have hlast : ∀ u : SpeechImpl, Works s.now s.controller u.controller →
      Works s.now s.controller
        (if resp.result = 0 then genEnd resp a u else genError resp u).controller := by
    intro u hu
    split
    · exact (hu.end_ a).finishOp
    · exact hu.finishOp
  unfold genResultByResp
  simp only
  split
  · split
    · exact hstart
    · split
      · exact hstart
      · split
        · exact hlast _ hstart
        · exact hstart
  · exact .refl

theorem handleResult_works (r : ConnectionOpResult) (resp : SpeechResponse) (s : SpeechImpl) :
    Works s.now s.controller (s.handleResult r resp).2.controller := by
  unfold handleResult
  simp only
  split
  · have hrefresh : Works s.now s.controller (s.controller.refreshOpTime s.now true) :=
      Works.refl.refreshOpTime true
    split
    · exact hrefresh
    · exact hrefresh.trans (genResultByResp_works _ _
        (s.setController (s.controller.refreshOpTime s.now true)))
  · split
    · exact Works.refl.setOpError _
    · exact .refl
  · exact Works.refl.setOpError _
  · exact Works.refl.setOpError _

theorem genStep_works {r : ConnectionOpResult} {resp : SpeechResponse}
    (h : s.genStep r resp = some t) : Works s.now s.controller t.controller := by
  unfold genStep at h
  split at h
  · split at h
    · cases h
      exact .refl
    · cases h
  · split at h
    · split at h
      · cases h
        exact .refl
      · cases h
        exact .refl
    · cases h
  · rename_i r' resp' _
    have hhandle := handleResult_works r' resp' s
    split at h
    · split at h
      · rename_i id u hres
        rw [hres] at hhandle
        cases h
        exact hhandle
      · rename_i u hres
        rw [hres] at hhandle
        cases h
        exact hhandle
    · cases h
  · split at h
    · cases h
      exact .refl
    · cases h
  · cases h

theorem poll_works {o : Option (Nat × SpeechResult)} (h : s.poll = some (o, t)) :
    Works s.now s.controller t.controller := by
  obtain ⟨c, q, rfl, hc⟩ := poll_frame h
  rcases hc with rfl | rfl
  · exact .refl
  · exact Works.refl.removeFrontOp

theorem pollStep_works (h : s.pollStep = some t) : Works s.now s.controller t.controller := by
  unfold SpeechImpl.pollStep at h
  split at h
  · split at h
    · split at h
      · cases h
        exact .refl
      · rename_i u hpoll
        cases h
        exact poll_works hpoll
      · rename_i r u hpoll
        have hworks := poll_works hpoll
        cases h
        exact hworks
    · cases h
      exact .refl
  · cases h

theorem ReleaseMove.works (h : ReleaseMove s t) : Works s.now s.controller t.controller := by
  cases h with
  | setError hrel => exact Works.refl.setOpError _
  | closeResp hrel hfree => exact Works.refl.finishOp
  | _ => exact .refl

theorem SendMove.works {r : ConnectionOpResult} (h : SendMove s r t) :
    Works s.now s.controller t.controller := by
  cases h with
  | create => exact Works.refl.newOp _ _
  | createCancelled => exact Works.refl.newOp _ _
  | cancelCurrent hpc htype => exact Works.refl.cancelStale _
  | setError hpc => exact Works.refl.setOpError _
  | refresh hpc => exact Works.refl.refreshOpTime _
  | park hpc => exact Works.refl.park _
  | _ => exact .refl

/-- **What a step does with the controller.** -/
theorem step_works {a : SpeechAct} (h : s.step a = some t) :
    Works s.now s.controller t.controller := by
  unfold step at h
  split at h
  · cases h
  · cases a with
    | prepare =>
        simp only at h
        split at h
        · cases h
          unfold SpeechImpl.prepare
          split
          · exact .refl
          · exact .refl
        · cases h
    | release => exact (release_move h).works
    | call n c =>
        cases call_move h with
        | stay => exact .refl
        | enter hidle hheld hpc => exact .refl
        | cancel id hidle => exact .refl
    | client n =>
        cases client_move h with
        | cancelOp hpc => exact Works.refl.cancelOp _
        | _ => exact .refl
    | poll => exact pollStep_works h
    | config mod =>
        cases h
        cases mod with
        | none => exact .refl
        | some mod => exact .refl
    | send r => exact (sendStep_move h).works
    | gen r resp => exact genStep_works h
    | tick ns =>
        cases h
        exact .refl

/-- **The clock does not go back.** -/
theorem step_now {a : SpeechAct} (h : s.step a = some t) : s.now ≤ t.now := by
  unfold step at h
  split at h
  · cases h
  · cases a with
    | prepare =>
        simp only at h
        split at h
        · cases h
          unfold SpeechImpl.prepare
          split
          · exact Int.le_refl _
          · exact Int.le_refl _
        · cases h
    | release => cases release_move h <;> exact Int.le_refl _
    | call n c => cases call_move h <;> exact Int.le_refl _
    | client n => cases client_move h <;> exact Int.le_refl _
    | poll =>
        simp only at h
        unfold SpeechImpl.pollStep at h
        split at h
        · split at h
          · split at h
            · cases h
              exact Int.le_refl _
            · rename_i u hpoll
              obtain ⟨c, q, rfl, -⟩ := poll_eq hpoll
              cases h
              exact Int.le_refl _
            · rename_i r u hpoll
              obtain ⟨c, q, rfl, -⟩ := poll_eq hpoll
              cases h
              exact Int.le_refl _
          · cases h
            exact Int.le_refl _
        · cases h
    | config mod =>
        cases h
        cases mod with
        | none => exact Int.le_refl _
        | some mod => exact Int.le_refl _
    | send r => cases sendStep_move h <;> exact Int.le_refl _
    | gen r resp =>
        obtain ⟨c, q, v, k, pc, -, -, rfl⟩ := genStep_spec h
        exact Int.le_refl _
    | tick ns =>
        cases h
        exact Int.le_add_of_nonneg_right (Int.natCast_nonneg ns)

/-- No time point of an operation is ever in the future. -/
theorem clocked_run (hrun : Run Steps Always {} s) : Clocked s.now s.controller := by
  induction hrun with
  | refl => exact .init
  | snoc _ _ hst ih => exact ((step_works hst).clocked ih).later (step_now hst)

end SpeechImpl

end OpenVoice
