import OpenVoice.OpCtl.Works
import OpenVoice.Tts.Moves

/-!
# What the threads of `TtsImpl` do with the controller

Every step of every thread works on the controller with its own functions, and the clock does not
go back.
-/

namespace OpenVoice

open OpenVoice.Lib OpCtl

namespace TtsImpl

variable {s t : TtsImpl}

theorem genResultByResp_works (resp : TtsResponse) (a : Nat) (s : TtsImpl) :
    Works s.now s.controller (genResultByResp resp a s).controller := by
  have hstart : Works s.now s.controller (genStart resp a s).controller := by
    unfold genStart
    split
    · rename_i hst
      exact .stream .refl hst
    · exact .refl
  have hvoice : ∀ u : TtsImpl, (genVoice resp u).controller = u.controller := by
    intro u
    unfold genVoice
    split <;> rfl
  have hfinish : ∀ u : TtsImpl, Works s.now s.controller u.controller →
      Works s.now s.controller (genFinish resp a u).controller := by
    intro u hu
    unfold genFinish
    split
    · simp only
      split
      · exact (hu.end_ a).finishOp
      · exact hu.finishOp
    · exact hu
  have hall := hfinish (genVoice resp (genStart resp a s)) (by rw [hvoice]; exact hstart)
  unfold genResultByResp
  simp only
  split
  · split
    · exact hall
    · exact hall
  · exact .refl

theorem handleResult_works (r : ConnectionOpResult) (resp : TtsResponse) (s : TtsImpl) :
    Works s.now s.controller (s.handleResult r resp).controller := by
  unfold handleResult
  split
  · have hrefresh : Works s.now s.controller (s.controller.refreshOpTime s.now true) :=
      Works.refl.refreshOpTime true
    simp only
    split
    · exact hrefresh
    · exact hrefresh.trans (genResultByResp_works _ _
        (s.setController (s.controller.refreshOpTime s.now true)))
  · split
    · exact Works.refl.setOpError _
    · exact .refl
  · exact Works.refl.setOpError _
  · exact Works.refl.setOpError _

theorem genStep_works {r : ConnectionOpResult} {resp : TtsResponse}
    (h : s.genStep r resp = some t) : Works s.now s.controller t.controller := by
  unfold genStep at h
  split at h
  · cases h
    exact .refl
  · split at h
    · split at h
      · cases h
        exact .refl
      · cases h
        exact .refl
    · cases h
  · cases h
    exact handleResult_works _ _ s
  · cases h

theorem poll_works {o : Option (Nat × TtsResult)} (h : s.poll = some (o, t)) :
    Works s.now s.controller t.controller := by
  obtain ⟨c, q, rfl, hc⟩ := poll_frame h
  rcases hc with rfl | rfl
  · exact .refl
  · exact Works.refl.removeFrontOp

theorem cancel_works (id : Int) (s : TtsImpl) :
    Works s.now s.controller (s.cancel id).controller := by
  unfold TtsImpl.cancel
  split
  · exact .refl
  · simp only
    split
    · split
      · exact Works.refl.cancelOp 0
      · exact Works.refl.cancelOp 0
    · split
      · split
        · exact Works.refl.cancelOp id
        · exact Works.refl.cancelOp id
      · exact .refl

theorem ReleaseMove.works (h : ReleaseMove s t) : Works s.now s.controller t.controller := by
  cases h with
  | closeResp hrel => exact Works.refl.finishOp
  | _ => exact .refl

theorem SendMove.works {r : ConnectionOpResult} (h : SendMove s r t) :
    Works s.now s.controller t.controller := by
  cases h with
  | cancelled => exact Works.refl.newOp _ _
  | start => exact Works.refl.newOp _ _
  | setError hpc => exact Works.refl.setOpError _
  | refresh hpc => exact Works.refl.refreshOpTime _
  | block hpc hwait => exact Works.refl.park _
  | _ => exact .refl

/-- **What a step does with the controller.** -/
theorem step_works {a : TtsAct} (h : s.step a = some t) :
    Works s.now s.controller t.controller := by
  unfold step at h
  split at h
  · cases h
  · cases a with
    | prepare =>
        simp only at h
        split at h
        · cases h
          unfold TtsImpl.prepare
          split
          · exact .refl
          · exact .refl
        · cases h
    | release => exact (release_move h).works
    | call n pc =>
        simp only at h
        unfold TtsImpl.call at h
        split at h
        · split at h
          · cases h
            exact .refl
          · cases h
            exact .refl
        · cases h
          exact .refl
        · cases h
    | client n =>
        simp only at h
        unfold TtsImpl.client at h
        split at h
        · simp only at h
          split at h
          · cases h
          · cases h
            exact .refl
          · cases h
            exact cancel_works _ { s with clients := Function.update s.clients n .idle }
        · cases h
    | poll =>
        cases h
        unfold TtsImpl.pollStep
        split
        · split
          · exact .refl
          · rename_i u hpoll
            exact poll_works hpoll
          · rename_i r u hpoll
            exact poll_works (s := s) (t := u) hpoll
        · exact .refl
    | config mod =>
        cases h
        cases mod with
        | none => exact .refl
        | some mod => exact .refl
    | send r => exact (sendStep_move h).works
    | gen r resp => exact genStep_works h
    | tick ns =>
        cases h
        exact .refl

/-- **The clock does not go back.** -/
theorem step_now {a : TtsAct} (h : s.step a = some t) : s.now ≤ t.now := by
  unfold step at h
  split at h
  · cases h
  · cases a with
    | prepare =>
        simp only at h
        split at h
        · cases h
          unfold TtsImpl.prepare
          split
          · exact Int.le_refl _
          · exact Int.le_refl _
        · cases h
    | release => cases release_move h <;> exact Int.le_refl _
    | call n pc =>
        simp only at h
        unfold TtsImpl.call at h
        split at h
        · split at h
          · cases h
            exact Int.le_refl _
          · cases h
            exact Int.le_refl _
        · cases h
          exact Int.le_refl _
        · cases h
    | client n =>
        simp only at h
        unfold TtsImpl.client at h
        split at h
        · simp only at h
          split at h
          · cases h
          · cases h
            exact Int.le_refl _
          · rename_i id hpc
            cases h
            obtain ⟨reqs, c, k, heq, -, -, -⟩ :=
              cancel_spec id { s with clients := Function.update s.clients n .idle }
            exact Int.le_of_eq (congrArg TtsImpl.now heq).symm
        · cases h
    | poll =>
        cases h
        unfold TtsImpl.pollStep
        split
        · split
          · exact Int.le_refl _
          · rename_i u hpoll
            obtain ⟨c, q, rfl, -⟩ := poll_eq hpoll
            exact Int.le_refl _
          · rename_i r u hpoll
            obtain ⟨c, q, rfl, -⟩ := poll_eq hpoll
            exact Int.le_refl _
        · exact Int.le_refl _
    | config mod =>
        cases h
        cases mod with
        | none => exact Int.le_refl _
        | some mod => exact Int.le_refl _
    | send r => cases sendStep_move h <;> exact Int.le_refl _
    | gen r resp =>
        obtain ⟨c, q, n, pc, -, rfl⟩ := genStep_spec h
        exact Int.le_refl _
    | tick ns =>
        cases h
        exact Int.le_add_of_nonneg_right (Int.natCast_nonneg ns)

/-- No time point of an operation is ever in the future. -/
theorem clocked_run (hrun : Run Steps Always {} s) : Clocked s.now s.controller := by
  induction hrun with
  | refl => exact .init
  | snoc _ _ hst ih => exact ((step_works hst).clocked ih).later (step_now hst)

end TtsImpl

end OpenVoice
