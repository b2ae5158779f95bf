import OpenVoice.OpCtl.Pollable
import OpenVoice.Speech.Alignment
import OpenVoice.Wakeup

/-!
# Telling the thread in `poll`

A thread that finds nothing in `poll` sleeps in `resp_cond_.wait`.  Whoever gives it something to
return has to call `resp_cond_.notify_one`.  Every critical section of the other threads does so,
but one: `gen_result_by_resp` of `SpeechImpl` returns at once when it does not know the type of the
response, after it has opened the stream and queued the extra data.
-/

namespace OpenVoice

open OpenVoice.Lib

namespace TtsImpl

/-- `poll` returns if it is called now. -/
def pollable (s : TtsImpl) : Bool := OpenVoice.pollable s.controller s.responses

/-- If `poll` returns now and did not before, then `resp_cond_` has been notified. -/
def Told (s t : TtsImpl) : Prop :=
  Announced s.pollable t.pollable s.respNotifies t.respNotifies

/-- A step within a session that is not one of `poll`: the session ends with the first step of
    `release`, and the two threads run until `release` has joined them. -/
def ByOther (s : TtsImpl) : Waking TtsAct → Prop
  | .act .poll => False
  | .act .prepare | .act .release => s.initialized = true
  | _ => s.Streaming

/-- Sessions start clean, and `op_cond_.wait` does not return while there is a current operation. -/
def Undisturbed (s : TtsImpl) : Waking TtsAct → Prop
  | .act a => CleanPrepare s a
  | .wake => s.controller.currentOp = none

instance (s : TtsImpl) : ∀ w, Decidable (Undisturbed s w)
  | .act a => inferInstanceAs (Decidable (CleanPrepare s a))
  | .wake => inferInstanceAs (Decidable (_ = _))

theorem Inv.wake {s t : TtsImpl} (h : Inv s) (hcur : s.controller.currentOp = none)
    (hst : s.wake = some t) : Inv t := by
  unfold TtsImpl.wake at hst
  split at hst
  · rename_i id hpc
    split at hst
    · cases hst
    · cases hst
      exact h.advance s.respNotifies s.sent
        ⟨⟨rfl, List.suffix_refl _, fun _ => rfl⟩, fun _ h => h, fun _ _ h => h, .inr ⟨hcur, rfl⟩⟩
        (fun _ hv => hv.opWaiting false) hcur (by simp [hpc])
  · cases hst

theorem Inv.undisturbed {s : TtsImpl} (hrun : Run StepsWaking Undisturbed {} s) : Inv s := by
  refine hrun.invariant ?_ inv_init
  intro u w t h hok hst
  cases w with
  | act a => exact h.step hok hst
  | wake => exact h.wake hok hst

section Told

variable {s t : TtsImpl}

theorem cancel_told {v : List (Int × Bool)} (hv : Lined s.controller s.responses v) (id : Int) :
    Told s (s.cancel id) := by
  have hcancel : ∀ (id' : Int) (requests : List TtsReqInfo),
      Told s
        (if (s.controller.cancelOp id').1 then
          ({ s with requests := requests }.setController (s.controller.cancelOp id').2).notifyResp
        else { s with requests := requests }.setController (s.controller.cancelOp id').2) := by
    intro id' requests
    split
    · exact .notified rfl
    · rename_i hflag
      intro hs ht
      exact absurd (hv.cancelOp_notifies hs ht) hflag
  unfold cancel
  split
  · exact .same rfl
  · simp only
    split
    · exact hcancel 0 _
    · split
      · exact hcancel id _
      · exact .same rfl

theorem client_told {v : List (Int × Bool)} (hv : Lined s.controller s.responses v) {n : Nat}
    (hst : s.client n = some t) : Told s t := by
  unfold client at hst
  split at hst
  · simp only at hst
    split at hst
    · cases hst
    · cases hst
      exact .same rfl
    · rename_i id hpc
      cases hst
      have htold := cancel_told (s := { s with clients := Function.update s.clients n .idle }) hv id
      exact htold
  · cases hst

theorem sendStep_told (h : Inv s) (hstr : s.Streaming) {r : ConnectionOpResult}
    (hst : s.sendStep r = some t) : Told s t := by
  obtain ⟨v, hv, -⟩ := h.lined hstr
  have hknows := h.send
  cases sendStep_move hst with
  | cancelled => exact .notified rfl
  | start hpc =>
      rw [hpc] at hknows
      intro hs ht
      rw [pollable, hv.not_pollable_newOp hknows hs] at ht
      cases ht
  | setError => exact .notified rfl
  | refresh => exact .same (pollable_refreshOpTime _ _)
  | block => exact .same (pollable_congr rfl (fun _ => rfl) rfl)
  | _ => exact .same rfl

/-- A response that changes anything notifies. -/
theorem genResultByResp_told (resp : TtsResponse) (a : Nat) (s : TtsImpl) :
    Told s (genResultByResp resp a s) := by
  have hkeep : (genFinish resp a (genVoice resp (genStart resp a s))).respNotifies
      = s.respNotifies := by
    unfold genFinish genVoice genStart
    split <;> split <;> split <;> rfl
  unfold genResultByResp
  simp only
  split
  · split
    · exact .notified (congrArg (· + 1) hkeep)
    · rename_i hnew
      rw [not_or, not_or] at hnew
      obtain ⟨hstart, hvoice, hfinish⟩ := hnew
      have hsame : genFinish resp a (genVoice resp (genStart resp a s)) = s := by
        rw [genStart, if_neg hstart, genVoice, if_neg hvoice, genFinish, if_neg hfinish]
      rw [hsame]
      exact .same rfl
  · exact .same rfl

theorem handleResult_told (r : ConnectionOpResult) (resp : TtsResponse) (s : TtsImpl) :
    Told s (s.handleResult r resp) := by
  unfold handleResult
  split
  · simp only
    have hrefresh : (s.setController (s.controller.refreshOpTime s.now true)).pollable = s.pollable :=
      pollable_refreshOpTime _ _
    split
    · exact .same hrefresh
    · rename_i a hcur
      intro hs ht
      exact genResultByResp_told resp a _ (hrefresh.trans hs) ht
  · split
    · exact .notified rfl
    · exact .same rfl
  · exact .notified rfl
  · exact .notified rfl

theorem genStep_told {r : ConnectionOpResult} {resp : TtsResponse}
    (hst : s.genStep r resp = some t) : Told s t := by
  unfold genStep at hst
  split at hst
  · cases hst
    exact .same rfl
  · split at hst
    · split at hst <;> cases hst <;> exact .same rfl
    · cases hst
  · rename_i r' resp' _
    cases hst
    exact handleResult_told r' resp' s
  · cases hst

theorem ByOther.streaming {w : Waking TtsAct} (h : s.ByOther w) : s.Streaming := by
  cases w with
  | wake => exact h
  | act a =>
      cases a with
      | poll => exact h.elim
      | prepare | release => exact .inl h
      | call | client | config | send | gen | tick => exact h

/-- **One step.** -/
theorem Inv.told (h : Inv s) {w : Waking TtsAct} (hw : s.ByOther w)
    (hst : s.stepWaking w = some t) : Told s t := by
  have hstr := hw.streaming
  obtain ⟨v, hv, -⟩ := h.lined hstr
  cases w with
  | wake =>
      have hact : s.wake = some t := hst
      unfold TtsImpl.wake at hact
      split at hact
      · split at hact <;> cases hact
        exact .same (pollable_congr rfl (fun _ => rfl) rfl)
      · cases hact
  | act a =>
      have hact : s.step a = some t := hst
      unfold TtsImpl.step at hact
      rw [h.running, if_neg Bool.false_ne_true] at hact
      cases a with
      | prepare =>
          have hopen : s.initialized = true := hw
          simp only [TtsImpl.prepare, hopen, if_true] at hact
          split at hact
          · cases hact
            exact .same rfl
          · cases hact
      | release =>
          -- the first step of `release` closes nothing yet
          have hopen : s.initialized = true := hw
          cases release_move hact with
          | absent hrel hinit => exact .same rfl
          | enter hrel hinit => exact .same rfl
          | close hrel => exact .same rfl
          | joinReq hrel hdone => exact .same rfl
          | closeResp hrel => exact .notified rfl
          | joinResp hrel hdone => exact .same rfl
      | call n pc =>
          simp only [TtsImpl.call] at hact
          split at hact
          · split at hact
            · cases hact
              exact .same rfl
            · cases hact
              exact .same rfl
          · cases hact
            exact .same rfl
          · cases hact
      | client n => exact client_told hv hact
      | poll => exact hw.elim
      | config mod =>
          cases hact
          cases mod with
          | none => exact .same rfl
          | some mod => exact .same rfl
      | send r => exact sendStep_told h hstr hact
      | gen r resp => exact genStep_told hact
      | tick ns =>
          cases hact
          exact .same rfl

end Told

end TtsImpl

namespace SpeechImpl

/-- `poll` returns if it is called now. -/
def pollable (s : SpeechImpl) : Bool := OpenVoice.pollable s.controller s.responses

/-- If `poll` returns now and did not before, then `resp_cond_` has been notified. -/
def Told (s t : SpeechImpl) : Prop :=
  Announced s.pollable t.pollable s.respNotifies t.respNotifies

/-- A step within a session that is not one of `poll`: the session ends with the first step of
    `release`, and the two threads run until `release` has joined them. -/
def ByOther (s : SpeechImpl) : Waking SpeechAct → Prop
  | .act .poll => False
  | .act .prepare | .act .release => s.initialized = true
  | _ => s.Streaming

/-- Sessions start clean, `++next_id_` is not interrupted, and `op_cond_.wait` does not return
    while there is a current operation. -/
def Undisturbed (s : SpeechImpl) : Waking SpeechAct → Prop
  | .act a => Orderly s a
  | .wake => s.controller.currentOp = none

/-- The types `gen_result_by_resp` has a case for. -/
def knownType (type : Int) : Bool :=
  type = respIntermediate || type = respAsrFinish || type = respFinish

/-- A response for operation `a` that has something for `poll`, and a type that
    `gen_result_by_resp` does not know. -/
structure Unknown (resp : SpeechResponse) (a : Nat) (s : SpeechImpl) : Prop where
  id_eq : (s.controller.heap a).id = resp.id
  type : knownType resp.type = false
  news : (s.controller.heap a).status = .start ∨ resp.extra ≠ ""

/-- `gen_results` is about to handle such a response for the current operation. -/
def Unannounced (s : SpeechImpl) : Waking SpeechAct → Prop
  | .act (.gen _ _) => ∃ resp a, s.gen = .handle .success resp ∧
      s.controller.currentOp = some a ∧ Unknown resp a s
  | _ => False

theorem Inv.wake {s t : SpeechImpl} (h : Inv s) (hcur : s.controller.currentOp = none)
    (hst : s.wake = some t) : Inv t := by
  unfold SpeechImpl.wake at hst
  split at hst
  · rename_i id hpc
    split at hst
    · cases hst
    · cases hst
      have hstarted := h.started
      rw [hpc] at hstarted
      refine h.advance s.respNotifies s.sent (by simp [hpc])
        ⟨rfl, List.suffix_refl _, fun _ => rfl⟩ (fun _ hv => hv.opWaiting false)
        (Attended.of_none hcur) (fun _ hp => hp) hstarted ?_
      rw [queuedIds, hpc]
      exact List.Subperm.refl _
  · cases hst

theorem Inv.undisturbed {s : SpeechImpl} (hrun : Run StepsWaking Undisturbed {} s) : Inv s := by
  refine hrun.invariant ?_ inv_init
  intro u w t h hok hst
  cases w with
  | act a => exact h.step hok.1 hok.2 hst
  | wake => exact h.wake hok hst

section Told

variable {s t : SpeechImpl} {v : List (Int × Bool)}

theorem cancelOp_told (hv : Lined s.controller s.responses v) (id : Int) :
    Told s (s.cancelOp id) := by
  unfold cancelOp
  simp only
  generalize (if 0 < id then id else 0) = upto
  split
  · exact .notified rfl
  · rename_i hflag
    intro hs ht
    exact absurd (hv.cancelOp_notifies hs ht) hflag

theorem client_told (hv : Lined s.controller s.responses v) {n : Nat}
    (hst : s.client n = some t) : Told s t := by
  cases hpc : s.clients n with
  | cancelOp id =>
      unfold client at hst
      simp only [hpc] at hst
      split at hst
      · cases hst
        have htold := cancelOp_told (s := s.setClient n .idle) hv id
        exact htold
      · cases hst
  | _ =>
      cases client_move hst with
      | cancelOp hpc' =>
          rw [hpc] at hpc'
          cases hpc'
      | _ => exact .same rfl

theorem sendStep_told (h : Inv s) (hv : Lined s.controller s.responses v)
    {r : ConnectionOpResult} (hst : s.sendStep r = some t) : Told s t := by
  have hknows := h.send
  cases sendStep_move hst with
  | create hpc htype =>
      rw [hpc] at hknows
      intro hs ht
      rw [pollable, hv.not_pollable_newOp hknows.changeOp_none hs] at ht
      cases ht
  | createCancelled hpc htype => exact .notified rfl
  | cancelCurrent hpc htype => exact .notified rfl
  | setError hpc => exact .notified rfl
  | refresh hpc => exact .same (pollable_refreshOpTime _ _)
  | park hpc => exact .same (pollable_congr rfl (fun _ => rfl) rfl)
  | _ => exact .same rfl

/-! ### `gen_result_by_resp` -/

section Response

variable {resp : SpeechResponse} {a : Nat}

theorem genStart_notifies (resp : SpeechResponse) (a : Nat) (s : SpeechImpl) :
    (genStart resp a s).respNotifies = s.respNotifies := by
  unfold genStart
  split
  · rfl
  · rfl

theorem genExtra_notifies (resp : SpeechResponse) (s : SpeechImpl) :
    (genExtra resp s).respNotifies = s.respNotifies := by
  unfold genExtra
  split
  · rfl
  · rfl

theorem genStart_operations (resp : SpeechResponse) (a : Nat) (s : SpeechImpl) :
    (genStart resp a s).controller.operations = s.controller.operations := by
  unfold genStart
  split
  · rfl
  · rfl

/-- The first response, and the one with extra data, leave something to pop. -/
theorem genExtra_available (hv : Lined s.controller s.responses v)
    (hops : s.controller.operations = [a]) (hcur : s.controller.currentOp = some a)
    (hid : (s.controller.heap a).id = resp.id)
    (hnews : (s.controller.heap a).status = .start ∨ resp.extra ≠ "") :
    (genExtra resp (genStart resp a s)).responses.available = true := by
  rcases hv.records_single hops hcur with ⟨hst, hrec⟩ | ⟨hst, r, hrec, hrid, hopen⟩
  · have hopened := records_start_nil hrec resp.id
    rw [genStart, if_pos hst]
    unfold genExtra
    split
    · exact available_push hopened rfl _
    · rw [Streams.available_eq, hopened]
      rfl
  · have hnot : (s.controller.heap a).status ≠ .start := by simp [hst]
    rw [genStart, if_neg hnot, genExtra, if_pos (hnews.resolve_left hnot), genStream, ← hid, ← hrid]
    exact available_push hrec hopen _

theorem genExtra_pollable (hv : Lined s.controller s.responses v) (hpoll : s.pollable = false)
    (hcur : s.controller.currentOp = some a) (hid : (s.controller.heap a).id = resp.id)
    (hnews : (s.controller.heap a).status = .start ∨ resp.extra ≠ "") :
    (genExtra resp (genStart resp a s)).pollable = true := by
  have hops : s.controller.operations = [a] := by
    rcases hv.operations_of_not_pollable hpoll with hnil | ⟨b, hops, hb⟩
    · obtain ⟨l, hl⟩ := hv.current_last hcur
      rw [hnil] at hl
      simp at hl
    · rw [hcur] at hb
      rw [hops, Option.some.inj hb]
  have hfront : (genExtra resp (genStart resp a s)).controller.frontOp = some a := by
    rw [OpCtl.frontOp, genExtra_controller, genStart_operations, hops, List.head?_cons]
  rw [pollable, pollable_of_front hfront, genExtra_available hv hops hcur hid hnews, Bool.or_true]

theorem genResultByResp_told (hv : Lined s.controller s.responses v) (resp : SpeechResponse)
    (hcur : s.controller.currentOp = some a) :
    Told s (genResultByResp resp a s).2 ↔ ¬ (s.pollable = false ∧ Unknown resp a s) := by
  have hnotify : (genExtra resp (genStart resp a s)).respNotifies = s.respNotifies := by
    rw [genExtra_notifies, genStart_notifies]
  have hfails : (s.controller.heap a).status ≠ .cancelled ∧
      (s.controller.heap a).status ≠ .error := by
    rcases hv.current_status hcur with hst | hst
    · simp [hst]
    · simp [hst]
  unfold genResultByResp
  simp only
  split
  · rename_i hid
    have hknown : knownType resp.type = true →
        ∀ t : SpeechImpl, t.respNotifies = s.respNotifies + 1 →
          (Told s t ↔ ¬ (s.pollable = false ∧ Unknown resp a s)) := by
      intro hk t ht
      refine iff_of_true (.notified ht) ?_
      rintro ⟨-, hunknown⟩
      rw [hunknown.type] at hk
      cases hk
    split
    · rename_i htype
      exact hknown (by simp [knownType, htype]) _ (congrArg (· + 1) hnotify)
    · rename_i hinter
      split
      · rename_i htype
        exact hknown (by simp [knownType, htype]) _ (congrArg (· + 1) hnotify)
      · rename_i hasr
        split
        · rename_i htype
          by_cases hres : resp.result = 0
          · rw [if_pos hres]
            exact hknown (by simp [knownType, htype]) _ (congrArg (· + 1) hnotify)
          · rw [if_neg hres]
            exact hknown (by simp [knownType, htype]) _ (congrArg (· + 1) hnotify)
        · rename_i hfinish
          have hunknown : knownType resp.type = false := by
            simp [knownType, hinter, hasr, hfinish]
          constructor
          · -- the stream is opened or extended and nobody is told
            rintro htold ⟨hpoll, hun⟩
            have hlt := htold hpoll (genExtra_pollable hv hpoll hcur hun.id_eq hun.news)
            rw [hnotify] at hlt
            exact Nat.lt_irrefl _ hlt
          · -- nothing happens
            intro hnot hpoll
            have hnews : ¬ ((s.controller.heap a).status = .start ∨ resp.extra ≠ "") :=
              fun hnews => hnot ⟨hpoll, hid.1, hunknown, hnews⟩
            rw [not_or] at hnews
            have hsame : genExtra resp (genStart resp a s) = s := by
              rw [genStart, if_neg hnews.1, genExtra, if_neg hnews.2]
            rw [hsame]
            exact Announced.same rfl hpoll
  · rename_i hid
    refine iff_of_true (.same rfl) ?_
    rintro ⟨-, hun⟩
    exact hid ⟨hun.id_eq, hfails⟩

/-- An operation that is not changed by `gen_results` before it looks at the response. -/
theorem Unknown.refreshOpTime (now : Int) :
    Unknown resp a (s.setController (s.controller.refreshOpTime now true)) ↔ Unknown resp a s := by
  obtain ⟨hid, hst⟩ := OpCtl.refreshOpTime_heap s.controller now true a
  constructor
  · rintro ⟨h, htype, hnews⟩
    exact ⟨hid.symm.trans h, htype, by rwa [setController, hst] at hnews⟩
  · rintro ⟨h, htype, hnews⟩
    exact ⟨hid.trans h, htype, by rwa [setController, hst]⟩

end Response

theorem handleResult_told (hv : Lined s.controller s.responses v) (r : ConnectionOpResult)
    (resp : SpeechResponse) :
    Told s (s.handleResult r resp).2 ↔ ¬ (s.pollable = false ∧ r = .success ∧
      ∃ a, s.controller.currentOp = some a ∧ Unknown resp a s) := by
  have hfailed : r ≠ .success → ∀ u : SpeechImpl, Told s u →
      (Told s u ↔ ¬ (s.pollable = false ∧ r = .success ∧
        ∃ a, s.controller.currentOp = some a ∧ Unknown resp a s)) :=
    fun hr _ hu => iff_of_true hu fun h => hr h.2.1
  unfold handleResult
  simp only
  split
  · have hcur := OpCtl.refreshOpTime_currentOp s.controller s.now true
    have hpoll : (s.setController (s.controller.refreshOpTime s.now true)).pollable = s.pollable :=
      pollable_refreshOpTime _ _
    split
    · rename_i hnone
      refine iff_of_true (.same hpoll) ?_
      rintro ⟨-, -, a, ha, -⟩
      rw [← hcur] at ha
      cases ha.symm.trans hnone
    · rename_i a ha
      have hl := hv.refreshOpTime s.now true
      have htold := genResultByResp_told
        (s := s.setController (s.controller.refreshOpTime s.now true)) hl resp ha
      rw [Told, hpoll, Unknown.refreshOpTime] at htold
      refine htold.trans (not_congr (and_congr_right fun _ => ?_))
      have hsome : s.controller.currentOp = some a := hcur.symm.trans ha
      constructor
      · exact fun hun => ⟨rfl, a, hsome, hun⟩
      · rintro ⟨-, b, hb, hun⟩
        rw [hsome] at hb
        cases hb
        exact hun
  · split
    · exact hfailed (by simp) _ (.notified rfl)
    · exact hfailed (by simp) _ (.same rfl)
  · exact hfailed (by simp) _ (.notified rfl)
  · rename_i hr _ _
    exact hfailed hr _ (.notified rfl)

theorem genStep_told (hv : Lined s.controller s.responses v) {r : ConnectionOpResult}
    {resp : SpeechResponse} (hst : s.genStep r resp = some t) :
    Told s t ↔ ¬ (s.pollable = false ∧ s.Unannounced (.act (.gen r resp))) := by
  have hother : (∀ resp', s.gen ≠ .handle .success resp') → Told s t →
      (Told s t ↔ ¬ (s.pollable = false ∧ s.Unannounced (.act (.gen r resp)))) := by
    intro hgen htold
    refine iff_of_true htold ?_
    rintro ⟨-, resp', a, hhandle, -⟩
    exact hgen resp' hhandle
  unfold genStep at hst
  split at hst
  · rename_i hgen
    split at hst
    · cases hst
      exact hother (by simp [hgen]) (.same rfl)
    · cases hst
  · rename_i hgen
    split at hst
    · split at hst
      · cases hst
        exact hother (by simp [hgen]) (.same rfl)
      · cases hst
        exact hother (by simp [hgen]) (.same rfl)
    · cases hst
  · rename_i r' resp' hgen
    -- what the thread does afterwards changes nothing
    have htold : Told s t ↔ Told s (s.handleResult r' resp').2 := by
      split at hst
      · split at hst
        · rename_i hres
          cases hst
          rw [hres]
          exact Iff.rfl
        · rename_i hres
          cases hst
          rw [hres]
          exact Iff.rfl
      · cases hst
    rw [htold, handleResult_told hv]
    refine not_congr (and_congr_right fun _ => ?_)
    constructor
    · rintro ⟨rfl, a, hcur, hun⟩
      exact ⟨resp', a, hgen, hcur, hun⟩
    · rintro ⟨resp'', a, hgen', hcur, hun⟩
      rw [hgen] at hgen'
      cases hgen'
      exact ⟨rfl, a, hcur, hun⟩
  · rename_i hgen
    split at hst
    · cases hst
      exact hother (by simp [hgen]) (.same rfl)
    · cases hst
  · cases hst

theorem ByOther.streaming {w : Waking SpeechAct} (h : s.ByOther w) : s.Streaming := by
  cases w with
  | wake => exact h
  | act a =>
      cases a with
      | poll => exact h.elim
      | prepare | release => exact .inl h
      | call | client | config | send | gen | tick => exact h

/-- **One step.** -/
theorem Inv.told_iff (h : Inv s) {w : Waking SpeechAct} (hw : s.ByOther w)
    (hst : s.stepWaking w = some t) :
    Told s t ↔ ¬ (s.pollable = false ∧ s.Unannounced w) := by
  obtain ⟨v, hv⟩ := h.lined hw.streaming
  cases w with
  | wake =>
      have hact : s.wake = some t := hst
      unfold SpeechImpl.wake at hact
      split at hact
      · split at hact
        · cases hact
        · cases hact
          exact iff_of_true (.same (pollable_congr rfl (fun _ => rfl) rfl)) fun hun => hun.2
      · cases hact
  | act a =>
      have hact : s.step a = some t := hst
      unfold SpeechImpl.step at hact
      split at hact
      · cases hact
      · cases a with
        | prepare =>
            have hopen : s.initialized = true := hw
            simp only [SpeechImpl.prepare, hopen, if_true] at hact
            split at hact
            · cases hact
              exact iff_of_true (.same rfl) fun hun => hun.2
            · cases hact
        | release =>
            have hopen : s.initialized = true := hw
            have hidle : s.releasing = .idle := by
              by_contra hne
              rw [h.releasing hne] at hopen
              cases hopen
            simp only [SpeechImpl.release, hidle, hopen, if_true] at hact
            split at hact
            · cases hact
              exact iff_of_true (.same rfl) fun hun => hun.2
            · cases hact
        | call n c =>
            refine iff_of_true ?_ fun hun => hun.2
            cases call_move hact with
            | stay => exact .same rfl
            | enter hidle hheld hpc => exact .same rfl
            | cancel id hidle => exact .same rfl
        | client n => exact iff_of_true (client_told hv hact) fun hun => hun.2
        | poll => exact hw.elim
        | config mod =>
            refine iff_of_true ?_ fun hun => hun.2
            cases hact
            cases mod with
            | none => exact .same rfl
            | some mod => exact .same rfl
        | send r => exact iff_of_true (sendStep_told h hv hact) fun hun => hun.2
        | gen r resp => exact genStep_told hv hact
        | tick ns =>
            cases hact
            exact iff_of_true (.same rfl) fun hun => hun.2

end Told

end SpeechImpl

/-- **A thread in `poll` is told** of what the other threads have for it, in every session that
    starts clean, in which `++next_id_` is not interrupted and `op_cond_.wait` does not return too
    early, but for the response of a type `gen_result_by_resp` of `SpeechImpl` does not know. -/
theorem poll_told_iff (s t : TtsImpl) (w : Waking TtsAct) (u v : SpeechImpl)
    (x : Waking SpeechAct) :
    (Run TtsImpl.StepsWaking TtsImpl.Undisturbed {} s → s.ByOther w → s.stepWaking w = some t →
        TtsImpl.Told s t) ∧
      (Run SpeechImpl.StepsWaking SpeechImpl.Undisturbed {} u → u.ByOther x →
        u.stepWaking x = some v →
          (SpeechImpl.Told u v ↔ ¬ (u.pollable = false ∧ u.Unannounced x))) := by
  constructor
  · intro hrun hw hst
    exact (TtsImpl.Inv.undisturbed hrun).told hw hst
  · intro hrun hx hst
    exact (SpeechImpl.Inv.undisturbed hrun).told_iff hx hst

/-! ### Runs -/

/-- A session of `SpeechImpl` in which `op_cond_.wait` is not disturbed. -/
theorem SpeechImpl.undisturbed_of_exec {as : List SpeechAct} {s : SpeechImpl}
    (hok : allOk step OneSession opened as = true) (h : exec step opened as = some s) :
    Run StepsWaking Undisturbed {} s := by
  have hprepare : Run Steps Orderly {} opened :=
    .snoc (a := .prepare) (.refl _) ⟨fun _ _ => ⟨rfl, rfl, rfl, fun _ => rfl⟩, rfl⟩ rfl
  have hsession : Run Steps Orderly opened s :=
    (Run.of_exec hok h).mono fun _ _ hone => OneSession.orderly hone
  exact (hprepare.trans hsession).relabel .act (fun _ _ hord => hord) fun _ _ _ hst => hst

/-- A voice request, up to the point where `gen_results` has received the first response. -/
def SpeechImpl.answeredBy (resp : SpeechResponse) : List SpeechAct :=
  [.call 0 (.startVoice none), .client 0, .client 0] ++ List.replicate 7 (.send .success) ++
    [.gen .success resp, .gen .success resp]

/-- A request that is being sent is cancelled; the first response comes in. -/
theorem poll_told_cancelled :
    (∃ s t, Run TtsImpl.StepsWaking TtsImpl.Undisturbed {} s ∧
        s.stepWaking (.act (.client 0)) = some t ∧ s.pollable = false ∧ t.pollable = true ∧
        s.respNotifies < t.respNotifies) ∧
      ∃ s t resp, Run SpeechImpl.StepsWaking SpeechImpl.Undisturbed {} s ∧
        s.stepWaking (.act (.gen .success resp)) = some t ∧ s.pollable = false ∧
        t.pollable = true ∧ s.respNotifies < t.respNotifies := by
  constructor
  · have hok : allOk TtsImpl.stepWaking TtsImpl.Undisturbed {}
        (TtsImpl.waitedFirst ++ [.act (.call 0 (.cancel 1))]) = true := by
      decide +kernel
    have hrun := Run.of_exec hok rfl
    have htold := (poll_told_iff _ _ (.act (.client 0)) {} {} .wake).1 hrun (.inl rfl) rfl
    exact ⟨_, _, hrun, rfl, by decide +kernel, by decide +kernel,
      htold (by decide +kernel) (by decide +kernel)⟩
  · let resp : SpeechResponse := { id := 1, type := respIntermediate, result := 0, asr := "hi" }
    have hok : allOk SpeechImpl.step SpeechImpl.OneSession SpeechImpl.opened
        (SpeechImpl.answeredBy resp) = true := by
      decide +kernel
    have hrun := SpeechImpl.undisturbed_of_exec hok rfl
    have htold := (poll_told_iff {} {} .wake _ _ (.act (.gen .success resp))).2 hrun (.inl rfl) rfl
    have hknown : SpeechImpl.Told _ _ := htold.mpr (by
      rintro ⟨-, resp', a, hgen, -, hun⟩
      cases hgen
      cases hun.type)
    exact ⟨_, _, resp, hrun, rfl, by decide +kernel, by decide +kernel,
      hknown (by decide +kernel) (by decide +kernel)⟩

/-- The first response has a type that is not one of the three: its stream is there to be popped,
    and nobody is told. -/
theorem unknown_type_not_told :
    ∃ s t resp, Run SpeechImpl.StepsWaking SpeechImpl.Undisturbed {} s ∧
      s.ByOther (.act (.gen .success resp)) ∧
      s.stepWaking (.act (.gen .success resp)) = some t ∧ ¬ SpeechImpl.Told s t := by
  let resp : SpeechResponse := { id := 1, type := 7, result := 0 }
  have hok : allOk SpeechImpl.step SpeechImpl.OneSession SpeechImpl.opened
      (SpeechImpl.answeredBy resp) = true := by
    decide +kernel
  refine ⟨_, _, resp, SpeechImpl.undisturbed_of_exec hok rfl, .inl rfl, rfl, ?_⟩
  intro htold
  have hlt := htold (by decide +kernel) (by decide +kernel)
  revert hlt
  decide +kernel

/-- `op_cond_.wait` returns without a notification and the next request displaces the operation.
    The old one is cancelled and nobody is told, for it is not the current one. -/
theorem displaced_not_told :
    ∃ s t, Run TtsImpl.StepsWaking Always {} s ∧ s.ByOther (.act (.client 0)) ∧
      s.stepWaking (.act (.client 0)) = some t ∧ ¬ TtsImpl.Told s t := by
  have hok : allOk TtsImpl.stepWaking Always {} (TtsImpl.waitedFirst ++
      [.wake, .act (.send .success), .act (.call 0 (.cancel 1))]) = true := by
    decide +kernel
  refine ⟨_, _, Run.of_exec hok rfl, .inl rfl, rfl, ?_⟩
  intro htold
  have hlt := htold (by decide +kernel) (by decide +kernel)
  revert hlt
  decide +kernel

end OpenVoice
