import OpenVoice.Speech.SendThread
import OpenVoice.Tts.Moves

/-!
# One operation at a time

`send_reqs` creates an operation and waits in `wait_op_finish` until it is finished.  That wait is
`if` there is something to wait for `op_cond_.wait`, once: when the condition variable returns
without having been notified, `send_reqs` goes on to the next request while the operation is still
current.
-/

namespace OpenVoice

open OpenVoice.Lib

/-- A step, or a return of `op_cond_.wait` that need not follow a notification. -/
inductive Waking (α : Type) where
  | act (a : α)
  | wake
deriving DecidableEq, Repr

namespace TtsImpl

/-- `op_cond_.wait` returns. -/
def wake (s : TtsImpl) : Option TtsImpl :=
  match s.send with
  | .blocked _ =>
      if s.aborted then none
      else
        some { s with controller := { s.controller with opWaiting := false }, send := .loop }
  | _ => none

def stepWaking (s : TtsImpl) : Waking TtsAct → Option TtsImpl
  | .act a => s.step a
  | .wake => s.wake

/-- `op_cond_.wait` does not return while there is a current operation. -/
def heeds (s : TtsImpl) : Waking TtsAct → Bool
  | .act _ => true
  | .wake => s.controller.currentOp = none

def StepsWaking (s : TtsImpl) (a : Waking TtsAct) (t : TtsImpl) : Prop := s.stepWaking a = some t

def Heeds (s : TtsImpl) (a : Waking TtsAct) : Prop := s.heeds a = true

instance (s : TtsImpl) (a : Waking TtsAct) : Decidable (Heeds s a) :=
  inferInstanceAs (Decidable (s.heeds a = true))

/-- What serialises the operations, whatever was left over from the session before. -/
structure Serial (s : TtsImpl) : Prop where
  init : s.releasing ≠ .idle → s.initialized = false
  send : s.send.Knows s.controller
  done : s.releasing = .closeResp ∨ ¬ s.Streaming → s.send = .done

namespace Serial

variable {s t : TtsImpl}

theorem opened : Serial {} where
  init := fun _ => rfl
  send := rfl
  done := fun _ => rfl

/-- A step that leaves the send thread where it is. -/
theorem quiet (h : Serial s) (hi : t.initialized = s.initialized)
    (hr : t.releasing = s.releasing) (hs : t.send = s.send)
    (hq : s.controller.Quiet t.controller) : Serial t where
  init := by
    rw [hr, hi]
    exact h.init
  send := by
    rw [hs]
    exact h.send.quiet hq
  done := by
    unfold Streaming
    rw [hr, hi, hs]
    exact h.done

theorem prepare (h : Serial s) (hrel : s.releasing = .idle) (hinit : s.initialized = false)
    (ht : t.initialized = true) (hr : t.releasing = s.releasing) (hs : t.send = .loop)
    (hc : t.controller = s.controller) : Serial t where
  init := by
    rw [hr]
    exact fun hne => absurd hrel hne
  send := by
    have hstr : ¬ s.Streaming := by simp [Streaming, hinit, hrel]
    have hknows := h.send
    rw [h.done (.inr hstr)] at hknows
    rw [hs, hc]
    exact hknows
  done := by
    rw [hr, hrel]
    rintro (hcl | hstr)
    · cases hcl
    · exact absurd (.inl ht) hstr

theorem release (h : Serial s) (hmove : ReleaseMove s t) : Serial t := by
  cases hmove with
  | absent hrel hinit => exact h
  | enter hrel hinit =>
      refine ⟨fun _ => rfl, h.send, ?_⟩
      rintro (hcl | hstr)
      · cases hcl
      · exact absurd (.inr (.inl rfl)) hstr
  | close hrel =>
      refine ⟨fun _ => h.init (by simp [hrel]), h.send, ?_⟩
      rintro (hcl | hstr)
      · cases hcl
      · exact absurd (.inr (.inr (.inl rfl))) hstr
  | joinReq hrel hdone => exact ⟨fun _ => h.init (by simp [hrel]), h.send, fun _ => hdone⟩
  | closeResp hrel =>
      exact ⟨fun _ => h.init (by simp [hrel]), h.send.quiet (.finishOp _),
        fun _ => h.done (.inl hrel)⟩
  | joinResp hrel hdone =>
      have hinit := h.init (by simp [hrel])
      have hstr : ¬ s.Streaming := by simp [Streaming, hinit, hrel]
      exact ⟨fun _ => hinit, h.send, fun _ => h.done (.inr hstr)⟩

theorem send_step (h : Serial s) {r : ConnectionOpResult} (hmove : SendMove s r t) :
    Serial t := by
  obtain ⟨hi, hr, hne⟩ := hmove.frame
  refine ⟨?_, hmove.knows h.send, ?_⟩
  · rw [hr, hi]
    exact h.init
  · unfold Streaming
    rw [hr, hi]
    exact fun hs => absurd (h.done hs) hne

/-- **One step.** -/
theorem step (h : Serial s) {a : TtsAct} (hst : s.step a = some t) : Serial t := by
  cases step_move hst with
  | prepared => exact h
  | prepare hrel hinit => exact h.prepare hrel hinit rfl rfl rfl rfl
  | release hmove => exact h.release hmove
  | send hmove => exact h.send_step hmove
  | gen hgen =>
      obtain ⟨c, q, n, pc, hquiet, rfl⟩ := genStep_spec hgen
      exact h.quiet rfl rfl rfl hquiet
  | client hquiet => exact h.quiet rfl rfl rfl hquiet

/-- `op_cond_.wait` returns and nothing is current. -/
theorem wake (h : Serial s) (hcur : s.controller.currentOp = none) (hst : s.wake = some t) :
    Serial t := by
  unfold TtsImpl.wake at hst
  split at hst
  · rename_i id hpc
    split at hst
    · cases hst
    · cases hst
      refine ⟨h.init, hcur, ?_⟩
      intro hs
      have hdone := h.done hs
      rw [hpc] at hdone
      cases hdone
  · cases hst

theorem stepWaking (h : Serial s) {a : Waking TtsAct} (hok : Heeds s a)
    (hst : s.stepWaking a = some t) : Serial t := by
  cases a with
  | act a => exact h.step hst
  | wake => exact h.wake (of_decide_eq_true hok) hst

/-- An operation is made current only by the send thread at the top of its loop. -/
theorem current (h : Serial s) {a : Waking TtsAct} (hst : s.stepWaking a = some t) :
    s.controller.currentOp = none ∨ s.controller.fresh = t.controller.fresh ∧
      ∀ y, t.controller.currentOp = some y → s.controller.currentOp = some y := by
  have hsame : ∀ y, s.controller.currentOp = some y → s.controller.currentOp = some y :=
    fun _ hy => hy
  have hquiet : s.controller.Quiet t.controller → s.controller.currentOp = none ∨
      s.controller.fresh = t.controller.fresh ∧
      ∀ y, t.controller.currentOp = some y → s.controller.currentOp = some y :=
    fun hq => .inr ⟨hq.fresh.symm, fun _ hy => hq.current_some hy⟩
  cases a with
  | wake =>
      unfold TtsImpl.stepWaking TtsImpl.wake at hst
      simp only at hst
      split at hst
      · split at hst
        · cases hst
        · cases hst
          exact .inr ⟨rfl, hsame⟩
      · cases hst
  | act a =>
      cases step_move hst with
      | prepared => exact .inr ⟨rfl, hsame⟩
      | prepare => exact .inr ⟨rfl, hsame⟩
      | release hmove =>
          cases hmove with
          | closeResp => exact hquiet (.finishOp _)
          | _ => exact .inr ⟨rfl, hsame⟩
      | send hmove =>
          have hknows := h.send
          cases hmove with
          | cancelled hpc =>
              rw [hpc] at hknows
              exact .inl hknows
          | start hpc =>
              rw [hpc] at hknows
              exact .inl hknows
          | setError => exact hquiet (.setOpError _ _)
          | refresh => exact hquiet (.refreshOpTime _ _ _)
          | _ => exact .inr ⟨rfl, hsame⟩
      | gen hgen =>
          obtain ⟨c, q, n, pc, hq, rfl⟩ := genStep_spec hgen
          exact hquiet hq
      | client hq => exact hquiet hq

end Serial

end TtsImpl

namespace SpeechImpl

/-- `op_cond_.wait` returns. -/
def wake (s : SpeechImpl) : Option SpeechImpl :=
  match s.send with
  | .blocked _ =>
      if s.aborted ∨ s.crashed then none
      else
        some { s with controller := { s.controller with opWaiting := false }, send := .loop }
  | _ => none

def stepWaking (s : SpeechImpl) : Waking SpeechAct → Option SpeechImpl
  | .act a => s.step a
  | .wake => s.wake

/-- `op_cond_.wait` does not return while there is a current operation. -/
def heeds (s : SpeechImpl) : Waking SpeechAct → Bool
  | .act _ => true
  | .wake => s.controller.currentOp = none

def StepsWaking (s : SpeechImpl) (a : Waking SpeechAct) (t : SpeechImpl) : Prop :=
  s.stepWaking a = some t

def Heeds (s : SpeechImpl) (a : Waking SpeechAct) : Prop := s.heeds a = true

instance (s : SpeechImpl) (a : Waking SpeechAct) : Decidable (Heeds s a) :=
  inferInstanceAs (Decidable (s.heeds a = true))

/-- What serialises the operations, whatever was left over from the session before. -/
structure Serial (s : SpeechImpl) : Prop where
  init : s.releasing ≠ .idle → s.initialized = false
  send : s.send.Knows s.initialized s.voiceReqs.keys s.controller
  texts : ∀ p ∈ s.textReqs, p.type = .text ∨ p.type = .cancelled
  done : s.releasing = .closeResp ∨ ¬ s.Streaming → s.send = .done
  closed : ¬ s.Streaming → s.controller.currentOp = none

namespace Serial

variable {s t : SpeechImpl}

theorem opened : Serial {} where
  init := fun _ => rfl
  send := trivial
  texts := by
    intro p hp
    cases hp
  done := fun _ => rfl
  closed := fun _ => rfl

/-- A step that leaves the send thread where it is. -/
theorem quiet (h : Serial s) (hi : t.initialized = s.initialized)
    (hr : t.releasing = s.releasing) (hs : t.send = s.send)
    (hq : s.controller.Quiet t.controller) (hkeys : s.voiceReqs.keys <+: t.voiceReqs.keys)
    (htexts : ∀ p ∈ t.textReqs, p.type = .text ∨ p.type = .cancelled ∨ p ∈ s.textReqs) :
    Serial t where
  init := by
    rw [hr, hi]
    exact h.init
  send := by
    rw [hs]
    exact h.send.quiet hq fun hinit => ⟨by rw [← hi]; exact hinit, hkeys⟩
  texts p hp := by
    rcases htexts p hp with htext | hcan | hmem
    · exact .inl htext
    · exact .inr hcan
    · exact h.texts p hmem
  done := by
    unfold Streaming
    rw [hr, hi, hs]
    exact h.done
  closed := by
    unfold Streaming
    rw [hr, hi]
    exact fun hs => hq.current_none (h.closed hs)

/-- A session is opened. -/
theorem prepare (h : Serial s) (hrel : s.releasing = .idle) (hinit : s.initialized = false)
    (ht : t.initialized = true) (hr : t.releasing = s.releasing) (hs : t.send = .loop)
    (hc : t.controller = s.controller) (htext : t.textReqs = s.textReqs) : Serial t where
  init := by
    rw [hr]
    exact fun hne => absurd hrel hne
  send := by
    have hstr : ¬ s.Streaming := by simp [Streaming, hinit, hrel]
    rw [hs, hc]
    exact Attended.of_none (h.closed hstr)
  texts := by
    rw [htext]
    exact h.texts
  done := by
    rw [hr, hrel]
    rintro (hcl | hstr)
    · cases hcl
    · exact absurd (.inl ht) hstr
  closed := fun hstr => absurd (.inl ht) hstr

/-- While `release` is under way the send thread relies on less. -/
theorem releasing (h : Serial s) (hi : t.initialized = false) (hs : t.send = s.send)
    (hq : s.controller.Quiet t.controller) (htexts : ∀ p ∈ t.textReqs, p ∈ s.textReqs)
    (hdone : t.releasing = .closeResp ∨ ¬ t.Streaming → s.send = .done)
    (hclosed : ¬ t.Streaming → t.controller.currentOp = none) : Serial t where
  init := fun _ => hi
  send := by
    rw [hs]
    apply h.send.quiet hq
    rw [hi]
    intro hf
    cases hf
  texts p hp := h.texts p (htexts p hp)
  done := by
    rw [hs]
    exact hdone
  closed := hclosed

theorem release (h : Serial s) (hmove : ReleaseMove s t) : Serial t := by
  cases hmove with
  | absent hrel hinit => exact h
  | enter hrel hinit =>
      refine h.releasing rfl rfl (.refl _) (fun p hp => hp) ?_ ?_
      · rintro (hcl | hstr)
        · cases hcl
        · exact absurd (.inr (.inl rfl)) hstr
      · exact fun hstr => absurd (.inr (.inl rfl)) hstr
  | close hrel =>
      refine h.releasing (h.init (by simp [hrel])) rfl (.refl _) ?_ ?_ ?_
      · intro p hp
        cases hp
      · rintro (hcl | hstr)
        · cases hcl
        · exact absurd (.inr (.inr (.inl rfl))) hstr
      · exact fun hstr => absurd (.inr (.inr (.inl rfl))) hstr
  | setError hrel =>
      refine h.releasing (h.init (by simp [hrel])) rfl (.setOpError _ _) (fun p hp => hp) ?_ ?_
      · rintro (hcl | hstr)
        · cases hcl
        · exact absurd (.inr (.inr (.inr (.inl rfl)))) hstr
      · exact fun hstr => absurd (.inr (.inr (.inr (.inl rfl)))) hstr
  | joinReq hrel hdone =>
      refine h.releasing (h.init (by simp [hrel])) rfl (.refl _) (fun p hp => hp)
        (fun _ => hdone) ?_
      exact fun hstr => absurd (.inr (.inr (.inr (.inr rfl)))) hstr
  | closeResp hrel hfree =>
      exact h.releasing (h.init (by simp [hrel])) rfl (.finishOp _) (fun p hp => hp)
        (fun _ => h.done (.inl hrel)) fun _ => OpCtl.finishOp_current _
  | joinResp hrel hdone =>
      have hinit := h.init (by simp [hrel])
      have hstr : ¬ s.Streaming := by simp [Streaming, hinit, hrel]
      exact h.releasing hinit rfl (.refl _) (fun p hp => hp) (fun _ => h.done (.inr hstr))
        fun _ => h.closed hstr

theorem send_step (h : Serial s) {r : ConnectionOpResult} (hmove : SendMove s r t) :
    Serial t := by
  obtain ⟨hi, hr, hne⟩ := hmove.frame
  refine ⟨?_, hmove.knows h.send h.texts, fun p hp => h.texts p (hmove.texts p hp), ?_, ?_⟩
  · rw [hr, hi]
    exact h.init
  · unfold Streaming
    rw [hr, hi]
    exact fun hs => absurd (h.done hs) hne
  · unfold Streaming
    rw [hr, hi]
    exact fun hs => absurd (h.done (.inr hs)) hne

/-- **One step.** -/
theorem step (h : Serial s) {a : SpeechAct} (hst : s.step a = some t) : Serial t := by
  cases step_move hst with
  | prepared => exact h
  | prepare hrel hinit => exact h.prepare hrel hinit rfl rfl rfl rfl rfl
  | release hmove => exact h.release hmove
  | send hmove => exact h.send_step hmove
  | gen hgen =>
      obtain ⟨c, q, v, n, pc, hquiet, hkeys, rfl⟩ := genStep_spec hgen
      refine h.quiet rfl rfl rfl hquiet ?_ fun p hp => .inr (.inr hp)
      rw [hkeys]
  | client hquiet hkeys htexts => exact h.quiet rfl rfl rfl hquiet hkeys htexts

/-- `op_cond_.wait` returns and nothing is current. -/
theorem wake (h : Serial s) (hcur : s.controller.currentOp = none) (hst : s.wake = some t) :
    Serial t := by
  unfold SpeechImpl.wake at hst
  split at hst
  · rename_i id hpc
    split at hst
    · cases hst
    · cases hst
      refine ⟨h.init, Attended.of_none hcur, h.texts, ?_, fun _ => hcur⟩
      intro hs
      have hdone := h.done hs
      rw [hpc] at hdone
      cases hdone
  · cases hst

theorem stepWaking (h : Serial s) {a : Waking SpeechAct} (hok : Heeds s a)
    (hst : s.stepWaking a = some t) : Serial t := by
  cases a with
  | act a => exact h.step hst
  | wake => exact h.wake (of_decide_eq_true hok) hst

/-- An operation is made current only in `do_ctl_change_op`. -/
theorem current (h : Serial s) {a : Waking SpeechAct} (hst : s.stepWaking a = some t) :
    s.controller.currentOp = none ∨ s.controller.fresh = t.controller.fresh ∧
      ∀ y, t.controller.currentOp = some y → s.controller.currentOp = some y := by
  have hsame : ∀ y, s.controller.currentOp = some y → s.controller.currentOp = some y :=
    fun _ hy => hy
  have hquiet : s.controller.Quiet t.controller → s.controller.currentOp = none ∨
      s.controller.fresh = t.controller.fresh ∧
      ∀ y, t.controller.currentOp = some y → s.controller.currentOp = some y :=
    fun hq => .inr ⟨hq.fresh.symm, fun _ hy => hq.current_some hy⟩
  cases a with
  | wake =>
      unfold SpeechImpl.stepWaking SpeechImpl.wake at hst
      simp only at hst
      split at hst
      · split at hst
        · cases hst
        · cases hst
          exact .inr ⟨rfl, hsame⟩
      · cases hst
  | act a =>
      cases step_move hst with
      | prepared => exact .inr ⟨rfl, hsame⟩
      | prepare => exact .inr ⟨rfl, hsame⟩
      | release hmove =>
          cases hmove with
          | closeResp => exact hquiet (.finishOp _)
          | setError => exact hquiet (.setOpError _ _)
          | _ => exact .inr ⟨rfl, hsame⟩
      | send hmove =>
          have hknows := h.send
          cases hmove with
          | create hpc htype =>
              rw [hpc] at hknows
              exact .inl hknows.changeOp_none
          | createCancelled hpc htype =>
              rw [hpc] at hknows
              exact .inl hknows.changeOp_none
          | cancelCurrent hpc htype =>
              refine .inr ⟨rfl, ?_⟩
              intro y hy
              cases hy
          | setError => exact hquiet (.setOpError _ _)
          | refresh => exact hquiet (.refreshOpTime _ _ _)
          | _ => exact .inr ⟨rfl, hsame⟩
      | gen hgen =>
          obtain ⟨c, q, v, n, pc, hq, hkeys, rfl⟩ := genStep_spec hgen
          exact hquiet hq
      | client hq => exact hquiet hq

end Serial

end SpeechImpl

/-- A request that is sent and waited for, with a second one in the queue. -/
def TtsImpl.waitedFirst : List (Waking TtsAct) :=
  [.act .prepare, .act (.call 0 (.speak "a")), .act (.client 0), .act (.call 0 (.speak "b")),
    .act (.client 0), .act (.send .success), .act (.send .success), .act (.send .success),
    .act (.send .success), .act (.send .success), .act (.send .success)]

/-- The same for two voice requests, the first one without data. -/
def SpeechImpl.waitedFirst : List (Waking SpeechAct) :=
  [.act .prepare, .act (.call 0 (.startVoice none)), .act (.client 0), .act (.client 0), .act (.call 0 (.endVoice 1)),
    .act (.client 0), .act (.call 0 (.startVoice none)), .act (.client 0), .act (.client 0)] ++
    List.replicate 16 (.act (.send .success))

end OpenVoice
