import OpenVoice.Speech.SendThread

/-!
# `SpeechImpl::release` and the request thread

Here `release` calls `set_op_error` after `connection_.release()`, so that no operation is current
any more when it waits for the thread `send_reqs`.
-/

namespace OpenVoice

open OpenVoice.Lib

namespace SpeechImpl

/-- `release` waits for the send thread, and the send thread waits for the current operation; the
    operation stays current whatever anybody does. -/
structure Stuck (s : SpeechImpl) : Prop where
  running : s.aborted = false ∧ s.crashed = false
  joining : s.releasing = .joinReq
  waiting : s.controller.opWaiting = true
  current : ∃ id a, s.send = .blocked id ∧ s.controller.currentOp = some a ∧
    (s.controller.heap a).id = id ∧ ∀ t, Run Steps Always s t → t.controller.currentOp = some a

/-- The connection has been available to the request in hand, or has taken it. -/
def SendPc.past : SendPc → Bool
  | .writing _ _ | .sent _ | .waitOp _ | .parking _ | .blocked _ => true
  | _ => false

/-- What is so while `release` is under way. -/
structure Closing (s : SpeechImpl) : Prop where
  init : s.releasing ≠ .idle → s.initialized = false
  closed : s.releasing = .setError ∨ s.releasing = .joinReq → s.connClosed = true
  free : s.releasing = .joinReq → s.controller.currentOp = none ∨ s.send.past = false

namespace Closing

variable {s t : SpeechImpl}

theorem opened : Closing {} where
  init := fun h => absurd rfl h
  closed := by
    rintro (h | h)
    · cases h
    · cases h
  free := by
    intro h
    cases h

/-- A step of anybody but `release`.  If it takes the send thread past the test of the connection,
    it was past it before. -/
theorem next (h : Closing s) (hi : t.initialized = s.initialized)
    (hr : t.releasing = s.releasing) (hc : t.connClosed = s.connClosed)
    (hpast : s.releasing = .joinReq → t.send.past = true → s.send.past = true ∧
      (s.controller.currentOp = none → t.controller.currentOp = none)) : Closing t where
  init := by
    rw [hr, hi]
    exact h.init
  closed := by
    rw [hr, hc]
    exact h.closed
  free := by
    rw [hr]
    intro hjoin
    cases hp : t.send.past with
    | false => exact .inr rfl
    | true =>
        obtain ⟨hp', hnone⟩ := hpast hjoin hp
        rcases h.free hjoin with hcur | hp''
        · exact .inl (hnone hcur)
        · rw [hp'] at hp''
          cases hp''

/-- A step that leaves the send thread where it is. -/
theorem quiet (h : Closing s) (hi : t.initialized = s.initialized)
    (hr : t.releasing = s.releasing) (hc : t.connClosed = s.connClosed) (hs : t.send = s.send)
    (hq : s.controller.Quiet t.controller) : Closing t := by
  refine h.next hi hr hc ?_
  intro _ hp
  rw [hs] at hp
  exact ⟨hp, hq.current_none⟩

theorem prepare (h : Closing s) (hidle : s.releasing = .idle) : Closing s.prepare := by
  unfold SpeechImpl.prepare
  split
  · exact h
  · exact ⟨fun hne => absurd hidle hne, by simp [hidle], by simp [hidle]⟩

theorem release (h : Closing s) (hst : s.release = some t) : Closing t := by
  unfold SpeechImpl.release at hst
  cases hr : s.releasing with
  | idle =>
      simp only [hr] at hst
      split at hst
      · split at hst
        · cases hst
          exact ⟨fun _ => rfl, by simp, by simp⟩
        · cases hst
          exact h
      · cases hst
  | closing =>
      simp only [hr] at hst
      cases hst
      exact ⟨fun _ => h.init (by simp [hr]), fun _ => rfl, by simp⟩
  | setError =>
      simp only [hr] at hst
      cases hst
      -- nothing is current from here on
      exact ⟨fun _ => h.init (by simp [hr]), fun _ => h.closed (.inl hr),
        fun _ => .inl (OpCtl.setOpError_current _ _)⟩
  | joinReq =>
      simp only [hr] at hst
      split at hst
      · cases hst
        exact ⟨fun _ => h.init (by simp [hr]), by simp, by simp⟩
      · cases hst
  | closeResp =>
      simp only [hr] at hst
      split at hst
      · cases hst
        exact ⟨fun _ => h.init (by simp [hr]), by simp, by simp⟩
      · cases hst
  | joinResp =>
      simp only [hr] at hst
      split at hst
      · cases hst
        exact ⟨by simp, by simp, by simp⟩
      · cases hst

theorem call (h : Closing s) {n : Nat} {c : SpeechCall} (hst : s.call n c = some t) :
    Closing t := by
  cases call_move hst with
  | stay => exact h
  | enter hidle hheld hpc => exact h.quiet rfl rfl rfl rfl (.refl _)
  | cancel id hidle => exact h.quiet rfl rfl rfl rfl (.refl _)

theorem client (h : Closing s) {n : Nat} (hst : s.client n = some t) : Closing t := by
  cases client_move hst with
  | cancelOp hpc => exact h.quiet rfl rfl rfl rfl (.cancelOp _ _)
  | _ => exact h.quiet rfl rfl rfl rfl (.refl _)

theorem pollStep (h : Closing s) (hst : s.pollStep = some t) : Closing t := by
  unfold SpeechImpl.pollStep at hst
  split at hst
  · split at hst
    · split at hst
      · cases hst
        exact h.quiet rfl rfl rfl rfl (.refl _)
      · rename_i u hpoll
        obtain ⟨c, q, rfl, hquiet⟩ := poll_eq hpoll
        cases hst
        exact h.quiet rfl rfl rfl rfl hquiet
      · rename_i r u hpoll
        obtain ⟨c, q, rfl, hquiet⟩ := poll_eq hpoll
        cases hst
        exact h.quiet rfl rfl rfl rfl hquiet
    · cases hst
      exact h
  · cases hst

theorem send_step (h : Closing s) {r : ConnectionOpResult} (hst : s.sendStep r = some t) :
    Closing t := by
  have hopen : s.connClosed = false → s.releasing ≠ .joinReq := by
    intro hc hjoin
    rw [h.closed (.inr hjoin)] at hc
    cases hc
  cases sendStep_move hst with
  | available hpc hr hc => exact h.next rfl rfl rfl fun hjoin => absurd hjoin (hopen hc)
  | write hpc => exact h.next rfl rfl rfl fun _ _ => ⟨by rw [hpc]; rfl, id⟩
  | refresh hpc =>
      have hquiet := OpCtl.Quiet.refreshOpTime s.controller s.now false
      exact h.next rfl rfl rfl fun _ _ => ⟨by rw [hpc]; rfl, hquiet.current_none⟩
  | test hpc hwait => exact h.next rfl rfl rfl fun _ _ => ⟨by rw [hpc]; rfl, id⟩
  | park hpc => exact h.next rfl rfl rfl fun _ _ => ⟨by rw [hpc]; rfl, id⟩
  | crash hpc htext => exact h.quiet rfl rfl rfl rfl (.refl _)
  | abort hpc htype => exact h.quiet rfl rfl rfl rfl (.refl _)
  | _ => exact h.next rfl rfl rfl fun _ hp => by cases hp

/-- **One step.** -/
theorem step (h : Closing s) {a : SpeechAct} (hst : s.step a = some t) : Closing t := by
  unfold SpeechImpl.step at hst
  split at hst
  · cases hst
  · cases a with
    | prepare =>
        simp only at hst
        split at hst
        · rename_i hidle
          cases hst
          exact h.prepare hidle.1
        · cases hst
    | release => exact h.release hst
    | call n c => exact h.call hst
    | client n => exact h.client hst
    | poll => exact h.pollStep hst
    | config mod =>
        cases hst
        cases mod with
        | none => exact h
        | some mod => exact h.quiet rfl rfl rfl rfl (.refl _)
    | send r => exact h.send_step hst
    | gen r resp =>
        obtain ⟨c, q, v, k, pc, hquiet, -, rfl⟩ := genStep_spec hst
        exact h.quiet rfl rfl rfl rfl hquiet
    | tick ns =>
        cases hst
        exact h.quiet rfl rfl rfl rfl (.refl _)

/-- The send thread does not wait for an operation that is current. -/
theorem not_stuck (h : Closing s) : ¬ Stuck s := by
  rintro ⟨-, hjoin, -, id, a, hsend, hcur, -⟩
  rcases h.free hjoin with hnone | hpast
  · rw [hnone] at hcur
    cases hcur
  · rw [hsend] at hpast
    cases hpast

end Closing

end SpeechImpl

end OpenVoice
