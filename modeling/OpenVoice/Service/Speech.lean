import OpenVoice.Service.Moves
import OpenVoice.Speech.Works

/-!
# `SpeechImpl` as a client of its connection
-/

namespace OpenVoice

open OpenVoice.Lib

namespace SpeechImpl

def wsSendTimeout : BitVec 32 := 5000

/-- `send_timeout` of `do_request`. -/
def sendTimeout : SpeechReqType → BitVec 32
  | .text | .voiceStart => wsSendTimeout
  | .voiceEnd | .cancelled | .voiceData => 1

def role : SpeechAct → Role
  | .prepare => .prepare
  | .release => .release
  | .send _ => .send
  | .gen _ _ => .gen
  | .tick _ => .tick
  | _ => .other

def SendPc.requests : SendPc → Option (BitVec 32)
  | .request info => some (sendTimeout info.type)
  | _ => none

def SendPc.sends : SendPc → Option Int
  | .sending info _ | .writing info _ => some info.id
  | _ => none

def GenPc.receives : GenPc → Bool
  | .recv _ => true
  | _ => false

def GenPc.hand : GenPc → Option ConnectionOpResult
  | .handle r _ => some r
  | _ => none

/-- `do_ctl_change_op` for a text or for the start of a voice stream. -/
def startsOp (s : SpeechImpl) : SpeechAct → Bool
  | .send _ =>
      match s.send with
      | .changeOp info none => opens info.type
      | _ => false
  | _ => false

variable {s t : SpeechImpl}

/-- Nothing becomes current but by `new_op(id, START)`. -/
theorem step_started {a : SpeechAct} (h : s.step a = some t) (hno : s.startsOp a = false) :
    ∀ x, t.controller.currentOp = some x → s.controller.currentOp = some x := by
  cases step_move h with
  | prepared hinit => exact fun _ hx => hx
  | prepare hrel hinit => exact fun _ hx => hx
  | release hmove =>
      cases hmove with
      | setError hrel => exact fun _ hx => (OpCtl.Quiet.setOpError _ _).current_some hx
      | closeResp hrel hfree => exact fun _ hx => (OpCtl.Quiet.finishOp _).current_some hx
      | _ => exact fun _ hx => hx
  | send hmove =>
      cases hmove with
      | create hpc htype => simp [startsOp, hpc, htype] at hno
      | cancelCurrent hpc htype =>
          intro x hx
          cases hx
      | setError hpc => exact fun _ hx => (OpCtl.Quiet.setOpError _ _).current_some hx
      | refresh hpc => exact fun _ hx => (OpCtl.Quiet.refreshOpTime _ _ _).current_some hx
      | _ => exact fun _ hx => hx
  | gen hgen =>
      obtain ⟨c, q, v, k, pc, hquiet, -, rfl⟩ := genStep_spec hgen
      exact fun _ hx => hquiet.current_some hx
  | client hquiet => exact fun _ hx => hquiet.current_some hx

/-- `new_op(id, START)` makes the new operation current. -/
theorem starts_current {a : SpeechAct} (h : s.step a = some t) (hstarts : s.startsOp a = true) :
    t.controller.currentOp = some s.controller.fresh := by
  unfold startsOp at hstarts
  split at hstarts
  · split at hstarts
    · rename_i r _ info hpc
      have hsend : s.sendStep r = some t := by
        unfold step at h
        split at h
        · cases h
        · exact h
      cases sendStep_move hsend with
      | create hpc' htype => rfl
      | createCancelled hpc' htype =>
          rw [hpc] at hpc'
          cases hpc'
          rw [htype] at hstarts
          cases hstarts
      | drop hpc' htype =>
          rw [hpc] at hpc'
          cases hpc'
          rcases htype with htype | htype
          · rw [htype] at hstarts
            cases hstarts
          · rw [htype] at hstarts
            cases hstarts
      | _ hpc' =>
          rw [hpc] at hpc'
          cases hpc'
    · cases hstarts
  · cases hstarts

theorem starts_alone {a : SpeechAct} (h : s.startsOp a = true) :
    role a = .send ∧ s.send.requests = none ∧ s.send.sends = none := by
  unfold startsOp at h
  split at h
  · split at h
    · rename_i hpc
      rw [hpc]
      exact ⟨rfl, rfl, rfl⟩
    · cases h
  · cases h

/-! ### What `gen_results` holds -/

theorem genStep_hand {r r' : ConnectionOpResult} {resp : SpeechResponse}
    (h : s.genStep r resp = some t) (hhand : t.gen.hand = some r') :
    s.gen.receives = true ∧ r' = r := by
  unfold genStep at h
  split at h
  · split at h
    · cases h
      cases hhand
    · cases h
  · rename_i timeout hpc
    split at h
    · split at h
      · cases h
        cases hhand
      · cases h
        cases hhand
        exact ⟨by rw [hpc]; rfl, rfl⟩
    · cases h
  · split at h
    · split at h
      · cases h
        cases hhand
      · cases h
        cases hhand
    · cases h
  · split at h
    · cases h
      cases hhand
    · cases h
  · cases h

theorem step_hand {a : SpeechAct} {r : ConnectionOpResult} (h : s.step a = some t)
    (hhand : t.gen.hand = some r) :
    s.gen.hand = some r ∨ s.gen.receives = true ∧ role a = .gen := by
  cases step_move h with
  | prepared hinit => exact .inl hhand
  | prepare hrel hinit => cases hhand
  | release hmove => cases hmove <;> exact .inl hhand
  | send hmove => cases hmove <;> exact .inl hhand
  | gen hgen => exact .inr ⟨(genStep_hand hgen hhand).1, rfl⟩
  | client hquiet => exact .inl hhand

/-- The other thread leaves it alone. -/
theorem send_hand {a : SpeechAct} (h : s.step a = some t) (hrole : role a = .send) :
    t.gen.hand = s.gen.hand := by
  cases a with
  | send r =>
      unfold step at h
      split at h
      · cases h
      · cases sendStep_move h <;> rfl
  | _ => cases hrole

theorem gen_hand {r r' : ConnectionOpResult} {resp : SpeechResponse}
    (h : s.step (.gen r resp) = some t) (hhand : t.gen.hand = some r') : r' = r := by
  unfold step at h
  split at h
  · cases h
  · exact (genStep_hand h hhand).2

end SpeechImpl

def speechClient : ServiceClient SpeechImpl SpeechAct SpeechResponse SpeechError where
  opened := {}
  step := SpeechImpl.step
  role := SpeechImpl.role
  prepare := .prepare
  release := .release
  send := .send
  gen := .gen
  tick := .tick
  initialized := fun s => s.initialized
  closing := fun s => s.releasing = .closing
  requests := fun s => s.send.requests
  sends := fun s => s.send.sends
  receives := fun s => s.gen.receives
  hand := fun s => s.gen.hand
  controller := fun s => s.controller
  starts := SpeechImpl.startsOp
  role_prepare := rfl
  role_release := rfl
  role_send := fun _ => rfl
  role_gen := fun _ _ => rfl
  role_tick := fun _ => rfl
  advances h := (SpeechImpl.step_works h).advances
  started := SpeechImpl.step_started
  starts_current := SpeechImpl.starts_current
  hand_kept := SpeechImpl.step_hand
  hand_send := SpeechImpl.send_hand
  hand_taken := SpeechImpl.gen_hand
  starts_alone := SpeechImpl.starts_alone

namespace SpeechImpl

/-- A call of `put_text`. -/
def putsText (text : Bytes) : List (ServiceAct SpeechAct SpeechResponse) :=
  [.client (.call 0 (.putText (some text) none)), .client (.client 0), .client (.client 0),
    .client (.client 0)]

/-- Two calls of `put_text`, and the first request is sent. -/
def requested (connDuration : BitVec 32) : List (ServiceAct SpeechAct SpeechResponse) :=
  [.prepare (Service.options connDuration), Service.works, Service.works] ++ putsText [97] ++
    putsText [98] ++ [.client (.send .success), .client (.send .success),
      .client (.send .success), .client (.send .success), .client (.send .success)] ++
    Service.sends ++ [.client (.send .success), .client (.send .success),
      .client (.send .success)]

/-- The last response for the first request. -/
def finishedText : SpeechResponse := { id := 1, type := respFinish, result := 0 }

/-- The first request is answered, and both threads go on. -/
def answered : List (ServiceAct SpeechAct SpeechResponse) :=
  [.client (.gen .timeout finishedText)] ++ Service.receives ++
    [.recv true finishedText, .client (.gen .timeout finishedText),
      .client (.gen .timeout finishedText), .client (.send .success),
      .client (.gen .timeout finishedText)]

end SpeechImpl

end OpenVoice
