import OpenVoice.Service.Moves
import OpenVoice.Tts.Works

/-!
# `TtsImpl` as a client of its connection
-/

namespace OpenVoice

open OpenVoice.Lib

namespace TtsImpl

def wsSendTimeout : BitVec 32 := 5000

def role : TtsAct → Role
  | .prepare => .prepare
  | .release => .release
  | .send _ => .send
  | .gen _ _ => .gen
  | .tick _ => .tick
  | _ => .other

def SendPc.requests : SendPc → Option (BitVec 32)
  | .request _ => some wsSendTimeout
  | _ => none

def SendPc.sends : SendPc → Option Int
  | .sending req _ | .writing req _ => some req.id
  | _ => none

def GenPc.receives : GenPc → Bool
  | .recv _ => true
  | _ => false

def GenPc.hand : GenPc → Option ConnectionOpResult
  | .handle r _ => some r
  | _ => none

/-- `do_ctl_new_op` for a request that has not been cancelled. -/
def startsOp (s : TtsImpl) : TtsAct → Bool
  | .send _ =>
      match s.send, s.requests with
      | .loop, req :: _ => s.initialized && !req.deleted
      | _, _ => false
  | _ => false

variable {s t : TtsImpl}

/-- Nothing becomes current but by `new_op(id, START)`. -/
theorem step_started {a : TtsAct} (h : s.step a = some t) (hno : s.startsOp a = false) :
    ∀ x, t.controller.currentOp = some x → s.controller.currentOp = some x := by
  cases step_move h with
  | prepared hinit => exact fun _ hx => hx
  | prepare hrel hinit => exact fun _ hx => hx
  | release hmove =>
      cases hmove with
      | closeResp hrel => exact fun _ hx => (OpCtl.Quiet.finishOp _).current_some hx
      | _ => exact fun _ hx => hx
  | send hmove =>
      cases hmove with
      | start hpc hinit hreq hdel => simp [startsOp, hpc, hreq, hinit, hdel] at hno
      | setError hpc => exact fun _ hx => (OpCtl.Quiet.setOpError _ _).current_some hx
      | refresh hpc => exact fun _ hx => (OpCtl.Quiet.refreshOpTime _ _ _).current_some hx
      | _ => exact fun _ hx => hx
  | gen hgen =>
      obtain ⟨c, q, n, pc, hquiet, rfl⟩ := genStep_spec hgen
      exact fun _ hx => hquiet.current_some hx
  | client hquiet => exact fun _ hx => hquiet.current_some hx

/-- `new_op(id, START)` makes the new operation current. -/
theorem starts_current {a : TtsAct} (h : s.step a = some t) (hstarts : s.startsOp a = true) :
    t.controller.currentOp = some s.controller.fresh := by
  unfold startsOp at hstarts
  split at hstarts
  · split at hstarts
    · rename_i r _ _ req requests hpc hreq
      rw [Bool.and_eq_true, Bool.not_eq_true'] at hstarts
      have hsend : s.sendStep r = some t := by
        unfold step at h
        split at h
        · cases h
        · exact h
      cases sendStep_move hsend with
      | start hpc' hinit hreq' hdel => rfl
      | exit hpc' hinit =>
          rw [hinit] at hstarts
          cases hstarts.1
      | sleep hpc' hinit hreq' =>
          rw [hreq] at hreq'
          cases hreq'
      | cancelled hpc' hinit hreq' hdel =>
          rw [hreq] at hreq'
          cases hreq'
          rw [hdel] at hstarts
          cases hstarts.2
      | _ hpc' =>
          rw [hpc] at hpc'
          cases hpc'
    · cases hstarts
  · cases hstarts

theorem starts_alone {a : TtsAct} (h : s.startsOp a = true) :
    role a = .send ∧ s.send.requests = none ∧ s.send.sends = none := by
  unfold startsOp at h
  split at h
  · split at h
    · rename_i hpc _
      rw [hpc]
      exact ⟨rfl, rfl, rfl⟩
    · cases h
  · cases h

/-! ### What `gen_results` holds -/

theorem genStep_hand {r r' : ConnectionOpResult} {resp : TtsResponse}
    (h : s.genStep r resp = some t) (hhand : t.gen.hand = some r') :
    s.gen.receives = true ∧ r' = r := by
  unfold genStep at h
  split at h
  · cases h
    cases hhand
  · rename_i timeout hpc
    split at h
    · split at h
      · cases h
        cases hhand
      · cases h
        cases hhand
        exact ⟨by rw [hpc]; rfl, rfl⟩
    · cases h
  · cases h
    cases hhand
  · cases h

theorem step_hand {a : TtsAct} {r : ConnectionOpResult} (h : s.step a = some t)
    (hhand : t.gen.hand = some r) :
    s.gen.hand = some r ∨ s.gen.receives = true ∧ role a = .gen := by
  cases step_move h with
  | prepared hinit => exact .inl hhand
  | prepare hrel hinit => cases hhand
  | release hmove => cases hmove <;> exact .inl hhand
  | send hmove => cases hmove <;> exact .inl hhand
  | gen hgen => exact .inr ⟨(genStep_hand hgen hhand).1, rfl⟩
  | client hquiet => exact .inl hhand

/-- The other thread leaves it alone. -/
theorem send_hand {a : TtsAct} (h : s.step a = some t) (hrole : role a = .send) :
    t.gen.hand = s.gen.hand := by
  cases a with
  | send r =>
      unfold step at h
      split at h
      · cases h
      · cases sendStep_move h <;> rfl
  | _ => cases hrole

theorem gen_hand {r r' : ConnectionOpResult} {resp : TtsResponse}
    (h : s.step (.gen r resp) = some t) (hhand : t.gen.hand = some r') : r' = r := by
  unfold step at h
  split at h
  · cases h
  · exact (genStep_hand h hhand).2

end TtsImpl

def ttsClient : ServiceClient TtsImpl TtsAct TtsResponse TtsError where
  opened := {}
  step := TtsImpl.step
  role := TtsImpl.role
  prepare := .prepare
  release := .release
  send := .send
  gen := .gen
  tick := .tick
  initialized := fun s => s.initialized
  closing := fun s => s.releasing = .closing
  requests := fun s => s.send.requests
  sends := fun s => s.send.sends
  receives := fun s => s.gen.receives
  hand := fun s => s.gen.hand
  controller := fun s => s.controller
  starts := TtsImpl.startsOp
  role_prepare := rfl
  role_release := rfl
  role_send := fun _ => rfl
  role_gen := fun _ _ => rfl
  role_tick := fun _ => rfl
  advances h := (TtsImpl.step_works h).advances
  started := TtsImpl.step_started
  starts_current := TtsImpl.starts_current
  hand_kept := TtsImpl.step_hand
  hand_send := TtsImpl.send_hand
  hand_taken := TtsImpl.gen_hand
  starts_alone := TtsImpl.starts_alone

namespace TtsImpl

/-- Two calls of `speak`, and the first request is sent. -/
def requested (connDuration : BitVec 32) : List (ServiceAct TtsAct TtsResponse) :=
  [.prepare (Service.options connDuration), Service.works, Service.works,
    .client (.call 0 (.speak "a")), .client (.client 0), .client (.call 0 (.speak "b")),
    .client (.client 0), .client (.send .success)] ++ Service.sends ++
    [.client (.send .success), .client (.send .success)]

/-- The first request is answered, and both threads go on. -/
def answered : List (ServiceAct TtsAct TtsResponse) :=
  [.client (.gen .timeout (finished 1))] ++ Service.receives ++
    [.recv true (finished 1), .client (.gen .timeout (finished 1)), .client (.send .success),
      .client (.gen .timeout (finished 1))]

end TtsImpl

end OpenVoice
