import OpenVoice.Speech.Works
import OpenVoice.Tts.Works

/-!
# Responses that are not for the current operation

The server goes on sending the response to a request that has been cancelled.  `gen_result_by_resp`
drops what is not for the current operation, but `gen_results` has called `refresh_op_time(true)`
before: the current operation gets its time back with every response to another one.
-/

namespace OpenVoice

open OpenVoice.Lib

namespace OpCtl

variable {E : Type} {now : Int} {c c' : OpCtl E}

/-- The operations and their states are what they were, and `op_timeout` returns now and later what
    it would have returned. -/
structure Unnoticed (now : Int) (c c' : OpCtl E) : Prop where
  operations : c'.operations = c.operations
  currentOp : c'.currentOp = c.currentOp
  status : ∀ a, (c'.heap a).status = (c.heap a).status
  opTimeout : ∀ ns : Nat, c'.opTimeout (now + ns) = c.opTimeout (now + ns)

theorem Unnoticed.refl (now : Int) (c : OpCtl E) : Unnoticed now c c where
  operations := rfl
  currentOp := rfl
  status _ := rfl
  opTimeout _ := rfl

theorem Unnoticed.opTimeout_now (h : Unnoticed now c c') : c'.opTimeout now = c.opTimeout now := by
  simpa using h.opTimeout 0

/-- `refresh_op_time(true)` leaves everything but the time alone. -/
theorem unnoticed_refreshOpTime (h : Clocked now c) :
    Unnoticed now c (c.refreshOpTime now true) ↔ c.Refreshed now := by
  constructor
  · intro hsame
    exact (refreshOpTime_unnoticed h).mp hsame.opTimeout
  · intro hrefreshed
    constructor
    · exact refreshOpTime_operations c now true
    · exact refreshOpTime_currentOp c now true
    · exact fun a => (refreshOpTime_heap c now true a).2
    · exact (refreshOpTime_unnoticed h).mpr hrefreshed

end OpCtl

namespace TtsImpl

/-- Where `gen_results` is in an iteration in which it receives `resp`, which is not for the current
    operation. -/
inductive ForeignTurn (resp : TtsResponse) (s : TtsImpl) : Prop where
  | loop (hgen : s.gen = .loop)
  | recv {timeout : BitVec 32} (hgen : s.gen = .recv timeout)
  | handle (hgen : s.gen = .handle .success resp) (hid : s.controller.Foreign resp.id)

structure Ignored (s t : TtsImpl) : Prop where
  controller : OpCtl.Unnoticed s.now s.controller t.controller
  responses : t.responses = s.responses

variable {s t : TtsImpl} {resp resp' : TtsResponse} {r : ConnectionOpResult}

theorem step_foreign (hgen : s.gen = .handle .success resp) (hid : s.controller.Foreign resp.id)
    (hst : s.step (.gen r resp') = some t) :
    t = { s.setController (s.controller.refreshOpTime s.now true) with gen := .loop } := by
  unfold step at hst
  split at hst
  · cases hst
  · simp only [genStep, hgen, handleResult_foreign hid] at hst
    cases hst
    rfl

theorem foreign_step (hrun : Run Steps Always {} s) (hturn : s.ForeignTurn resp)
    (hst : s.step (.gen r resp') = some t) :
    s.Ignored t ↔ (s.gen = .handle .success resp → s.controller.Refreshed s.now) := by
  have hgen : s.genStep r resp' = some t := by
    unfold step at hst
    split at hst
    · cases hst
    · exact hst
  cases hturn with
  | loop hpc =>
      simp only [genStep, hpc] at hgen
      cases hgen
      simp only [hpc, reduceCtorEq, false_implies, iff_true]
      exact ⟨.refl _ _, rfl⟩
  | recv hpc =>
      simp only [hpc, reduceCtorEq, false_implies, iff_true]
      simp only [genStep, hpc] at hgen
      split at hgen
      · split at hgen
        · cases hgen
          exact ⟨.refl _ _, rfl⟩
        · cases hgen
          exact ⟨.refl _ _, rfl⟩
      · cases hgen
  | handle hpc hid =>
      rw [step_foreign hpc hid hst, hpc, ← OpCtl.unnoticed_refreshOpTime (clocked_run hrun)]
      exact ⟨fun h _ => h.controller, fun h => ⟨h rfl, rfl⟩⟩

end TtsImpl

namespace SpeechImpl

/-- Where `gen_results` is in an iteration in which it receives `resp`, which is not for the current
    operation. -/
inductive ForeignTurn (resp : SpeechResponse) (s : SpeechImpl) : Prop where
  | loop (hgen : s.gen = .loop)
  | recv {timeout : BitVec 32} (hgen : s.gen = .recv timeout)
  | handle (hgen : s.gen = .handle .success resp) (hid : s.controller.Foreign resp.id)

structure Ignored (s t : SpeechImpl) : Prop where
  controller : OpCtl.Unnoticed s.now s.controller t.controller
  responses : t.responses = s.responses

variable {s t : SpeechImpl} {resp resp' : SpeechResponse} {r : ConnectionOpResult}

theorem step_foreign (hgen : s.gen = .handle .success resp) (hid : s.controller.Foreign resp.id)
    (hst : s.step (.gen r resp') = some t) :
    t = { s.setController (s.controller.refreshOpTime s.now true) with gen := .loop } := by
  unfold step at hst
  split at hst
  · cases hst
  · simp only [genStep, hgen, handleResult_foreign hid] at hst
    split at hst
    · cases hst
      rfl
    · cases hst

theorem foreign_step (hrun : Run Steps Always {} s) (hturn : s.ForeignTurn resp)
    (hst : s.step (.gen r resp') = some t) :
    s.Ignored t ↔ (s.gen = .handle .success resp → s.controller.Refreshed s.now) := by
  have hgen : s.genStep r resp' = some t := by
    unfold step at hst
    split at hst
    · cases hst
    · exact hst
  cases hturn with
  | loop hpc =>
      simp only [hpc, reduceCtorEq, false_implies, iff_true]
      simp only [genStep, hpc] at hgen
      split at hgen
      · cases hgen
        exact ⟨.refl _ _, rfl⟩
      · cases hgen
  | recv hpc =>
      simp only [hpc, reduceCtorEq, false_implies, iff_true]
      simp only [genStep, hpc] at hgen
      split at hgen
      · split at hgen
        · cases hgen
          exact ⟨.refl _ _, rfl⟩
        · cases hgen
          exact ⟨.refl _ _, rfl⟩
      · cases hgen
  | handle hpc hid =>
      rw [step_foreign hpc hid hst, hpc, ← OpCtl.unnoticed_refreshOpTime (clocked_run hrun)]
      exact ⟨fun h _ => h.controller, fun h => ⟨h rfl, rfl⟩⟩

end SpeechImpl

/-- **Foreign responses.**  For every reachable state and every step of `gen_results` in an iteration
    that receives a response which is not for the current operation.  The step is ignored by the
    operations, the responses and the times exactly if it is not the one that handles the response,
    or the time of the current operation has just been refreshed. -/
theorem foreign_ignored_iff (s t : SpeechImpl) (u v : TtsImpl) :
    (∀ resp resp' r, Run SpeechImpl.Steps Always {} s → s.ForeignTurn resp →
      s.step (.gen r resp') = some t →
      (s.Ignored t ↔ (s.gen = .handle .success resp → s.controller.Refreshed s.now))) ∧
    ∀ resp resp' r, Run TtsImpl.Steps Always {} u → u.ForeignTurn resp →
      u.step (.gen r resp') = some v →
      (u.Ignored v ↔ (u.gen = .handle .success resp → u.controller.Refreshed u.now)) :=
  ⟨fun _ _ _ hrun hturn hst => SpeechImpl.foreign_step hrun hturn hst,
    fun _ _ _ hrun hturn hst => TtsImpl.foreign_step hrun hturn hst⟩

/-! ### Runs -/

/-- The server goes on with the response to request 1. -/
def SpeechImpl.tail : SpeechResponse :=
  { id := 1, type := respIntermediate, result := 0, asr := "a" }

/-- A text request, until it has been sent. -/
def SpeechImpl.asked : List SpeechAct :=
  [.call 0 (.putText (some [104]) none), .client 0, .client 0, .client 0] ++
    List.replicate 9 (.send .success)

/-- Request 1 is cancelled while it is answered and request 2 is sent; `ns` nanoseconds later more
    of the response to request 1 has been received. -/
def SpeechImpl.outlived (ns : Nat) : List SpeechAct :=
  [SpeechAct.prepare] ++ asked ++ List.replicate 3 (SpeechAct.gen .success tail) ++
    [SpeechAct.send .success, .send .success, .call 0 (.cancel 1), .client 0, .client 0,
      .send .success] ++
    asked ++ [SpeechAct.tick ns, .gen .success tail, .gen .success tail]

def SpeechImpl.hung (ns : Nat) : SpeechImpl := (exec step {} (outlived ns)).getD {}

theorem SpeechImpl.hung_run (ns : Nat) : Run Steps Always {} (hung ns) := Run.exec_getD _ _

def TtsImpl.tail : TtsResponse := { id := 1, voice := some [1], text := none, finish := false }

/-- The same for `speak`. -/
def TtsImpl.asked : List TtsAct :=
  [.call 0 (.speak "a"), .client 0] ++ List.replicate 5 (.send .success)

def TtsImpl.outlived (ns : Nat) : List TtsAct :=
  [TtsAct.prepare] ++ asked ++ List.replicate 3 (TtsAct.gen .success tail) ++
    [TtsAct.send .success, .call 0 (.cancel 1), .client 0, .send .success] ++
    asked ++ [TtsAct.tick ns, .gen .success tail, .gen .success tail]

def TtsImpl.hung (ns : Nat) : TtsImpl := (exec step {} (outlived ns)).getD {}

theorem TtsImpl.hung_run (ns : Nat) : Run Steps Always {} (hung ns) := Run.exec_getD _ _

/-- The response has come at once, when the time of request 2 has just been refreshed. -/
theorem foreign_ignored_refreshed :
    (∃ t, (SpeechImpl.hung 0).gen = .handle .success SpeechImpl.tail ∧
      (SpeechImpl.hung 0).controller.currentOp = some 1 ∧
      SpeechImpl.Steps (SpeechImpl.hung 0) (.gen .success SpeechImpl.tail) t ∧
      (SpeechImpl.hung 0).Ignored t) ∧
    ∃ v, (TtsImpl.hung 0).gen = .handle .success TtsImpl.tail ∧
      (TtsImpl.hung 0).controller.currentOp = some 1 ∧
      TtsImpl.Steps (TtsImpl.hung 0) (.gen .success TtsImpl.tail) v ∧ (TtsImpl.hung 0).Ignored v := by
  constructor
  · have hgen : (SpeechImpl.hung 0).gen = .handle .success SpeechImpl.tail := by decide +kernel
    have hcur : (SpeechImpl.hung 0).controller.currentOp = some 1 := by decide +kernel
    have hid : (SpeechImpl.hung 0).controller.Foreign SpeechImpl.tail.id :=
      by decide +kernel
    have hnew : (SpeechImpl.hung 0).controller.Refreshed (SpeechImpl.hung 0).now :=
      (OpCtl.refreshed_of_current hcur).mpr (by decide +kernel)
    have hstep : ((SpeechImpl.hung 0).step (.gen .success SpeechImpl.tail)).isSome = true := by
      decide +kernel
    obtain ⟨t, ht⟩ := Option.isSome_iff_exists.mp hstep
    have hiff := (foreign_ignored_iff (SpeechImpl.hung 0) t {} {}).1 _ _ _
      (SpeechImpl.hung_run 0) (.handle hgen hid) ht
    exact ⟨t, hgen, hcur, ht, hiff.mpr fun _ => hnew⟩
  · have hgen : (TtsImpl.hung 0).gen = .handle .success TtsImpl.tail := by decide +kernel
    have hcur : (TtsImpl.hung 0).controller.currentOp = some 1 := by decide +kernel
    have hid : (TtsImpl.hung 0).controller.Foreign TtsImpl.tail.id :=
      by decide +kernel
    have hnew : (TtsImpl.hung 0).controller.Refreshed (TtsImpl.hung 0).now :=
      (OpCtl.refreshed_of_current hcur).mpr (by decide +kernel)
    have hstep : ((TtsImpl.hung 0).step (.gen .success TtsImpl.tail)).isSome = true := by
      decide +kernel
    obtain ⟨v, hv⟩ := Option.isSome_iff_exists.mp hstep
    have hiff := (foreign_ignored_iff {} {} (TtsImpl.hung 0) v).2 _ _ _
      (TtsImpl.hung_run 0) (.handle hgen hid) hv
    exact ⟨v, hgen, hcur, hv, hiff.mpr fun _ => hnew⟩

/-- Fifteen seconds later request 2 has five seconds left, and after the response it has twenty. -/
theorem foreign_noticed :
    (∃ t, Run SpeechImpl.Steps Always {} (SpeechImpl.hung 15000000000) ∧
      (SpeechImpl.hung 15000000000).ForeignTurn SpeechImpl.tail ∧
      SpeechImpl.Steps (SpeechImpl.hung 15000000000) (.gen .success SpeechImpl.tail) t ∧
      (SpeechImpl.hung 15000000000).controller.opTimeout (SpeechImpl.hung 15000000000).now = 5000 ∧
      t.controller.opTimeout (SpeechImpl.hung 15000000000).now = 20000 ∧
      ¬ (SpeechImpl.hung 15000000000).Ignored t) ∧
    ∃ v, Run TtsImpl.Steps Always {} (TtsImpl.hung 15000000000) ∧
      (TtsImpl.hung 15000000000).ForeignTurn TtsImpl.tail ∧
      TtsImpl.Steps (TtsImpl.hung 15000000000) (.gen .success TtsImpl.tail) v ∧
      (TtsImpl.hung 15000000000).controller.opTimeout (TtsImpl.hung 15000000000).now = 5000 ∧
      v.controller.opTimeout (TtsImpl.hung 15000000000).now = 20000 ∧
      ¬ (TtsImpl.hung 15000000000).Ignored v := by
  constructor
  · have hgen : (SpeechImpl.hung 15000000000).gen = .handle .success SpeechImpl.tail := by
      decide +kernel
    have hid : (SpeechImpl.hung 15000000000).controller.Foreign SpeechImpl.tail.id :=
      by decide +kernel
    have hstep : ((SpeechImpl.hung 15000000000).step (.gen .success SpeechImpl.tail)).isSome =
        true := by
      decide +kernel
    obtain ⟨t, ht⟩ := Option.isSome_iff_exists.mp hstep
    have hbefore : (SpeechImpl.hung 15000000000).controller.opTimeout
        (SpeechImpl.hung 15000000000).now = 5000 := by decide +kernel
    have hafter : t.controller.opTimeout (SpeechImpl.hung 15000000000).now = 20000 := by
      rw [SpeechImpl.step_foreign hgen hid ht]
      decide +kernel
    refine ⟨t, SpeechImpl.hung_run _, .handle hgen hid, ht, hbefore, hafter, ?_⟩
    intro hsame
    have hnow := hsame.controller.opTimeout_now
    rw [hbefore, hafter] at hnow
    exact absurd hnow (by decide)
  · have hgen : (TtsImpl.hung 15000000000).gen = .handle .success TtsImpl.tail := by
      decide +kernel
    have hid : (TtsImpl.hung 15000000000).controller.Foreign TtsImpl.tail.id :=
      by decide +kernel
    have hstep : ((TtsImpl.hung 15000000000).step (.gen .success TtsImpl.tail)).isSome = true := by
      decide +kernel
    obtain ⟨v, hv⟩ := Option.isSome_iff_exists.mp hstep
    have hbefore : (TtsImpl.hung 15000000000).controller.opTimeout
        (TtsImpl.hung 15000000000).now = 5000 := by decide +kernel
    have hafter : v.controller.opTimeout (TtsImpl.hung 15000000000).now = 20000 := by
      rw [TtsImpl.step_foreign hgen hid hv]
      decide +kernel
    refine ⟨v, TtsImpl.hung_run _, .handle hgen hid, hv, hbefore, hafter, ?_⟩
    intro hsame
    have hnow := hsame.controller.opTimeout_now
    rw [hbefore, hafter] at hnow
    exact absurd hnow (by decide)

end OpenVoice
