import OpenVoice.Speech.Fidelity
import OpenVoice.StreamQueue.ErrorCode

/-!
# Error codes of the server

The last response of an operation carries a `SpeechErrorCode`.  One that is not `SUCCESS` closes
the stream of the operation as an error, and `poll` returns it as that of the terminal result when
the operation is in front: in full, if it fits in the sixteen bits the queue has for it.
-/

namespace OpenVoice

open OpenVoice.Lib

namespace SpeechImpl

/-- The server has failed the operation at `a` of the open session with `err`. -/
structure ServerFailed (u : Traced SpeechImpl (Nat × SpeechResponse)) (a : Nat)
    (err : BitVec 32) : Prop where
  session : u.state.epoch ≤ a
  initialized : u.state.initialized = true
  failed : ∃ resp ∈ handled u.trace a, resp.type = respFinish ∧ resp.result = err

instance (u : Traced SpeechImpl (Nat × SpeechResponse)) (a : Nat) (err : BitVec 32) :
    Decidable (ServerFailed u a err) :=
  decidable_of_iff (u.state.epoch ≤ a ∧ u.state.initialized = true ∧
      ∃ resp ∈ handled u.trace a, resp.type = respFinish ∧ resp.result = err)
    ⟨fun h => ⟨h.1, h.2.1, h.2.2⟩, fun h => ⟨h.session, h.initialized, h.failed⟩⟩

variable {u : Traced SpeechImpl (Nat × SpeechResponse)} {a : Nat} {err : BitVec 32}

/-- The result of an operation that the server has failed. -/
def failedResult (id : Int) (err : BitVec 32) : SpeechResult :=
  bareResult id .error ((err.setWidth 16).setWidth 32)

/-- What is left of the error is the error if the sixteen bits hold it. -/
theorem failedResult_iff (id : Int) (err : BitVec 32) :
    (failedResult id err).type = .error ∧ (failedResult id err).err = err ↔
      err.toNat < 2 ^ 16 := by
  rw [← narrowed_eq_iff err]
  exact ⟨fun h => h.2, fun h => ⟨rfl, h⟩⟩

/-- An operation that has failed on this side has no last response. -/
theorem ServerFailed.intact (hfail : ServerFailed u a err) (h : Answered u.state u.trace)
    (hcan : (u.state.controller.heap a).status ≠ .cancelled) : u.state.controller.Intact a := by
  refine ⟨hcan, ?_⟩
  intro herror
  obtain ⟨resp, hresp, hfin, -⟩ := hfail.failed
  exact h.told.failed a herror resp hresp hfin

/-- What an operation that the server has failed is owed, and what it has been told at the end. -/
theorem ServerFailed.told (hfail : ServerFailed u a err) (h : Answered u.state u.trace)
    (herr : err ≠ 0) (hint : u.state.controller.Intact a) :
    (a ∈ u.state.controller.operations → u.state.dues a = [.error (err.setWidth 16)]) ∧
      (a ∉ u.state.controller.operations → (polledFor u.state.log a).getLast? =
        some (failedResult (u.state.controller.heap a).id err)) := by
  obtain ⟨resp, hresp, hfin, rfl⟩ := hfail.failed
  have hfailure : script.failure resp = some (resp.result.setWidth 16) := if_pos ⟨hfin, herr⟩
  obtain ⟨v, hv⟩ := h.inv.lined (.inl hfail.initialized)
  exact h.told.failure hv hfail.initialized hfail.session hint hresp hfailure

/-- What `poll` does with it when it is in front. -/
theorem ServerFailed.poll (hfail : ServerFailed u a err) (h : Answered u.state u.trace)
    (herr : err ≠ 0) (hfront : u.state.controller.frontOp = some a) :
    ∃ res t, u.state.poll = some (some (a, res), t) ∧
      t.controller = u.state.controller.removeFrontOp ∧
      if (u.state.controller.heap a).status = .cancelled then res.type = .cancelled
      else res = failedResult (u.state.controller.heap a).id err := by
  obtain ⟨v, hv⟩ := h.inv.lined (.inl hfail.initialized)
  obtain ⟨o, c, q, hpoll, hmove⟩ := poll_move hv h.inv.plain
  by_cases hcan : (u.state.controller.heap a).status = .cancelled
  · obtain ⟨rfl, rfl⟩ := hmove.lost hfront fun hint => hint.1 hcan
    refine ⟨_, _, hpoll, rfl, ?_⟩
    rw [if_pos hcan, droppedResult, if_pos hcan]
    rfl
  · have hint := hfail.intact h hcan
    have hdues := (hfail.told h herr hint).1 (List.mem_of_mem_head? hfront)
    obtain ⟨rfl, rfl⟩ := hmove.last hfront hint hdues rfl
    refine ⟨_, _, hpoll, rfl, ?_⟩
    rw [if_neg hcan]
    rfl

/-- **Error codes.**  For an error that is not 0, whatever has been queued before.  The pop that
    removes a stream which `erase` has closed with it returns `POP_TYPE_ERROR` and the error,
    exactly if the error is less than 2 ^ 16.  In every run that opens its sessions on clean objects
    and does not interrupt `++next_id_`: when an operation which the server has failed with the error
    is in front, `poll` returns a result and removes the operation, and the result is
    `SPEECH_RES_ERROR` and the error exactly if moreover the client has not cancelled it; once such
    an operation is gone, that has been its last result. -/
theorem error_code_kept (err : BitVec 32) (herr : err ≠ 0) :
    (∀ (T A : Type) (id : Int) (t : PopType) (out : PopArgs T), ErasedPop T A id err t out →
      (t = .error ∧ out.err = err ↔ err.toNat < 2 ^ 16)) ∧
    ∀ (u : Traced SpeechImpl (Nat × SpeechResponse)) (a : Nat),
      Run AnswerSteps (Traced.Lift Orderly) ⟨{}, []⟩ u → ServerFailed u a err →
      (u.state.controller.frontOp = some a → ∃ res t,
        u.state.poll = some (some (a, res), t) ∧
          t.controller = u.state.controller.removeFrontOp ∧
          (res.type = .error ∧ res.err = err ↔
            (u.state.controller.heap a).status ≠ .cancelled ∧ err.toNat < 2 ^ 16)) ∧
      (a ∉ u.state.controller.operations → (u.state.controller.heap a).status ≠ .cancelled →
        ∃ res, (polledFor u.state.log a).getLast? = some res ∧
          (res.type = .error ∧ res.err = err ↔ err.toNat < 2 ^ 16)) := by
  constructor
  · intro T A id t out herased
    obtain ⟨ht, -, hout⟩ := herased.spec herr
    rw [hout, narrowed_eq_iff]
    exact ⟨fun h => h.2, fun h => ⟨ht, h⟩⟩
  · intro u a hrun hfail
    have h : Answered u.state u.trace := .run hrun
    constructor
    · intro hfront
      obtain ⟨res, t, hpoll, hgone, hres⟩ := hfail.poll h herr hfront
      refine ⟨res, t, hpoll, hgone, ?_⟩
      split at hres
      · rename_i hcan
        simp [hres, hcan]
      · rename_i hcan
        rw [hres, failedResult_iff]
        exact ⟨fun hlt => ⟨hcan, hlt⟩, fun hlt => hlt.2⟩
    · intro hgone hcan
      have hlast := (hfail.told h herr (hfail.intact h hcan)).2 hgone
      exact ⟨_, hlast, failedResult_iff _ err⟩

/-- A text request that the server answers with an intermediate result and then fails. -/
def failedText (err : BitVec 32) : List SpeechAct :=
  let first : SpeechResponse := { id := 1, type := respIntermediate, result := 0, asr := "hel" }
  let last : SpeechResponse := { id := 1, type := respFinish, result := err }
  [.call 0 (.putText (some [104]) none), .client 0, .client 0, .client 0] ++
    List.replicate 5 (.send .success) ++ List.replicate 3 (.gen .success first) ++ [.poll] ++
    List.replicate 3 (.gen .success last)

/-- The error 7 of an erased stream is popped; that of the server is what `poll` returns next, and
    it is the last result when the operation is gone. -/
theorem error_code_kept_seven :
    (∃ t out, ErasedPop Nat Nat 1 7 t out ∧ t = .error ∧ out.err = 7) ∧
    (∃ u res t, exec (Traced.step step received) ⟨opened, []⟩ (failedText 7) = some u ∧
      u.state.poll = some (some (0, res), t) ∧ res.type = .error ∧ res.err = 7) ∧
    ∃ u res, exec (Traced.step step received) ⟨opened, []⟩ (failedText 7 ++ [.poll]) = some u ∧
      (polledFor u.state.log 0).getLast? = some res ∧ res.type = .error ∧ res.err = 7 := by
  obtain ⟨hqueue, hpoll⟩ := error_code_kept 7 (by decide)
  refine ⟨?_, ?_, ?_⟩
  · have herased : ErasedPop Nat Nat 1 7 .error ⟨1, none, 7⟩ := by
      refine ⟨[.start 1, .stream 1 (some 5)], [.stream 1 (some 6)], _, _, _, _, _, _, _,
        ⟨0, none, 0⟩, rfl, ?_, rfl, rfl, ?_, rfl, ?_⟩
      · decide
      · simp only [Waits]
        refine ⟨by decide, ?_, by decide⟩
        simp [Call.Closes, Call.Removes]
      · decide
    exact ⟨_, _, herased, (hqueue _ _ _ _ _ herased).mpr (by decide)⟩
  · have hok : allOk (Traced.step step received) (Traced.Lift OneSession) ⟨opened, []⟩
        (failedText 7) = true := by decide +kernel
    obtain ⟨res, t, hres, -, hiff⟩ :=
      (hpoll _ 0 (answerSteps_session hok rfl) (by decide +kernel)).1 (by decide +kernel)
    exact ⟨_, res, t, rfl, hres, hiff.mpr ⟨by decide +kernel, by decide⟩⟩
  · have hok : allOk (Traced.step step received) (Traced.Lift OneSession) ⟨opened, []⟩
        (failedText 7 ++ [.poll]) = true := by decide +kernel
    obtain ⟨res, hres, hiff⟩ := (hpoll _ 0 (answerSteps_session hok rfl) (by decide +kernel)).2
      (by decide +kernel) (by decide +kernel)
    exact ⟨_, res, rfl, hres, hiff.mpr (by decide)⟩

/-- The error 0x10000 is polled as an error whose code is that of success.  And the error 7 of an
    operation is never polled when a leftover of an earlier session has taken its stream. -/
theorem error_code_lost :
    (∃ t out, ErasedPop Nat Nat 1 0x10000 t out ∧ t = .error ∧ out.err = 0) ∧
    (∃ u res t, exec (Traced.step step received) ⟨opened, []⟩ (failedText 0x10000) = some u ∧
      ServerFailed u 0 0x10000 ∧ u.state.poll = some (some (0, res), t) ∧ res.type = .error ∧
      res.err = SpeechError.success) ∧
    ∃ u, Run AnswerSteps (Traced.Lift AtomicIncr) ⟨{}, []⟩ u ∧ ServerFailed u 1 7 ∧
      Unanswered u 1 := by
  refine ⟨?_, ?_, ?_⟩
  · refine ⟨.error, ⟨1, none, 0⟩, ?_, rfl, rfl⟩
    refine ⟨[.start 1, .stream 1 (some 5)], [], _, _, _, _, _, _, _, ⟨0, none, 0⟩, rfl, ?_, rfl,
      rfl, ?_, rfl, ?_⟩
    · decide
    · simp only [Waits]
      decide
    · decide
  · exact ⟨_, bareResult 1 .error SpeechError.success, _, rfl, by decide +kernel, rfl, rfl, rfl⟩
  · have hok : allOk (Traced.step step received) (Traced.Lift AtomicIncr) ⟨{}, []⟩
        (leftoverText 7) = true := by decide +kernel
    refine ⟨_, Run.of_exec hok rfl, by decide +kernel, ?_⟩
    refine ⟨?_, ?_, ?_, ?_, ?_, ?_, _, rfl⟩
    all_goals decide +kernel

end SpeechImpl

end OpenVoice
