import OpenVoice.Speech.Alignment
import OpenVoice.Speech.Responses

/-!
# The results of a speech operation

`poll` returns, for an operation that is neither cancelled nor failed, a start and then the
results of the responses the operation has received while it was current, in their order
(`response_fidelity`): if nothing is left of an earlier session, and if no other request has its
id.  Otherwise its stream may be taken for that of another operation (`response_lost`).
-/

namespace OpenVoice

open OpenVoice.Lib

namespace SpeechImpl

/-- The results of one response: what is in `extra` comes first and alone. -/
def answers (id : Int) (resp : SpeechResponse) : List SpeechResult :=
  (if resp.extra ≠ "" then
    [{ bareResult id .inter SpeechError.success with extra := resp.extra }] else []) ++
    if resp.type = respIntermediate then
      [{ bareResult id .inter SpeechError.success with
          asr := resp.asr, voiceTrigger := resp.voiceTrigger }]
    else if resp.type = respAsrFinish then
      [{ bareResult id .asrFinish SpeechError.success with
          asr := resp.asr, voiceTrigger := resp.voiceTrigger }]
    else if resp.type = respFinish then
      [{ bareResult id .end_ SpeechError.success with
          asr := resp.asr, nlp := resp.nlp, action := resp.action
          voiceTrigger := resp.voiceTrigger }]
    else []

/-- The results of an operation with these responses. -/
def expected (id : Int) : List SpeechResponse → List SpeechResult
  | [] => []
  | l@(_ :: _) => bareResult id .start SpeechError.success :: l.flatMap (answers id)

/-- No response says that the server has failed. -/
def Succeeds (l : List SpeechResponse) : Prop :=
  ∀ resp ∈ l, resp.type = respFinish → resp.result = 0

instance (l : List SpeechResponse) : Decidable (Succeeds l) :=
  inferInstanceAs (Decidable (∀ resp ∈ l, _ → _))

theorem Succeeds.failure {l : List SpeechResponse} (h : Succeeds l) :
    ∀ resp ∈ l, script.failure resp = none := by
  intro resp hresp
  refine if_neg ?_
  rintro ⟨hfin, hres⟩
  exact hres (h resp hresp hfin)

/-- The results of the pieces a response adds. -/
theorem pieces_answers (id : Int) (resp : SpeechResponse) :
    (script.pieces resp).map (pieceResult id) = answers id resp := by
  have hextra : pieceResult id (.data (some { extra := resp.extra })) =
      { bareResult id .inter SpeechError.success with extra := resp.extra } := rfl
  have hinter : pieceResult id
      (.data (some { asr := resp.asr, voiceTrigger := resp.voiceTrigger })) =
      { bareResult id .inter SpeechError.success with
        asr := resp.asr, voiceTrigger := resp.voiceTrigger } := rfl
  have hasr : pieceResult id
      (.data (some { asr := resp.asr, voiceTrigger := resp.voiceTrigger, asrFinish := true })) =
      { bareResult id .asrFinish SpeechError.success with
        asr := resp.asr, voiceTrigger := resp.voiceTrigger } := rfl
  have hend : pieceResult id
      (.end_ (some { asr := resp.asr, nlp := resp.nlp, action := resp.action,
                     voiceTrigger := resp.voiceTrigger })) =
      { bareResult id .end_ SpeechError.success with
        asr := resp.asr, nlp := resp.nlp, action := resp.action
        voiceTrigger := resp.voiceTrigger } := rfl
  unfold script answers
  simp only [List.map_append, apply_ite (List.map (pieceResult id)), List.map_singleton,
    List.map_nil, hextra, hinter, hasr, hend]

theorem expected_eq (id : Int) (l : List SpeechResponse) :
    (script.expected l).map (pieceResult id) = expected id l := by
  cases l with
  | nil => rfl
  | cons resp l =>
      have hstart : pieceResult id .start = bareResult id .start SpeechError.success := rfl
      simp only [Script.expected, List.isEmpty_cons, Bool.false_eq_true, if_false, List.map_cons,
        List.map_flatMap, hstart, pieces_answers, expected]

/-- **Response fidelity.**  In every run that opens its sessions on clean objects and does not
    interrupt `++next_id_`, whatever the clients, the threads and the server do: what `poll` has returned for an operation that is neither cancelled nor failed is a part, from
    the front, of what its responses say.  It is all of it when the operation has left
    `operations_`; until then, when the operation is in front, `poll` returns the next result, or
    nothing if there is none.  Nothing comes after the last response. -/
theorem response_fidelity {u : Traced SpeechImpl (Nat × SpeechResponse)}
    (hrun : Run AnswerSteps (Traced.Lift Orderly) ⟨{}, []⟩ u) {a : Nat}
    (hsession : u.state.epoch ≤ a) (hint : u.state.controller.Intact a)
    (hok : Succeeds (handled u.trace a)) :
    let said := expected (u.state.controller.heap a).id (handled u.trace a)
    let got := polledFor u.state.log a
    got <+: said ∧ (∀ resp ∈ (handled u.trace a).dropLast, resp.type ≠ respFinish) ∧
      (u.state.initialized = true → a ∉ u.state.controller.operations → got = said) ∧
      (u.state.initialized = true → u.state.controller.frontOp = some a →
        ∃ t, u.state.poll = some (((said.drop got.length).head?).map (a, ·), t)) := by
  have h : Answered u.state u.trace := .run hrun
  obtain ⟨rest, hsaid, hrest⟩ := h.told.served hsession hint hok.failure
  rw [expected_eq] at hsaid
  simp only
  rw [hsaid]
  refine ⟨List.prefix_append _ _, h.told.order a, ?_, ?_⟩
  · intro hi hgone
    rw [hrest hi, OpCtl.dues_of_notMem hgone, List.map_nil, List.append_nil]
  · intro hi hfront
    rw [List.drop_left, hrest hi]
    obtain ⟨v, hv⟩ := h.inv.lined (.inl hi)
    obtain ⟨o, c, q, hpoll, hmove⟩ := poll_move hv h.inv.plain
    rw [hpoll, hmove.next hfront hint]
    exact ⟨_, rfl⟩

/-- A text request that the server answers in three responses, with an answer for another one in
    between; the client polls while they come in. -/
def answeredText : List SpeechAct :=
  let first : SpeechResponse :=
    { id := 1, type := respIntermediate, result := 0, asr := "hel", extra := "{}" }
  let other : SpeechResponse := { id := 9, type := respFinish, result := 0, asr := "no" }
  let second : SpeechResponse := { id := 1, type := respAsrFinish, result := 0, asr := "hello" }
  let last : SpeechResponse :=
    { id := 1, type := respFinish, result := 0, asr := "hello", nlp := "greet", action := "wave" }
  let receive (resp : SpeechResponse) : List SpeechAct := List.replicate 3 (.gen .success resp)
  [.call 0 (.putText (some [104]) none), .client 0, .client 0, .client 0] ++
    List.replicate 5 (.send .success) ++ receive first ++ [.poll, .poll] ++ receive other ++
    receive second ++ [.poll] ++ receive last ++ [.poll, .poll, .poll]

/-- A run of the first session. -/
theorem answerSteps_session {u : Traced SpeechImpl (Nat × SpeechResponse)} {as : List SpeechAct}
    (hok : allOk (Traced.step step received) (Traced.Lift OneSession) ⟨opened, []⟩ as = true)
    (h : exec (Traced.step step received) ⟨opened, []⟩ as = some u) :
    Run AnswerSteps (Traced.Lift Orderly) ⟨{}, []⟩ u := by
  have hclean : Orderly ({} : SpeechImpl) .prepare :=
    ⟨fun _ _ => ⟨rfl, rfl, rfl, fun _ => rfl⟩, rfl⟩
  have hprepare : Run AnswerSteps (Traced.Lift Orderly) ⟨{}, []⟩ ⟨opened, []⟩ :=
    (Run.refl _).snoc hclean rfl
  exact hprepare.trans ((Run.of_exec hok h).mono fun _ _ hone => OneSession.orderly hone)

theorem response_fidelity_answeredText :
    ∃ u, exec (Traced.step step received) ⟨opened, []⟩ answeredText = some u ∧
      (handled u.trace 0).length = 3 ∧ polledFor u.state.log 0 = expected 1 (handled u.trace 0) := by
  have hok : allOk (Traced.step step received) (Traced.Lift OneSession) ⟨opened, []⟩ answeredText =
      true := by decide +kernel
  refine ⟨_, rfl, by decide +kernel, ?_⟩
  exact (response_fidelity (answerSteps_session hok rfl) (by decide +kernel) (by decide +kernel)
    (by decide +kernel)).2.2.1 (by decide +kernel) (by decide +kernel)

/-- An operation that is left over from the first session, cancelled, and one of the second
    session with its id, which `poll` finds behind it. -/
def leftoverText (result : BitVec 32) : List SpeechAct :=
  let first : SpeechResponse := { id := 1, type := respIntermediate, result := 0, asr := "hel" }
  let last : SpeechResponse := { id := 1, type := respFinish, result }
  let put : List SpeechAct :=
    [.prepare, .call 0 (.putText (some [104]) none), .client 0, .client 0, .client 0]
  let send : List SpeechAct := List.replicate 5 (.send .success)
  put ++ [.call 0 (.cancel 1), .client 0] ++ send ++ closed ++ put ++ send ++
    List.replicate 3 (.gen .success first) ++ [.poll] ++ List.replicate 3 (.gen .success last)

/-- Two requests with one id, the second answered before the first one is polled. -/
def sharedText : List SpeechAct :=
  let last : SpeechResponse := { id := 1, type := respFinish, result := 0 }
  let answer : List SpeechAct := List.replicate 4 (.gen .success last)
  overlapped ++ List.replicate 7 (.send .success) ++ answer ++
    List.replicate 8 (.send .success) ++ answer ++ [.poll, .poll]

/-- The operation at `a` is in front, the server has answered it, and `poll` returns nothing. -/
structure Unanswered (u : Traced SpeechImpl (Nat × SpeechResponse)) (a : Nat) : Prop where
  session : u.state.epoch ≤ a
  initialized : u.state.initialized = true
  intact : u.state.controller.Intact a
  front : u.state.controller.frontOp = some a
  answered : handled u.trace a ≠ []
  nothing : polledFor u.state.log a = [] ∧ ∃ t, u.state.poll = some (none, t)

/-- A leftover takes the stream of the new operation away with it; and the second of two operations
    with one id never has a stream of its own.  No response says that the server has failed. -/
theorem response_lost :
    (∃ u, Run AnswerSteps (Traced.Lift AtomicIncr) ⟨{}, []⟩ u ∧ Unanswered u 1 ∧
        Succeeds (handled u.trace 1)) ∧
      ∃ u, Run AnswerSteps (Traced.Lift fun _ a => a ≠ .prepare) ⟨opened, []⟩ u ∧
        Unanswered u 1 ∧ Succeeds (handled u.trace 1) := by
  constructor
  · have hok : allOk (Traced.step step received) (Traced.Lift AtomicIncr) ⟨{}, []⟩
        (leftoverText 0) = true := by decide +kernel
    refine ⟨_, Run.of_exec hok rfl, ?_, by decide +kernel⟩
    refine ⟨?_, ?_, ?_, ?_, ?_, ?_, _, rfl⟩
    all_goals decide +kernel
  · have hok : allOk (Traced.step step received) (Traced.Lift fun _ a => a ≠ .prepare)
        ⟨opened, []⟩ sharedText = true := by decide +kernel
    refine ⟨_, Run.of_exec hok rfl, ?_, by decide +kernel⟩
    refine ⟨?_, ?_, ?_, ?_, ?_, ?_, _, rfl⟩
    all_goals decide +kernel

end SpeechImpl

end OpenVoice
