import OpenVoice.Nanopb.Responses
import OpenVoice.Service.Listening
import OpenVoice.Service.Tts
import OpenVoice.Tts.Payload

/-!
# From the bytes on the socket to the results of `Tts::poll`

A message goes through `onMessage`, `responses_` of the connection, `recv` with `ParseFromArray`,
`gen_results`, the streams in `responses_` of `TtsImpl`, and `poll`.  Each part has been looked at
on its own; here they are put together.
-/

namespace OpenVoice

open OpenVoice.Lib

namespace TtsImpl

variable {s t : TtsImpl}

/-- What `gen_result_by_resp` gets of the response. -/
def response (g : Nanopb.TtsResponse.Getters) : TtsResponse :=
  { id := g.id.toInt, result := g.result, voice := g.voice, text := g.text.map stdString
    finish := g.finish }

/-- `ParseFromArray`.  The object is used again for every message, which makes no difference
    (`parse_eq`). -/
def parse (data : Bytes) : Option TtsResponse :=
  let d := Nanopb.TtsResponse.new.parseFromArray data
  if d.1 then some (response d.2.getters) else none

theorem parse_eq (history : List Nanopb.TtsResponse.Call) (data : Bytes) :
    parse data =
      let d := (history.foldl Nanopb.TtsResponse.call .new).parseFromArray data
      if d.1 then some (response d.2.getters) else none := by
  simp only [parse, Nanopb.TtsResponse.parseFromArray_eq]

/-- The response that `gen_results` holds. -/
def GenPc.holds : GenPc → List TtsResponse
  | .handle .success resp => [resp]
  | _ => []

/-- The response that a step of `gen_results` handles, and the operation it is for, if it is for the
    current one. -/
def hears (s : TtsImpl) : TtsAct → List (Option Nat × TtsResponse)
  | .gen _ _ =>
      match s.gen with
      | .handle .success resp =>
          [(s.controller.currentOp.filter fun a => (s.controller.heap a).id = resp.id, resp)]
      | _ => []
  | _ => []

/-- `gen_results` is gone when `prepare` is called. -/
def Joined (s : TtsImpl) : Prop :=
  (s.releasing ≠ .idle → s.initialized = false) ∧
    (s.releasing = .idle → s.initialized = false → s.gen = .done)

theorem hears_current {a : TtsAct} {x : Nat} {resp : TtsResponse}
    (h : (some x, resp) ∈ hears s a) :
    s.controller.currentOp = some x ∧ (s.controller.heap x).id = resp.id := by
  unfold hears at h
  split at h
  · split at h
    · rename_i resp' hgen
      rw [List.mem_singleton, Prod.mk.injEq] at h
      obtain ⟨hcur, rfl⟩ := h
      obtain ⟨hcur, hid⟩ := Option.filter_eq_some_iff.mp hcur.symm
      exact ⟨hcur, of_decide_eq_true hid⟩
    · cases h
  · cases h

theorem addressed_hears (s : TtsImpl) (a : TtsAct) : addressed (hears s a) = received s a := by
  cases a with
  | gen r resp =>
      unfold hears received
      cases hgen : s.gen with
      | handle r' resp' =>
          cases r' with
          | success =>
              cases hcur : s.controller.currentOp with
              | none => rfl
              | some x =>
                  by_cases hid : (s.controller.heap x).id = resp'.id
                  · simp [addressed, Option.filter_some, hid]
                  · simp [addressed, Option.filter_some, hid]
          | _ => rfl
      | _ => rfl
  | _ => rfl

theorem Joined.step (h : Joined s) {a : TtsAct} (hst : s.step a = some t) : Joined t := by
  cases step_move hst with
  | prepared hinit => exact h
  | prepare hrel hinit => exact ⟨fun hne => absurd hrel hne, fun _ hi => by cases hi⟩
  | release hmove =>
      cases hmove with
      | absent hrel hinit => exact h
      | enter hrel hinit => exact ⟨fun _ => rfl, fun hr => by cases hr⟩
      | close hrel => exact ⟨fun _ => h.1 (by simp [hrel]), fun hr => by cases hr⟩
      | joinReq hrel hdone => exact ⟨fun _ => h.1 (by simp [hrel]), fun hr => by cases hr⟩
      | closeResp hrel => exact ⟨fun _ => h.1 (by simp [hrel]), fun hr => by cases hr⟩
      | joinResp hrel hdone => exact ⟨fun hr => absurd rfl hr, fun _ _ => hdone⟩
  | send hmove => cases hmove <;> exact h
  | gen hgen =>
      obtain ⟨c, q, n, pc, -, rfl⟩ := genStep_spec hgen
      refine ⟨h.1, fun hr hi => ?_⟩
      have hdone : s.gen = .done := h.2 hr hi
      rw [genStep, hdone] at hgen
      cases hgen
  | client hquiet => exact h

theorem holds_taken {r : ConnectionOpResult} {resp : TtsResponse}
    (hst : s.step (.gen r resp) = some t) (hrecv : s.gen.receives = true) :
    s.gen.holds = [] ∧ t.gen.holds = (if r = .success then [resp] else []) ∧
      hears s (.gen r resp) = [] := by
  unfold TtsImpl.step at hst
  split at hst
  · cases hst
  · cases hgen : s.gen with
    | recv timeout =>
        refine ⟨rfl, ?_, by simp [hears, hgen]⟩
        simp only [genStep, hgen] at hst
        split at hst
        · split at hst
          · rename_i hr
            cases hst
            subst hr
            rfl
          · cases hst
            cases r <;> rfl
        · cases hst
    | loop => simp [hgen, GenPc.receives] at hrecv
    | handle r' resp' => simp [hgen, GenPc.receives] at hrecv
    | done => simp [hgen, GenPc.receives] at hrecv

theorem holds_handled (h : Joined s) {a : TtsAct} (hst : s.step a = some t)
    (hgen : ¬ (role a = .gen ∧ s.gen.receives = true)) :
    s.gen.holds = (hears s a).map Prod.snd ++ t.gen.holds := by
  by_cases ha : ∃ r resp, a = .gen r resp
  · obtain ⟨r, resp, rfl⟩ := ha
    unfold TtsImpl.step at hst
    split at hst
    · cases hst
    · cases hpc : s.gen with
      | loop =>
          simp only [genStep, hpc] at hst
          cases hst
          simp [hears, hpc, GenPc.holds]
      | recv timeout => exact absurd ⟨rfl, by rw [hpc]; rfl⟩ hgen
      | handle r' resp' =>
          simp only [genStep, hpc] at hst
          cases hst
          cases r' <;> simp [hears, hpc, GenPc.holds]
      | done => simp [genStep, hpc] at hst
  · have hnone : hears s a = [] := by
      cases a with
      | gen r resp => exact absurd ⟨r, resp, rfl⟩ ha
      | _ => rfl
    rw [hnone, List.map_nil, List.nil_append]
    cases step_move hst with
    | prepared hinit => rfl
    | prepare hrel hinit => rw [h.2 hrel hinit]; rfl
    | release hmove => cases hmove <;> rfl
    | send hmove => cases hmove <;> rfl
    | gen hgen' => exact absurd ⟨_, _, rfl⟩ ha
    | client hquiet => rfl

end TtsImpl

/-- `TtsImpl` listens to its connection; sessions start clean. -/
def ttsListener : Listener ttsClient where
  ok := TtsImpl.CleanPrepare
  joined := TtsImpl.Joined
  holds s := s.gen.holds
  hears := TtsImpl.hears
  id := TtsResponse.id
  opened_joined := ⟨fun h => absurd rfl h, fun _ _ => rfl⟩
  opened_holds := rfl
  opened_controller := rfl
  ok_called := by
    rintro s a hprepare - rfl
    exact absurd rfl hprepare
  step_joined hst h := h.step hst
  taken := TtsImpl.holds_taken
  handled h hst hno := TtsImpl.holds_handled h hst hno
  quiet := by
    intro s a hrole
    cases a with
    | gen r resp => exact absurd rfl hrole
    | _ => rfl
  current := TtsImpl.hears_current
  works hst := ⟨_, TtsImpl.step_works hst⟩

namespace TtsImpl

/-- **From the socket to the client.**  In every run of `TtsImpl` with its connection, over any
    number of sessions, opened on clean objects: the responses that `gen_results` has handled, and the one it holds, are the
    messages `recv` has returned that could be parsed, and these are among those that the hub has
    reported while the stage was READY, in the same order.  What `poll` has returned for an
    operation that is neither cancelled nor failed is a part, from the front, of what those of
    them say that have its id and were handled while it was current, provided that they report no
    error and have no text without a voice; all of it when the operation has left `operations_`. -/
theorem tts_results_of_messages
    {u : Traced (Service TtsImpl) (Service.Sound TtsResponse)}
    (hrun : Run (Service.ListenSteps ttsListener)
      (Traced.Lift (Service.Parses ttsClient CleanPrepare parse)) ⟨Service.opened ttsClient, []⟩ u) :
    let s := u.state.client
    let mail := Service.mail u.trace
    let heard := Service.heard u.trace
    heard.map Prod.snd ++ s.gen.holds = (SpeechConnection.returned mail).filterMap parse ∧
      (SpeechConnection.returned mail).Sublist (SpeechConnection.arrivals mail) ∧
      ∀ a, s.epoch ≤ a → s.controller.Intact a →
        (∀ resp ∈ handled (addressed heard) a, resp.id = (s.controller.heap a).id) ∧
        (Voiced (handled (addressed heard) a) →
          polledFor s a <+: expected (s.controller.heap a).id (handled (addressed heard) a) ∧
          (s.initialized = true → a ∉ s.controller.operations →
            polledFor s a = expected (s.controller.heap a).id (handled (addressed heard) a))) := by
  obtain ⟨hheard, hsub, hid⟩ := Service.messages_heard hrun
  refine ⟨hheard, hsub, ?_⟩
  intro a hsession hint
  have hanswers : Run AnswerSteps (Traced.Lift CleanPrepare) ⟨{}, []⟩
      ⟨u.state.client, addressed (Service.heard u.trace)⟩ :=
    Traced.run_filterMap (fun e => e.1.map (·, e.2)) addressed_hears (Service.run_heard hrun)
  have h : Answered u.state.client (addressed (Service.heard u.trace)) := .run hanswers
  refine ⟨hid a, ?_⟩
  · intro hvoiced
    obtain ⟨rest, hsaid, hrest⟩ := h.told.served hsession hint fun _ _ => rfl
    rw [expected_eq hvoiced] at hsaid
    rw [hsaid]
    refine ⟨List.prefix_append _ _, fun hi hgone => ?_⟩
    rw [hrest hi, OpCtl.dues_of_notMem hgone, List.map_nil, List.append_nil]

/-- A message with an id that is not in use, and then voice data together with the end. -/
def spokenAnswer : List (ServiceAct TtsAct TtsResponse) :=
  let resp : TtsResponse := { id := 1, voice := some [7], text := none, finish := true }
  let receives (data : Bytes) : List (ServiceAct TtsAct TtsResponse) :=
    [.client (.gen .timeout resp), .conn (.hub (.message 0 { data := data, authResult := none })),
      Service.works, Service.works]
  requested 7200 ++ receives [8, 9, 16, 0] ++
    [.recv true { id := 9, voice := none, text := none, finish := false },
      .client (.gen .timeout resp)] ++
    receives [8, 1, 16, 0, 34, 1, 7, 40, 1] ++
    [.recv true resp, .client (.gen .timeout resp), .client .poll, .client .poll, .client .poll]

theorem tts_results_of_messages_spokenAnswer :
    ∃ u, Run (Service.ListenSteps ttsListener)
        (Traced.Lift (Service.Parses ttsClient CleanPrepare parse)) ⟨Service.opened ttsClient, []⟩ u ∧
      (SpeechConnection.arrivals (Service.mail u.trace)).length = 2 ∧
      polledFor u.state.client 0 =
        [bareResult 1 .start, { bareResult 1 .voice with voice := some [7] }, bareResult 1 .end_] ∧
      polledFor u.state.client 0 =
        expected 1 (handled (addressed (Service.heard u.trace)) 0) := by
  have hok : allOk (Traced.step (Service.step ttsClient) (Service.observe ttsListener))
      (Traced.Lift (Service.Parses ttsClient CleanPrepare parse)) ⟨Service.opened ttsClient, []⟩
      spokenAnswer = true := by
    decide +kernel
  refine ⟨_, Run.of_exec hok rfl, by decide +kernel, by decide +kernel, ?_⟩
  exact (((tts_results_of_messages (Run.of_exec hok rfl)).2.2 0 (by decide +kernel)
    (by decide +kernel)).2 (by decide +kernel)).2 (by decide +kernel) (by decide +kernel)

end TtsImpl

end OpenVoice
