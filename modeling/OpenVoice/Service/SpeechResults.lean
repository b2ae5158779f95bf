import OpenVoice.Nanopb.Responses
import OpenVoice.Service.Listening
import OpenVoice.Service.Speech
import OpenVoice.Speech.Fidelity

/-!
# From the bytes on the socket to the results of `Speech::poll`

A message goes through `onMessage`, `responses_` of the connection, `recv` with `ParseFromArray`,
`gen_results`, the streams in `responses_` of `SpeechImpl`, and `poll`.  Each part has been looked at
on its own; here they are put together.
-/

namespace OpenVoice

open OpenVoice.Lib

namespace SpeechImpl

variable {s t : SpeechImpl}

/-- What `gen_result_by_resp` gets of the response. -/
def response (g : Nanopb.SpeechResponse.Getters) : SpeechResponse :=
  { id := g.id.toInt, type := g.type.toInt, result := g.result, asr := stdString g.asr
    nlp := stdString g.nlp, action := stdString g.action, extra := stdString g.extra
    voiceTrigger := stdString g.voiceTrigger }

/-- `ParseFromArray`, with the object that is used again for every message. -/
def parse (data : Bytes) : Option SpeechResponse :=
  let d := Nanopb.SpeechResponse.new.parseFromArray data
  if d.1 then some (response d.2.getters) else none

theorem parse_eq (frames : List Bytes) (data : Bytes) :
    parse data =
      let d := (frames.foldl (fun r data => (Nanopb.SpeechResponse.parseFromArray r data).2)
        .new).parseFromArray data
      if d.1 then some (response d.2.getters) else none := by
  simp only [parse, Nanopb.SpeechResponse.parseFromArray_eq]

/-- The response that `gen_results` holds. -/
def GenPc.holds : GenPc → List SpeechResponse
  | .handle .success resp => [resp]
  | _ => []

/-- The response that a step of `gen_results` handles, and the operation it is for, if it is for the
    current one. -/
def hears (s : SpeechImpl) : SpeechAct → List (Option Nat × SpeechResponse)
  | .gen _ _ =>
      match s.gen with
      | .handle .success resp =>
          [(s.controller.currentOp.filter fun a => (s.controller.heap a).id = resp.id, resp)]
      | _ => []
  | _ => []

/-- `gen_results` is gone when `prepare` is called. -/
def Joined (s : SpeechImpl) : Prop :=
  (s.releasing ≠ .idle → s.initialized = false) ∧
    (s.releasing = .idle → s.initialized = false → s.gen = .done)

theorem hears_current {a : SpeechAct} {x : Nat} {resp : SpeechResponse}
    (h : (some x, resp) ∈ hears s a) :
    s.controller.currentOp = some x ∧ (s.controller.heap x).id = resp.id := by
  unfold hears at h
  split at h
  · split at h
    · rename_i resp' hgen
      rw [List.mem_singleton, Prod.mk.injEq] at h
      obtain ⟨hcur, rfl⟩ := h
      obtain ⟨hcur, hid⟩ := Option.filter_eq_some_iff.mp hcur.symm
      exact ⟨hcur, of_decide_eq_true hid⟩
    · cases h
  · cases h

theorem addressed_hears (s : SpeechImpl) (a : SpeechAct) : addressed (hears s a) = received s a := by
  cases a with
  | gen r resp =>
      unfold hears received
      cases hgen : s.gen with
      | handle r' resp' =>
          cases r' with
          | success =>
              cases hcur : s.controller.currentOp with
              | none => rfl
              | some x =>
                  by_cases hid : (s.controller.heap x).id = resp'.id
                  · simp [addressed, Option.filter_some, hid]
                  · simp [addressed, Option.filter_some, hid]
          | _ => rfl
      | _ => rfl
  | _ => rfl

theorem Joined.step (h : Joined s) {a : SpeechAct} (hst : s.step a = some t) : Joined t := by
  cases step_move hst with
  | prepared hinit => exact h
  | prepare hrel hinit => exact ⟨fun hne => absurd hrel hne, fun _ hi => by cases hi⟩
  | release hmove =>
      cases hmove with
      | absent hrel hinit => exact h
      | enter hrel hinit => exact ⟨fun _ => rfl, fun hr => by cases hr⟩
      | close hrel => exact ⟨fun _ => h.1 (by simp [hrel]), fun hr => by cases hr⟩
      | setError hrel => exact ⟨fun _ => h.1 (by simp [hrel]), fun hr => by cases hr⟩
      | joinReq hrel hdone => exact ⟨fun _ => h.1 (by simp [hrel]), fun hr => by cases hr⟩
      | closeResp hrel hfree => exact ⟨fun _ => h.1 (by simp [hrel]), fun hr => by cases hr⟩
      | joinResp hrel hdone => exact ⟨fun hr => absurd rfl hr, fun _ _ => hdone⟩
  | send hmove => cases hmove <;> exact h
  | gen hgen =>
      obtain ⟨c, q, v, k, pc, -, -, rfl⟩ := genStep_spec hgen
      refine ⟨h.1, fun hr hi => ?_⟩
      have hdone : s.gen = .done := h.2 hr hi
      rw [genStep, hdone] at hgen
      cases hgen
  | client hquiet => exact h

theorem holds_taken {r : ConnectionOpResult} {resp : SpeechResponse}
    (hst : s.step (.gen r resp) = some t) (hrecv : s.gen.receives = true) :
    s.gen.holds = [] ∧ t.gen.holds = (if r = .success then [resp] else []) ∧
      hears s (.gen r resp) = [] := by
  unfold SpeechImpl.step at hst
  split at hst
  · cases hst
  · cases hgen : s.gen with
    | recv timeout =>
        refine ⟨rfl, ?_, by simp [hears, hgen]⟩
        simp only [genStep, hgen] at hst
        split at hst
        · split at hst
          · rename_i hr
            cases hst
            subst hr
            rfl
          · cases hst
            cases r <;> rfl
        · cases hst
    | loop => simp [hgen, GenPc.receives] at hrecv
    | handle r' resp' => simp [hgen, GenPc.receives] at hrecv
    | eraseReq id => simp [hgen, GenPc.receives] at hrecv
    | done => simp [hgen, GenPc.receives] at hrecv

theorem holds_handled (h : Joined s) {a : SpeechAct} (hst : s.step a = some t)
    (hgen : ¬ (role a = .gen ∧ s.gen.receives = true)) :
    s.gen.holds = (hears s a).map Prod.snd ++ t.gen.holds := by
  by_cases ha : ∃ r resp, a = .gen r resp
  · obtain ⟨r, resp, rfl⟩ := ha
    unfold SpeechImpl.step at hst
    split at hst
    · cases hst
    · cases hpc : s.gen with
      | loop =>
          simp only [genStep, hpc] at hst
          split at hst
          · cases hst
            simp [hears, hpc, GenPc.holds]
          · cases hst
      | recv timeout => exact absurd ⟨rfl, by rw [hpc]; rfl⟩ hgen
      | handle r' resp' =>
          simp only [genStep, hpc] at hst
          split at hst
          · split at hst
            · cases hst
              cases r' <;> simp [hears, hpc, GenPc.holds]
            · cases hst
              cases r' <;> simp [hears, hpc, GenPc.holds]
          · cases hst
      | eraseReq id =>
          simp only [genStep, hpc] at hst
          split at hst
          · cases hst
            simp [hears, hpc, GenPc.holds]
          · cases hst
      | done => simp [genStep, hpc] at hst
  · have hnone : hears s a = [] := by
      cases a with
      | gen r resp => exact absurd ⟨r, resp, rfl⟩ ha
      | _ => rfl
    rw [hnone, List.map_nil, List.nil_append]
    cases step_move hst with
    | prepared hinit => rfl
    | prepare hrel hinit => rw [h.2 hrel hinit]; rfl
    | release hmove => cases hmove <;> rfl
    | send hmove => cases hmove <;> rfl
    | gen hgen' => exact absurd ⟨_, _, rfl⟩ ha
    | client hquiet => rfl

end SpeechImpl

/-- `SpeechImpl` listens to its connection; sessions start clean. -/
def speechListener : Listener speechClient where
  ok := SpeechImpl.Orderly
  joined := SpeechImpl.Joined
  holds s := s.gen.holds
  hears := SpeechImpl.hears
  id := SpeechResponse.id
  opened_joined := ⟨fun h => absurd rfl h, fun _ _ => rfl⟩
  opened_holds := rfl
  opened_controller := rfl
  ok_called := by
    intro s a hprepare hother
    refine ⟨?_, ?_⟩
    · rintro rfl
      exact absurd rfl hprepare
    · cases a with
      | client n => exact absurd rfl hother
      | _ => rfl
  step_joined hst h := h.step hst
  taken := SpeechImpl.holds_taken
  handled h hst hno := SpeechImpl.holds_handled h hst hno
  quiet := by
    intro s a hrole
    cases a with
    | gen r resp => exact absurd rfl hrole
    | _ => rfl
  current := SpeechImpl.hears_current
  works hst := ⟨_, SpeechImpl.step_works hst⟩

namespace SpeechImpl

/-- **From the socket to the client.**  In every run of `SpeechImpl` with its connection, over any
    number of sessions, opened on clean objects, in which `++next_id_` is not interrupted: the
    responses that `gen_results` has handled, and the one it holds, are the
    messages `recv` has returned that could be parsed, and these are among those that the hub has
    reported while the stage was READY, in the same order.  What `poll` has returned for an
    operation that is neither cancelled nor failed is a part, from the front, of what those of
    them say that have its id and were handled while it was current, provided that they report no
    error; all of it when the operation has left `operations_`. -/
theorem speech_results_of_messages
    {u : Traced (Service SpeechImpl) (Service.Sound SpeechResponse)}
    (hrun : Run (Service.ListenSteps speechListener)
      (Traced.Lift (Service.Parses speechClient Orderly parse)) ⟨Service.opened speechClient, []⟩ u) :
    let s := u.state.client
    let mail := Service.mail u.trace
    let heard := Service.heard u.trace
    heard.map Prod.snd ++ s.gen.holds = (SpeechConnection.returned mail).filterMap parse ∧
      (SpeechConnection.returned mail).Sublist (SpeechConnection.arrivals mail) ∧
      ∀ a, s.epoch ≤ a → s.controller.Intact a →
        (∀ resp ∈ handled (addressed heard) a, resp.id = (s.controller.heap a).id) ∧
        (Succeeds (handled (addressed heard) a) →
          polledFor s.log a <+: expected (s.controller.heap a).id (handled (addressed heard) a) ∧
          (s.initialized = true → a ∉ s.controller.operations →
            polledFor s.log a = expected (s.controller.heap a).id (handled (addressed heard) a))) := by
  obtain ⟨hheard, hsub, hid⟩ := Service.messages_heard hrun
  refine ⟨hheard, hsub, ?_⟩
  intro a hsession hint
  have hanswers : Run AnswerSteps (Traced.Lift Orderly) ⟨{}, []⟩
      ⟨u.state.client, addressed (Service.heard u.trace)⟩ :=
    Traced.run_filterMap (fun e => e.1.map (·, e.2)) addressed_hears (Service.run_heard hrun)
  have h : Answered u.state.client (addressed (Service.heard u.trace)) := .run hanswers
  refine ⟨hid a, ?_⟩
  · intro hok
    obtain ⟨rest, hsaid, hrest⟩ := h.told.served hsession hint hok.failure
    rw [expected_eq] at hsaid
    rw [hsaid]
    refine ⟨List.prefix_append _ _, fun hi hgone => ?_⟩
    rw [hrest hi, OpCtl.dues_of_notMem hgone, List.map_nil, List.append_nil]

/-- The first session. -/
theorem listen_session (options : PrepareOptions) (as : List (ServiceAct SpeechAct SpeechResponse))
    {u v : Traced (Service SpeechImpl) (Service.Sound SpeechResponse)}
    (hst : Service.ListenSteps speechListener ⟨Service.opened speechClient, []⟩ (.prepare options) v)
    (hok : allOk (Traced.step (Service.step speechClient) (Service.observe speechListener))
      (Traced.Lift (Service.Parses speechClient OneSession parse)) v as = true)
    (h : exec (Traced.step (Service.step speechClient) (Service.observe speechListener)) v as =
      some u) :
    Run (Service.ListenSteps speechListener)
      (Traced.Lift (Service.Parses speechClient Orderly parse)) ⟨Service.opened speechClient, []⟩
      u := by
  have hclean : Service.Parses speechClient Orderly parse (Service.opened speechClient)
      (.prepare options) := ⟨fun _ _ => ⟨rfl, rfl, rfl, fun _ => rfl⟩, rfl⟩
  have hprepare : Run (Service.ListenSteps speechListener)
      (Traced.Lift (Service.Parses speechClient Orderly parse))
      ⟨Service.opened speechClient, []⟩ v := .snoc (.refl _) hclean hst
  exact hprepare.trans ((Run.of_exec hok h).mono fun _ _ hparses =>
    Service.Parses.mono (fun _ _ hone => OneSession.orderly hone) hparses)

/-- A text, answered with an intermediate result and the last response. -/
def spokenText : List (ServiceAct SpeechAct SpeechResponse) :=
  let first : SpeechResponse := { id := 1, type := respIntermediate, result := 0, asr := "a" }
  let last : SpeechResponse := { id := 1, type := respFinish, result := 0, nlp := "b" }
  let receives (data : Bytes) : List (ServiceAct SpeechAct SpeechResponse) :=
    [.client (.gen .timeout last), .conn (.hub (.message 0 { data := data, authResult := none })),
      Service.works, Service.works]
  (requested 7200).tail ++ receives [8, 1, 16, 0, 24, 0, 34, 1, 97] ++
    [.recv true first, .client (.gen .timeout last)] ++
    receives [8, 1, 16, 2, 24, 0, 42, 1, 98] ++
    [.recv true last, .client (.gen .timeout last), .client (.gen .timeout last), .client .poll,
      .client .poll, .client .poll]

theorem speech_results_of_messages_spokenText :
    ∃ v u, Service.ListenSteps speechListener ⟨Service.opened speechClient, []⟩
        (.prepare (Service.options 7200)) v ∧
      exec (Traced.step (Service.step speechClient) (Service.observe speechListener)) v spokenText =
        some u ∧
      (polledFor u.state.client.log 0).map (fun r => (r.asr, r.nlp)) =
        [("", ""), ("a", ""), ("", "b")] ∧
      polledFor u.state.client.log 0 =
        expected 1 (handled (addressed (Service.heard u.trace)) 0) := by
  refine ⟨_, _, rfl, rfl, by decide +kernel, ?_⟩
  have hrun := listen_session (Service.options 7200) spokenText rfl (by decide +kernel)
    rfl
  exact ((speech_results_of_messages hrun).2.2 0 (by decide +kernel)
    (by decide +kernel)).2 (by decide +kernel) |>.2 (by decide +kernel) (by decide +kernel)

end SpeechImpl

end OpenVoice
