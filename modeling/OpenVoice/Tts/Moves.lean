import OpenVoice.Tts.Invariant

/-!
# What the threads of `TtsImpl` can do next

Every step, sorted by the thread that takes it.  A client leaves the threads of the object alone
and works on the controller quietly.
-/

namespace OpenVoice

open OpenVoice.Lib

namespace TtsImpl

/-- `poll` leaves the threads alone, and of the operations it removes the one in front or none. -/
theorem poll_frame {s t : TtsImpl} {o : Option (Nat × TtsResult)} (h : s.poll = some (o, t)) :
    ∃ c q, t = { s with controller := c, responses := q } ∧
      (c = s.controller ∨ c = s.controller.removeFrontOp) := by
  unfold poll at h
  split at h
  · cases h
    exact ⟨_, _, rfl, .inl rfl⟩
  · simp only at h
    split at h
    · obtain ⟨q, -, heq⟩ := Option.bind_eq_some_iff.mp h
      cases heq
      exact ⟨_, _, rfl, .inr rfl⟩
    · split at h
      · obtain ⟨q, -, heq⟩ := Option.bind_eq_some_iff.mp h
        cases heq
        exact ⟨_, _, rfl, .inr rfl⟩
      · split at h
        · cases h
          exact ⟨_, _, rfl, .inl rfl⟩
        · split at h
          · obtain ⟨type, -, heq⟩ := Option.bind_eq_some_iff.mp h
            cases heq
            refine ⟨_, _, rfl, ?_⟩
            split
            · exact .inr rfl
            · exact .inl rfl
          · cases h

theorem poll_eq {s t : TtsImpl} {o : Option (Nat × TtsResult)} (h : s.poll = some (o, t)) :
    ∃ c q, t = { s with controller := c, responses := q } ∧ s.controller.Quiet c := by
  obtain ⟨c, q, ht, hc⟩ := poll_frame h
  refine ⟨c, q, ht, ?_⟩
  rcases hc with rfl | rfl
  · exact .refl _
  · exact .removeFrontOp _

/-- **What `release` can do next.** -/
inductive ReleaseMove (s : TtsImpl) : TtsImpl → Prop where
  | absent (hrel : s.releasing = .idle) (hinit : s.initialized = false) : ReleaseMove s s
  | enter (hrel : s.releasing = .idle) (hinit : s.initialized = true) :
      ReleaseMove s { s with initialized := false, releasing := .closing }
  | close (hrel : s.releasing = .closing) :
      ReleaseMove s { s with connClosed := true, requests := [], releasing := .joinReq }
  | joinReq (hrel : s.releasing = .joinReq) (hdone : s.send = .done) :
      ReleaseMove s { s with releasing := .closeResp }
  | closeResp (hrel : s.releasing = .closeResp) :
      ReleaseMove s { s with
        responses := s.responses.close
        controller := s.controller.finishOp
        respNotifies := s.respNotifies + 1
        releasing := .joinResp }
  | joinResp (hrel : s.releasing = .joinResp) (hdone : s.gen = .done) :
      ReleaseMove s { s with releasing := .idle }

theorem release_move {s t : TtsImpl} (h : s.release = some t) : ReleaseMove s t := by
  unfold release at h
  split at h
  · rename_i hrel
    split at h
    · rename_i hinit
      cases h
      exact .enter hrel hinit
    · rename_i hinit
      cases h
      exact .absent hrel (by simpa using hinit)
  · rename_i hrel
    cases h
    exact .close hrel
  · rename_i hrel
    split at h
    · rename_i hdone
      cases h
      exact .joinReq hrel hdone
    · cases h
  · rename_i hrel
    cases h
    exact .closeResp hrel
  · rename_i hrel
    split at h
    · rename_i hdone
      cases h
      exact .joinResp hrel hdone
    · cases h

/-- A step of `gen_results` works on the controller and the responses. -/
theorem genStep_spec {s t : TtsImpl} {r : ConnectionOpResult} {resp : TtsResponse}
    (h : s.genStep r resp = some t) :
    ∃ c q n pc, s.controller.Quiet c ∧
      t = { s with controller := c, responses := q, respNotifies := n, gen := pc } := by
  unfold genStep at h
  split at h
  · cases h
    exact ⟨_, _, _, _, .refl _, rfl⟩
  · split at h
    · split at h
      · cases h
        exact ⟨_, _, _, _, .refl _, rfl⟩
      · cases h
        exact ⟨_, _, _, _, .refl _, rfl⟩
    · cases h
  · rename_i r' resp' _
    have hsec := handleResult_section r' resp' s
    generalize s.handleResult r' resp' = u at h hsec
    cases h
    refine ⟨u.controller, u.responses, u.respNotifies, .loop, hsec.quiet, ?_⟩
    have heq := hsec.eq
    rw [heq]
  · cases h

/-- The send thread touches neither `initialized_` nor `release`, and it has not ended. -/
theorem SendMove.frame {s t : TtsImpl} {r : ConnectionOpResult} (h : SendMove s r t) :
    t.initialized = s.initialized ∧ t.releasing = s.releasing ∧ s.send ≠ .done := by
  cases h with
  | _ hpc => exact ⟨rfl, rfl, by simp [hpc]⟩

/-- **What a step can do**, by the thread that takes it. -/
inductive Move (s : TtsImpl) : TtsAct → TtsImpl → Prop where
  | prepared (hinit : s.initialized = true) : Move s .prepare s
  | prepare (hrel : s.releasing = .idle) (hinit : s.initialized = false) :
      Move s .prepare { s with
        nextId := 0
        connClosed := false
        initialized := true
        send := .loop
        gen := .loop
        respNotifies := 0
        sent := []
        spoken := []
        polled := []
        epoch := s.controller.fresh }
  | release {t : TtsImpl} (h : ReleaseMove s t) : Move s .release t
  | send {t : TtsImpl} {r : ConnectionOpResult} (h : SendMove s r t) : Move s (.send r) t
  | gen {t : TtsImpl} {r : ConnectionOpResult} {resp : TtsResponse}
      (h : s.genStep r resp = some t) : Move s (.gen r resp) t
  | client {a : TtsAct} {nextId : Int} {options : TtsOptionsHolder} {requests : List TtsReqInfo}
      {responses : Streams TtsResultIn Int} {controller : OpCtl TtsError} {now : Int}
      {clients : Nat → ClientPc} {n : Nat} {spoken : List Int} {polled : List (Nat × TtsResult)}
      {aborted : Bool} (hquiet : s.controller.Quiet controller) :
      Move s a { s with
        nextId := nextId
        options := options
        requests := requests
        responses := responses
        controller := controller
        now := now
        clients := clients
        respNotifies := n
        spoken := spoken
        polled := polled
        aborted := aborted }

theorem step_move {s t : TtsImpl} {a : TtsAct} (h : s.step a = some t) : Move s a t := by
  unfold step at h
  split at h
  · cases h
  · cases a with
    | prepare =>
        simp only at h
        split at h
        · rename_i hrel
          cases h
          unfold TtsImpl.prepare
          split
          · rename_i hinit
            exact .prepared hinit
          · rename_i hinit
            exact .prepare hrel (by simpa using hinit)
        · cases h
    | release => exact .release (release_move h)
    | call n pc =>
        simp only at h
        unfold TtsImpl.call at h
        split at h
        · split at h
          · cases h
            exact .client (.refl _)
          · cases h
            exact .client (.refl _)
        · cases h
          exact .client (.refl _)
        · cases h
    | client n =>
        simp only at h
        unfold TtsImpl.client at h
        split at h
        · simp only at h
          split at h
          · cases h
          · cases h
            exact .client (.refl _)
          · rename_i id hpc
            cases h
            obtain ⟨reqs, c, k, heq, -, hquiet, -⟩ :=
              cancel_spec id { s with clients := Function.update s.clients n .idle }
            rw [heq]
            exact .client hquiet
        · cases h
    | poll =>
        cases h
        unfold TtsImpl.pollStep
        split
        · split
          · exact .client (.refl _)
          · rename_i u hpoll
            obtain ⟨c, q, rfl, hquiet⟩ := poll_eq hpoll
            exact .client hquiet
          · rename_i r u hpoll
            obtain ⟨c, q, rfl, hquiet⟩ := poll_eq hpoll
            exact .client hquiet
        · exact .client (.refl _)
    | config mod =>
        cases h
        cases mod with
        | none => exact .client (.refl _)
        | some mod => exact .client (.refl _)
    | send r => exact .send (sendStep_move h)
    | gen r resp => exact .gen h
    | tick ns =>
        cases h
        exact .client (.refl _)

/-- A response that does not matter, for the runs of examples. -/
def noResp : TtsResponse := { id := 0, voice := none, text := none, finish := false }

/-- The last response for a request. -/
def finished (id : Int) : TtsResponse := { id := id, voice := none, text := none, finish := true }

/-- A request, from `speak` to the end of its operation. -/
def served (id : Int) : List TtsAct :=
  [.call 0 (.speak "a"), .client 0, .send .success, .send .success, .send .success,
    .send .success, .gen .success (finished id), .gen .success (finished id),
    .gen .success (finished id), .send .success, .send .success]

/-- `release`, the send thread being about to look for a request. -/
def closed : List TtsAct :=
  [.release, .release, .send .success, .release, .release, .gen .notReady (finished 0),
    .gen .notReady (finished 0), .release]

end TtsImpl

end OpenVoice
