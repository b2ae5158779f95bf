import OpenVoice.Speech.Sections

/-!
# What the threads of `SpeechImpl` can do next

For the send thread and for a client in a call: the state the next step leads to, with everything
that must hold for it.
-/

namespace OpenVoice

namespace SpeechImpl

/-- The id a client has taken and not queued yet. -/
def ClientPc.held : ClientPc → Option Int
  | .pushText _ _ id => some id
  | _ => none

/-! ### `send_reqs` -/

/-- An operation is created for these requests when `do_ctl_change_op` handles them. -/
def opens : SpeechReqType → Bool
  | .text | .voiceStart => true
  | .voiceEnd | .cancelled | .voiceData => false

/-- What `send_reqs` makes of a pop from `voice_reqs_`. -/
def reqtype : PopType → SpeechReqType
  | .start => .voiceStart
  | .removed => .cancelled
  | .end_ | .error => .voiceEnd
  | .data | .empty => .voiceData

/-- **What the send thread can do next.** -/
inductive SendMove (s : SpeechImpl) (r : ConnectionOpResult) : SpeechImpl → Prop where
  | exit (hpc : s.send = .loop) (hinit : s.initialized = false) :
      SendMove s r { s with send := .done }
  | takeVoice {info : SpeechReqInfo} {t : PopType} {q : Streams Bytes VoiceOptions}
      (hpc : s.send = .loop) (hinit : s.initialized = true)
      (hpop : Popped info.id s.voiceReqs.keys q.keys t) (htype : info.type = reqtype t) :
      SendMove s r { s with voiceReqs := q, send := .doCtl info }
  | sleep {q : Streams Bytes VoiceOptions} (hpc : s.send = .loop) (hinit : s.initialized = true)
      (hq : q.keys = s.voiceReqs.keys) :
      SendMove s r { s with voiceReqs := q, send := .waitReq }
  | seeText {q : Streams Bytes VoiceOptions} (hpc : s.send = .loop) (hinit : s.initialized = true)
      (hq : q.keys = s.voiceReqs.keys) :
      SendMove s r { s with voiceReqs := q, send := .textCheck }
  | wake (hpc : s.send = .waitReq) : SendMove s r { s with send := .loop }
  | look (hpc : s.send = .textCheck) :
      SendMove s r { s with send := .textTake s.controller.currentOp }
  | busy {a : Nat} (hpc : s.send = .textTake (some a)) : SendMove s r { s with send := .waitReq }
  | crash (hpc : s.send = .textTake none) (htext : s.textReqs = []) :
      SendMove s r { s with crashed := true }
  | takeText {info : SpeechReqInfo} {texts : List SpeechReqInfo} (hpc : s.send = .textTake none)
      (htext : s.textReqs = info :: texts) :
      SendMove s r { s with textReqs := texts, send := .doCtl info }
  | enter {info : SpeechReqInfo} (hpc : s.send = .doCtl info) :
      SendMove s r { s with send := .changeOp info s.controller.currentOp }
  | abort {info : SpeechReqInfo} {a : Nat} (hpc : s.send = .changeOp info (some a))
      (htype : opens info.type = true) : SendMove s r { s with aborted := true }
  | create {info : SpeechReqInfo} (hpc : s.send = .changeOp info none)
      (htype : opens info.type = true) :
      SendMove s r { s with
        controller := s.controller.newOp s.now info.id .start
        created := s.created ++ [info.id]
        send := .request info }
  | proceed {info : SpeechReqInfo} {a : Nat} (hpc : s.send = .changeOp info (some a))
      (htype : info.type = .voiceEnd ∨ info.type = .voiceData) :
      SendMove s r { s with send := .request info }
  | cancelCurrent {info : SpeechReqInfo} {a : Nat} (hpc : s.send = .changeOp info (some a))
      (htype : info.type = .cancelled) :
      SendMove s r { s with
        controller := (s.controller.setStatus a .cancelled).clearCurrentOp
        respNotifies := s.respNotifies + 1
        send := .request info }
  | createCancelled {info : SpeechReqInfo} (hpc : s.send = .changeOp info none)
      (htype : info.type = .cancelled) :
      SendMove s r { s with
        controller := s.controller.newOp s.now info.id .cancelled
        created := s.created ++ [info.id]
        respNotifies := s.respNotifies + 1
        send := .loop }
  | drop {info : SpeechReqInfo} (hpc : s.send = .changeOp info none)
      (htype : info.type = .voiceEnd ∨ info.type = .voiceData) :
      SendMove s r { s with send := .loop }
  | build {info : SpeechReqInfo} (hpc : s.send = .request info) :
      SendMove s r { s with send := .sending info (info.treq s.options) }
  | fail {info : SpeechReqInfo} {treq : SpeechRequest} (hpc : s.send = .sending info treq)
      (hr : r ≠ .success) : SendMove s r { s with send := .sendFailed info (sendError r) }
  | available {info : SpeechReqInfo} {treq : SpeechRequest} (hpc : s.send = .sending info treq)
      (hr : r = .success) (hopen : s.connClosed = false) :
      SendMove s r { s with send := .writing info treq }
  | write {info : SpeechReqInfo} {treq : SpeechRequest} (hpc : s.send = .writing info treq) :
      SendMove s r { s with sent := s.sent ++ [treq], send := .sent info }
  | setError {info : SpeechReqInfo} {err : SpeechError} (hpc : s.send = .sendFailed info err) :
      SendMove s r { s with
        controller := s.controller.setOpError err
        respNotifies := s.respNotifies + 1
        send := .eraseReq info.id }
  | erase {id : Int} {q : Streams Bytes VoiceOptions} (hpc : s.send = .eraseReq id)
      (hq : q.keys = s.voiceReqs.keys) : SendMove s r { s with voiceReqs := q, send := .loop }
  | refresh {info : SpeechReqInfo} (hpc : s.send = .sent info) :
      SendMove s r { s with
        controller := s.controller.refreshOpTime s.now false
        send := if info.type.isLast then .waitOp info.id else .loop }
  | test {id : Int} (hpc : s.send = .waitOp id) (hwait : s.controller.mustWait id = true) :
      SendMove s r { s with send := .parking id }
  | skip {id : Int} (hpc : s.send = .waitOp id) (hwait : s.controller.mustWait id = false) :
      SendMove s r { s with send := .loop }
  | park {id : Int} (hpc : s.send = .parking id) :
      SendMove s r { s with
        controller := { s.controller with opWaiting := true }, send := .blocked id }
  | awake {id : Int} (hpc : s.send = .blocked id) (hwait : s.controller.opWaiting = false) :
      SendMove s r { s with send := .loop }

theorem takeReq_move {s : SpeechImpl} {r : ConnectionOpResult} (hpc : s.send = .loop) :
    SendMove s r s.takeReq := by
  unfold takeReq
  split
  · rename_i hinit
    exact .exit hpc (by simpa using hinit)
  · rename_i hinit
    have hinit' : s.initialized = true := by simpa using hinit
    simp only
    rcases s.voiceReqs.pop_keys voiceArgs with ⟨ht, hks⟩ | hpop
    · rw [ht]
      simp only [PopType.toInt, Int.reduceNeg, Int.reduceLE, if_false]
      split
      · exact .sleep hpc hinit' hks
      · exact .seeText hpc hinit' hks
    · -- every pop result but `POP_TYPE_EMPTY` has an entry in the table
      generalize ht : (s.voiceReqs.pop voiceArgs).1.1 = t at hpop
      have htype : 0 ≤ t.toInt ∧ sqtypeToReqtype t.toInt = some (reqtype t) := by
        cases hpop with
        | start => exact ⟨by decide, rfl⟩
        | data => exact ⟨by decide, rfl⟩
        | end_ => exact ⟨by decide, rfl⟩
        | removed => exact ⟨by decide, rfl⟩
        | error => exact ⟨by decide, rfl⟩
      rw [if_pos htype.1, htype.2]
      exact .takeVoice hpc hinit' hpop rfl

theorem takeText_move {s : SpeechImpl} {r : ConnectionOpResult} {op : Option Nat}
    (hpc : s.send = .textTake op) : SendMove s r (s.takeText op) := by
  unfold takeText
  cases op with
  | some a => exact .busy hpc
  | none =>
      simp only [Option.isSome_none, Bool.false_eq_true, if_false]
      split
      · rename_i htext
        exact .crash hpc htext
      · rename_i info texts htext
        exact .takeText hpc htext

theorem changeOp_move {s : SpeechImpl} {r : ConnectionOpResult} {info : SpeechReqInfo}
    {op : Option Nat} (hpc : s.send = .changeOp info op) : SendMove s r (s.changeOp info op) := by
  unfold changeOp
  split
  · rename_i htype
    exact .create hpc (by rw [htype]; rfl)
  · rename_i htype
    exact .create hpc (by rw [htype]; rfl)
  · rename_i htype
    exact .abort hpc (by rw [htype]; rfl)
  · rename_i htype
    exact .abort hpc (by rw [htype]; rfl)
  · rename_i htype
    exact .proceed hpc (.inl htype)
  · rename_i htype
    exact .proceed hpc (.inr htype)
  · rename_i htype
    exact .cancelCurrent hpc htype
  · rename_i htype
    exact .createCancelled hpc htype
  · rename_i htype
    exact .drop hpc (.inl htype)
  · rename_i htype
    exact .drop hpc (.inr htype)

theorem sendStep_move {s t : SpeechImpl} {r : ConnectionOpResult} (h : s.sendStep r = some t) :
    SendMove s r t := by
  unfold sendStep at h
  split at h
  · rename_i hpc
    split at h
    · cases h
      exact takeReq_move hpc
    · cases h
  · rename_i hpc
    cases h
    exact .wake hpc
  · rename_i hpc
    cases h
    exact .look hpc
  · rename_i op hpc
    split at h
    · cases h
      exact takeText_move hpc
    · cases h
  · rename_i info hpc
    cases h
    exact .enter hpc
  · rename_i info op hpc
    cases h
    exact changeOp_move hpc
  · rename_i info hpc
    cases h
    exact .build hpc
  · rename_i info treq hpc
    split at h
    · rename_i hr
      cases h
      exact .fail hpc hr
    · rename_i hr
      split at h
      · cases h
      · rename_i hopen
        cases h
        exact .available hpc (by simpa using hr) (by simpa using hopen)
  · rename_i info treq hpc
    cases h
    exact .write hpc
  · rename_i info err hpc
    cases h
    exact .setError hpc
  · rename_i id hpc
    split at h
    · cases h
      exact .erase hpc (Streams.erase_keys _ _ _)
    · cases h
  · rename_i info hpc
    cases h
    exact .refresh hpc
  · rename_i id hpc
    split at h
    · rename_i hwait
      cases h
      exact .test hpc hwait
    · rename_i hwait
      cases h
      exact .skip hpc (by simpa using hwait)
  · rename_i id hpc
    cases h
    exact .park hpc
  · rename_i id hpc
    split at h
    · cases h
    · rename_i hwait
      cases h
      exact .awake hpc (by simpa using hwait)
  · cases h

/-! ### Clients -/

/-- **What a call does before it takes a lock.** -/
inductive CallMove (s : SpeechImpl) (n : Nat) : SpeechImpl → Prop where
  | stay : CallMove s n s
  | enter {pc : ClientPc} (hidle : s.clients n = .idle) (hheld : pc.held = none)
      (hpc : ∀ id, pc ≠ .cancelOp id) : CallMove s n (s.setClient n pc)
  | cancel (id : Int) (hidle : s.clients n = .idle) :
      CallMove s n ((s.setClient n (.cancel id)).record (.cancelCall n id))

theorem call_move {s t : SpeechImpl} {n : Nat} {c : SpeechCall} (h : s.call n c = some t) :
    CallMove s n t := by
  unfold call at h
  split at h
  · cases h
  · rename_i hidle
    have hidle' : s.clients n = .idle := by simpa using hidle
    split at h
    · cases h
      exact .stay
    · split at h
      · cases h
        exact .enter hidle' rfl (by simp)
      · cases h
        exact .stay
    · split at h
      · cases h
        exact .enter hidle' rfl (by simp)
      · cases h
        exact .stay
    · cases h
      exact .stay
    · split at h
      · cases h
        exact .enter hidle' rfl (by simp)
      · cases h
        exact .stay
    · split at h
      · cases h
        exact .enter hidle' rfl (by simp)
      · cases h
        exact .stay
    · cases h
      exact .cancel _ hidle'

/-- **What a client in a call can do next.** -/
inductive ClientMove (s : SpeechImpl) (n : Nat) : SpeechImpl → Prop where
  | load {text : Bytes} {options : Sp VoiceOptions} (hpc : s.clients n = .loadId text options) :
      ClientMove s n (s.setClient n (.storeId text options s.nextId))
  | store {text : Bytes} {options : Sp VoiceOptions} {loaded : Int}
      (hpc : s.clients n = .storeId text options loaded) :
      ClientMove s n
        { s.setClient n (.pushText text options (loaded + 1)) with nextId := loaded + 1 }
  | push {text : Bytes} {options : Sp VoiceOptions} {id : Int} {p : SpeechReqInfo}
      (hpc : s.clients n = .pushText text options id) (hp : p.id = id) (htype : p.type = .text) :
      ClientMove s n { s.setClient n .idle with
        textReqs := s.textReqs ++ [p], log := s.log ++ [.putText id] }
  | lock {options : Sp VoiceOptions} (hpc : s.clients n = .startVoice options) :
      ClientMove s n { s.setClient n (.storeVoice options s.nextId) with holder := some n }
  | start {options : Sp VoiceOptions} {loaded : Int} {q : Streams Bytes VoiceOptions}
      (hpc : s.clients n = .storeVoice options loaded)
      (hq : q.keys = s.voiceReqs.keys ++ [(loaded + 1, false)]) :
      ClientMove s n { s.setClient n .idle with
        holder := none
        nextId := loaded + 1
        voiceReqs := q
        log := s.log ++ [.startVoice (loaded + 1)] }
  | startFailed {options : Sp VoiceOptions} {loaded : Int} {q : Streams Bytes VoiceOptions}
      (hpc : s.clients n = .storeVoice options loaded) (hq : q.keys = s.voiceReqs.keys) :
      ClientMove s n { s.setClient n .idle with
        holder := none, nextId := loaded + 1, voiceReqs := q }
  | voice {q : Streams Bytes VoiceOptions}
      (hpc : (∃ id voice, s.clients n = .putVoice id voice) ∨ ∃ id, s.clients n = .endVoice id)
      (hq : q.keys = s.voiceReqs.keys) :
      ClientMove s n { s.setClient n .idle with voiceReqs := q }
  | cancelReq {id : Int} {q : Streams Bytes VoiceOptions} {texts : List SpeechReqInfo}
      {more : Bool} {pc : ClientPc} {e : List SpeechEvent} (hpc : s.clients n = .cancel id)
      (hreq : (s.setClient n .idle).cancelReq id =
        (more, { s.setClient n .idle with voiceReqs := q, textReqs := texts }))
      (hq : q.keys = s.voiceReqs.keys) (htext : texts.map (·.id) = s.textReqs.map (·.id))
      (htype : ∀ p ∈ texts, p.type = .cancelled ∨ p ∈ s.textReqs)
      (hmore : more = true ∧ pc = .cancelOp id ∧ e = [] ∨
        more = false ∧ pc = .idle ∧ e = [.cancelRet n id]) :
      ClientMove s n { s.setClient n pc with
        voiceReqs := q, textReqs := texts, log := s.log ++ e }
  | cancelOp {id : Int} {k : Nat} (hpc : s.clients n = .cancelOp id) :
      ClientMove s n { s.setClient n .idle with
        controller := (s.controller.cancelOp (if 0 < id then id else 0)).2
        respNotifies := k
        log := s.log ++ [.cancelRet n id] }

theorem client_move {s t : SpeechImpl} {n : Nat} (h : s.client n = some t) : ClientMove s n t := by
  unfold client at h
  simp only at h
  split at h
  · cases h
  · rename_i text options hpc
    cases h
    exact .load hpc
  · rename_i text options loaded hpc
    cases h
    exact .store hpc
  · rename_i text options id hpc
    split at h
    · cases h
      exact .push hpc rfl rfl
    · cases h
  · rename_i options hpc
    split at h
    · cases h
      exact .lock hpc
    · cases h
  · rename_i options loaded hpc
    obtain ⟨o, q, heq, hcase⟩ :=
      startVoice_spec options loaded ((s.setClient n .idle).setHolder none)
    rw [heq] at h
    rcases hcase with ⟨rfl, hq⟩ | ⟨rfl, hq⟩
    · cases h
      exact .startFailed hpc hq
    · cases h
      exact .start hpc hq
  · rename_i id voice hpc
    split at h
    · obtain ⟨q, rfl, hq⟩ := putVoice_spec h
      exact .voice (.inl ⟨id, voice, hpc⟩) hq
    · cases h
  · rename_i id hpc
    split at h
    · cases h
      exact .voice (.inr ⟨id, hpc⟩) (Streams.end_keys _ _ _)
    · cases h
  · rename_i id hpc
    split at h
    · obtain ⟨q, texts, heq, hq, htext, htype⟩ := cancelReq_spec id (s.setClient n .idle)
      split at h
      · rename_i s' hreq
        rw [hreq] at heq
        simp only at heq
        rw [heq] at h hreq
        cases h
        have hmove := ClientMove.cancelReq hpc hreq hq htext htype (.inl ⟨rfl, rfl, rfl⟩)
        simpa [setClient] using hmove
      · rename_i s' hreq
        rw [hreq] at heq
        simp only at heq
        rw [heq] at h hreq
        cases h
        exact .cancelReq hpc hreq hq htext htype (.inr ⟨rfl, rfl, rfl⟩)
    · cases h
  · rename_i id hpc
    split at h
    · cases h
      obtain ⟨k, heq⟩ := cancelOp_spec id (s.setClient n .idle)
      rw [heq]
      exact .cancelOp hpc
    · cases h

/-! ### `gen_results` -/

/-- A step of `gen_results` works on the controller, the responses and the marks of the voice
    requests. -/
theorem genStep_spec {s t : SpeechImpl} {r : ConnectionOpResult} {resp : SpeechResponse}
    (h : s.genStep r resp = some t) :
    ∃ c q v k pc, s.controller.Quiet c ∧ v.keys = s.voiceReqs.keys ∧
      t = { s with
        controller := c, responses := q, voiceReqs := v, respNotifies := k, gen := pc } := by
  unfold genStep at h
  split at h
  · split at h
    · cases h
      exact ⟨_, _, _, _, _, .refl _, rfl, rfl⟩
    · cases h
  · split at h
    · split at h
      · cases h
        exact ⟨_, _, _, _, _, .refl _, rfl, rfl⟩
      · cases h
        exact ⟨_, _, _, _, _, .refl _, rfl, rfl⟩
    · cases h
  · rename_i r' resp' _
    split at h
    · have hsec := handleResult_section r' resp' s
      split at h
      · rename_i id u hres
        rw [hres] at hsec
        cases h
        refine ⟨u.controller, u.responses, s.voiceReqs, u.respNotifies, .eraseReq id, hsec.quiet,
          rfl, ?_⟩
        have heq := hsec.eq
        simp only at heq
        rw [heq]
      · rename_i u hres
        rw [hres] at hsec
        cases h
        refine ⟨u.controller, u.responses, s.voiceReqs, u.respNotifies, .loop, hsec.quiet,
          rfl, ?_⟩
        have heq := hsec.eq
        simp only at heq
        rw [heq]
    · cases h
  · split at h
    · cases h
      exact ⟨_, _, _, _, _, .refl _, Streams.erase_keys _ _ _, rfl⟩
    · cases h
  · cases h

/-! ### Every step -/

/-- `poll` leaves the threads alone, and of the operations it removes the one in front or none. -/
theorem poll_frame {s t : SpeechImpl} {o : Option (Nat × SpeechResult)} (h : s.poll = some (o, t)) :
    ∃ c q, t = { s with controller := c, responses := q } ∧
      (c = s.controller ∨ c = s.controller.removeFrontOp) := by
  unfold poll at h
  split at h
  · cases h
    exact ⟨_, _, rfl, .inl rfl⟩
  · simp only at h
    split at h
    · obtain ⟨q, -, heq⟩ := Option.bind_eq_some_iff.mp h
      cases heq
      exact ⟨_, _, rfl, .inr rfl⟩
    · split at h
      · obtain ⟨q, -, heq⟩ := Option.bind_eq_some_iff.mp h
        cases heq
        exact ⟨_, _, rfl, .inr rfl⟩
      · split at h
        · cases h
          exact ⟨_, _, rfl, .inl rfl⟩
        · split at h
          · obtain ⟨type, -, heq⟩ := Option.bind_eq_some_iff.mp h
            cases heq
            refine ⟨_, _, rfl, ?_⟩
            split
            · exact .inr rfl
            · exact .inl rfl
          · cases h

theorem poll_eq {s t : SpeechImpl} {o : Option (Nat × SpeechResult)} (h : s.poll = some (o, t)) :
    ∃ c q, t = { s with controller := c, responses := q } ∧ s.controller.Quiet c := by
  obtain ⟨c, q, ht, hc⟩ := poll_frame h
  refine ⟨c, q, ht, ?_⟩
  rcases hc with rfl | rfl
  · exact .refl _
  · exact .removeFrontOp _

/-- **What `release` can do next.** -/
inductive ReleaseMove (s : SpeechImpl) : SpeechImpl → Prop where
  | absent (hrel : s.releasing = .idle) (hinit : s.initialized = false) : ReleaseMove s s
  | enter (hrel : s.releasing = .idle) (hinit : s.initialized = true) :
      ReleaseMove s { s with initialized := false, releasing := .closing }
  | close (hrel : s.releasing = .closing) :
      ReleaseMove s { s with
        connClosed := true
        voiceReqs := s.voiceReqs.close
        textReqs := []
        releasing := .setError }
  | setError (hrel : s.releasing = .setError) :
      ReleaseMove s { s with
        controller := s.controller.setOpError SpeechError.sdkClosed, releasing := .joinReq }
  | joinReq (hrel : s.releasing = .joinReq) (hdone : s.send = .done) :
      ReleaseMove s { s with releasing := .closeResp }
  | closeResp (hrel : s.releasing = .closeResp) (hfree : s.respFree = true) :
      ReleaseMove s { s with
        responses := s.responses.close
        controller := s.controller.finishOp
        respNotifies := s.respNotifies + 1
        releasing := .joinResp }
  | joinResp (hrel : s.releasing = .joinResp) (hdone : s.gen = .done) :
      ReleaseMove s { s with releasing := .idle }

theorem release_move {s t : SpeechImpl} (h : s.release = some t) : ReleaseMove s t := by
  unfold release at h
  split at h
  · rename_i hrel
    split at h
    · split at h
      · rename_i hinit
        cases h
        exact .enter hrel hinit
      · rename_i hinit
        cases h
        exact .absent hrel (by simpa using hinit)
    · cases h
  · rename_i hrel
    cases h
    exact .close hrel
  · rename_i hrel
    cases h
    exact .setError hrel
  · rename_i hrel
    split at h
    · rename_i hdone
      cases h
      exact .joinReq hrel hdone
    · cases h
  · rename_i hrel
    split at h
    · rename_i hfree
      cases h
      exact .closeResp hrel hfree
    · cases h
  · rename_i hrel
    split at h
    · rename_i hdone
      cases h
      exact .joinResp hrel hdone
    · cases h

/-- **What a step can do**, by the thread that takes it.  A client works on the controller quietly
    adds voice streams behind those that are there, and queues or cancels text requests. -/
inductive Move (s : SpeechImpl) : SpeechAct → SpeechImpl → Prop where
  | prepared (hinit : s.initialized = true) : Move s .prepare s
  | prepare (hrel : s.releasing = .idle) (hinit : s.initialized = false) :
      Move s .prepare { s with
        nextId := 0
        connClosed := false
        initialized := true
        send := .loop
        gen := .loop
        respNotifies := 0
        sent := []
        created := []
        log := []
        epoch := s.controller.fresh }
  | release {t : SpeechImpl} (h : ReleaseMove s t) : Move s .release t
  | send {t : SpeechImpl} {r : ConnectionOpResult} (h : SendMove s r t) : Move s (.send r) t
  | gen {t : SpeechImpl} {r : ConnectionOpResult} {resp : SpeechResponse}
      (h : s.genStep r resp = some t) : Move s (.gen r resp) t
  | client {a : SpeechAct} {nextId : Int} {options : SpeechOptionsHolder}
      {textReqs : List SpeechReqInfo} {voiceReqs : Streams Bytes VoiceOptions}
      {responses : Streams SpeechResultIn Int} {controller : OpCtl SpeechError} {now : Int}
      {clients : Nat → ClientPc} {holder : Option Nat} {n : Nat} {log : List SpeechEvent}
      {aborted : Bool} (hquiet : s.controller.Quiet controller)
      (hkeys : s.voiceReqs.keys <+: voiceReqs.keys)
      (htexts : ∀ p ∈ textReqs, p.type = .text ∨ p.type = .cancelled ∨ p ∈ s.textReqs) :
      Move s a { s with
        nextId := nextId
        options := options
        textReqs := textReqs
        voiceReqs := voiceReqs
        responses := responses
        controller := controller
        now := now
        clients := clients
        holder := holder
        respNotifies := n
        log := log
        aborted := aborted }

/-- A client that leaves the requests as they are. -/
theorem Move.same {s : SpeechImpl} {a : SpeechAct} {nextId : Int} {options : SpeechOptionsHolder}
    {voiceReqs : Streams Bytes VoiceOptions} {responses : Streams SpeechResultIn Int}
    {controller : OpCtl SpeechError} {now : Int} {clients : Nat → ClientPc} {holder : Option Nat}
    {n : Nat} {log : List SpeechEvent} {aborted : Bool} (hquiet : s.controller.Quiet controller)
    (hkeys : voiceReqs.keys = s.voiceReqs.keys) :
    Move s a { s with
      nextId := nextId
      options := options
      voiceReqs := voiceReqs
      responses := responses
      controller := controller
      now := now
      clients := clients
      holder := holder
      respNotifies := n
      log := log
      aborted := aborted } := by
  refine Move.client hquiet ?_ fun p hp => .inr (.inr hp)
  rw [hkeys]

theorem step_move {s t : SpeechImpl} {a : SpeechAct} (h : s.step a = some t) : Move s a t := by
  unfold step at h
  split at h
  · cases h
  · cases a with
    | prepare =>
        simp only at h
        split at h
        · rename_i hrel
          cases h
          unfold SpeechImpl.prepare
          split
          · rename_i hinit
            exact .prepared hinit
          · rename_i hinit
            exact .prepare hrel.1 (by simpa using hinit)
        · cases h
    | release => exact .release (release_move h)
    | call n c =>
        cases call_move h with
        | stay => exact .same (.refl _) rfl
        | enter hidle hheld hpc => exact .same (.refl _) rfl
        | cancel id hidle => exact .same (.refl _) rfl
    | client n =>
        cases client_move h with
        | load hpc => exact .same (.refl _) rfl
        | store hpc => exact .same (.refl _) rfl
        | lock hpc => exact .same (.refl _) rfl
        | @push text options id p hpc hp htype =>
            refine Move.client (.refl _) List.prefix_rfl ?_
            intro p' hp'
            rcases List.mem_append.mp hp' with hp' | hp'
            · exact .inr (.inr hp')
            · rw [List.mem_singleton.mp hp']
              exact .inl htype
        | start hpc hq =>
            refine Move.client (.refl _) ?_ fun p hp => .inr (.inr hp)
            rw [hq]
            exact List.prefix_append _ _
        | startFailed hpc hq => exact .same (.refl _) hq
        | voice hpc hq => exact .same (.refl _) hq
        | cancelReq hpc hreq hq htext htype hmore =>
            refine Move.client (.refl _) ?_ fun p hp => .inr (htype p hp)
            rw [hq]
        | cancelOp hpc => exact .same (.cancelOp _ _) rfl
    | poll =>
        simp only at h
        unfold SpeechImpl.pollStep at h
        split at h
        · split at h
          · split at h
            · cases h
              exact .same (.refl _) rfl
            · rename_i u hpoll
              obtain ⟨c, q, rfl, hquiet⟩ := poll_eq hpoll
              cases h
              exact .same hquiet rfl
            · rename_i r u hpoll
              obtain ⟨c, q, rfl, hquiet⟩ := poll_eq hpoll
              cases h
              exact .same hquiet rfl
          · cases h
            exact .same (.refl _) rfl
        · cases h
    | config mod =>
        cases h
        cases mod with
        | none => exact .same (.refl _) rfl
        | some mod => exact .same (.refl _) rfl
    | send r => exact .send (sendStep_move h)
    | gen r resp => exact .gen h
    | tick ns =>
        cases h
        exact .same (.refl _) rfl

end SpeechImpl

end OpenVoice
