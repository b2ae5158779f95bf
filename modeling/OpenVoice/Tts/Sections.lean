import OpenVoice.OpCtl.Lined
import OpenVoice.Tts.Model
import Mathlib.Data.List.Infix

/-!
# The critical sections of `TtsImpl`

What `cancel`, `poll` and `gen_results` do to the controller and the response streams, each said
once.  The invariants use these statements and do not look into the functions again.
-/

namespace OpenVoice

namespace TtsImpl

/-- No stream is closed with a server error: `TtsImpl` never passes an error to `erase`. -/
def NoServerError (q : Streams TtsResultIn Int) : Prop :=
  ∀ r ∈ q.records, ∀ e, r.state ≠ .error e

theorem NoServerError.start {q : Streams TtsResultIn Int} (h : NoServerError q) (id : Int) :
    NoServerError (q.start id).2 :=
  Streams.all_start h id (by simp [Record.opened])

theorem NoServerError.stream {q : Streams TtsResultIn Int} (h : NoServerError q) (id : Int)
    (d : Sp TtsResultIn) : NoServerError (q.stream id d).2 :=
  Streams.all_stream h id d fun _ hr => hr

theorem NoServerError.end_ {q : Streams TtsResultIn Int} (h : NoServerError q) (id : Int)
    (d : Sp TtsResultIn) : NoServerError (q.end_ id d).2 :=
  Streams.all_end h id d fun _ _ => by simp [Record.complete]

/-! ### `cancel` -/

/-- `cancel` marks queued requests and passes the id on to the controller. -/
theorem cancel_spec (id : Int) (s : TtsImpl) :
    ∃ reqs c n, s.cancel id =
        { s with requests := reqs, controller := c, respNotifies := n } ∧
      reqs.map (·.id) = s.requests.map (·.id) ∧ s.controller.Quiet c ∧
      ∀ q : Streams TtsResultIn Int, ∀ v, Lined s.controller q v → Lined c q v := by
  have hids : ∀ covers : TtsReqInfo → Prop, ∀ _ : DecidablePred covers,
      (s.requests.map fun req => if covers req then { req with deleted := true } else req).map
        (·.id) = s.requests.map (·.id) := by
    intro covers _
    rw [List.map_map]
    apply List.map_congr_left
    intro req _
    simp only [Function.comp_apply]
    split <;> rfl
  -- the controller after `cancel_op(id')`
  have hc : ∀ id' : Int, s.controller.Quiet (s.controller.cancelOp id').2 ∧
      ∀ q : Streams TtsResultIn Int, ∀ v, Lined s.controller q v →
        Lined (s.controller.cancelOp id').2 q v := by
    intro id'
    exact ⟨.cancelOp _ id', fun q v h => h.cancelOp id'⟩
  unfold cancel
  split
  · exact ⟨s.requests, s.controller, s.respNotifies, rfl, rfl, .refl _, fun _ _ h => h⟩
  · simp only
    split
    · split
      · exact ⟨_, _, _, rfl, hids _ _, (hc 0).1, (hc 0).2⟩
      · exact ⟨_, _, s.respNotifies, rfl, hids _ _, (hc 0).1, (hc 0).2⟩
    · split
      · split
        · exact ⟨_, _, _, rfl, hids _ _, (hc id).1, (hc id).2⟩
        · exact ⟨_, _, s.respNotifies, rfl, hids _ _, (hc id).1, (hc id).2⟩
      · exact ⟨_, s.controller, s.respNotifies, rfl, hids _ _, .refl _, fun _ _ h => h⟩

/-! ### `gen_results` -/

/-- What a critical section of `gen_results` does. -/
structure GenSection (s t : TtsImpl) : Prop where
  eq : t = { s with
    controller := t.controller, responses := t.responses, respNotifies := t.respNotifies }
  quiet : s.controller.Quiet t.controller
  lined : ∀ v, Lined s.controller s.responses v → Lined t.controller t.responses v
  noError : NoServerError s.responses → NoServerError t.responses
  idle : s.controller.currentOp = none → t.responses = s.responses

namespace GenSection

theorem refl (s : TtsImpl) : GenSection s s :=
  ⟨rfl, .refl _, fun _ h => h, fun h => h, fun _ => rfl⟩

/-- A section that changes the controller only. -/
theorem controller (s : TtsImpl) {c : OpCtl TtsError} (n : Nat) (hq : s.controller.Quiet c)
    (hl : ∀ v, Lined s.controller s.responses v → Lined c s.responses v) :
    GenSection s { s with controller := c, respNotifies := n } :=
  ⟨rfl, hq, hl, fun h => h, fun _ => rfl⟩

end GenSection

section Response

variable {s : TtsImpl} {resp : TtsResponse} {a : Nat} {v : List (Int × Bool)}

/-- After the first block the operation streams. -/
theorem genStart_spec (h : Lined s.controller s.responses v)
    (hcur : s.controller.currentOp = some a) (hid : (s.controller.heap a).id = resp.id) :
    Lined (genStart resp a s).controller (genStart resp a s).responses v ∧
      (genStart resp a s).controller.currentOp = some a ∧
      ((genStart resp a s).controller.heap a).id = resp.id ∧
      ((genStart resp a s).controller.heap a).status = .streaming := by
  unfold genStart
  split
  · rename_i hst
    refine ⟨?_, hcur, ?_, ?_⟩
    · have hl := h.begin_stream hcur hst
      rw [hid] at hl
      exact hl
    · rw [OpCtl.setStatus_heap_id]
      exact hid
    · simp
  · rename_i hst
    refine ⟨h, hcur, hid, ?_⟩
    rcases h.current_status hcur with hst' | hst'
    · exact absurd hst' hst
    · exact hst'

theorem genVoice_spec (h : Lined s.controller s.responses v)
    (hcur : s.controller.currentOp = some a) (hid : (s.controller.heap a).id = resp.id)
    (hst : (s.controller.heap a).status = .streaming) :
    Lined (genVoice resp s).controller (genVoice resp s).responses v ∧
      (genVoice resp s).controller = s.controller := by
  unfold genVoice
  split
  · have hl := h.push_data hcur hst (some { voice := resp.voice, text := resp.text })
    rw [hid] at hl
    exact ⟨hl, rfl⟩
  · exact ⟨h, rfl⟩

theorem genFinish_spec (h : Lined s.controller s.responses v)
    (hcur : s.controller.currentOp = some a) (hid : (s.controller.heap a).id = resp.id)
    (hst : (s.controller.heap a).status = .streaming) :
    Lined (genFinish resp a s).controller (genFinish resp a s).responses v := by
  unfold genFinish
  split
  · have hl := h.finish_end hcur hst none
    rw [hid] at hl
    simp only [hst, ne_eq, reduceCtorEq, not_false_eq_true, and_self, if_true]
    exact hl
  · exact h

theorem genStart_quiet (resp : TtsResponse) (a : Nat) (s : TtsImpl) :
    s.controller.Quiet (genStart resp a s).controller ∧
      (NoServerError s.responses → NoServerError (genStart resp a s).responses) := by
  unfold genStart
  split
  · rename_i hst
    exact ⟨.setStatus _ _ _ (.inr (by simp [hst])), fun h => h.start _⟩
  · exact ⟨.refl _, fun h => h⟩

theorem genVoice_quiet (resp : TtsResponse) (s : TtsImpl) :
    s.controller.Quiet (genVoice resp s).controller ∧
      (NoServerError s.responses → NoServerError (genVoice resp s).responses) := by
  unfold genVoice
  split
  · exact ⟨.refl _, fun h => h.stream _ _⟩
  · exact ⟨.refl _, fun h => h⟩

theorem genFinish_quiet (resp : TtsResponse) (a : Nat) (s : TtsImpl) :
    s.controller.Quiet (genFinish resp a s).controller ∧
      (NoServerError s.responses → NoServerError (genFinish resp a s).responses) := by
  unfold genFinish
  split
  · refine ⟨?_, fun h => h.end_ _ _⟩
    simp only
    split
    · rename_i hst
      exact (OpCtl.Quiet.setStatus _ _ _ (.inr hst.1)).trans (.finishOp _)
    · exact .finishOp _
  · exact ⟨.refl _, fun h => h⟩

theorem genStart_eq (resp : TtsResponse) (a : Nat) (s : TtsImpl) :
    genStart resp a s = { s with
      controller := (genStart resp a s).controller
      responses := (genStart resp a s).responses } := by
  unfold genStart
  split <;> rfl

theorem genVoice_eq (resp : TtsResponse) (s : TtsImpl) :
    genVoice resp s = { s with
      controller := (genVoice resp s).controller
      responses := (genVoice resp s).responses } := by
  unfold genVoice
  split <;> rfl

theorem genFinish_eq (resp : TtsResponse) (a : Nat) (s : TtsImpl) :
    genFinish resp a s = { s with
      controller := (genFinish resp a s).controller
      responses := (genFinish resp a s).responses } := by
  unfold genFinish
  split <;> rfl

/-- `gen_result_by_resp` with an operation that is current. -/
theorem genResultByResp_section (resp : TtsResponse) (hcur : s.controller.currentOp = some a) :
    GenSection s (genResultByResp resp a s) := by
  unfold genResultByResp
  simp only
  split
  · rename_i hid
    -- the three blocks, one after the other
    have hq₁ := genStart_quiet resp a s
    have hq₂ := genVoice_quiet resp (genStart resp a s)
    have hq₃ := genFinish_quiet resp a (genVoice resp (genStart resp a s))
    have hsec : GenSection s (genFinish resp a (genVoice resp (genStart resp a s))) := by
      refine ⟨?_, hq₁.1.trans (hq₂.1.trans hq₃.1), ?_, fun h => hq₃.2 (hq₂.2 (hq₁.2 h)), ?_⟩
      · rw [genFinish_eq, genVoice_eq, genStart_eq]
      · intro v h
        obtain ⟨h₁, hcur₁, hid₁, hst₁⟩ := genStart_spec h hcur hid
        obtain ⟨h₂, hc₂⟩ := genVoice_spec h₁ hcur₁ hid₁ hst₁
        exact genFinish_spec h₂ (by rw [hc₂]; exact hcur₁) (by rw [hc₂]; exact hid₁)
          (by rw [hc₂]; exact hst₁)
      · intro hnone
        rw [hcur] at hnone
        cases hnone
    split
    · exact ⟨by rw [hsec.eq]; rfl, hsec.quiet, hsec.lined, hsec.noError, hsec.idle⟩
    · exact hsec
  · exact .refl s

end Response

theorem handleResult_current {resp : TtsResponse} {s : TtsImpl} {a : Nat}
    (hcur : s.controller.currentOp = some a) :
    s.handleResult .success resp =
      genResultByResp resp a (s.setController (s.controller.refreshOpTime s.now true)) := by
  have hsame : (s.setController (s.controller.refreshOpTime s.now true)).controller.currentOp =
      some a := (OpCtl.refreshOpTime_currentOp _ _ _).trans hcur
  simp only [handleResult, hsame]

/-- A response that is not for the current operation refreshes its time nevertheless. -/
theorem handleResult_foreign {resp : TtsResponse} {s : TtsImpl}
    (hid : s.controller.Foreign resp.id) :
    s.handleResult .success resp =
      s.setController (s.controller.refreshOpTime s.now true) := by
  have hsame : (s.setController (s.controller.refreshOpTime s.now true)).controller.currentOp =
      s.controller.currentOp := OpCtl.refreshOpTime_currentOp _ _ _
  simp only [handleResult, hsame]
  cases hcur : s.controller.currentOp with
  | none => rfl
  | some a =>
      have hne : ((s.controller.refreshOpTime s.now true).heap a).id ≠ resp.id := by
        rw [(OpCtl.refreshOpTime_heap _ _ _ a).1]
        exact hid a hcur
      exact if_neg hne

/-- **One result of `connection_.recv`.** -/
theorem handleResult_section (r : ConnectionOpResult) (resp : TtsResponse) (s : TtsImpl) :
    GenSection s (s.handleResult r resp) := by
  have herror : ∀ err : TtsError,
      GenSection s ((s.setController (s.controller.setOpError err)).notifyResp) := fun err =>
    .controller s _ (.setOpError _ err) fun _ h => h.setOpError err
  unfold handleResult
  split
  · -- a response
    have hrefresh : GenSection s
        (s.setController (s.controller.refreshOpTime s.now true)) :=
      .controller s s.respNotifies (.refreshOpTime _ _ _) fun _ h => h.refreshOpTime _ _
    simp only
    split
    · exact hrefresh
    · rename_i a hcur
      have hsec := genResultByResp_section resp hcur
      exact
        { eq := by rw [hsec.eq]; rfl
          quiet := hrefresh.quiet.trans hsec.quiet
          lined := fun v h => hsec.lined v (hrefresh.lined v h)
          noError := fun h => hsec.noError (hrefresh.noError h)
          idle := by
            intro hnone
            have hnone' := hrefresh.quiet.current_none hnone
            rw [hcur] at hnone'
            cases hnone' }
  · split
    · exact herror _
    · exact .refl s
  · exact herror _
  · exact herror _

/-! ### `poll` -/

/-- What `poll` may report of the operation in front. -/
inductive Report (id : Int) (v v' : List (Int × Bool)) : TtsResultType → Prop where
  | start {rest : List (Int × Bool)} (hv : v = (id, false) :: rest)
      (hv' : v' = (id, true) :: rest) : Report id v v' .start
  | voice {rest : List (Int × Bool)} (hv : v = (id, true) :: rest) (hv' : v' = v) :
      Report id v v' .voice
  | end_ (hv : v = (id, true) :: v') : Report id v v' .end_
  | cancelled {b : Bool} (hv : v = (id, b) :: v') : Report id v v' .cancelled
  | error {b : Bool} (hv : v = (id, b) :: v') : Report id v v' .error

/-- At most the operation in front goes. -/
theorem Report.suffix {id : Int} {v v' : List (Int × Bool)} {t : TtsResultType}
    (h : Report id v v' t) : v'.map Prod.fst <:+ v.map Prod.fst := by
  cases h with
  | start hv hv' =>
      rw [hv, hv']
      exact List.suffix_refl _
  | voice hv hv' =>
      rw [hv']
  | end_ hv =>
      rw [hv]
      exact List.suffix_cons _ _
  | cancelled hv =>
      rw [hv]
      exact List.suffix_cons _ _
  | error hv =>
      rw [hv]
      exact List.suffix_cons _ _

/-- **One iteration of `poll`.**  On aligned queues no assertion fails.  Either there is nothing
    to report, or the result is about the operation in front and the queues stay aligned. -/
theorem poll_spec {s : TtsImpl} {v : List (Int × Bool)}
    (h : Lined s.controller s.responses v) (hno : NoServerError s.responses) :
    ∃ o c q, s.poll = some (o, { s with controller := c, responses := q }) ∧
      s.controller.Quiet c ∧ NoServerError q ∧
      (o = none ∧ Lined c q v ∨
        ∃ a r v', o = some (a, r) ∧ s.controller.frontOp = some a ∧
          r.id = (s.controller.heap a).id ∧ Lined c q v' ∧ Report r.id v v' r.type) := by
  unfold poll
  cases hfront : s.controller.frontOp with
  | none => exact ⟨none, _, _, rfl, .refl _, hno, .inl ⟨rfl, h⟩⟩
  | some a =>
      simp only
      by_cases hcan : (s.controller.heap a).status = .cancelled
      · obtain ⟨q', b, v', hdrop, hv, hl, hmem⟩ := h.dropStream_front hfront (.inl hcan) popArgs
        simp only [hcan, if_true, hdrop, Option.bind_eq_bind, Option.bind_some]
        exact ⟨_, _, _, rfl, .removeFrontOp _, fun r hr => hno r (hmem r hr),
          .inr ⟨a, _, v', rfl, rfl, rfl, hl, .cancelled hv⟩⟩
      by_cases herr : (s.controller.heap a).status = .error
      · obtain ⟨q', b, v', hdrop, hv, hl, hmem⟩ := h.dropStream_front hfront (.inr herr) popArgs
        simp only [herr, reduceCtorEq, if_true, if_false, hdrop, Option.bind_eq_bind,
          Option.bind_some]
        exact ⟨_, _, _, rfl, .removeFrontOp _, fun r hr => hno r (hmem r hr),
          .inr ⟨a, _, v', rfl, rfl, rfl, hl, .error hv⟩⟩
      obtain ⟨t, out', q', hpop, hfifo, hcase, hserr⟩ := h.pop_front hfront hcan herr popArgs
      have hno' : NoServerError q' := by
        intro r hr e hst
        have hr' : r ∈ (Fifo.pop popArgs s.responses.records).2.2 := by rw [hfifo]; exact hr
        obtain ⟨r₀, hr₀, -, hst₀, -⟩ := Fifo.mem_pop hr'
        exact hno r₀ hr₀ e (hst₀ ▸ hst)
      rw [if_neg hcan, if_neg herr, hpop]
      rcases hcase with ⟨rfl, hrec⟩ | ⟨hne, hid, v', hl, hserved⟩
      · exact ⟨none, _, _, rfl, .refl _, hno', .inl ⟨rfl, h.of_records hrec⟩⟩
      · simp only [hne, if_false, hid, if_true]
        -- the table has an entry for what was popped
        cases hserved with
        | start hv hv' =>
            exact ⟨_, _, _, rfl, .refl _, hno',
              .inr ⟨a, _, v', rfl, rfl, rfl, hl, .start hv hv'⟩⟩
        | data hv hv' =>
            exact ⟨_, _, _, rfl, .refl _, hno',
              .inr ⟨a, _, v', rfl, rfl, rfl, hl, .voice hv hv'⟩⟩
        | end_ hv =>
            exact ⟨_, _, _, rfl, .removeFrontOp _, hno',
              .inr ⟨a, _, v', rfl, rfl, rfl, hl, .end_ hv⟩⟩
        | error hv =>
            obtain ⟨r, hr, e, hst⟩ := hserr rfl
            exact absurd hst (hno r hr e)

/-! ### `send_reqs` -/

/-- **What the send thread can do next**, with everything that must hold for it. -/
inductive SendMove (s : TtsImpl) (r : ConnectionOpResult) : TtsImpl → Prop where
  | exit (hpc : s.send = .loop) (hinit : s.initialized = false) :
      SendMove s r { s with send := .done }
  | sleep (hpc : s.send = .loop) (hinit : s.initialized = true) (hreq : s.requests = []) :
      SendMove s r { s with send := .waitReq }
  | cancelled {req : TtsReqInfo} {requests : List TtsReqInfo} (hpc : s.send = .loop)
      (hinit : s.initialized = true) (hreq : s.requests = req :: requests)
      (hdel : req.deleted = true) :
      SendMove s r { s with
        requests := requests
        controller := s.controller.newOp s.now req.id .cancelled
        respNotifies := s.respNotifies + 1
        send := .loop }
  | start {req : TtsReqInfo} {requests : List TtsReqInfo} (hpc : s.send = .loop)
      (hinit : s.initialized = true) (hreq : s.requests = req :: requests)
      (hdel : req.deleted = false) :
      SendMove s r { s with
        requests := requests
        controller := s.controller.newOp s.now req.id .start
        send := .request req }
  | wake (hpc : s.send = .waitReq) : SendMove s r { s with send := .loop }
  | build {req : TtsReqInfo} (hpc : s.send = .request req) :
      SendMove s r { s with send := .sending req (treq req s.options) }
  | fail {req : TtsReqInfo} {treq : TtsRequest} (hpc : s.send = .sending req treq)
      (hr : r ≠ .success) :
      SendMove s r { s with send := .sendFailed req (sendError r) }
  | available {req : TtsReqInfo} {treq : TtsRequest} (hpc : s.send = .sending req treq)
      (hr : r = .success) (hopen : s.connClosed = false) :
      SendMove s r { s with send := .writing req treq }
  | write {req : TtsReqInfo} {treq : TtsRequest} (hpc : s.send = .writing req treq) :
      SendMove s r { s with sent := s.sent ++ [treq], send := .sent req }
  | setError {req : TtsReqInfo} {err : TtsError} (hpc : s.send = .sendFailed req err) :
      SendMove s r { s with
        controller := s.controller.setOpError err
        respNotifies := s.respNotifies + 1
        send := .loop }
  | refresh {req : TtsReqInfo} (hpc : s.send = .sent req) :
      SendMove s r { s with
        controller := s.controller.refreshOpTime s.now false
        send := .waitOp req.id }
  | block {id : Int} (hpc : s.send = .waitOp id) (hwait : s.controller.mustWait id = true) :
      SendMove s r { s with
        controller := { s.controller with opWaiting := true }
        send := .blocked id }
  | skip {id : Int} (hpc : s.send = .waitOp id) (hwait : s.controller.mustWait id = false) :
      SendMove s r { s with send := .loop }
  | awake {id : Int} (hpc : s.send = .blocked id) (hwait : s.controller.opWaiting = false) :
      SendMove s r { s with send := .loop }

theorem sendStep_move {s t : TtsImpl} {r : ConnectionOpResult} (h : s.sendStep r = some t) :
    SendMove s r t := by
  unfold sendStep at h
  split at h
  · rename_i hpc
    split at h
    · split at h
      · rename_i hinit
        cases h
        exact .exit hpc (by simpa using hinit)
      · rename_i hinit
        have hinit' : s.initialized = true := by simpa using hinit
        split at h
        · rename_i hreq
          cases h
          exact .sleep hpc hinit' hreq
        · rename_i req requests hreq
          cases h
          unfold doCtlNewOp
          cases hdel : req.deleted with
          | true => exact .cancelled hpc hinit' hreq hdel
          | false => exact .start hpc hinit' hreq hdel
    · cases h
  · rename_i hpc
    cases h
    exact .wake hpc
  · rename_i req hpc
    cases h
    exact .build hpc
  · rename_i req treq hpc
    split at h
    · rename_i hr
      cases h
      exact .fail hpc hr
    · rename_i hr
      split at h
      · cases h
      · rename_i hopen
        cases h
        exact .available hpc (by simpa using hr) (by simpa using hopen)
  · rename_i req treq hpc
    cases h
    exact .write hpc
  · rename_i req err hpc
    cases h
    exact .setError hpc
  · rename_i req hpc
    cases h
    exact .refresh hpc
  · rename_i id hpc
    split at h
    · rename_i hwait
      cases h
      exact .block hpc hwait
    · rename_i hwait
      cases h
      exact .skip hpc (by simpa using hwait)
  · rename_i id hpc
    split at h
    · cases h
    · rename_i hwait
      cases h
      exact .awake hpc (by simpa using hwait)
  · cases h

end TtsImpl

end OpenVoice
