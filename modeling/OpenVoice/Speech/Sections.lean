import OpenVoice.OpCtl.Lined
import OpenVoice.Speech.Model
import OpenVoice.StreamQueue.Keys

/-!
# The critical sections of `SpeechImpl`

What `cancel`, `poll`, `gen_results` and `send_reqs` do, each said once.  The invariants use these
statements and do not look into the functions again.
-/

namespace OpenVoice

namespace SpeechImpl

/-- The result that comes with the end of a stream is never marked as the final text of the
    recognition.  If it were, `poll` would report the end as `SPEECH_RES_ASR_FINISH` and keep the
    operation. -/
def PlainContent (q : Streams SpeechResultIn Int) : Prop :=
  ∀ r ∈ q.records, ∀ d, r.content = some d → d.asrFinish = false

section PlainContent

variable {q : Streams SpeechResultIn Int} (h : PlainContent q) (id : Int)

include h

theorem PlainContent.start : PlainContent (q.start id).2 :=
  Streams.all_start h id (by simp [Record.opened])

theorem PlainContent.stream (data : Sp SpeechResultIn) : PlainContent (q.stream id data).2 :=
  Streams.all_stream h id data fun _ hr => hr

theorem PlainContent.end_ {data : SpeechResultIn} (hdata : data.asrFinish = false) :
    PlainContent (q.end_ id (some data)).2 := by
  apply Streams.all_end h id
  intro r hr d hd
  obtain rfl : data = d := by simpa [Record.complete] using hd
  exact hdata

theorem PlainContent.erase (err : BitVec 32) : PlainContent (q.erase id err).2 := by
  apply Streams.all_erase h id
  intro r hr d hd
  cases hd

theorem PlainContent.of_pop {out : PopArgs SpeechResultIn} {q' : Streams SpeechResultIn Int}
    (hq' : (Fifo.pop out q.records).2.2 = q'.records) : PlainContent q' :=
  Streams.all_pop h hq' fun _ _ _ hcont hr d hd => hr d (hcont ▸ hd)

end PlainContent

/-! ### `cancel` -/

theorem markText_ids {id : Int} {l l' : List SpeechReqInfo} (h : markText id l = some l') :
    l'.map (·.id) = l.map (·.id) := by
  induction l generalizing l' with
  | nil => cases h
  | cons p ps ih =>
      unfold markText at h
      split at h
      · cases h
        rfl
      · cases hm : markText id ps with
        | none =>
            rw [hm] at h
            cases h
        | some ps' =>
            rw [hm] at h
            cases h
            rw [List.map_cons, List.map_cons, ih hm]

theorem markText_none {id : Int} {l : List SpeechReqInfo} (h : markText id l = none) :
    id ∉ l.map (·.id) := by
  induction l with
  | nil => exact List.not_mem_nil
  | cons p ps ih =>
      unfold markText at h
      split at h
      · cases h
      · rename_i hne
        rw [Option.map_eq_none_iff] at h
        rw [List.map_cons, List.mem_cons, not_or]
        exact ⟨fun heq => hne heq.symm, ih h⟩

theorem markText_notMem {id : Int} {l : List SpeechReqInfo} (h : id ∉ l.map (·.id)) :
    markText id l = none := by
  induction l with
  | nil => rfl
  | cons p ps ih =>
      rw [List.map_cons, List.mem_cons, not_or] at h
      rw [markText, if_neg (fun heq => h.1 heq.symm), ih h.2]
      rfl

/-- A request is marked or left alone. -/
theorem markText_type {id : Int} {l l' : List SpeechReqInfo} (h : markText id l = some l')
    {p : SpeechReqInfo} (hp : p ∈ l') : p.type = .cancelled ∨ p ∈ l := by
  induction l generalizing l' with
  | nil => cases h
  | cons x xs ih =>
      unfold markText at h
      split at h
      · cases h
        rcases List.mem_cons.mp hp with rfl | hp
        · exact .inl rfl
        · exact .inr (List.mem_cons_of_mem _ hp)
      · cases hm : markText id xs with
        | none =>
            rw [hm] at h
            cases h
        | some xs' =>
            rw [hm] at h
            cases h
            rcases List.mem_cons.mp hp with rfl | hp
            · exact .inr List.mem_cons_self
            · exact (ih hm hp).imp_right (List.mem_cons_of_mem _)

/-- With distinct ids the request that has the id is cancelled, and no other. -/
theorem markText_mem {id : Int} {l l' : List SpeechReqInfo} (h : markText id l = some l')
    (hnd : (l.map (·.id)).Nodup) {p : SpeechReqInfo} (hp : p ∈ l') :
    p.id = id ∧ p.type = .cancelled ∨ p.id ≠ id ∧ p ∈ l := by
  induction l generalizing l' with
  | nil => cases h
  | cons x xs ih =>
      rw [List.map_cons, List.nodup_cons] at hnd
      unfold markText at h
      split at h
      · rename_i hx
        cases h
        rcases List.mem_cons.mp hp with rfl | hp
        · exact .inl ⟨hx, rfl⟩
        · refine .inr ⟨?_, List.mem_cons_of_mem _ hp⟩
          intro heq
          apply hnd.1
          rw [hx, ← heq]
          exact List.mem_map_of_mem hp
      · rename_i hne
        cases hm : markText id xs with
        | none =>
            rw [hm] at h
            cases h
        | some xs' =>
            rw [hm] at h
            cases h
            rcases List.mem_cons.mp hp with rfl | hp
            · exact .inr ⟨hne, List.mem_cons_self⟩
            · rcases ih hm hnd.2 hp with hcan | ⟨hne', hmem⟩
              · exact .inl hcan
              · exact .inr ⟨hne', List.mem_cons_of_mem _ hmem⟩

/-- The first part of `cancel` marks requests; no request comes or goes. -/
theorem cancelReq_spec (id : Int) (s : SpeechImpl) :
    ∃ q texts, (s.cancelReq id).2 = { s with voiceReqs := q, textReqs := texts } ∧
      q.keys = s.voiceReqs.keys ∧ texts.map (·.id) = s.textReqs.map (·.id) ∧
      ∀ p ∈ texts, p.type = .cancelled ∨ p ∈ s.textReqs := by
  have hsame : ∀ p ∈ s.textReqs, p.type = .cancelled ∨ p ∈ s.textReqs := fun _ hp => .inr hp
  unfold cancelReq
  split
  · exact ⟨s.voiceReqs, s.textReqs, rfl, rfl, rfl, hsame⟩
  · split
    · simp only
      split
      · exact ⟨_, s.textReqs, rfl, Streams.erase_keys _ _ _, rfl, hsame⟩
      · split
        · rename_i texts hm
          exact ⟨_, texts, rfl, Streams.erase_keys _ _ _, markText_ids hm,
            fun _ hp => markText_type hm hp⟩
        · exact ⟨_, s.textReqs, rfl, Streams.erase_keys _ _ _, rfl, hsame⟩
    · refine ⟨_, _, rfl, Streams.clear_keys _, ?_, ?_⟩
      · rw [List.map_map]
        exact List.map_congr_left fun _ _ => rfl
      · intro p hp
        obtain ⟨p₀, -, rfl⟩ := List.mem_map.mp hp
        exact .inl rfl

/-- `cancel` goes on to the controller when there is no text request with the id. -/
theorem cancelReq_more {id : Int} {s t : SpeechImpl} (hpos : 0 < id)
    (h : s.cancelReq id = (true, t)) : id ∉ t.textReqs.map (·.id) := by
  unfold cancelReq at h
  split at h
  · cases h
  · simp only at h
    split at h
    · cases h
    · split at h
      · cases h
      · rename_i hm
        cases h
        exact markText_none hm

/-- Otherwise it has marked a request. -/
theorem cancelReq_done {id : Int} {s t : SpeechImpl} (hinit : s.initialized = true)
    (hpos : 0 < id) (hkey : id ∉ s.voiceReqs.keys.map Prod.fst)
    (h : s.cancelReq id = (false, t)) : markText id s.textReqs = some t.textReqs := by
  unfold cancelReq at h
  rw [hinit] at h
  simp only [Bool.not_true, Bool.false_eq_true, if_false, hpos, if_true] at h
  split at h
  · rename_i herase
    exact absurd ((Streams.erase_fst_iff _ _ _).mp herase) hkey
  · split at h
    · rename_i hm
      cases h
      exact hm
    · cases h

/-- The second part of `cancel` is `cancel_op`. -/
theorem cancelOp_spec (id : Int) (s : SpeechImpl) : ∃ n,
    s.cancelOp id = { s with
      controller := (s.controller.cancelOp (if 0 < id then id else 0)).2, respNotifies := n } := by
  unfold cancelOp
  generalize (if 0 < id then id else 0) = id'
  simp only
  split
  · exact ⟨_, rfl⟩
  · exact ⟨s.respNotifies, rfl⟩

theorem putVoice_spec {id : Int} {voice : Bytes} {s t : SpeechImpl}
    (h : s.putVoice id voice = some t) :
    ∃ q, t = { s with voiceReqs := q } ∧ q.keys = s.voiceReqs.keys := by
  -- each piece is one `stream`
  have hfold : ∀ (pieces : List Bytes) (q : Streams Bytes VoiceOptions),
      (pieces.foldl (fun q piece => (q.stream id (some piece)).2) q).keys = q.keys := by
    intro pieces
    induction pieces with
    | nil =>
        intro q
        rfl
    | cons piece pieces ih =>
        intro q
        rw [List.foldl_cons, ih, Streams.stream_keys]
  unfold putVoice at h
  simp only at h
  split at h
  · cases h
  · cases h
    exact ⟨_, rfl, hfold _ _⟩

/-- `start_voice` appends a request, unless the id it takes is in the queue already. -/
theorem startVoice_spec (options : Sp VoiceOptions) (loaded : Int) (s : SpeechImpl) :
    ∃ o q, s.startVoice options loaded = (o, { s with nextId := loaded + 1, voiceReqs := q }) ∧
      (o = none ∧ q.keys = s.voiceReqs.keys ∨
        o = some (loaded + 1) ∧ q.keys = s.voiceReqs.keys ++ [(loaded + 1, false)]) := by
  unfold startVoice
  simp only
  rcases s.voiceReqs.start_keys (loaded + 1) with ⟨hks, hr⟩ | ⟨hks, hr⟩
  · rw [hr]
    exact ⟨none, _, rfl, .inl ⟨rfl, hks⟩⟩
  · rw [hr]
    refine ⟨some (loaded + 1), _, rfl, .inr ⟨rfl, ?_⟩⟩
    rw [Streams.setArg_keys, hks]

/-! ### `gen_results` -/

/-- What a critical section of `gen_results` does. -/
structure GenSection (s t : SpeechImpl) : Prop where
  eq : t = { s with
    controller := t.controller, responses := t.responses, respNotifies := t.respNotifies }
  quiet : s.controller.Quiet t.controller
  lined : ∀ v, Lined s.controller s.responses v → Lined t.controller t.responses v
  plain : PlainContent s.responses → PlainContent t.responses
  idle : s.controller.currentOp = none →
    t.controller = s.controller ∧ t.responses = s.responses

namespace GenSection

theorem refl (s : SpeechImpl) : GenSection s s :=
  ⟨rfl, .refl _, fun _ h => h, fun h => h, fun _ => ⟨rfl, rfl⟩⟩

/-- The current operation fails. -/
theorem error (s : SpeechImpl) (err : SpeechError) :
    GenSection s ((s.setController (s.controller.setOpError err)).notifyResp) where
  eq := rfl
  quiet := .setOpError _ err
  lined _ h := h.setOpError err
  plain h := h
  idle hnone := ⟨OpCtl.setOpError_none hnone err, rfl⟩

end GenSection

section Response

variable {s : SpeechImpl} {resp : SpeechResponse} {a : Nat} {v : List (Int × Bool)}

/-- The current operation is `a`, it is the one the response is for, and it streams. -/
structure Receiving (resp : SpeechResponse) (a : Nat) (s : SpeechImpl) : Prop where
  current : s.controller.currentOp = some a
  id_eq : (s.controller.heap a).id = resp.id
  streaming : (s.controller.heap a).status = .streaming

/-- After the first block the operation streams. -/
theorem genStart_spec (h : Lined s.controller s.responses v)
    (hcur : s.controller.currentOp = some a) (hid : (s.controller.heap a).id = resp.id) :
    Lined (genStart resp a s).controller (genStart resp a s).responses v ∧
      Receiving resp a (genStart resp a s) := by
  unfold genStart
  split
  · rename_i hst
    have hl := h.begin_stream hcur hst
    rw [hid] at hl
    refine ⟨hl, hcur, ?_, ?_⟩
    · rw [OpCtl.setStatus_heap_id]
      exact hid
    · simp
  · rename_i hst
    refine ⟨h, hcur, hid, ?_⟩
    rcases h.current_status hcur with hst' | hst'
    · exact absurd hst' hst
    · exact hst'

theorem genStream_spec (h : Lined s.controller s.responses v) (hrec : Receiving resp a s)
    (resin : SpeechResultIn) :
    Lined (genStream resp.id resin s).controller (genStream resp.id resin s).responses v ∧
      Receiving resp a (genStream resp.id resin s) := by
  have hl := h.push_data hrec.current hrec.streaming (some resin)
  rw [hrec.id_eq] at hl
  exact ⟨hl, hrec.current, hrec.id_eq, hrec.streaming⟩

theorem genExtra_spec (h : Lined s.controller s.responses v) (hrec : Receiving resp a s) :
    Lined (genExtra resp s).controller (genExtra resp s).responses v ∧
      Receiving resp a (genExtra resp s) := by
  unfold genExtra
  split
  · exact genStream_spec h hrec _
  · exact ⟨h, hrec⟩

theorem genEnd_spec (h : Lined s.controller s.responses v) (hrec : Receiving resp a s) :
    Lined (genEnd resp a s).controller (genEnd resp a s).responses v := by
  have hl := h.finish_end hrec.current hrec.streaming
    (some { asr := resp.asr, nlp := resp.nlp, action := resp.action,
            voiceTrigger := resp.voiceTrigger })
  rw [hrec.id_eq] at hl
  exact hl

theorem genError_spec (h : Lined s.controller s.responses v) (hrec : Receiving resp a s)
    (hres : resp.result ≠ 0) :
    Lined (genError resp s).controller (genError resp s).responses v := by
  have hl := h.finish_error hrec.current hrec.streaming hres
  rw [hrec.id_eq] at hl
  exact hl

/-- What the blocks of `gen_result_by_resp` leave alone. -/
structure Block (s t : SpeechImpl) : Prop where
  eq : t = { s with
    controller := t.controller, responses := t.responses, respNotifies := t.respNotifies }
  quiet : s.controller.Quiet t.controller
  plain : PlainContent s.responses → PlainContent t.responses

theorem Block.trans {s t u : SpeechImpl} (h : Block s t) (h' : Block t u) : Block s u where
  eq := by rw [h'.eq, h.eq]
  quiet := h.quiet.trans h'.quiet
  plain hp := h'.plain (h.plain hp)

theorem Block.refl (s : SpeechImpl) : Block s s := ⟨rfl, .refl _, fun h => h⟩

theorem Block.notify (s : SpeechImpl) : Block s s.notifyResp := ⟨rfl, .refl _, fun h => h⟩

theorem genStart_block (resp : SpeechResponse) (a : Nat) (s : SpeechImpl) :
    Block s (genStart resp a s) := by
  unfold genStart
  split
  · rename_i hst
    exact ⟨rfl, .setStatus _ _ _ (.inr (by simp [hst])), fun h => h.start _⟩
  · exact .refl s

theorem genStream_block (id : Int) (resin : SpeechResultIn) (s : SpeechImpl) :
    Block s (genStream id resin s) := ⟨rfl, .refl _, fun h => h.stream _ _⟩

theorem genStart_current (resp : SpeechResponse) (a : Nat) (s : SpeechImpl) :
    (genStart resp a s).controller.currentOp = s.controller.currentOp := by
  unfold genStart
  split <;> rfl

theorem genExtra_controller (resp : SpeechResponse) (s : SpeechImpl) :
    (genExtra resp s).controller = s.controller := by
  unfold genExtra
  split <;> rfl

theorem genExtra_block (resp : SpeechResponse) (s : SpeechImpl) : Block s (genExtra resp s) := by
  unfold genExtra
  split
  · exact genStream_block _ _ s
  · exact .refl s

theorem genEnd_block (resp : SpeechResponse) (hcur : s.controller.currentOp = some a) :
    Block s (genEnd resp a s) :=
  ⟨rfl, (OpCtl.Quiet.setStatus _ _ _ (.inl hcur)).trans (.finishOp _), fun h => h.end_ _ rfl⟩

theorem genError_block (resp : SpeechResponse) (s : SpeechImpl) : Block s (genError resp s) :=
  ⟨rfl, .finishOp _, fun h => h.erase _ _⟩

/-- `gen_result_by_resp` with an operation that is current. -/
theorem genResultByResp_section (resp : SpeechResponse)
    (hcur : s.controller.currentOp = some a) :
    GenSection s (genResultByResp resp a s).2 := by
  have hsome : s.controller.currentOp ≠ none := by simp [hcur]
  have close : ∀ t, Block s t →
      (∀ v, Lined s.controller s.responses v → Lined t.controller t.responses v) →
      GenSection s t := fun t hb hl =>
    ⟨hb.eq, hb.quiet, hl, hb.plain, fun hnone => absurd hnone hsome⟩
  unfold genResultByResp
  simp only
  split
  · rename_i hid
    -- the first two blocks; what follows depends on the type of the response
    have hb : Block s (genExtra resp (genStart resp a s)) :=
      (genStart_block resp a s).trans (genExtra_block resp _)
    have hcur' : (genExtra resp (genStart resp a s)).controller.currentOp = some a := by
      rw [genExtra_controller, genStart_current]
      exact hcur
    have hl : ∀ v, Lined s.controller s.responses v →
        Lined (genExtra resp (genStart resp a s)).controller
          (genExtra resp (genStart resp a s)).responses v ∧
        Receiving resp a (genExtra resp (genStart resp a s)) := by
      intro v h
      obtain ⟨h₁, hrec⟩ := genStart_spec h hcur hid.1
      exact genExtra_spec h₁ hrec
    split
    · refine close _ (hb.trans ((genStream_block _ _ _).trans (.notify _))) ?_
      intro v h
      exact (genStream_spec (hl v h).1 (hl v h).2 _).1
    · split
      · refine close _ (hb.trans ((genStream_block _ _ _).trans (.notify _))) ?_
        intro v h
        exact (genStream_spec (hl v h).1 (hl v h).2 _).1
      · split
        · by_cases hres : resp.result = 0
          · rw [if_pos hres]
            refine close _ (hb.trans ((genEnd_block _ hcur').trans (.notify _))) ?_
            intro v h
            exact genEnd_spec (hl v h).1 (hl v h).2
          · rw [if_neg hres]
            refine close _ (hb.trans ((genError_block _ _).trans (.notify _))) ?_
            intro v h
            exact genError_spec (hl v h).1 (hl v h).2 hres
        · exact close _ hb fun v h => (hl v h).1
  · exact .refl s

end Response

theorem handleResult_current {resp : SpeechResponse} {s : SpeechImpl} {a : Nat}
    (hcur : s.controller.currentOp = some a) :
    s.handleResult .success resp =
      genResultByResp resp a (s.setController (s.controller.refreshOpTime s.now true)) := by
  have hsame : (s.setController (s.controller.refreshOpTime s.now true)).controller.currentOp =
      some a := (OpCtl.refreshOpTime_currentOp _ _ _).trans hcur
  simp only [handleResult, hsame]

/-- A response that is not for the current operation refreshes its time nevertheless. -/
theorem handleResult_foreign {resp : SpeechResponse} {s : SpeechImpl}
    (hid : s.controller.Foreign resp.id) :
    s.handleResult .success resp =
      (none, s.setController (s.controller.refreshOpTime s.now true)) := by
  have hsame : (s.setController (s.controller.refreshOpTime s.now true)).controller.currentOp =
      s.controller.currentOp := OpCtl.refreshOpTime_currentOp _ _ _
  simp only [handleResult, hsame]
  cases hcur : s.controller.currentOp with
  | none => rfl
  | some a =>
      have hne : ((s.controller.refreshOpTime s.now true).heap a).id ≠ resp.id := by
        rw [(OpCtl.refreshOpTime_heap _ _ _ a).1]
        exact hid a hcur
      exact if_neg fun h => hne h.1

/-- **One result of `connection_.recv`.** -/
theorem handleResult_section (r : ConnectionOpResult) (resp : SpeechResponse) (s : SpeechImpl) :
    GenSection s (s.handleResult r resp).2 := by
  unfold handleResult
  simp only
  split
  · -- a response
    have hquiet := OpCtl.Quiet.refreshOpTime s.controller s.now true
    have hidle : s.controller.currentOp = none →
        s.controller.refreshOpTime s.now true = s.controller := by
      intro hnone
      rw [OpCtl.refreshOpTime, hnone]
    split
    · exact
        { eq := rfl
          quiet := hquiet
          lined := fun _ h => h.refreshOpTime _ _
          plain := fun h => h
          idle := fun hnone => ⟨hidle hnone, rfl⟩ }
    · rename_i a hcur
      have hsec := genResultByResp_section resp hcur
      exact
        { eq := by rw [hsec.eq]; rfl
          quiet := hquiet.trans hsec.quiet
          lined := fun v h => hsec.lined v (h.refreshOpTime _ _)
          plain := hsec.plain
          idle := by
            intro hnone
            have hnone' := hquiet.current_none hnone
            rw [show (s.setController (s.controller.refreshOpTime s.now true)).controller =
              s.controller.refreshOpTime s.now true from rfl, hnone'] at hcur
            cases hcur }
  · split
    · exact .error s _
    · exact .refl s
  · exact .error s _
  · exact .error s _

/-! ### `poll` -/

/-- What a poll of the operation in front reports. -/
structure Reported (c : OpCtl SpeechError) (a : Nat) (r : SpeechResult) : Prop where
  front : c.frontOp = some a
  id_eq : r.id = (c.heap a).id
  cancelled : (c.heap a).status = .cancelled → r.type = .cancelled

theorem popResult_id (type : SpeechResultType) (out : PopArgs SpeechResultIn) :
    (popResult type out).id = out.id := by
  unfold popResult
  split <;> rfl

/-- What is served does not end the operation, except by the end of its stream or an error. -/
theorem popResult_terminal {q q' : Streams SpeechResultIn Int} (hplain : PlainContent q)
    {t : PopType} {out : PopArgs SpeechResultIn} {type : SpeechResultType}
    (hpop : Fifo.pop popArgs q.records = (t, out, q'.records)) (hne : t ≠ .empty)
    (hrem : t ≠ .removed) (htype : poptypeToRestype t.toInt = some type) :
    (popResult type out).type.isTerminal = t.isLast := by
  -- only pieces of data are marked as the final text
  have hdata : ∀ d, out.res = some d → d.asrFinish = true → t = .data := by
    intro d hd hfin
    have hres : (Fifo.pop popArgs q.records).2.1.res = some d := by
      rw [hpop]
      exact hd
    rcases Fifo.pop_res rfl hres with ht | ⟨r, hr, hcont⟩
    · rw [hpop] at ht
      exact ht
    · rw [hplain r hr d hcont] at hfin
      cases hfin
  have hbare : type.isTerminal = t.isLast := by
    cases t with
    | empty => exact absurd rfl hne
    | removed => exact absurd rfl hrem
    | _ =>
        cases htype
        rfl
  unfold popResult
  cases hres : out.res with
  | none => exact hbare
  | some d =>
      cases hfin : d.asrFinish with
      | true =>
          obtain rfl := hdata d hres hfin
          simp only [hfin, if_true]
          rfl
      | false =>
          simp only [hfin, Bool.false_eq_true, if_false]
          exact hbare

/-- **One iteration of `poll`.**  On aligned queues no assertion fails.  Either there is nothing
    to report, or the result is about the operation in front, which goes away exactly if the
    result is a terminal one. -/
theorem poll_spec {s : SpeechImpl} {v : List (Int × Bool)}
    (h : Lined s.controller s.responses v) (hplain : PlainContent s.responses) :
    ∃ o c q v', s.poll = some (o, { s with controller := c, responses := q }) ∧
      PlainContent q ∧ Lined c q v' ∧
      (o = none ∧ c = s.controller ∨ ∃ a r, o = some (a, r) ∧ Reported s.controller a r ∧
        c = if r.type.isTerminal then s.controller.removeFrontOp else s.controller) := by
  unfold poll
  cases hfront : s.controller.frontOp with
  | none => exact ⟨none, _, _, v, rfl, hplain, h, .inl ⟨rfl, rfl⟩⟩
  | some a =>
      simp only
      by_cases hcan : (s.controller.heap a).status = .cancelled
      · obtain ⟨q', b, v', hdrop, -, hl, hmem⟩ := h.dropStream_front hfront (.inl hcan) popArgs
        simp only [hcan, if_true, hdrop, Option.bind_eq_bind, Option.bind_some]
        exact ⟨_, _, _, v', rfl, fun r hr => hplain r (hmem r hr), hl,
          .inr ⟨a, _, rfl, ⟨hfront, rfl, fun _ => rfl⟩, rfl⟩⟩
      by_cases herr : (s.controller.heap a).status = .error
      · obtain ⟨q', b, v', hdrop, -, hl, hmem⟩ := h.dropStream_front hfront (.inr herr) popArgs
        simp only [herr, reduceCtorEq, if_true, if_false, hdrop, Option.bind_eq_bind,
          Option.bind_some]
        exact ⟨_, _, _, v', rfl, fun r hr => hplain r (hmem r hr), hl,
          .inr ⟨a, _, rfl, ⟨hfront, rfl, fun hc => absurd hc hcan⟩, rfl⟩⟩
      obtain ⟨t, out', q', hpop, hfifo, hcase, -⟩ := h.pop_front hfront hcan herr popArgs
      have hplain' : PlainContent q' := hplain.of_pop (by rw [hfifo])
      rw [if_neg hcan, if_neg herr, hpop]
      rcases hcase with ⟨rfl, hrec⟩ | ⟨hne, hid, v', hl, hserved⟩
      · exact ⟨none, _, _, v, rfl, hplain', h.of_records hrec, .inl ⟨rfl, rfl⟩⟩
      · simp only [hne, if_false, hid, if_true]
        -- the table has an entry for what was popped
        obtain ⟨type, htype⟩ : ∃ type, poptypeToRestype t.toInt = some type := by
          cases hserved with
          | start => exact ⟨_, rfl⟩
          | data => exact ⟨_, rfl⟩
          | end_ => exact ⟨_, rfl⟩
          | error => exact ⟨_, rfl⟩
        have hrem : t ≠ .removed := by
          rintro rfl
          cases hserved
        have hlast := popResult_terminal hplain hfifo hne hrem htype
        rw [htype]
        simp only [Option.bind_eq_bind, Option.bind_some]
        refine ⟨_, _, _, v', rfl, hplain', ?_,
          .inr ⟨a, _, rfl, ⟨hfront, ?_, fun hc => absurd hc hcan⟩, rfl⟩⟩
        · rw [hlast]
          exact hl
        · rw [popResult_id, hid]

end SpeechImpl

end OpenVoice
