import OpenVoice.Lib.Traced
import OpenVoice.OpCtl.Script
import OpenVoice.Speech.SendThread

/-!
# From responses to results

What `gen_result_by_resp` puts into the stream of the current operation for each response, and
what `poll` makes of it.  `Answered` says of every state of every run that the operations that
are neither cancelled nor failed have got, or will get, what their responses say.
-/

namespace OpenVoice

open OpenVoice.Lib

namespace SpeechImpl

/-- The pieces `gen_result_by_resp` adds to the stream. -/
def script : Script SpeechResponse SpeechResultIn where
  pieces resp :=
    (if resp.extra ≠ "" then [.data (some { extra := resp.extra })] else []) ++
      if resp.type = respIntermediate then
        [.data (some { asr := resp.asr, voiceTrigger := resp.voiceTrigger })]
      else if resp.type = respAsrFinish then
        [.data (some { asr := resp.asr, voiceTrigger := resp.voiceTrigger, asrFinish := true })]
      else if resp.type = respFinish then
        [.end_ (some { asr := resp.asr, nlp := resp.nlp, action := resp.action,
                       voiceTrigger := resp.voiceTrigger })]
      else []
  failure resp :=
    if resp.type = respFinish ∧ resp.result ≠ 0 then some (resp.result.setWidth 16) else none
  final resp := resp.type = respFinish
  final_of_failure := by
    intro resp e h
    split at h
    · rename_i hfin
      exact hfin.1
    · cases h

/-- The result `poll` returns for a piece of the stream. -/
def pieceResult (id : Int) (p : Piece SpeechResultIn) : SpeechResult :=
  popResult ((poptypeToRestype p.type.toInt).getD .error) (p.fill id popArgs)

/-- The response a step of `gen_results` handles, if it is one for the current operation, with
    that operation. -/
def received (s : SpeechImpl) : SpeechAct → List (Nat × SpeechResponse)
  | .gen _ _ =>
      match s.gen, s.controller.currentOp with
      | .handle .success resp, some a =>
          if (s.controller.heap a).id = resp.id then [(a, resp)] else []
      | _, _ => []
  | _ => []

theorem received_foreign {s : SpeechImpl} {r : ConnectionOpResult} {resp resp' : SpeechResponse}
    (hgen : s.gen = .handle .success resp) (hid : s.controller.Foreign resp.id) :
    received s (.gen r resp') = [] := by
  simp only [received, hgen]
  split
  · rename_i a hpc hcur
    cases hpc
    exact if_neg (hid a hcur)
  · rfl

/-- The responses received for the operation at `a`. -/
abbrev handled (tr : List (Nat × SpeechResponse)) (a : Nat) : List SpeechResponse := entries tr a

/-- The results `poll` has returned for the operation at `a`. -/
def polledFor (l : List SpeechEvent) (a : Nat) : List SpeechResult :=
  l.filterMap fun e =>
    match e with
    | .result b r => if b = a then some r else none
    | _ => none

@[simp] theorem polledFor_append (l l' : List SpeechEvent) (a : Nat) :
    polledFor (l ++ l') a = polledFor l a ++ polledFor l' a := List.filterMap_append

theorem polledFor_result (l : List SpeechEvent) (a b : Nat) (r : SpeechResult) :
    polledFor (l ++ [.result a r]) b = polledFor l b ++ entries [(a, r)] b := by
  rw [polledFor_append]
  by_cases h : a = b
  · simp [polledFor, entries, h]
  · simp [polledFor, entries, h]

/-! ### `gen_result_by_resp` -/

section Receive

variable {s : SpeechImpl} {resp : SpeechResponse} {a : Nat} {v : List (Int × Bool)}

/-- What is still to be polled of an operation. -/
abbrev dues (s : SpeechImpl) (a : Nat) : List (Piece SpeechResultIn) :=
  s.controller.dues s.responses a

/-- Only the operation at `a` and its stream change. -/
abbrev Confined (a : Nat) (id : Int) (s t : SpeechImpl) : Prop :=
  OpCtl.Confined a id s.controller s.responses t.controller t.responses

theorem genStart_confined (resp : SpeechResponse) (a : Nat) (s : SpeechImpl) :
    Confined a resp.id s (genStart resp a s) := by
  unfold genStart
  split
  · exact OpCtl.Confined.start.trans (.setStatus _)
  · exact .refl _ _

theorem genExtra_confined (resp : SpeechResponse) (a : Nat) (s : SpeechImpl) :
    Confined a resp.id s (genExtra resp s) := by
  unfold genExtra
  split
  · exact .stream _
  · exact .refl _ _

theorem genEnd_confined (hcur : s.controller.currentOp = some a) :
    Confined a resp.id s (genEnd resp a s) := by
  have hset : OpCtl.Confined a resp.id s.controller s.responses
      (s.controller.setStatus a .end_) s.responses := .setStatus _
  exact (hset.trans (.finishOp hcur)).trans (.end_ _)

theorem genError_confined (hcur : s.controller.currentOp = some a) :
    Confined a resp.id s (genError resp s) :=
  (OpCtl.Confined.finishOp hcur).trans (.erase _)

theorem genStart_dues (h : Lined s.controller s.responses v)
    (hcur : s.controller.currentOp = some a) (hid : (s.controller.heap a).id = resp.id)
    {l : List SpeechResponse} (hl : (s.controller.heap a).status = .start ↔ l = []) :
    (genStart resp a s).dues a = s.dues a ++ Script.opening l := by
  unfold genStart
  split
  · rename_i hst
    obtain ⟨hnone, hstart⟩ := h.start_dues hcur hst
    rw [hid] at hstart
    have hset : OpCtl.Confined a resp.id s.controller s.responses
        (s.controller.setStatus a .streaming) s.responses := .setStatus .streaming
    rw [dues, dues, hnone, hl.mp hst]
    exact (hset.dues_eq (s.responses.start resp.id).2).trans hstart
  · rename_i hst
    have hne : l ≠ [] := fun hnil => hst (hl.mpr hnil)
    cases l with
    | nil => exact absurd rfl hne
    | cons x l => simp [Script.opening]

theorem genStream_dues (h : Lined s.controller s.responses v) (hrec : Receiving resp a s)
    (resin : SpeechResultIn) :
    (genStream resp.id resin s).dues a = s.dues a ++ [.data (some resin)] := by
  have hdues := h.push_dues hrec.current hrec.streaming (some resin)
  rw [hrec.id_eq] at hdues
  exact hdues

theorem genExtra_dues (h : Lined s.controller s.responses v) (hrec : Receiving resp a s) :
    (genExtra resp s).dues a = s.dues a ++
      if resp.extra ≠ "" then [.data (some { extra := resp.extra })] else [] := by
  unfold genExtra
  split
  · exact genStream_dues h hrec _
  · rw [List.append_nil]

theorem genEnd_dues (h : Lined s.controller s.responses v) (hrec : Receiving resp a s) :
    (genEnd resp a s).dues a = s.dues a ++
      [.end_ (some { asr := resp.asr, nlp := resp.nlp, action := resp.action,
                     voiceTrigger := resp.voiceTrigger })] := by
  obtain ⟨r, -, hdues⟩ := h.end_dues hrec.current hrec.streaming
    (some { asr := resp.asr, nlp := resp.nlp, action := resp.action,
            voiceTrigger := resp.voiceTrigger })
  rw [hrec.id_eq, if_pos (by rfl)] at hdues
  have hset : OpCtl.Confined a resp.id s.controller s.responses
      (s.controller.setStatus a .end_).finishOp s.responses :=
    (OpCtl.Confined.setStatus _).trans (.finishOp hrec.current)
  exact (hset.dues_eq _).trans hdues

theorem genError_dues (h : Lined s.controller s.responses v) (hrec : Receiving resp a s)
    (hres : resp.result ≠ 0) :
    (genError resp s).dues a = [.error (resp.result.setWidth 16)] := by
  have hdues := h.erase_dues hrec.current hrec.streaming hres
  rw [hrec.id_eq] at hdues
  have hset : OpCtl.Confined a resp.id s.controller s.responses s.controller.finishOp
      s.responses := .finishOp hrec.current
  exact (hset.dues_eq _).trans hdues

/-- The last response does not leave a failed operation behind, whatever it says. -/
theorem genEnd_sound (hrec : Receiving resp a s) :
    ((genEnd resp a s).controller.heap a).status ≠ .error := by
  have hcur : (s.controller.setStatus a .end_).currentOp = some a := hrec.current
  unfold genEnd
  rw [OpCtl.finishOp_some hcur (by simp) (by simp)]
  simp

theorem genError_sound (hrec : Receiving resp a s) :
    ((genError resp s).controller.heap a).status ≠ .error := by
  unfold genError
  rw [OpCtl.finishOp_some hrec.current (by simp [hrec.streaming]) (by simp [hrec.streaming])]
  simp

/-- What a response for the current operation leads to; `l` are the responses before it. -/
structure Receives (resp : SpeechResponse) (a : Nat) (l : List SpeechResponse)
    (s t : SpeechImpl) : Prop where
  confined : Confined a resp.id s t
  dues : t.dues a = script.after l (s.dues a) resp
  sound : (t.controller.heap a).status ≠ .error
  current : ∀ b, t.controller.currentOp = some b →
    b = a ∧ (t.controller.heap a).status ≠ .start ∧ ¬ script.final resp

/-- What is owed after a response that is not an error. -/
theorem after_eq {l : List SpeechResponse} {d d' : List (Piece SpeechResultIn)}
    (hok : ¬ (resp.type = respFinish ∧ resp.result ≠ 0))
    (hd : d' = d ++ Script.opening l ++ script.pieces resp) : d' = script.after l d resp := by
  have hnone : script.failure resp = none := if_neg hok
  rw [Script.after, hnone]
  exact hd

theorem genResultByResp_receives (h : Lined s.controller s.responses v)
    (hcur : s.controller.currentOp = some a) (hid : (s.controller.heap a).id = resp.id)
    {l : List SpeechResponse} (hl : (s.controller.heap a).status = .start ↔ l = []) :
    Receives resp a l s (genResultByResp resp a s).2 := by
  have hst : (s.controller.heap a).status ≠ .cancelled ∧
      (s.controller.heap a).status ≠ .error := by
    rcases h.current_status hcur with hst | hst
    · simp [hst]
    · simp [hst]
  unfold genResultByResp
  simp only [hid, hst, ne_eq, not_false_eq_true, and_self, if_true]
  -- after the first two blocks
  obtain ⟨h₁, hrec₁⟩ := genStart_spec h hcur hid
  obtain ⟨h₂, hrec₂⟩ := genExtra_spec h₁ hrec₁
  have hconf : Confined a resp.id s (genExtra resp (genStart resp a s)) :=
    (genStart_confined resp a s).trans (genExtra_confined resp a _)
  have hdues := genExtra_dues h₁ hrec₁
  rw [genStart_dues h hcur hid hl] at hdues
  generalize genExtra resp (genStart resp a s) = u at h₂ hrec₂ hconf hdues
  have hopen : ∀ t : SpeechImpl, t.controller = u.controller → resp.type ≠ respFinish →
      ∀ b, t.controller.currentOp = some b →
        b = a ∧ (t.controller.heap a).status ≠ .start ∧ ¬ script.final resp := by
    intro t ht htype b hb
    rw [ht, hrec₂.current] at hb
    rw [ht, hrec₂.streaming]
    exact ⟨(Option.some.inj hb).symm, by simp, htype⟩
  have hsound : (u.controller.heap a).status ≠ .error := by simp [hrec₂.streaming]
  split
  · rename_i htype
    have hne : resp.type ≠ respFinish := by simp [htype, respIntermediate, respFinish]
    refine ⟨hconf.trans (.stream _), ?_, hsound, hopen _ rfl hne⟩
    refine after_eq (fun hfin => hne hfin.1) ?_
    refine (genStream_dues h₂ hrec₂ _).trans ?_
    rw [hdues]
    simp [script, htype]
  · split
    · rename_i htype
      have hne : resp.type ≠ respFinish := by simp [htype, respAsrFinish, respFinish]
      refine ⟨hconf.trans (.stream _), ?_, hsound, hopen _ rfl hne⟩
      refine after_eq (fun hfin => hne hfin.1) ?_
      refine (genStream_dues h₂ hrec₂ _).trans ?_
      rw [hdues]
      simp [script, htype, respAsrFinish, respIntermediate]
    · split
      · rename_i hinter hasr htype
        by_cases hres : resp.result = 0
        · rw [if_pos hres]
          refine ⟨hconf.trans (genEnd_confined hrec₂.current), ?_, genEnd_sound hrec₂, ?_⟩
          · refine after_eq (fun hfin => hfin.2 hres) ?_
            refine (genEnd_dues h₂ hrec₂).trans ?_
            rw [hdues]
            simp [script, htype, respAsrFinish, respIntermediate, respFinish]
          · intro b hb
            have hnone : (genEnd resp a u).controller.currentOp = none :=
              OpCtl.finishOp_current _
            rw [show (genEnd resp a u).notifyResp.controller = (genEnd resp a u).controller from rfl,
              hnone] at hb
            cases hb
        · rw [if_neg hres]
          refine ⟨hconf.trans (genError_confined hrec₂.current), ?_, genError_sound hrec₂, ?_⟩
          · have herr : script.failure resp = some (resp.result.setWidth 16) :=
              if_pos ⟨htype, hres⟩
            refine (genError_dues h₂ hrec₂ hres).trans ?_
            rw [Script.after, herr]
          · intro b hb
            have hnone : (genError resp u).controller.currentOp = none :=
              OpCtl.finishOp_current _
            rw [show (genError resp u).notifyResp.controller = (genError resp u).controller from rfl,
              hnone] at hb
            cases hb
      · rename_i hinter hasr hfin
        refine ⟨hconf, ?_, hsound, hopen _ rfl hfin⟩
        refine after_eq (fun hfin' => hfin hfin'.1) ?_
        rw [hdues]
        simp [script, hinter, hasr, hfin]

end Receive

/-! ### `poll` -/

/-- The result `poll` returns for an operation that is cancelled or has failed. -/
def droppedResult (op : Operation SpeechError) : SpeechResult :=
  if op.status = .cancelled then bareResult op.id .cancelled SpeechError.success
  else bareResult op.id .error op.error

theorem poll_move {s : SpeechImpl} {v : List (Int × Bool)}
    (h : Lined s.controller s.responses v) (hplain : PlainContent s.responses) :
    ∃ o c q, s.poll = some (o, { s with controller := c, responses := q }) ∧ 
      PollMove pieceResult droppedResult s.controller s.responses o c q := by
  unfold poll
  cases hfront : s.controller.frontOp with
  | none =>
      refine ⟨none, _, _, rfl, .idle rfl ?_⟩
      intro a ha
      rw [hfront] at ha
      cases ha
  | some a =>
      simp only
      by_cases hcan : (s.controller.heap a).status = .cancelled
      · obtain ⟨q', b, v', hdrop, -⟩ := h.dropStream_front hfront (.inl hcan) popArgs
        simp only [hcan, if_true, hdrop, Option.bind_eq_bind, Option.bind_some]
        have hres : droppedResult (s.controller.heap a) =
            bareResult (s.controller.heap a).id .cancelled SpeechError.success := if_pos hcan
        rw [← hres]
        exact ⟨_, _, _, rfl, .drop hfront (fun hint => hint.1 hcan)
          (h.dropStream_spares hfront hdrop)⟩
      by_cases herr : (s.controller.heap a).status = .error
      · obtain ⟨q', b, v', hdrop, -⟩ := h.dropStream_front hfront (.inr herr) popArgs
        simp only [herr, reduceCtorEq, if_true, if_false, hdrop, Option.bind_eq_bind,
          Option.bind_some]
        have hres : droppedResult (s.controller.heap a) =
            bareResult (s.controller.heap a).id .error (s.controller.heap a).error := if_neg hcan
        rw [← hres]
        exact ⟨_, _, _, rfl, .drop hfront (fun hint => hint.2 herr)
          (h.dropStream_spares hfront hdrop)⟩
      have hint : s.controller.Intact a := ⟨hcan, herr⟩
      rw [if_neg hcan, if_neg herr]
      obtain ⟨q', ⟨hnil, hpop, hrec⟩ | ⟨p, hpop, htakes⟩⟩ := h.pop_dues hfront hint popArgs
      · rw [hpop]
        refine ⟨none, _, _, rfl, .idle hrec ?_⟩
        intro b hb
        rw [hfront] at hb
        obtain rfl := Option.some.inj hb
        exact ⟨hint, hnil⟩
      · rw [hpop]
        simp only [p.type_ne_empty, if_false, Piece.fill_id, if_true]
        obtain ⟨type, htype⟩ : ∃ type, poptypeToRestype p.type.toInt = some type := by
          cases p with
          | start => exact ⟨_, rfl⟩
          | data d => exact ⟨_, rfl⟩
          | end_ d => exact ⟨_, rfl⟩
          | error e => exact ⟨_, rfl⟩
        have hfifo : Fifo.pop popArgs s.responses.records =
            (p.type, p.fill (s.controller.heap a).id popArgs, q'.records) := by
          obtain ⟨t, out, q₁, hpop₁, hfifo⟩ := s.responses.pop_eq popArgs
          rw [hpop] at hpop₁
          cases hpop₁
          exact hfifo
        have hlast : p.type.isLast = p.isLast := by cases p <;> rfl
        have hrem : p.type ≠ .removed := by cases p <;> simp [Piece.type]
        have hres : popResult type (p.fill (s.controller.heap a).id popArgs) =
            pieceResult (s.controller.heap a).id p := by
          rw [pieceResult, htype, Option.getD_some]
        have hterm := popResult_terminal hplain hfifo p.type_ne_empty hrem htype
        rw [hres, hlast] at hterm
        rw [htype]
        simp only [Option.bind_eq_bind, Option.bind_some, hres, hterm]
        exact ⟨_, _, _, rfl, .take hfront hint htakes⟩

/-! ### Every step -/

/-- What has been polled, and what is owed, is what the responses in the trace say. -/
structure Answered (s : SpeechImpl) (tr : List (Nat × SpeechResponse)) : Prop where
  inv : Inv s
  told : Told script pieceResult s.controller s.responses (s.initialized = true) s.epoch
    (handled tr) (polledFor s.log)

namespace Answered

variable {s t : SpeechImpl} {tr : List (Nat × SpeechResponse)}

theorem init : Answered {} [] := ⟨inv_init, .init _⟩

/-- Nothing is polled and no response is received. -/
theorem steady (h : Answered s tr) (hinv : Inv t) (hs : s.controller.Steady t.controller)
    (he : t.epoch = s.epoch) (hlog : ∀ a, polledFor t.log a = polledFor s.log a)
    (hlive : t.initialized = true →
      s.initialized = true ∧ t.responses.records = s.responses.records) : Answered t tr := by
  refine ⟨hinv, ?_⟩
  rw [he, funext hlog]
  exact h.told.steady hs hlive

/-- The controller and the streams are left alone. -/
theorem unseen (h : Answered s tr) (hinv : Inv t) (hc : t.controller = s.controller)
    (hq : t.responses = s.responses) (he : t.epoch = s.epoch)
    (hlog : ∀ a, polledFor t.log a = polledFor s.log a)
    (hi : t.initialized = true → s.initialized = true) : Answered t tr := by
  refine h.steady hinv ?_ he hlog ?_
  · rw [hc]
    exact .refl _
  · intro hinit
    exact ⟨hi hinit, by rw [hq]⟩

theorem prepare (h : Answered s tr) (hinv : Inv s.prepare)
    (hclean : s.initialized = false → s.controller.operations = []) :
    Answered s.prepare tr := by
  cases hi : s.initialized with
  | true =>
      have hsame : s.prepare = s := if_pos hi
      rw [hsame]
      exact h
  | false =>
      refine ⟨hinv, ?_⟩
      have heq : s.prepare.controller = s.controller ∧ s.prepare.responses = s.responses ∧
          s.prepare.epoch = s.controller.fresh ∧ s.prepare.log = [] := by
        simp [SpeechImpl.prepare, hi]
      obtain ⟨hc, hq, he, hlog⟩ := heq
      rw [hc, hq, he, hlog]
      exact h.told.reopen (hclean hi)

theorem release (h : Answered s tr) (hst : s.release = some t) : Answered t tr := by
  have hinv := h.inv.release hst
  cases release_move hst with
  | absent => exact h
  | enter hrel hinit => exact h.unseen hinv rfl rfl rfl (fun _ => rfl) fun _ => hinit
  | close => exact h.unseen hinv rfl rfl rfl (fun _ => rfl) fun hi => hi
  | setError =>
      exact h.steady hinv (.setOpError _ _) rfl (fun _ => rfl) fun hi => ⟨hi, rfl⟩
  | joinReq => exact h.unseen hinv rfl rfl rfl (fun _ => rfl) fun hi => hi
  | closeResp hrel =>
      -- the streams are closed when nobody polls any more
      refine h.steady hinv (.finishOp _) rfl (fun _ => rfl) ?_
      intro hi
      have hi' : s.initialized = true := hi
      rw [h.inv.releasing (by simp [hrel])] at hi'
      cases hi'
  | joinResp => exact h.unseen hinv rfl rfl rfl (fun _ => rfl) fun hi => hi

theorem call (h : Answered s tr) {n : Nat} {c : SpeechCall} (hst : s.call n c = some t) :
    Answered t tr := by
  have hinv := h.inv.call hst
  cases call_move hst with
  | stay => exact h
  | enter => exact h.unseen hinv rfl rfl rfl (fun _ => rfl) fun hi => hi
  | cancel =>
      refine h.unseen hinv rfl rfl rfl ?_ fun hi => hi
      intro a
      simp [record, setClient, polledFor]

theorem client (h : Answered s tr) {n : Nat} (hok : AtomicIncr s (.client n))
    (hst : s.client n = some t) : Answered t tr := by
  have hinv := h.inv.client hok hst
  have hsnoc : ∀ e : SpeechEvent, (∀ a r, e ≠ .result a r) →
      ∀ a, polledFor (s.log ++ [e]) a = polledFor s.log a := by
    intro e he a
    cases e with
    | result b r => exact absurd rfl (he b r)
    | _ => simp [polledFor]
  cases client_move hst with
  | push => exact h.unseen hinv rfl rfl rfl (hsnoc _ (by simp)) fun hi => hi
  | start => exact h.unseen hinv rfl rfl rfl (hsnoc _ (by simp)) fun hi => hi
  | cancelReq hpc hreq hq htext htype hmore =>
      refine h.unseen hinv rfl rfl rfl ?_ fun hi => hi
      rcases hmore with ⟨-, -, rfl⟩ | ⟨-, -, rfl⟩
      · intro a
        simp
      · exact hsnoc _ (by simp)
  | cancelOp =>
      exact h.steady hinv (.cancelOp _ _) rfl (hsnoc _ (by simp)) fun hi => ⟨hi, rfl⟩
  | _ => exact h.unseen hinv rfl rfl rfl (fun _ => rfl) fun hi => hi

theorem pollStep (h : Answered s tr) (hst : s.pollStep = some t) : Answered t tr := by
  have hinv := h.inv.pollStep hst
  unfold SpeechImpl.pollStep at hst
  split at hst
  · split at hst
    · rename_i hi
      obtain ⟨v, hv⟩ := h.inv.lined (.inl hi)
      obtain ⟨o, c, q, hpoll, hmove⟩ := poll_move hv h.inv.plain
      rw [hpoll] at hst
      cases o with
      | none =>
          cases hst
          refine ⟨hinv, ?_⟩
          exact h.told.pollMove hv hi hmove fun b => by simp [entries]
      | some r =>
          cases hst
          refine ⟨hinv, ?_⟩
          exact h.told.pollMove hv hi hmove fun b => polledFor_result _ _ _ _
    · cases hst
      exact h
  · cases hst

/-- The send thread creates an operation. -/
theorem newOp (h : Answered s tr) (hinv : Inv t) (hpc : s.send ≠ .done)
    (hcur : s.controller.currentOp = none) {id : Int} {st : OpStatus}
    (hst : st = .cancelled ∨ st = .start) (hc : t.controller = s.controller.newOp s.now id st)
    (hq : t.responses = s.responses) (he : t.epoch = s.epoch) (hlog : t.log = s.log)
    (hi : t.initialized = s.initialized) (hr : t.releasing = s.releasing) : Answered t tr := by
  refine ⟨hinv, ?_⟩
  have hstr : t.Streaming := by
    have hstr : s.Streaming := by
      by_contra hs
      exact hpc (h.inv.sendDone (.inr hs))
    rwa [Streaming, hi, hr]
  obtain ⟨v, hv⟩ := hinv.lined hstr
  rw [hc, hq] at hv
  rw [hc, hq, he, hlog, hi]
  exact h.told.newOp hcur (hst.imp_right fun hstart => ⟨hstart, v, hv⟩)

theorem send_step (h : Answered s tr) {r : ConnectionOpResult} (hst : s.sendStep r = some t) :
    Answered t tr := by
  have hinv := h.inv.send_step hst
  have hknows := h.inv.send
  cases sendStep_move hst with
  | create hpc htype =>
      rw [hpc] at hknows
      exact h.newOp hinv (by simp [hpc]) hknows.changeOp_none (.inr rfl) rfl rfl rfl rfl rfl rfl
  | createCancelled hpc htype =>
      rw [hpc] at hknows
      exact h.newOp hinv (by simp [hpc]) hknows.changeOp_none (.inl rfl) rfl rfl rfl rfl rfl rfl
  | cancelCurrent =>
      exact h.steady hinv (.cancelStale _ _) rfl (fun _ => rfl) fun hi => ⟨hi, rfl⟩
  | setError =>
      exact h.steady hinv (.setOpError _ _) rfl (fun _ => rfl) fun hi => ⟨hi, rfl⟩
  | refresh =>
      exact h.steady hinv (.refreshOpTime _ _ _) rfl (fun _ => rfl) fun hi => ⟨hi, rfl⟩
  | park =>
      have hs : s.controller.Steady { s.controller with opWaiting := true } :=
        ⟨rfl, rfl, fun _ => rfl, fun _ hint => hint, fun _ herr => .inl herr,
          fun _ hcur => ⟨hcur, rfl⟩⟩
      exact h.steady hinv hs rfl (fun _ => rfl) fun hi => ⟨hi, rfl⟩
  | _ => exact h.unseen hinv rfl rfl rfl (fun _ => rfl) fun hi => hi

/-- The current operation gets a response with its id. -/
theorem receive (h : Answered s tr) {resp : SpeechResponse} {a : Nat}
    (hcur : s.controller.currentOp = some a) (hid : (s.controller.heap a).id = resp.id)
    (hinv : Inv (genResultByResp resp a s).2) :
    Answered (genResultByResp resp a s).2 (tr ++ [(a, resp)]) := by
  have hstr : s.Streaming := by
    by_contra hs
    rw [(h.inv.closed hs).1] at hcur
    cases hcur
  obtain ⟨v, hv⟩ := h.inv.lined hstr
  have hrec := genResultByResp_receives hv hcur hid (h.told.begun a hcur)
  have heq := (genResultByResp_section resp hcur).eq
  generalize (genResultByResp resp a s).2 = u at hinv hrec heq
  refine ⟨hinv, ?_⟩
  have hepoch : u.epoch = s.epoch := by rw [heq]
  have hlog : u.log = s.log := by rw [heq]
  have hinit : u.initialized = s.initialized := by rw [heq]
  rw [hepoch, hlog, hinit]
  have hconf := hrec.confined
  rw [← hid] at hconf
  exact h.told.receive hv hcur hconf hrec.sound hrec.current hrec.dues
    fun b => entries_snoc tr a b resp

/-- `refresh_op_time` on its own. -/
theorem refresh (h : Answered s tr) (recv : Bool) :
    Answered (s.setController (s.controller.refreshOpTime s.now recv)) tr := by
  have hquiet := OpCtl.Quiet.refreshOpTime s.controller s.now recv
  have hinv : Inv (s.setController (s.controller.refreshOpTime s.now recv)) := by
    refine h.inv.quiet h.inv.running rfl rfl rfl rfl rfl (.refl _) h.inv.texts h.inv.ids hquiet
      (fun v hv => ⟨v, hv.refreshOpTime _ _⟩) h.inv.plain ?_
    intro hs
    obtain ⟨hcur, hclosed⟩ := h.inv.closed hs
    have hsame : s.controller.refreshOpTime s.now recv = s.controller := by
      rw [OpCtl.refreshOpTime, hcur]
    simp only [setController, hsame]
    exact hclosed
  exact h.steady hinv (.refreshOpTime _ _ _) rfl (fun _ => rfl) fun hi => ⟨hi, rfl⟩

/-- One result of `connection_.recv`. -/
theorem handle (h : Answered s tr) {r r' : ConnectionOpResult} {resp resp' : SpeechResponse}
    (hgen : s.gen = .handle r resp) :
    Answered (s.handleResult r resp).2 (tr ++ received s (.gen r' resp')) := by
  have hinv := h.inv.handle r resp
  have herror : ∀ err, Inv (s.setController (s.controller.setOpError err)).notifyResp →
      Answered (s.setController (s.controller.setOpError err)).notifyResp tr :=
    fun err hinv => h.steady hinv (.setOpError _ _) rfl (fun _ => rfl) fun hi => ⟨hi, rfl⟩
  cases r with
  | success =>
      have h₁ := h.refresh true
      by_cases hid : s.controller.Foreign resp.id
      · rw [handleResult_foreign hid, received_foreign hgen hid, List.append_nil]
        exact h₁
      · obtain ⟨a, hcur, hid⟩ := OpCtl.exists_current hid
        have hone : received s (.gen r' resp') = [(a, resp)] := by
          simp [received, hgen, hcur, hid]
        rw [handleResult_current hcur] at hinv ⊢
        rw [hone]
        exact h₁.receive ((OpCtl.refreshOpTime_currentOp _ _ _).trans hcur)
          ((OpCtl.refreshOpTime_heap _ _ _ a).1.trans hid) hinv
  | timeout =>
      have hnone : received s (.gen r' resp') = [] := by simp [received, hgen]
      rw [hnone, List.append_nil]
      simp only [handleResult] at hinv ⊢
      split at hinv
      · rename_i hzero
        rw [if_pos hzero]
        exact herror _ hinv
      · rename_i hleft
        rw [if_neg hleft]
        exact h
  | _ =>
      have hnone : received s (.gen r' resp') = [] := by simp [received, hgen]
      rw [hnone, List.append_nil]
      exact herror _ hinv

theorem gen (h : Answered s tr) {r : ConnectionOpResult} {resp : SpeechResponse}
    (hst : s.genStep r resp = some t) : Answered t (tr ++ received s (.gen r resp)) := by
  have hinv := h.inv.gen hst
  unfold SpeechImpl.genStep at hst
  split at hst
  · rename_i hpc
    have hnone : received s (.gen r resp) = [] := by simp [received, hpc]
    rw [hnone, List.append_nil]
    split at hst
    · cases hst
      exact h.unseen hinv rfl rfl rfl (fun _ => rfl) fun hi => hi
    · cases hst
  · rename_i hpc
    have hnone : received s (.gen r resp) = [] := by simp [received, hpc]
    rw [hnone, List.append_nil]
    split at hst
    · split at hst
      · cases hst
        exact h.unseen hinv rfl rfl rfl (fun _ => rfl) fun hi => hi
      · cases hst
        exact h.unseen hinv rfl rfl rfl (fun _ => rfl) fun hi => hi
    · cases hst
  · rename_i r₁ resp₁ hpc
    split at hst
    · have hh : Answered (s.handleResult r₁ resp₁).2 (tr ++ received s (.gen r resp)) :=
        h.handle hpc
      split at hst
      · rename_i id u hres
        rw [hres] at hh
        cases hst
        exact hh.unseen hinv rfl rfl rfl (fun _ => rfl) fun hi => hi
      · rename_i u hres
        rw [hres] at hh
        cases hst
        exact hh.unseen hinv rfl rfl rfl (fun _ => rfl) fun hi => hi
    · cases hst
  · rename_i id hpc
    have hnone : received s (.gen r resp) = [] := by simp [received, hpc]
    rw [hnone, List.append_nil]
    split at hst
    · cases hst
      exact h.unseen hinv rfl rfl rfl (fun _ => rfl) fun hi => hi
    · cases hst
  · cases hst

/-- **One step.** -/
theorem step (h : Answered s tr) {a : SpeechAct} (hok : Orderly s a) (hst : s.step a = some t) :
    Answered t (tr ++ received s a) := by
  have hinv : Inv t := h.inv.step hok.1 hok.2 hst
  have hnil : ∀ {l : List (Nat × SpeechResponse)}, l = [] → Answered t tr → Answered t (tr ++ l) := by
    rintro l rfl ht
    rwa [List.append_nil]
  unfold SpeechImpl.step at hst
  split at hst
  · cases hst
  · cases a with
    | gen r resp => exact h.gen hst
    | prepare =>
        simp only at hst
        split at hst
        · cases hst
          apply hnil rfl
          exact h.prepare hinv fun hi => (hok.1 rfl hi).2.2.1
        · cases hst
    | release =>
        apply hnil rfl
        exact h.release hst
    | call n c =>
        apply hnil rfl
        exact h.call hst
    | client n =>
        apply hnil rfl
        exact h.client hok.2 hst
    | poll =>
        apply hnil rfl
        exact h.pollStep hst
    | config mod =>
        apply hnil rfl
        cases hst
        cases mod with
        | none => exact h
        | some mod => exact h.unseen hinv rfl rfl rfl (fun _ => rfl) fun hi => hi
    | send r =>
        apply hnil rfl
        exact h.send_step hst
    | tick ns =>
        apply hnil rfl
        cases hst
        exact h.unseen hinv rfl rfl rfl (fun _ => rfl) fun hi => hi

end Answered

/-- The steps of the object, with the responses that are received. -/
def AnswerSteps (u : Traced SpeechImpl (Nat × SpeechResponse)) (a : SpeechAct)
    (v : Traced SpeechImpl (Nat × SpeechResponse)) : Prop :=
  Traced.step step received u a = some v

/-- **Every run.** -/
theorem Answered.run {u : Traced SpeechImpl (Nat × SpeechResponse)}
    (hrun : Run AnswerSteps (Traced.Lift Orderly) ⟨{}, []⟩ u) : Answered u.state u.trace := by
  apply hrun.invariant
  · intro t a v hinv hok hst
    obtain ⟨hst', htr⟩ := Traced.step_eq_some.mp hst
    rw [htr]
    exact hinv.step hok hst'
  · exact .init

end SpeechImpl

end OpenVoice
