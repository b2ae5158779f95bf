import OpenVoice.Lib.Traced
import OpenVoice.OpCtl.Script
import OpenVoice.Tts.Moves

/-!
# From responses to voice data

What `gen_result_by_resp` puts into the stream of the current operation for each response: a piece
of data if there is voice data, and the end.  Neither the error code of a response nor a text
without voice data leaves a trace.
-/

namespace OpenVoice

open OpenVoice.Lib

namespace TtsImpl

/-- The pieces `gen_result_by_resp` adds to the stream. -/
def script : Script TtsResponse TtsResultIn where
  pieces resp :=
    (if resp.voice.isSome then [.data (some { voice := resp.voice, text := resp.text })] else []) ++
      if resp.finish then [.end_ none] else []
  failure _ := none
  final resp := resp.finish = true
  final_of_failure := by
    intro resp e h
    cases h

/-- The result `poll` returns for a piece of the stream. -/
def pieceResult (id : Int) (p : Piece TtsResultIn) : TtsResult :=
  let out := p.fill id popArgs
  let resin := if p.type = .data then out.res else none
  { type := (poptypeToRestype p.type.toInt).getD .error, id := id,
    err := integerToReserr out.err, voice := resin.bind (·.voice), text := resin.bind (·.text) }

/-- The result `poll` returns for an operation that is cancelled or has failed. -/
def droppedResult (op : Operation TtsError) : TtsResult :=
  if op.status = .cancelled then
    { type := .cancelled, id := op.id, err := .success, voice := none, text := none }
  else { type := .error, id := op.id, err := op.error, voice := none, text := none }

/-- The response a step of `gen_results` handles, if it is one for the current operation, with
    that operation. -/
def received (s : TtsImpl) : TtsAct → List (Nat × TtsResponse)
  | .gen _ _ =>
      match s.gen, s.controller.currentOp with
      | .handle .success resp, some a =>
          if (s.controller.heap a).id = resp.id then [(a, resp)] else []
      | _, _ => []
  | _ => []

theorem received_foreign {s : TtsImpl} {r : ConnectionOpResult} {resp resp' : TtsResponse}
    (hgen : s.gen = .handle .success resp) (hid : s.controller.Foreign resp.id) :
    received s (.gen r resp') = [] := by
  simp only [received, hgen]
  split
  · rename_i a hpc hcur
    cases hpc
    exact if_neg (hid a hcur)
  · rfl

/-- The responses received for the operation at `a`. -/
abbrev handled (tr : List (Nat × TtsResponse)) (a : Nat) : List TtsResponse := entries tr a

/-- The results `poll` has returned for the operation at `a`. -/
abbrev polledFor (s : TtsImpl) (a : Nat) : List TtsResult := entries s.polled a

/-- `end` is called without data. -/
def NoContent (q : Streams TtsResultIn Int) : Prop := ∀ r ∈ q.records, r.content = none

/-! ### `gen_result_by_resp` -/

section Receive

variable {s : TtsImpl} {resp : TtsResponse} {a : Nat} {v : List (Int × Bool)}

/-- What is still to be polled of an operation. -/
abbrev dues (s : TtsImpl) (a : Nat) : List (Piece TtsResultIn) :=
  s.controller.dues s.responses a

/-- Only the operation at `a` and its stream change. -/
abbrev Confined (a : Nat) (id : Int) (s t : TtsImpl) : Prop :=
  OpCtl.Confined a id s.controller s.responses t.controller t.responses

/-- The current operation is the one the response is for, and it streams. -/
structure Receiving (resp : TtsResponse) (a : Nat) (s : TtsImpl) : Prop where
  current : s.controller.currentOp = some a
  id_eq : (s.controller.heap a).id = resp.id
  streaming : (s.controller.heap a).status = .streaming

theorem genStart_confined (resp : TtsResponse) (a : Nat) (s : TtsImpl) :
    Confined a resp.id s (genStart resp a s) := by
  unfold genStart
  split
  · exact OpCtl.Confined.start.trans (.setStatus _)
  · exact .refl _ _

theorem genVoice_confined (resp : TtsResponse) (a : Nat) (s : TtsImpl) :
    Confined a resp.id s (genVoice resp s) := by
  unfold genVoice
  split
  · exact .stream _
  · exact .refl _ _

theorem genFinish_confined (hrec : Receiving resp a s) :
    Confined a resp.id s (genFinish resp a s) := by
  unfold genFinish
  split
  · simp only [hrec.streaming, ne_eq, reduceCtorEq, not_false_eq_true, and_self, if_true]
    have hset : OpCtl.Confined a resp.id s.controller s.responses
        (s.controller.setStatus a .end_) s.responses := .setStatus _
    exact (hset.trans (.finishOp hrec.current)).trans (.end_ none)
  · exact .refl _ _

theorem genStart_dues (h : Lined s.controller s.responses v)
    (hcur : s.controller.currentOp = some a) (hid : (s.controller.heap a).id = resp.id)
    {l : List TtsResponse} (hl : (s.controller.heap a).status = .start ↔ l = []) :
    (genStart resp a s).dues a = s.dues a ++ Script.opening l := by
  unfold genStart
  split
  · rename_i hst
    obtain ⟨hnone, hstart⟩ := h.start_dues hcur hst
    rw [hid] at hstart
    have hset : OpCtl.Confined a resp.id s.controller s.responses
        (s.controller.setStatus a .streaming) s.responses := .setStatus .streaming
    rw [dues, dues, hnone, hl.mp hst]
    exact (hset.dues_eq (s.responses.start resp.id).2).trans hstart
  · rename_i hst
    have hne : l ≠ [] := fun hnil => hst (hl.mpr hnil)
    cases l with
    | nil => exact absurd rfl hne
    | cons x l => simp [Script.opening]

theorem genVoice_dues (h : Lined s.controller s.responses v) (hrec : Receiving resp a s) :
    (genVoice resp s).dues a = s.dues a ++
      if resp.voice.isSome then [.data (some { voice := resp.voice, text := resp.text })]
      else [] := by
  unfold genVoice
  split
  · have hdues := h.push_dues hrec.current hrec.streaming
      (some { voice := resp.voice, text := resp.text })
    rw [hrec.id_eq] at hdues
    exact hdues
  · rw [List.append_nil]

theorem genFinish_dues (h : Lined s.controller s.responses v) (hno : NoContent s.responses)
    (hrec : Receiving resp a s) :
    (genFinish resp a s).dues a = s.dues a ++ if resp.finish then [.end_ none] else [] := by
  unfold genFinish
  split
  · simp only [hrec.streaming, ne_eq, reduceCtorEq, not_false_eq_true, and_self, if_true]
    obtain ⟨r, hr, hdues⟩ := h.end_dues hrec.current hrec.streaming none
    rw [hrec.id_eq, hno r hr] at hdues
    have hset : OpCtl.Confined a resp.id s.controller s.responses
        (s.controller.setStatus a .end_).finishOp s.responses :=
      (OpCtl.Confined.setStatus _).trans (.finishOp hrec.current)
    exact (hset.dues_eq _).trans hdues
  · rw [List.append_nil]

theorem genStart_receiving (h : Lined s.controller s.responses v)
    (hcur : s.controller.currentOp = some a) (hid : (s.controller.heap a).id = resp.id) :
    Lined (genStart resp a s).controller (genStart resp a s).responses v ∧
      Receiving resp a (genStart resp a s) := by
  obtain ⟨hl, hcur', hid', hst⟩ := genStart_spec h hcur hid
  exact ⟨hl, hcur', hid', hst⟩

theorem genVoice_receiving (h : Lined s.controller s.responses v) (hrec : Receiving resp a s) :
    Lined (genVoice resp s).controller (genVoice resp s).responses v ∧
      Receiving resp a (genVoice resp s) := by
  obtain ⟨hl, hc⟩ := genVoice_spec h hrec.current hrec.id_eq hrec.streaming
  refine ⟨hl, ?_⟩
  constructor
  · rw [hc]
    exact hrec.current
  · rw [hc]
    exact hrec.id_eq
  · rw [hc]
    exact hrec.streaming

theorem genStart_noContent (h : NoContent s.responses) : NoContent (genStart resp a s).responses := by
  unfold genStart
  split
  · exact Streams.all_start h resp.id rfl
  · exact h

theorem genVoice_noContent (h : NoContent s.responses) : NoContent (genVoice resp s).responses := by
  unfold genVoice
  split
  · exact Streams.all_stream h resp.id _ fun _ hr => hr
  · exact h

theorem genFinish_noContent (h : NoContent s.responses) :
    NoContent (genFinish resp a s).responses := by
  unfold genFinish
  split
  · exact Streams.all_end h resp.id none fun _ hr => hr
  · exact h

/-- What a response for the current operation leads to; `l` are the responses before it. -/
structure Receives (resp : TtsResponse) (a : Nat) (l : List TtsResponse) (s t : TtsImpl) :
    Prop where
  confined : Confined a resp.id s t
  dues : t.dues a = script.after l (s.dues a) resp
  noContent : NoContent t.responses
  sound : (t.controller.heap a).status ≠ .error
  current : ∀ b, t.controller.currentOp = some b →
    b = a ∧ (t.controller.heap a).status ≠ .start ∧ ¬ script.final resp

/-- The last block: the operation is over, or it stays current. -/
theorem genFinish_current (hrec : Receiving resp a s) :
    ((genFinish resp a s).controller.heap a).status ≠ .error ∧
      ∀ b, (genFinish resp a s).controller.currentOp = some b →
        b = a ∧ ((genFinish resp a s).controller.heap a).status ≠ .start ∧ ¬ script.final resp := by
  unfold genFinish
  split
  · simp only [hrec.streaming, ne_eq, reduceCtorEq, not_false_eq_true, and_self, if_true]
    have hcur : (s.controller.setStatus a .end_).currentOp = some a := hrec.current
    refine ⟨?_, ?_⟩
    · rw [OpCtl.finishOp_some hcur (by simp) (by simp)]
      simp
    · intro b hb
      rw [OpCtl.finishOp_current] at hb
      cases hb
  · rename_i hfin
    refine ⟨by simp [hrec.streaming], ?_⟩
    intro b hb
    rw [hrec.current] at hb
    exact ⟨(Option.some.inj hb).symm, by simp [hrec.streaming], hfin⟩

theorem genResultByResp_receives (h : Lined s.controller s.responses v)
    (hno : NoContent s.responses) (hcur : s.controller.currentOp = some a)
    (hid : (s.controller.heap a).id = resp.id) {l : List TtsResponse}
    (hl : (s.controller.heap a).status = .start ↔ l = []) :
    Receives resp a l s (genResultByResp resp a s) := by
  obtain ⟨h₁, hrec₁⟩ := genStart_receiving h hcur hid
  obtain ⟨h₂, hrec₂⟩ := genVoice_receiving h₁ hrec₁
  have hno₂ : NoContent (genVoice resp (genStart resp a s)).responses :=
    genVoice_noContent (genStart_noContent hno)
  have hdues := genFinish_dues h₂ hno₂ hrec₂
  rw [genVoice_dues h₁ hrec₁, genStart_dues h hcur hid hl] at hdues
  obtain ⟨hsound, hcurrent⟩ := genFinish_current hrec₂
  have hconf : Confined a resp.id s (genFinish resp a (genVoice resp (genStart resp a s))) :=
    ((genStart_confined resp a s).trans (genVoice_confined resp a _)).trans
      (genFinish_confined hrec₂)
  have hrec : Receives resp a l s (genFinish resp a (genVoice resp (genStart resp a s))) := by
    refine ⟨hconf, ?_, genFinish_noContent hno₂, hsound, hcurrent⟩
    rw [hdues]
    simp [Script.after, script]
  unfold genResultByResp
  simp only [hid, if_true]
  -- the notification does not matter
  split
  · exact ⟨hrec.confined, hrec.dues, hrec.noContent, hrec.sound, hrec.current⟩
  · exact hrec

end Receive

/-! ### `poll` -/

theorem NoContent.pop {q q' : Streams TtsResultIn Int} (h : NoContent q)
    {r : PopType × PopArgs TtsResultIn} (hpop : q.pop popArgs = (r, q')) : NoContent q' := by
  obtain ⟨t, out, q₁, hpop₁, hfifo⟩ := q.pop_eq popArgs
  rw [hpop] at hpop₁
  cases hpop₁
  exact Streams.all_pop h (by rw [hfifo]) fun _ _ _ hcont hr => hcont.trans hr

theorem poll_move {s : TtsImpl} {v : List (Int × Bool)}
    (h : Lined s.controller s.responses v) (hno : NoServerError s.responses) :
    ∃ o c q, s.poll = some (o, { s with controller := c, responses := q }) ∧
      (NoContent s.responses → NoContent q) ∧
      PollMove pieceResult droppedResult s.controller s.responses o c q := by
  unfold poll
  cases hfront : s.controller.frontOp with
  | none =>
      refine ⟨none, _, _, rfl, fun hc => hc, .idle rfl ?_⟩
      intro a ha
      rw [hfront] at ha
      cases ha
  | some a =>
      simp only
      by_cases hcan : (s.controller.heap a).status = .cancelled
      · obtain ⟨q', b, v', hdrop, -, -, hmem⟩ := h.dropStream_front hfront (.inl hcan) popArgs
        simp only [hcan, if_true, hdrop, Option.bind_eq_bind, Option.bind_some]
        have hres : droppedResult (s.controller.heap a) = _ := if_pos hcan
        rw [← hres]
        exact ⟨_, _, _, rfl, fun hc r hr => hc r (hmem r hr),
          .drop hfront (fun hint => hint.1 hcan) (h.dropStream_spares hfront hdrop)⟩
      by_cases herr : (s.controller.heap a).status = .error
      · obtain ⟨q', b, v', hdrop, -, -, hmem⟩ := h.dropStream_front hfront (.inr herr) popArgs
        simp only [herr, reduceCtorEq, if_true, if_false, hdrop, Option.bind_eq_bind,
          Option.bind_some]
        have hres : droppedResult (s.controller.heap a) = _ := if_neg hcan
        rw [← hres]
        exact ⟨_, _, _, rfl, fun hc r hr => hc r (hmem r hr),
          .drop hfront (fun hint => hint.2 herr) (h.dropStream_spares hfront hdrop)⟩
      have hint : s.controller.Intact a := ⟨hcan, herr⟩
      rw [if_neg hcan, if_neg herr]
      obtain ⟨q', ⟨hnil, hpop, hrec⟩ | ⟨p, hpop, htakes⟩⟩ := h.pop_dues hfront hint popArgs
      · rw [hpop]
        refine ⟨none, _, _, rfl, fun hc => hc.pop hpop, .idle hrec ?_⟩
        intro b hb
        rw [hfront] at hb
        obtain rfl := Option.some.inj hb
        exact ⟨hint, hnil⟩
      · have hcontent : NoContent s.responses → NoContent q' := fun hc => hc.pop hpop
        rw [hpop]
        simp only [p.type_ne_empty, if_false, Piece.fill_id, if_true]
        cases p with
        | start => exact ⟨_, _, _, rfl, hcontent, .take (p := .start) hfront hint htakes⟩
        | data d => exact ⟨_, _, _, rfl, hcontent, .take (p := .data d) hfront hint htakes⟩
        | end_ d => exact ⟨_, _, _, rfl, hcontent, .take (p := .end_ d) hfront hint htakes⟩
        | error e =>
            obtain ⟨t, out, q₁, hpop₁, -, -, hserr⟩ := h.pop_front hfront hcan herr popArgs
            rw [hpop] at hpop₁
            cases hpop₁
            obtain ⟨r, hr, e', hst⟩ := hserr rfl
            exact absurd hst (hno r hr e')

theorem cancel_steady (id : Int) (s : TtsImpl) :
    s.controller.Steady (s.cancel id).controller ∧ (s.cancel id).responses = s.responses ∧
      (s.cancel id).epoch = s.epoch ∧ (s.cancel id).polled = s.polled ∧
      (s.cancel id).initialized = s.initialized := by
  unfold cancel
  split
  · exact ⟨.refl _, rfl, rfl, rfl, rfl⟩
  · simp only
    split
    · split
      · exact ⟨.cancelOp _ _, rfl, rfl, rfl, rfl⟩
      · exact ⟨.cancelOp _ _, rfl, rfl, rfl, rfl⟩
    · split
      · split
        · exact ⟨.cancelOp _ _, rfl, rfl, rfl, rfl⟩
        · exact ⟨.cancelOp _ _, rfl, rfl, rfl, rfl⟩
      · exact ⟨.refl _, rfl, rfl, rfl, rfl⟩

/-! ### Every step -/

/-- What has been polled, and what is owed, is what the responses in the trace say. -/
structure Answered (s : TtsImpl) (tr : List (Nat × TtsResponse)) : Prop where
  inv : Inv s
  noContent : NoContent s.responses
  told : Told script pieceResult s.controller s.responses (s.initialized = true) s.epoch
    (handled tr) (polledFor s)

namespace Answered

variable {s t : TtsImpl} {tr : List (Nat × TtsResponse)}

theorem init : Answered {} [] := ⟨inv_init, by simp [NoContent], .init _⟩

/-- Nothing is polled and no response is received. -/
theorem steady (h : Answered s tr) (hinv : Inv t) (hs : s.controller.Steady t.controller)
    (hno : NoContent t.responses) (he : t.epoch = s.epoch) (hp : t.polled = s.polled)
    (hlive : t.initialized = true →
      s.initialized = true ∧ t.responses.records = s.responses.records) : Answered t tr := by
  refine ⟨hinv, hno, ?_⟩
  rw [he, show polledFor t = polledFor s from funext fun a => by rw [polledFor, hp]]
  exact h.told.steady hs hlive

/-- The controller and the streams are left alone. -/
theorem unseen (h : Answered s tr) (hinv : Inv t) (hc : t.controller = s.controller)
    (hq : t.responses = s.responses) (he : t.epoch = s.epoch) (hp : t.polled = s.polled)
    (hi : t.initialized = true → s.initialized = true) : Answered t tr := by
  refine h.steady hinv ?_ ?_ he hp ?_
  · rw [hc]
    exact .refl _
  · rw [hq]
    exact h.noContent
  · intro hinit
    exact ⟨hi hinit, by rw [hq]⟩

theorem prepare (h : Answered s tr) (hinv : Inv s.prepare)
    (hclean : s.initialized = false → s.controller.operations = []) :
    Answered s.prepare tr := by
  cases hi : s.initialized with
  | true =>
      have hsame : s.prepare = s := if_pos hi
      rw [hsame]
      exact h
  | false =>
      have heq : s.prepare.controller = s.controller ∧ s.prepare.responses = s.responses ∧
          s.prepare.epoch = s.controller.fresh ∧ s.prepare.polled = [] := by
        simp [TtsImpl.prepare, hi]
      obtain ⟨hc, hq, he, hp⟩ := heq
      refine ⟨hinv, ?_, ?_⟩
      · rw [hq]
        exact h.noContent
      · rw [hc, hq, he, show polledFor s.prepare = fun _ => [] from
          funext fun a => by rw [polledFor, hp]; rfl]
        exact h.told.reopen (hclean hi)

theorem release (h : Answered s tr) (hst : s.release = some t) : Answered t tr := by
  have hinv := h.inv.release hst
  cases release_move hst with
  | absent => exact h
  | enter hrel hinit => exact h.unseen hinv rfl rfl rfl rfl fun _ => hinit
  | close => exact h.unseen hinv rfl rfl rfl rfl fun hi => hi
  | joinReq => exact h.unseen hinv rfl rfl rfl rfl fun hi => hi
  | closeResp hrel =>
      -- the streams are closed when nobody polls any more
      refine h.steady hinv (.finishOp _) ?_ rfl rfl ?_
      · intro r hr
        rw [Streams.close_records] at hr
        cases hr
      · intro hi
        have hi' : s.initialized = true := hi
        rw [h.inv.releasing (by simp [hrel])] at hi'
        cases hi'
  | joinResp => exact h.unseen hinv rfl rfl rfl rfl fun hi => hi

theorem call (h : Answered s tr) {n : Nat} {pc : ClientPc} (hst : s.call n pc = some t) :
    Answered t tr := by
  have hinv := h.inv.call hst
  unfold TtsImpl.call at hst
  split at hst
  · split at hst
    · cases hst
      exact h.unseen hinv rfl rfl rfl rfl fun hi => hi
    · cases hst
      exact h
  · cases hst
    exact h.unseen hinv rfl rfl rfl rfl fun hi => hi
  · cases hst

theorem client (h : Answered s tr) {n : Nat} (hst : s.client n = some t) : Answered t tr := by
  have hinv := h.inv.client hst
  unfold TtsImpl.client at hst
  split at hst
  · split at hst
    · cases hst
    · cases hst
      exact h.unseen hinv rfl rfl rfl rfl fun hi => hi
    · cases hst
      obtain ⟨hs, hq, he, hp, hi⟩ :=
        cancel_steady _ { s with clients := Function.update s.clients n .idle }
      refine h.steady hinv hs ?_ he hp ?_
      · rw [hq]
        exact h.noContent
      · intro hinit
        rw [hi] at hinit
        exact ⟨hinit, by rw [hq]⟩
  · cases hst

theorem pollStep (h : Answered s tr) : Answered s.pollStep tr := by
  have hinv := h.inv.pollStep
  unfold TtsImpl.pollStep at hinv ⊢
  split
  · rename_i hi
    obtain ⟨v, hv, -⟩ := h.inv.lined (.inl hi)
    obtain ⟨o, c, q, hpoll, hcontent, hmove⟩ := poll_move hv h.inv.noError
    have hno : NoContent q := hcontent h.noContent
    rw [if_pos hi, hpoll] at hinv
    rw [hpoll]
    cases o with
    | none =>
        refine ⟨hinv, hno, ?_⟩
        exact h.told.pollMove hv hi hmove fun b => by simp [entries]
    | some r =>
        refine ⟨hinv, hno, ?_⟩
        exact h.told.pollMove hv hi hmove fun b => entries_append _ _ _
  · exact h

/-- The send thread creates an operation. -/
theorem newOp (h : Answered s tr) (hinv : Inv t) (hpc : s.send = .loop)
    (hinit : s.initialized = true) {id : Int} {st : OpStatus} (hst : st = .cancelled ∨ st = .start)
    (hc : t.controller = s.controller.newOp s.now id st) (hq : t.responses = s.responses)
    (he : t.epoch = s.epoch) (hp : t.polled = s.polled) (hi : t.initialized = s.initialized) :
    Answered t tr := by
  have hknows := h.inv.send
  rw [hpc] at hknows
  obtain ⟨v, hv, -⟩ := hinv.lined (.inl (hi.trans hinit))
  rw [hc, hq] at hv
  refine ⟨hinv, ?_, ?_⟩
  · rw [hq]
    exact h.noContent
  · rw [hc, hq, he, hi, show polledFor t = polledFor s from funext fun a => by rw [polledFor, hp]]
    exact h.told.newOp hknows (hst.imp_right fun hstart => ⟨hstart, v, hv⟩)

theorem send_step (h : Answered s tr) {r : ConnectionOpResult} (hst : s.sendStep r = some t) :
    Answered t tr := by
  have hinv := h.inv.send_step hst
  cases sendStep_move hst with
  | cancelled hpc hinit => exact h.newOp hinv hpc hinit (.inl rfl) rfl rfl rfl rfl rfl
  | start hpc hinit => exact h.newOp hinv hpc hinit (.inr rfl) rfl rfl rfl rfl rfl
  | setError =>
      exact h.steady hinv (.setOpError _ _) h.noContent rfl rfl fun hi => ⟨hi, rfl⟩
  | refresh =>
      exact h.steady hinv (.refreshOpTime _ _ _) h.noContent rfl rfl fun hi => ⟨hi, rfl⟩
  | block =>
      have hs : s.controller.Steady { s.controller with opWaiting := true } :=
        ⟨rfl, rfl, fun _ => rfl, fun _ hint => hint, fun _ herr => .inl herr,
          fun _ hcur => ⟨hcur, rfl⟩⟩
      exact h.steady hinv hs h.noContent rfl rfl fun hi => ⟨hi, rfl⟩
  | _ => exact h.unseen hinv rfl rfl rfl rfl fun hi => hi

/-- The current operation gets a response with its id. -/
theorem receive (h : Answered s tr) {resp : TtsResponse} {a : Nat}
    (hcur : s.controller.currentOp = some a) (hid : (s.controller.heap a).id = resp.id)
    (hinv : Inv (genResultByResp resp a s)) :
    Answered (genResultByResp resp a s) (tr ++ [(a, resp)]) := by
  have hstr : s.Streaming := by
    by_contra hs
    rw [(h.inv.closed hs).1] at hcur
    cases hcur
  obtain ⟨v, hv, -⟩ := h.inv.lined hstr
  have hrec := genResultByResp_receives hv h.noContent hcur hid (h.told.begun a hcur)
  have heq := (genResultByResp_section resp hcur).eq
  generalize genResultByResp resp a s = u at hinv hrec heq
  refine ⟨hinv, hrec.noContent, ?_⟩
  have hepoch : u.epoch = s.epoch := by rw [heq]
  have hinit : u.initialized = s.initialized := by rw [heq]
  have hp : polledFor u = polledFor s := by rw [heq]
  rw [hepoch, hp, hinit]
  have hconf := hrec.confined
  rw [← hid] at hconf
  exact h.told.receive hv hcur hconf hrec.sound hrec.current hrec.dues
    fun b => entries_snoc tr a b resp

/-- One result of `connection_.recv`. -/
theorem handle (h : Answered s tr) {r r' : ConnectionOpResult} {resp resp' : TtsResponse}
    (hgen : s.gen = .handle r resp) :
    Answered (s.handleResult r resp) (tr ++ received s (.gen r' resp')) := by
  have hinv := h.inv.handle r resp
  have herror : ∀ err, Inv (s.setController (s.controller.setOpError err)).notifyResp →
      Answered (s.setController (s.controller.setOpError err)).notifyResp tr :=
    fun err hinv => h.steady hinv (.setOpError _ _) h.noContent rfl rfl fun hi => ⟨hi, rfl⟩
  cases r with
  | success =>
      have hinv₁ : Inv (s.setController (s.controller.refreshOpTime s.now true)) :=
        h.inv.quiet rfl rfl rfl rfl rfl rfl rfl (.refreshOpTime _ _ _)
          (fun v hv => ⟨v, hv.refreshOpTime _ _, List.suffix_refl _⟩) h.inv.noError
          fun hs => (h.inv.closed hs).2
      have h₁ : Answered (s.setController (s.controller.refreshOpTime s.now true)) tr :=
        h.steady hinv₁ (.refreshOpTime _ _ _) h.noContent rfl rfl fun hi => ⟨hi, rfl⟩
      by_cases hid : s.controller.Foreign resp.id
      · rw [handleResult_foreign hid, received_foreign hgen hid, List.append_nil]
        exact h₁
      · obtain ⟨a, hcur, hid⟩ := OpCtl.exists_current hid
        have hone : received s (.gen r' resp') = [(a, resp)] := by
          simp [received, hgen, hcur, hid]
        rw [handleResult_current hcur] at hinv ⊢
        rw [hone]
        exact h₁.receive ((OpCtl.refreshOpTime_currentOp _ _ _).trans hcur)
          ((OpCtl.refreshOpTime_heap _ _ _ a).1.trans hid) hinv
  | timeout =>
      have hnone : received s (.gen r' resp') = [] := by simp [received, hgen]
      rw [hnone, List.append_nil]
      simp only [handleResult] at hinv ⊢
      split at hinv
      · rename_i hzero
        rw [if_pos hzero]
        exact herror _ hinv
      · rename_i hleft
        rw [if_neg hleft]
        exact h
  | _ =>
      have hnone : received s (.gen r' resp') = [] := by simp [received, hgen]
      rw [hnone, List.append_nil]
      exact herror _ hinv

theorem gen (h : Answered s tr) {r : ConnectionOpResult} {resp : TtsResponse}
    (hst : s.genStep r resp = some t) : Answered t (tr ++ received s (.gen r resp)) := by
  have hinv := h.inv.gen hst
  unfold TtsImpl.genStep at hst
  split at hst
  · rename_i hpc
    have hnone : received s (.gen r resp) = [] := by simp [received, hpc]
    rw [hnone, List.append_nil]
    cases hst
    exact h.unseen hinv rfl rfl rfl rfl fun hi => hi
  · rename_i hpc
    have hnone : received s (.gen r resp) = [] := by simp [received, hpc]
    rw [hnone, List.append_nil]
    split at hst
    · split at hst
      · cases hst
        exact h.unseen hinv rfl rfl rfl rfl fun hi => hi
      · cases hst
        exact h.unseen hinv rfl rfl rfl rfl fun hi => hi
    · cases hst
  · rename_i r₁ resp₁ hpc
    have hh : Answered (s.handleResult r₁ resp₁) (tr ++ received s (.gen r resp)) :=
      h.handle hpc
    cases hst
    exact hh.unseen hinv rfl rfl rfl rfl fun hi => hi
  · cases hst

/-- **One step.** -/
theorem step (h : Answered s tr) {a : TtsAct} (hok : CleanPrepare s a) (hst : s.step a = some t) :
    Answered t (tr ++ received s a) := by
  have hinv : Inv t := h.inv.step hok hst
  have hnil : ∀ {l : List (Nat × TtsResponse)}, l = [] → Answered t tr → Answered t (tr ++ l) := by
    rintro l rfl ht
    rwa [List.append_nil]
  unfold TtsImpl.step at hst
  split at hst
  · cases hst
  · cases a with
    | gen r resp => exact h.gen hst
    | prepare =>
        simp only at hst
        split at hst
        · cases hst
          apply hnil rfl
          exact h.prepare hinv fun hi => (hok rfl hi).2
        · cases hst
    | release =>
        apply hnil rfl
        exact h.release hst
    | call n pc =>
        apply hnil rfl
        exact h.call hst
    | client n =>
        apply hnil rfl
        exact h.client hst
    | poll =>
        apply hnil rfl
        cases hst
        exact h.pollStep
    | config mod =>
        apply hnil rfl
        cases hst
        cases mod with
        | none => exact h
        | some mod => exact h.unseen hinv rfl rfl rfl rfl fun hi => hi
    | send r =>
        apply hnil rfl
        exact h.send_step hst
    | tick ns =>
        apply hnil rfl
        cases hst
        exact h.unseen hinv rfl rfl rfl rfl fun hi => hi

end Answered

/-- The steps of the object, with the responses that are received. -/
def AnswerSteps (u : Traced TtsImpl (Nat × TtsResponse)) (a : TtsAct)
    (v : Traced TtsImpl (Nat × TtsResponse)) : Prop :=
  Traced.step step received u a = some v

/-- **Every run.** -/
theorem Answered.run {u : Traced TtsImpl (Nat × TtsResponse)}
    (hrun : Run AnswerSteps (Traced.Lift CleanPrepare) ⟨{}, []⟩ u) : Answered u.state u.trace := by
  apply hrun.invariant
  · intro t a v hinv hok hst
    obtain ⟨hst', htr⟩ := Traced.step_eq_some.mp hst
    rw [htr]
    exact hinv.step hok hst'
  · exact .init

end TtsImpl

end OpenVoice
