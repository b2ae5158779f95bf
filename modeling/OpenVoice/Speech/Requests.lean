import OpenVoice.Speech.Alignment
import OpenVoice.Speech.History
import OpenVoice.StreamQueue.Failed

/-!
# Where the requests of a session are

Every request the send thread goes on with has an operation, and so has every voice stream that
has been closed with an error.  `Requests` says so of all states of a session.
-/

namespace OpenVoice

open OpenVoice.Lib

namespace SpeechImpl

/-! ### `gen_results` -/

theorem genResultByResp_operations (resp : SpeechResponse) (a : Nat) (s : SpeechImpl) :
    (genResultByResp resp a s).2.controller.operations = s.controller.operations := by
  have hstart : (genExtra resp (genStart resp a s)).controller.operations =
      s.controller.operations := by
    rw [genExtra_controller]
    unfold genStart
    split <;> rfl
  unfold genResultByResp
  simp only
  split
  · split
    · exact hstart
    · split
      · exact hstart
      · split
        · by_cases hres : resp.result = 0
          · rw [if_pos hres]
            exact (OpCtl.finishOp_operations _).trans hstart
          · rw [if_neg hres]
            exact (OpCtl.finishOp_operations _).trans hstart
        · exact hstart
  · rfl

/-- Nobody but `poll` takes an operation away. -/
theorem handleResult_operations (r : ConnectionOpResult) (resp : SpeechResponse)
    (s : SpeechImpl) :
    (s.handleResult r resp).2.controller.operations = s.controller.operations := by
  have hrefresh := OpCtl.refreshOpTime_operations s.controller s.now true
  unfold handleResult
  simp only
  split
  · split
    · exact hrefresh
    · exact (genResultByResp_operations _ _ _).trans hrefresh
  · split
    · exact OpCtl.setOpError_operations _ _
    · rfl
  · exact OpCtl.setOpError_operations _ _
  · exact OpCtl.setOpError_operations _ _

/-- `erase_req` is called for the operation that was current. -/
theorem genResultByResp_erase {resp : SpeechResponse} {a : Nat} {s t : SpeechImpl} {id : Int}
    (h : genResultByResp resp a s = (some id, t)) :
    (s.controller.heap a).id = id ∧ t.controller.currentOp = none := by
  unfold genResultByResp at h
  simp only at h
  split at h
  · rename_i hid
    split at h
    · cases h
    · split at h
      · cases h
      · split at h
        · obtain ⟨hsome, rfl⟩ := Prod.mk.inj h
          split at hsome
          · cases hsome
            refine ⟨hid.1, ?_⟩
            by_cases hres : resp.result = 0
            · rw [if_pos hres]
              exact OpCtl.finishOp_current _
            · rw [if_neg hres]
              exact OpCtl.finishOp_current _
          · cases hsome
        · cases h
  · cases h

theorem handleResult_erase {r : ConnectionOpResult} {resp : SpeechResponse} {s t : SpeechImpl}
    {id : Int} (h : s.handleResult r resp = (some id, t)) :
    (∃ a, s.controller.currentOp = some a ∧ (s.controller.heap a).id = id) ∧
      t.controller.currentOp = none := by
  have hcurrent : s.controller.current.map (·.id) = some id →
      ∃ a, s.controller.currentOp = some a ∧ (s.controller.heap a).id = id := by
    intro hsome
    unfold OpCtl.current at hsome
    cases hcur : s.controller.currentOp with
    | none => simp [hcur] at hsome
    | some a =>
        rw [hcur] at hsome
        exact ⟨a, rfl, by simpa using hsome⟩
  unfold handleResult at h
  simp only at h
  split at h
  · split at h
    · cases h
    · rename_i a hcur
      obtain ⟨hid, hnone⟩ := genResultByResp_erase h
      have hquiet := OpCtl.Quiet.refreshOpTime s.controller s.now true
      exact ⟨⟨a, hquiet.current_some hcur, (hquiet.heap_id a).symm.trans hid⟩, hnone⟩
  · split at h
    · obtain ⟨hsome, rfl⟩ := Prod.mk.inj h
      exact ⟨hcurrent hsome, OpCtl.setOpError_current _ _⟩
    · cases h
  · obtain ⟨hsome, rfl⟩ := Prod.mk.inj h
    exact ⟨hcurrent hsome, OpCtl.setOpError_current _ _⟩
  · obtain ⟨hsome, rfl⟩ := Prod.mk.inj h
    exact ⟨hcurrent hsome, OpCtl.setOpError_current _ _⟩

/-- What a step of `gen_results` does besides: it takes no operation away, and marks a voice
    stream in `erase_req` only. -/
theorem genStep_more {s t : SpeechImpl} {r : ConnectionOpResult} {resp : SpeechResponse}
    (h : s.genStep r resp = some t) :
    t.controller.operations = s.controller.operations ∧
      (∀ id, t.voiceReqs.Failed id → s.voiceReqs.Failed id ∨ s.gen = .eraseReq id) ∧
      ∀ id, t.gen = .eraseReq id → (∃ a, s.controller.currentOp = some a ∧
        (s.controller.heap a).id = id) ∧ t.controller.currentOp = none := by
  unfold genStep at h
  split at h
  · split at h
    · cases h
      exact ⟨rfl, fun _ hf => .inl hf, fun _ hg => by cases hg⟩
    · cases h
  · split at h
    · split at h
      · cases h
        exact ⟨rfl, fun _ hf => .inl hf, fun _ hg => by cases hg⟩
      · cases h
        exact ⟨rfl, fun _ hf => .inl hf, fun _ hg => by cases hg⟩
    · cases h
  · rename_i r' resp' _
    have hops := handleResult_operations r' resp' s
    have heq := (handleResult_section r' resp' s).eq
    split at h
    · split at h
      · rename_i id u hres
        rw [hres] at hops heq
        cases h
        refine ⟨hops, ?_, ?_⟩
        · intro x hf
          simp only at heq
          rw [heq] at hf
          exact .inl hf
        · intro x hg
          cases hg
          have herase := handleResult_erase hres
          exact herase
      · rename_i u hres
        rw [hres] at hops heq
        cases h
        refine ⟨hops, ?_, fun _ hg => by cases hg⟩
        intro x hf
        simp only at heq
        rw [heq] at hf
        exact .inl hf
    · cases h
  · rename_i id hpc
    split at h
    · cases h
      refine ⟨rfl, ?_, fun _ hg => by cases hg⟩
      intro x hf
      rcases hf.of_erase with rfl | hf
      · exact .inr hpc
      · exact .inl hf
    · cases h
  · cases h

/-! ### Clients and the send thread -/

/-- No client makes a voice stream fail. -/
theorem client_failed {s t : SpeechImpl} {n : Nat} (h : s.client n = some t) {id : Int}
    (hf : t.voiceReqs.Failed id) : s.voiceReqs.Failed id := by
  unfold client at h
  simp only at h
  split at h
  · cases h
  · cases h
    exact hf
  · cases h
    exact hf
  · split at h
    · cases h
      exact hf
    · cases h
  · split at h
    · cases h
      exact hf
    · cases h
  · unfold startVoice at h
    simp only at h
    split at h
    · rename_i u heq
      split at heq
      · cases heq
        cases h
        exact hf.of_setArg.of_start
      · cases heq
    · rename_i u heq
      split at heq
      · cases heq
      · cases heq
        cases h
        exact hf.of_start
  · rename_i id' voice hpc
    split at h
    · unfold putVoice at h
      simp only at h
      split at h
      · cases h
      · cases h
        -- each piece is one `stream`
        have hfold : ∀ (pieces : List Bytes) (q : Streams Bytes VoiceOptions),
            (pieces.foldl (fun q piece => (q.stream id' (some piece)).2) q).Failed id →
              q.Failed id := by
          intro pieces
          induction pieces with
          | nil => exact fun q hq => hq
          | cons piece pieces ih =>
              intro q hq
              exact (ih _ hq).of_stream
        exact hfold _ _ hf
    · cases h
  · split at h
    · cases h
      exact hf.of_end
    · cases h
  · rename_i id' hpc
    have hreq : ∀ u : SpeechImpl, ((u.cancelReq id').2.voiceReqs.Failed id) →
        u.voiceReqs.Failed id := by
      intro u hu
      unfold cancelReq at hu
      split at hu
      · exact hu
      · split at hu
        · simp only at hu
          split at hu
          · exact hu.of_remove
          · split at hu
            · exact hu.of_remove
            · exact hu.of_remove
        · exact hu.of_clear
    split at h
    · split at h
      · rename_i u heq
        cases h
        apply hreq (s.setClient n .idle)
        rw [heq]
        exact hf
      · rename_i u heq
        cases h
        apply hreq (s.setClient n .idle)
        rw [heq]
        exact hf
    · cases h
  · rename_i id' hpc
    split at h
    · cases h
      obtain ⟨k, heq⟩ := cancelOp_spec id' (s.setClient n .idle)
      rw [heq] at hf
      exact hf
    · cases h

/-- The end of a stream is served when the stream has been started, or has failed. -/
theorem takeReq_failed {s : SpeechImpl} (hpc : s.send = .loop) :
    (∀ id, s.takeReq.voiceReqs.Failed id → s.voiceReqs.Failed id) ∧
      ∀ info, s.takeReq.send = .doCtl info → info.type = .voiceEnd →
        (info.id, true) ∈ s.voiceReqs.keys ∨ s.voiceReqs.Failed info.id := by
  unfold takeReq
  split
  · exact ⟨fun _ hf => hf, fun info hsend => by cases hsend⟩
  · simp only
    have hpopped := s.voiceReqs.pop_keys voiceArgs
    have herror : (s.voiceReqs.pop voiceArgs).1.1 = .error →
        s.voiceReqs.Failed (s.voiceReqs.pop voiceArgs).1.2.id := Streams.failed_of_pop
    have hof : ∀ id, (s.voiceReqs.pop voiceArgs).2.Failed id → s.voiceReqs.Failed id :=
      fun id hf => hf.of_pop
    generalize s.voiceReqs.pop voiceArgs = p at hpopped herror hof
    split
    · split
      · refine ⟨hof, ?_⟩
        intro info hsend
        exact absurd (hpc.symm.trans hsend) (by simp)
      · rename_i type htype
        refine ⟨hof, ?_⟩
        intro info hsend hend
        cases hsend
        obtain ⟨⟨t, out⟩, q⟩ := p
        simp only at hend
        subst hend
        rcases hpopped with ⟨ht, -⟩ | hpopped
        · simp only at ht
          subst ht
          simp [sqtypeToReqtype, PopType.toInt] at htype
        · simp only at hpopped herror
          cases hpopped with
          | start hks hks' => simp [sqtypeToReqtype, PopType.toInt] at htype
          | data hks hks' => simp [sqtypeToReqtype, PopType.toInt] at htype
          | removed hks => simp [sqtypeToReqtype, PopType.toInt] at htype
          | end_ hks =>
              left
              rw [hks]
              exact List.mem_cons_self
          | error hks => exact .inr (herror rfl)
    · split
      · exact ⟨hof, fun info hsend => by cases hsend⟩
      · exact ⟨hof, fun info hsend => by cases hsend⟩

theorem sendStep_failed {s t : SpeechImpl} {r : ConnectionOpResult} (h : s.sendStep r = some t)
    {id : Int} (hf : t.voiceReqs.Failed id) :
    s.voiceReqs.Failed id ∨ s.send = .eraseReq id := by
  cases hpc : s.send with
  | loop =>
      unfold sendStep at h
      rw [hpc] at h
      simp only at h
      split at h
      · cases h
        exact .inl ((takeReq_failed hpc).1 id hf)
      · cases h
  | eraseReq id' =>
      unfold sendStep at h
      rw [hpc] at h
      simp only at h
      split at h
      · cases h
        rcases hf.of_erase with rfl | hf
        · exact .inr rfl
        · exact .inl hf
      · cases h
  | _ =>
      cases sendStep_move h with
      | takeVoice hloop => simp [hpc] at hloop
      | sleep hloop => simp [hpc] at hloop
      | seeText hloop => simp [hpc] at hloop
      | erase herase => simp [hpc] at herase
      | _ => exact .inl hf

/-! ### The invariant -/

/-- The id of the request the send thread goes on with after `do_ctl_change_op`. -/
def SendPc.worked : SendPc → Option Int
  | .request info | .sending info _ | .writing info _ | .sendFailed info _ | .sent info =>
      some info.id
  | .eraseReq id | .waitOp id | .parking id | .blocked id => some id
  | .loop | .waitReq | .textCheck | .textTake _ | .doCtl _ | .changeOp _ _ | .done => none

structure Requests (s : SpeechImpl) : Prop where
  inv : Inv s
  labels : Labels s.nextId s.clients (puts s.log) (starts s.log) (s.textReqs.map (·.id))
    (s.voiceReqs.keys.map Prod.fst) s.send.hand
  worked : ∀ id, s.send.worked = some id → id ∈ s.created
  /-- A stream is served to its end only after its start. -/
  served : ∀ info, s.send.hand = some info → info.type = .voiceEnd ∨ info.type = .voiceData →
    info.id ∈ s.created
  /-- `current_op_` was that of the request in hand when `do_ctl_change_op` read it. -/
  found : ∀ info a, s.send = .changeOp info (some a) → info.id ∈ s.created
  erasing : ∀ id, s.gen = .eraseReq id → id ∈ s.created
  failed : ∀ id, s.voiceReqs.Failed id → id ∈ s.created

/-- The current operation has been created in this session. -/
theorem Inv.current_created {s : SpeechImpl} (h : Inv s) {a : Nat}
    (hcur : s.controller.currentOp = some a) : (s.controller.heap a).id ∈ s.created := by
  have hstr : s.Streaming := by
    by_contra hs
    rw [(h.closed hs).1] at hcur
    cases hcur
  obtain ⟨v, hv⟩ := h.lined hstr
  obtain ⟨l, hl⟩ := hv.current_last hcur
  apply h.opIds.subset
  unfold OpCtl.opIds
  rw [hl]
  exact List.mem_map.mpr ⟨a, List.mem_append_right _ List.mem_cons_self, rfl⟩

/-- Creating an operation appends its id. -/
theorem Inv.newOp_opIds {s : SpeechImpl} (h : Inv s) (hne : s.send ≠ .done) (id : Int)
    (st : SpeechStatus) :
    (s.controller.newOp s.now id st).opIds = s.controller.opIds ++ [id] := by
  have hstr : s.Streaming := by
    by_contra hs
    exact hne (h.sendDone (.inr hs))
  obtain ⟨v, hv⟩ := h.lined hstr
  exact hv.newOp_opIds s.now id st

namespace Requests

variable {s t : SpeechImpl}

theorem opened : Requests opened where
  inv := inv_opened
  labels := .opened
  worked := by
    intro id hid
    cases hid
  served := by
    intro info hinfo
    cases hinfo
  found := by
    intro info a hpc
    cases hpc
  erasing := by
    intro id hid
    cases hid
  failed := by
    rintro id ⟨r, hr, -⟩
    cases hr

/-- A step of any thread but the send thread, by what becomes of the labels. -/
theorem others (h : Requests s) (hinv : Inv t)
    (hlabels : Labels t.nextId t.clients (puts t.log) (starts t.log) (t.textReqs.map (·.id))
      (t.voiceReqs.keys.map Prod.fst) t.send.hand)
    (hsend : t.send = s.send) (hcr : t.created = s.created)
    (hgen : ∀ id, t.gen = .eraseReq id → s.gen = .eraseReq id ∨ id ∈ s.created)
    (hfailed : ∀ id, t.voiceReqs.Failed id → s.voiceReqs.Failed id ∨ id ∈ s.created) :
    Requests t where
  inv := hinv
  labels := hlabels
  worked := by
    intro id hid
    rw [hsend] at hid
    rw [hcr]
    exact h.worked id hid
  served := by
    intro info hinfo htype
    rw [hsend] at hinfo
    rw [hcr]
    exact h.served info hinfo htype
  found := by
    intro info a hpc
    rw [hsend] at hpc
    rw [hcr]
    exact h.found info a hpc
  erasing := by
    intro id hid
    rw [hcr]
    rcases hgen id hid with hold | hnew
    · exact h.erasing id hold
    · exact hnew
  failed := by
    intro id hid
    rw [hcr]
    rcases hfailed id hid with hold | hnew
    · exact h.failed id hold
    · exact hnew

/-- A step that gives out no id and leaves the request in hand where it is. -/
theorem still (h : Requests s) (hinv : Inv t) (hlog : puts t.log = puts s.log)
    (hlog' : starts t.log = starts s.log) (hcl : t.clients = s.clients)
    (hnext : t.nextId = s.nextId) (htext : t.textReqs = s.textReqs ∨ t.textReqs = [])
    (hkeys : t.voiceReqs.keys = s.voiceReqs.keys ∨ t.voiceReqs.keys = [])
    (hsend : t.send = s.send) (hcr : t.created = s.created)
    (hgen : ∀ id, t.gen = .eraseReq id → s.gen = .eraseReq id ∨ id ∈ s.created)
    (hfailed : ∀ id, t.voiceReqs.Failed id → s.voiceReqs.Failed id ∨ id ∈ s.created) :
    Requests t := by
  apply h.others hinv _ hsend hcr hgen hfailed
  rw [hnext, hcl, hlog, hlog', hsend]
  apply h.labels.less
  · intro id hid
    rcases htext with heq | heq
    · rwa [heq] at hid
    · rw [heq] at hid
      cases hid
  · intro id hid
    rcases hkeys with heq | heq
    · rwa [heq] at hid
    · rw [heq] at hid
      cases hid
  · exact h.labels.hand

theorem release (h : Requests s) (hst : s.release = some t) : Requests t := by
  have hinv := h.inv.release hst
  have hgen : ∀ id, s.gen = .eraseReq id → s.gen = .eraseReq id ∨ id ∈ s.created :=
    fun _ hg => .inl hg
  have hfailed : ∀ id, s.voiceReqs.Failed id → s.voiceReqs.Failed id ∨ id ∈ s.created :=
    fun _ hf => .inl hf
  cases release_move hst with
  | absent hrel hinit => exact h
  | enter hrel hinit =>
      exact h.still hinv rfl rfl rfl rfl (.inl rfl) (.inl rfl) rfl rfl hgen hfailed
  | close hrel =>
      exact h.still hinv rfl rfl rfl rfl (.inr rfl) (.inr (Streams.close_keys _)) rfl rfl hgen
        fun _ hf => .inl hf.of_close
  | setError hrel =>
      exact h.still hinv rfl rfl rfl rfl (.inl rfl) (.inl rfl) rfl rfl hgen hfailed
  | joinReq hrel hdone =>
      exact h.still hinv rfl rfl rfl rfl (.inl rfl) (.inl rfl) rfl rfl hgen hfailed
  | closeResp hrel hfree =>
      exact h.still hinv rfl rfl rfl rfl (.inl rfl) (.inl rfl) rfl rfl hgen hfailed
  | joinResp hrel hdone =>
      exact h.still hinv rfl rfl rfl rfl (.inl rfl) (.inl rfl) rfl rfl hgen hfailed

theorem gen (h : Requests s) {r : ConnectionOpResult} {resp : SpeechResponse}
    (hst : s.genStep r resp = some t) : Requests t := by
  have hinv := h.inv.gen hst
  obtain ⟨-, hfailed, herase⟩ := genStep_more hst
  obtain ⟨c, q, v, k, pc, -, hv, rfl⟩ := genStep_spec hst
  apply h.still hinv rfl rfl rfl rfl (.inl rfl) (.inl hv) rfl rfl
  · intro id hid
    obtain ⟨⟨a, hcur, rfl⟩, -⟩ := herase id hid
    exact .inr (h.inv.current_created hcur)
  · intro id hid
    rcases hfailed id hid with hold | hg
    · exact .inl hold
    · exact .inr (h.erasing id hg)

theorem call (h : Requests s) {n : Nat} {c : SpeechCall} (hst : s.call n c = some t) :
    Requests t := by
  have hinv := h.inv.call hst
  cases call_move hst with
  | stay => exact h
  | enter hidle hheld hpc =>
      exact h.others hinv (h.labels.client n hheld) rfl rfl (fun _ hg => .inl hg)
        fun _ hf => .inl hf
  | cancel id hidle =>
      apply h.others hinv _ rfl rfl (fun _ hg => .inl hg) fun _ hf => .inl hf
      simp only [record, setClient, puts_append, puts_cancelCall, starts_append,
        starts_cancelCall, List.append_nil]
      exact h.labels.client n rfl

theorem client (h : Requests s) {n : Nat} (hok : AtomicIncr s (.client n))
    (hst : s.client n = some t) : Requests t := by
  have hinv := h.inv.client hok hst
  have hfailed : ∀ id, t.voiceReqs.Failed id → s.voiceReqs.Failed id ∨ id ∈ s.created :=
    fun _ hf => .inl (client_failed hst hf)
  cases client_move hst with
  | load hpc =>
      exact h.others hinv (h.labels.client n rfl) rfl rfl (fun _ hg => .inl hg) hfailed
  | store hpc =>
      obtain rfl := hok.store hpc
      exact h.others hinv (h.labels.take n rfl) rfl rfl (fun _ hg => .inl hg) hfailed
  | @push text options id p hpc hp htype =>
      apply h.others hinv _ rfl rfl (fun _ hg => .inl hg) hfailed
      have hheld : (s.clients n).held = some id := by
        rw [hpc]
        rfl
      simp only [setClient, puts_append, puts_putText, starts_append, starts_putText,
        List.append_nil, List.map_append, List.map_singleton, hp]
      exact h.labels.put hheld rfl fun m hm => h.inv.ids.held_inj m n id hm hheld
  | lock hpc =>
      exact h.others hinv (h.labels.client n rfl) rfl rfl (fun _ hg => .inl hg) hfailed
  | start hpc hq =>
      obtain rfl := hok.storeVoice hpc
      apply h.others hinv _ rfl rfl (fun _ hg => .inl hg) hfailed
      simp only [setClient, puts_append, puts_startVoice, starts_append, starts_startVoice,
        List.append_nil, hq, List.map_append, List.map_singleton]
      exact (h.labels.client n rfl).start
  | startFailed hpc hq =>
      obtain rfl := hok.storeVoice hpc
      apply h.others hinv _ rfl rfl (fun _ hg => .inl hg) hfailed
      simp only [setClient, hq]
      exact (h.labels.client n rfl).skip
  | voice hpc hq =>
      apply h.others hinv _ rfl rfl (fun _ hg => .inl hg) hfailed
      simp only [setClient, hq]
      exact h.labels.client n rfl
  | @cancelReq id q texts more pc e hpc hreq hq htext htype hmore =>
      apply h.others hinv _ rfl rfl (fun _ hg => .inl hg) hfailed
      have hpc' : pc.held = none ∧ puts e = [] ∧ starts e = [] := by
        rcases hmore with ⟨-, rfl, rfl⟩ | ⟨-, rfl, rfl⟩
        · exact ⟨rfl, rfl, rfl⟩
        · exact ⟨rfl, rfl, rfl⟩
      simp only [setClient, puts_append, starts_append, hpc'.2.1, hpc'.2.2, List.append_nil, hq,
        htext]
      exact h.labels.client n hpc'.1
  | cancelOp hpc =>
      apply h.others hinv _ rfl rfl (fun _ hg => .inl hg) hfailed
      simp only [setClient, puts_append, puts_cancelRet, starts_append, starts_cancelRet,
        List.append_nil]
      exact h.labels.client n rfl

/-- The send thread moves on. -/
theorem sends (h : Requests s) (hinv : Inv t) (hlog : t.log = s.log) (hcl : t.clients = s.clients)
    (hnext : t.nextId = s.nextId) (hgen : t.gen = s.gen)
    (htext : ∀ p ∈ t.textReqs, p ∈ s.textReqs)
    (hkeys : ∀ id ∈ t.voiceReqs.keys.map Prod.fst, id ∈ s.voiceReqs.keys.map Prod.fst)
    (hcr : ∀ id ∈ s.created, id ∈ t.created)
    (hhand : ∀ info, t.send.hand = some info → Labelled (puts s.log) (starts s.log) info ∧
      (info.type = .voiceEnd ∨ info.type = .voiceData → info.id ∈ t.created))
    (hworked : ∀ id, t.send.worked = some id → id ∈ t.created)
    (hfound : ∀ info a, t.send = .changeOp info (some a) → info.id ∈ t.created)
    (hfailed : ∀ id, t.voiceReqs.Failed id → s.voiceReqs.Failed id ∨ s.send = .eraseReq id) :
    Requests t where
  inv := hinv
  labels := by
    rw [hnext, hcl, hlog]
    apply h.labels.less _ hkeys
    · intro info hinfo
      exact (hhand info hinfo).1
    · intro id hid
      obtain ⟨p, hp, rfl⟩ := List.mem_map.mp hid
      exact List.mem_map_of_mem (htext p hp)
  worked := hworked
  served := fun info hinfo => (hhand info hinfo).2
  found := hfound
  erasing := by
    intro id hid
    rw [hgen] at hid
    exact hcr id (h.erasing id hid)
  failed := by
    intro id hid
    rcases hfailed id hid with hold | herase
    · exact hcr id (h.failed id hold)
    · exact hcr id (h.worked id (by rw [herase]; rfl))

/-- A stream that has been started has an operation, unless its start is in hand. -/
theorem started_created (h : Requests s) {id : Int} (hid : (id, true) ∈ s.voiceReqs.keys)
    (hstart : s.send.starting = []) : id ∈ s.created := by
  rcases h.inv.started id hid with hmem | hmem
  · exact hmem
  · rw [hstart] at hmem
    cases hmem

/-- A voice request is taken from the queue. -/
theorem takeVoice (h : Requests s) {info : SpeechReqInfo} {p : PopType}
    {q : Streams Bytes VoiceOptions}
    (hinv : Inv { s with voiceReqs := q, send := .doCtl info }) (hpc : s.send = .loop)
    (heq : s.takeReq = { s with voiceReqs := q, send := .doCtl info })
    (hpop : Popped info.id s.voiceReqs.keys q.keys p) (htype : info.type = reqtype p)
    (hfailed : ∀ id, q.Failed id → s.voiceReqs.Failed id ∨ s.send = .eraseReq id) :
    Requests { s with voiceReqs := q, send := .doCtl info } := by
  have hstarted : ∀ id, (id, true) ∈ s.voiceReqs.keys → id ∈ s.created :=
    fun id hid => h.started_created hid (by rw [hpc]; rfl)
  apply h.sends hinv rfl rfl rfl rfl (fun _ hp => hp) _ (fun _ hid => hid) _ _ _ hfailed
  · intro x hx
    exact hpop.fst_sublist.subset hx
  · intro x hx
    obtain rfl : info = x := by simpa [SendPc.hand] using hx
    refine ⟨.inr ⟨h.labels.keys _ hpop.mem, ?_⟩, ?_⟩
    · rw [htype]
      cases p <;> simp [reqtype]
    · rintro (hend | hdata)
      · rcases (takeReq_failed hpc).2 info (by rw [heq]) hend with hmem | hfail
        · exact hstarted _ hmem
        · exact h.failed _ hfail
      · cases hpop with
        | data hks hks' =>
            apply hstarted
            rw [hks]
            exact List.mem_cons_self
        | _ => simp [htype, reqtype] at hdata
  · intro id hid
    cases hid
  · intro x a hx
    cases hx

/-- If there is an operation when `do_ctl_change_op` is entered, it is that of the request. -/
theorem found_created (h : Requests s) {info : SpeechReqInfo} {a : Nat}
    (hpc : s.send = .doCtl info) (hcur : s.controller.currentOp = some a) :
    info.id ∈ s.created := by
  have hknows := h.inv.send
  rw [hpc] at hknows
  have hknows : TakenKnows s.initialized s.voiceReqs.keys s.controller info := hknows
  unfold TakenKnows at hknows
  cases htype : info.type with
  | text =>
      rw [htype] at hknows
      simp only at hknows
      rw [hknows] at hcur
      cases hcur
  | voiceStart =>
      rw [htype] at hknows
      simp only at hknows
      rw [hknows.1] at hcur
      cases hcur
  | voiceEnd => exact h.served info (by rw [hpc]; rfl) (.inl htype)
  | voiceData => exact h.served info (by rw [hpc]; rfl) (.inr htype)
  | cancelled =>
      rw [htype] at hknows
      have hid : (s.controller.heap a).id = info.id := hknows a hcur
      rw [← hid]
      exact h.inv.current_created hcur

theorem send_step (h : Requests s) {r : ConnectionOpResult} (hst : s.sendStep r = some t) :
    Requests t := by
  have hinv := h.inv.send_step hst
  have hfailed : ∀ id, t.voiceReqs.Failed id → s.voiceReqs.Failed id ∨ s.send = .eraseReq id :=
    fun _ hf => sendStep_failed hst hf
  -- the thread has no request in hand afterwards
  have hfree : ∀ {c : OpCtl SpeechError} {q : Streams Bytes VoiceOptions} {created : List Int}
      {n : Nat} {l : List SpeechRequest} {pc : SendPc},
      t = { s with
        controller := c, voiceReqs := q, created := created, respNotifies := n, sent := l,
        send := pc } →
      q.keys = s.voiceReqs.keys → (∀ id ∈ s.created, id ∈ created) → pc.hand = none →
      (∀ id, pc.worked = some id → id ∈ created) → Requests t := by
    rintro c q created n l pc rfl hq hcr hhand hworked
    apply h.sends hinv rfl rfl rfl rfl (fun _ hp => hp) _ hcr _ hworked _ hfailed
    · intro id hid
      rwa [hq] at hid
    · intro info hinfo
      rw [hhand] at hinfo
      cases hinfo
    · rintro info a rfl
      cases hhand
  cases sendStep_move hst with
  | @takeVoice info p q hpc hinit hpop htype =>
      have heq : s.takeReq = { s with voiceReqs := q, send := .doCtl info } := by
        unfold sendStep at hst
        rw [hpc] at hst
        simp only at hst
        split at hst
        · exact Option.some.inj hst
        · cases hst
      exact h.takeVoice hinv hpc heq hpop htype hfailed
  | @takeText info texts hpc htext =>
      have hmem : info ∈ s.textReqs := by
        rw [htext]
        exact List.mem_cons_self
      apply h.sends hinv rfl rfl rfl rfl _ (fun _ hid => hid) (fun _ hid => hid) _ _ _ hfailed
      · intro p hp
        rw [htext]
        exact List.mem_cons_of_mem _ hp
      · intro x hx
        obtain rfl : info = x := by simpa [SendPc.hand] using hx
        refine ⟨.inl ⟨h.labels.texts _ (List.mem_map_of_mem hmem), h.inv.texts info hmem⟩, ?_⟩
        intro htype
        rcases h.inv.texts info hmem with heq | heq
        · simp [heq] at htype
        · simp [heq] at htype
      · intro id hid
        cases hid
      · intro x a hx
        cases hx
  | @enter info hpc =>
      apply h.sends hinv rfl rfl rfl rfl (fun _ hp => hp) (fun _ hid => hid) (fun _ hid => hid) _ _ _
        hfailed
      · intro x hx
        have hx' : s.send.hand = some x := by
          rw [hpc]
          exact hx
        exact ⟨h.labels.hand x hx', h.served x hx'⟩
      · intro id hid
        cases hid
      · intro x a hx
        obtain ⟨rfl, hcur⟩ := SendPc.changeOp.inj hx
        exact h.found_created hpc hcur
  | @create info hpc htype =>
      apply hfree rfl rfl (fun _ hid => List.mem_append_left _ hid) rfl
      intro id hid
      cases hid
      exact List.mem_append_right _ List.mem_cons_self
  | createCancelled hpc htype =>
      apply hfree rfl rfl (fun _ hid => List.mem_append_left _ hid) rfl
      intro id hid
      cases hid
  | proceed hpc htype =>
      apply hfree rfl rfl (fun _ hid => hid) rfl
      intro id hid
      cases hid
      exact h.found _ _ hpc
  | cancelCurrent hpc htype =>
      apply hfree rfl rfl (fun _ hid => hid) rfl
      intro id hid
      cases hid
      exact h.found _ _ hpc
  | @refresh info hpc =>
      have hmem : info.id ∈ s.created := h.worked _ (by rw [hpc]; rfl)
      apply hfree rfl rfl fun _ hid => hid
      · split <;> rfl
      · intro id hid
        split at hid
        · cases hid
          exact hmem
        · cases hid
  | sleep hpc hinit hq =>
      exact hfree rfl hq (fun _ hid => hid) rfl fun _ hid => by cases hid
  | seeText hpc hinit hq =>
      exact hfree rfl hq (fun _ hid => hid) rfl fun _ hid => by cases hid
  | erase hpc hq =>
      exact hfree rfl hq (fun _ hid => hid) rfl fun _ hid => by cases hid
  | crash hpc htext =>
      apply h.sends hinv rfl rfl rfl rfl (fun _ hp => hp) (fun _ hid => hid) (fun _ hid => hid) _ _ _
        hfailed
      · intro info hinfo
        exact ⟨h.labels.hand info hinfo, h.served info hinfo⟩
      · exact h.worked
      · exact h.found
  | abort hpc htype => cases hinv.running
  | skip hpc hwait =>
      exact hfree rfl rfl (fun _ hid => hid) rfl fun _ hid => by cases hid
  | awake hpc hwait =>
      exact hfree rfl rfl (fun _ hid => hid) rfl fun _ hid => by cases hid
  | _ hpc =>
      apply hfree rfl rfl (fun _ hid => hid) rfl
      intro id hid
      apply h.worked
      rw [hpc]
      exact hid

theorem pollStep (h : Requests s) (hst : s.pollStep = some t) : Requests t := by
  have hinv := h.inv.pollStep hst
  have hgen : ∀ id, s.gen = .eraseReq id → s.gen = .eraseReq id ∨ id ∈ s.created :=
    fun _ hg => .inl hg
  have hfailed : ∀ id, s.voiceReqs.Failed id → s.voiceReqs.Failed id ∨ id ∈ s.created :=
    fun _ hf => .inl hf
  unfold SpeechImpl.pollStep at hst
  split at hst
  · split at hst
    · rename_i hi
      obtain ⟨o, c, q, hpoll, -, -, -⟩ := h.inv.poll hi
      rw [hpoll] at hst
      cases o with
      | none =>
          cases hst
          exact h.still hinv rfl rfl rfl rfl (.inl rfl) (.inl rfl) rfl rfl hgen hfailed
      | some r =>
          cases hst
          exact h.still hinv (by simp [record]) (by simp [record]) rfl rfl (.inl rfl) (.inl rfl)
            rfl rfl hgen hfailed
    · cases hst
      exact h
  · cases hst

/-- **One step.** -/
theorem step (h : Requests s) {a : SpeechAct} (hok : OneSession s a) (hst : s.step a = some t) :
    Requests t := by
  have hinv : Inv t := h.inv.step hok.orderly.1 hok.2 hst
  have hgen : ∀ id, s.gen = .eraseReq id → s.gen = .eraseReq id ∨ id ∈ s.created :=
    fun _ hg => .inl hg
  have hfailed : ∀ id, s.voiceReqs.Failed id → s.voiceReqs.Failed id ∨ id ∈ s.created :=
    fun _ hf => .inl hf
  unfold SpeechImpl.step at hst
  split at hst
  · cases hst
  · cases a with
    | prepare => exact absurd rfl hok.1
    | release => exact h.release hst
    | call n c => exact h.call hst
    | client n => exact h.client hok.2 hst
    | poll => exact h.pollStep hst
    | config mod =>
        cases hst
        cases mod with
        | none => exact h
        | some mod =>
            exact h.still hinv rfl rfl rfl rfl (.inl rfl) (.inl rfl) rfl rfl hgen hfailed
    | send r => exact h.send_step hst
    | gen r resp => exact h.gen hst
    | tick ns =>
        cases hst
        exact h.still hinv rfl rfl rfl rfl (.inl rfl) (.inl rfl) rfl rfl hgen hfailed

/-- **Every session.** -/
theorem run (hrun : Run Steps OneSession SpeechImpl.opened s) : Requests s :=
  hrun.invariant (fun _ _ _ h hok hst => h.step hok hst) opened

end Requests

end SpeechImpl

end OpenVoice
