import OpenVoice.Tts.Delivery
import OpenVoice.Tts.Moves

/-!
# Cancelling a request of `TtsImpl`

A cancelled request is marked in `requests_`, or its operation is marked in `operations_`.  Nobody
takes a mark away, and `poll` reports a marked operation as cancelled, whatever has become of its
stream (`cancel_wins`).  A session that takes over the operations of an older one may find the id
there (`cancel_overridden`).
-/

namespace OpenVoice

open OpenVoice.Lib

namespace TtsImpl

/-! ### What is marked -/

theorem cancel_requests (id : Int) (s : TtsImpl) :
    ∀ req ∈ (s.cancel id).requests, ∃ req₀ ∈ s.requests, req.id = req₀.id ∧
      (req₀.deleted = true → req.deleted = true) ∧
      (s.initialized = true → id ≤ 0 ∨ req₀.id = id → req.deleted = true) := by
  have hmap : ∀ req ∈ s.requests.map (fun req : TtsReqInfo =>
        if id ≤ 0 ∨ req.id = id then { req with deleted := true } else req),
      ∃ req₀ ∈ s.requests, req.id = req₀.id ∧ (req₀.deleted = true → req.deleted = true) ∧
        (s.initialized = true → id ≤ 0 ∨ req₀.id = id → req.deleted = true) := by
    intro req hreq
    obtain ⟨req₀, hmem, rfl⟩ := List.mem_map.mp hreq
    refine ⟨req₀, hmem, ?_⟩
    split
    · exact ⟨rfl, fun _ => rfl, fun _ _ => rfl⟩
    · rename_i hnot
      exact ⟨rfl, fun h => h, fun _ hcov => absurd hcov hnot⟩
  unfold cancel
  split
  · rename_i hinit
    intro req hreq
    refine ⟨req, hreq, rfl, fun h => h, ?_⟩
    intro hinit'
    rw [hinit'] at hinit
    cases hinit
  · simp only
    split
    · split
      · exact hmap
      · exact hmap
    · split
      · split
        · exact hmap
        · exact hmap
      · exact hmap

/-- An operation with the id, when there is no request with it. -/
theorem cancel_operations {s : TtsImpl} {id cid : Int} {a : Nat} (hinit : s.initialized = true)
    (hcov : cid ≤ 0 ∨ cid = id) (hpend : (s.controller.opIds ++ s.requests.map (·.id)).Nodup)
    (ha : a ∈ s.controller.operations) (hid : (s.controller.heap a).id = id) :
    ((s.cancel cid).controller.heap a).status = .cancelled := by
  have hmem : id ∈ s.controller.opIds := List.mem_map.mpr ⟨a, ha, hid⟩
  obtain ⟨hops, -, hdisj⟩ := List.nodup_append'.mp hpend
  unfold cancel
  rw [hinit]
  simp only [Bool.not_true, Bool.false_eq_true, if_false]
  split
  · -- every operation is covered
    have hall : a ∈ OpCtl.covered 0 s.controller.operations s.controller := by
      rw [OpCtl.covered, if_pos (Int.le_refl 0)]
      exact ha
    split
    · exact OpCtl.cancelOp_covered hall
    · exact OpCtl.cancelOp_covered hall
  · rename_i hpos
    obtain rfl : cid = id := hcov.resolve_left hpos
    have hnone : (s.requests.any fun req => decide (cid ≤ 0 ∨ req.id = cid)) = false := by
      rw [List.any_eq_false]
      intro req hreq hcov'
      rcases of_decide_eq_true hcov' with hle | heq
      · exact hpos hle
      · exact hdisj hmem (List.mem_map.mpr ⟨req, hreq, heq⟩)
    have hone : a ∈ OpCtl.covered cid s.controller.operations s.controller := by
      apply OpCtl.mem_covered (by omega) _ ha hid
      exact List.nodup_iff_count_le_one.mp hops cid
    rw [hnone]
    simp only [Bool.not_false, if_true]
    split
    · exact OpCtl.cancelOp_covered hone
    · exact OpCtl.cancelOp_covered hone

/-- A cancelled operation is reported as such. -/
theorem poll_cancelled {s t : TtsImpl} {a : Nat} {r : TtsResult}
    (h : s.poll = some (some (a, r), t)) (hst : (s.controller.heap a).status = .cancelled) :
    r.type = .cancelled := by
  unfold poll at h
  split at h
  · cases h
  · rename_i b hfront
    simp only at h
    split at h
    · obtain ⟨q, -, heq⟩ := Option.bind_eq_some_iff.mp h
      cases heq
      rfl
    · rename_i hnot
      have hother : a = b → False := by
        rintro rfl
        exact hnot hst
      split at h
      · obtain ⟨q, -, heq⟩ := Option.bind_eq_some_iff.mp h
        cases heq
        exact (hother rfl).elim
      · split at h
        · cases h
        · split at h
          · obtain ⟨type, -, heq⟩ := Option.bind_eq_some_iff.mp h
            cases heq
            exact (hother rfl).elim
          · cases h

/-- The current operation is not a cancelled one. -/
theorem Inv.live {s : TtsImpl} (h : Inv s) (hinit : s.initialized = true) {a : Nat}
    (hst : (s.controller.heap a).status = .cancelled) : s.controller.currentOp ≠ some a := by
  intro hcur
  obtain ⟨v, hv, -⟩ := h.lined (.inl hinit)
  rcases hv.current_status hcur with hst' | hst'
  · rw [hst'] at hst
    cases hst
  · rw [hst'] at hst
    cases hst

/-! ### A cancelled request -/

/-- No other session is opened. -/
def SameSession (s : TtsImpl) (a : TtsAct) : Prop := a = .prepare → s.initialized = true

instance (s : TtsImpl) (a : TtsAct) : Decidable (SameSession s a) :=
  inferInstanceAs (Decidable (a = .prepare → s.initialized = true))

/-- `id` is cancelled, `told` being its results so far: only the cancellation is still to come. -/
structure Revoked (id : Int) (told : List TtsResultType) (s : TtsImpl) : Prop where
  session : SessionInv s
  spoken : id ∈ s.spoken
  requests : s.initialized = true → ∀ req ∈ s.requests, req.id = id → req.deleted = true
  operations : s.initialized = true → ∀ a ∈ s.controller.operations,
    (s.controller.heap a).id = id → (s.controller.heap a).status = .cancelled
  results : typesOf id s.results = told ∧ id ∉ terminals s.results ∨
    typesOf id s.results = told ++ [.cancelled] ∧ id ∈ terminals s.results

namespace Revoked

variable {s t : TtsImpl} {id : Int} {told : List TtsResultType}

/-- A step that neither creates an operation nor reports one. -/
theorem quiet (h : Revoked id told s) (ht : SessionInv t) (hsp : ∀ x ∈ s.spoken, x ∈ t.spoken)
    (hpol : t.polled = s.polled) (hinit : t.initialized = true → s.initialized = true)
    (hreq : t.initialized = true → ∀ req ∈ t.requests, req.id = id → req.deleted = true)
    (hq : s.controller.Quiet t.controller) : Revoked id told t where
  session := ht
  spoken := hsp id h.spoken
  requests := hreq
  operations := by
    intro hi a ha hid
    rw [hq.heap_id] at hid
    have hst := h.operations (hinit hi) a (hq.operations.subset ha) hid
    exact hq.cancelled a (h.session.inv.live (hinit hi) hst) hst
  results := by
    rw [TtsImpl.results, hpol]
    exact h.results

/-- The object is being released: nothing is reported any more. -/
theorem closed (h : Revoked id told s) (ht : SessionInv t) (hsp : t.spoken = s.spoken)
    (hpol : t.polled = s.polled) (hinit : t.initialized = false) : Revoked id told t where
  session := ht
  spoken := by
    rw [hsp]
    exact h.spoken
  requests := by
    intro hi
    rw [hinit] at hi
    cases hi
  operations := by
    intro hi
    rw [hinit] at hi
    cases hi
  results := by
    rw [TtsImpl.results, hpol]
    exact h.results

theorem release (h : Revoked id told s) (hst : s.release = some t) : Revoked id told t := by
  have ht := h.session.release hst
  have hclosed : s.releasing ≠ .idle → s.initialized = false := h.session.inv.releasing
  cases release_move hst with
  | absent hrel hinit => exact h
  | enter hrel hinit => exact h.closed ht rfl rfl rfl
  | close hrel => exact h.closed ht rfl rfl (hclosed (by simp [hrel]))
  | joinReq hrel hdone => exact h.closed ht rfl rfl (hclosed (by simp [hrel]))
  | closeResp hrel => exact h.closed ht rfl rfl (hclosed (by simp [hrel]))
  | joinResp hrel hdone => exact h.closed ht rfl rfl (hclosed (by simp [hrel]))

/-- The next id is another one. -/
theorem speak (h : Revoked id told s) (text : String) : Revoked id told (s.speak text) := by
  apply h.quiet (h.session.speak text)
  · intro x hx
    exact List.mem_append_left _ hx
  · rfl
  · exact fun hi => hi
  · intro hi req hreq hid
    rcases List.mem_append.mp hreq with hreq | hreq
    · exact h.requests hi req hreq hid
    · obtain rfl := List.mem_singleton.mp hreq
      have hle := h.session.spoken.le_nextId id h.spoken
      have hnext : s.nextId + 1 = id := hid
      omega
  · exact .refl _

theorem cancel (h : Revoked id told s) (cid : Int) : Revoked id told (s.cancel cid) := by
  have ht := h.session.cancel cid
  have hreq := cancel_requests cid s
  obtain ⟨reqs, c, n, heq, -, hquiet, -⟩ := cancel_spec cid s
  rw [heq] at ht hreq ⊢
  apply h.quiet ht
  · exact fun x hx => hx
  · rfl
  · exact fun hi => hi
  · intro hi req hmem hid
    obtain ⟨req₀, hmem₀, hid₀, hkeep, -⟩ := hreq req hmem
    exact hkeep (h.requests hi req₀ hmem₀ (hid₀.symm.trans hid))
  · exact hquiet

theorem client (h : Revoked id told s) {n : Nat} (hst : s.client n = some t) :
    Revoked id told t := by
  have hidle : Revoked id told { s with clients := Function.update s.clients n .idle } :=
    h.quiet (h.session.of_lined (h.session.inv.congr rfl rfl rfl rfl rfl rfl rfl rfl rfl) rfl rfl
      rfl (fun hi => hi) (fun _ => rfl) fun _ hv => hv) (fun _ hx => hx) rfl (fun hi => hi)
      h.requests (.refl _)
  unfold TtsImpl.client at hst
  split at hst
  · split at hst
    · cases hst
    · cases hst
      exact hidle.speak _
    · cases hst
      exact hidle.cancel _
  · cases hst

/-- **`poll`** reports a cancelled request once, and as cancelled. -/
theorem pollStep (h : Revoked id told s) : Revoked id told s.pollStep := by
  have ht := h.session.pollStep
  unfold TtsImpl.pollStep at ht ⊢
  split at ht
  · rename_i hi
    rw [if_pos hi]
    obtain ⟨v, hl, hd⟩ := h.session.delivering hi
    obtain ⟨o, c, q, hpoll, hquiet, -, hcase⟩ := poll_spec hl h.session.inv.noError
    have hops : ∀ a ∈ c.operations, (c.heap a).id = id → (c.heap a).status = .cancelled := by
      intro a ha hid
      rw [hquiet.heap_id] at hid
      have hst := h.operations hi a (hquiet.operations.subset ha) hid
      exact hquiet.cancelled a (h.session.inv.live hi hst) hst
    rcases hcase with ⟨rfl, -⟩ | ⟨a, r, v', rfl, hfront, hrid, -, hrep⟩
    · rw [hpoll] at ht ⊢
      exact ⟨ht, h.spoken, h.requests, fun _ => hops, h.results⟩
    · have hres : ∀ u : TtsImpl, u.polled = s.polled ++ [(a, r)] →
          u.results = s.results ++ [r] := by
        intro u hu
        rw [TtsImpl.results, hu, List.map_append]
        rfl
      have htype : r.id = id → r.type = .cancelled := by
        intro hid
        have ha : a ∈ s.controller.operations := List.mem_of_mem_head? hfront
        exact poll_cancelled hpoll (h.operations hi a ha (hrid.symm.trans hid))
      have hnew : r.id ∉ terminals s.results := by
        generalize r.type = type at hrep
        cases hrep with
        | start hv hv' => exact hd.front_notMem h.session.nodup hv
        | voice hv hv' => exact hd.front_notMem h.session.nodup hv
        | end_ hv => exact hd.front_notMem h.session.nodup hv
        | cancelled hv => exact hd.front_notMem h.session.nodup hv
        | error hv => exact hd.front_notMem h.session.nodup hv
      rw [hpoll] at ht ⊢
      refine ⟨ht, h.spoken, h.requests, fun _ => hops, ?_⟩
      simp only
      rw [hres _ rfl]
      by_cases hid : r.id = id
      · subst hid
        rcases h.results with ⟨hbefore, -⟩ | ⟨-, hmem⟩
        · right
          rw [typesOf_snoc_self, hbefore, terminals_snoc, htype rfl]
          exact ⟨rfl, List.mem_append_right _ List.mem_cons_self⟩
        · exact absurd hmem hnew
      · have hne : id ≠ r.id := fun heq => hid heq.symm
        have hterm : id ∈ terminals (s.results ++ [r]) ↔ id ∈ terminals s.results := by
          rw [terminals_snoc]
          split
          · simp [hne]
          · simp
        rw [typesOf_snoc_ne hne, hterm]
        exact h.results
  · rename_i hi
    rw [if_neg hi]
    exact h

/-- An operation is created, for another request or as a cancelled one. -/
theorem newOp (h : Revoked id told s) (ht : SessionInv t) {req : TtsReqInfo} {now : Int}
    {st : TtsStatus} (hinit : s.initialized = true) (hsp : t.spoken = s.spoken)
    (hpol : t.polled = s.polled) (hc : t.controller = s.controller.newOp now req.id st)
    (hreq : s.requests = req :: t.requests) (hst : req.deleted = true → st = .cancelled) :
    Revoked id told t where
  session := ht
  spoken := by
    rw [hsp]
    exact h.spoken
  requests := by
    intro _ req' hreq'
    apply h.requests hinit req'
    rw [hreq]
    exact List.mem_cons_of_mem _ hreq'
  operations := by
    intro _ a ha hid
    rw [hc] at ha hid ⊢
    rw [OpCtl.newOp_operations, List.mem_append, List.mem_singleton] at ha
    obtain ⟨v, hv, -⟩ := h.session.inv.lined (.inl hinit)
    rcases ha with ha | rfl
    · have hne : a ≠ s.controller.fresh := Nat.ne_of_lt (hv.lt_fresh ha)
      rw [OpCtl.newOp_heap_ne _ _ _ _ hne] at hid ⊢
      exact h.operations hinit a ha hid
    · rw [OpCtl.newOp_heap_id] at hid
      rw [OpCtl.newOp_heap_status]
      apply hst
      apply h.requests hinit req _ hid
      rw [hreq]
      exact List.mem_cons_self
  results := by
    rw [TtsImpl.results, hpol]
    exact h.results

theorem send (h : Revoked id told s) {r : ConnectionOpResult} (hst : s.sendStep r = some t) :
    Revoked id told t := by
  have ht := h.session.send_step hst
  have hquiet : ∀ {c : OpCtl TtsError} {pc : SendPc} {n : Nat} {l : List TtsRequest},
      s.controller.Quiet c → t = { s with controller := c, respNotifies := n, sent := l, send := pc }
      → Revoked id told t := by
    rintro c pc n l hq rfl
    exact h.quiet ht (fun _ hx => hx) rfl (fun hi => hi) h.requests hq
  cases sendStep_move hst with
  | cancelled hpc hinit hreq hdel =>
      exact h.newOp ht hinit rfl rfl rfl hreq fun _ => rfl
  | start hpc hinit hreq hdel =>
      apply h.newOp ht hinit rfl rfl rfl hreq
      intro hdel'
      rw [hdel] at hdel'
      cases hdel'
  | @setError req err hpc => exact hquiet (.setOpError _ err) rfl
  | refresh hpc => exact hquiet (.refreshOpTime s.controller s.now false) rfl
  | block hpc hwait => exact ⟨ht, h.spoken, h.requests, h.operations, h.results⟩
  | _ => exact hquiet (.refl _) rfl

/-- **One step.** -/
theorem step (h : Revoked id told s) {a : TtsAct} (hok : SameSession s a)
    (hst : s.step a = some t) : Revoked id told t := by
  have ht : SessionInv t := by
    apply h.session.step _ hst
    intro ha hinit
    rw [hok ha] at hinit
    cases hinit
  unfold TtsImpl.step at hst
  split at hst
  · cases hst
  · cases a with
    | prepare =>
        simp only at hst
        split at hst
        · cases hst
          unfold TtsImpl.prepare
          rw [if_pos (hok rfl)]
          exact h
        · cases hst
    | release => exact h.release hst
    | call n pc =>
        simp only at hst
        unfold TtsImpl.call at hst
        split at hst
        · split at hst
          · cases hst
            exact h.quiet ht (fun _ hx => hx) rfl (fun hi => hi) h.requests (.refl _)
          · cases hst
            exact h
        · cases hst
          exact h.quiet ht (fun _ hx => hx) rfl (fun hi => hi) h.requests (.refl _)
        · cases hst
    | client n => exact h.client hst
    | poll =>
        cases hst
        exact h.pollStep
    | config mod =>
        cases hst
        cases mod with
        | none => exact h
        | some mod => exact h.quiet ht (fun _ hx => hx) rfl (fun hi => hi) h.requests (.refl _)
    | send r => exact h.send hst
    | gen r resp =>
        obtain ⟨c, q, n, pc, hq, rfl⟩ := genStep_spec hst
        exact h.quiet ht (fun _ hx => hx) rfl (fun hi => hi) h.requests hq
    | tick ns =>
        cases hst
        exact h.quiet ht (fun _ hx => hx) rfl (fun hi => hi) h.requests (.refl _)

/-- The cancellation of a request whose terminal result is still to come. -/
theorem of_cancel (h : SessionInv s) {cid : Int} (hcov : cid ≤ 0 ∨ cid = id)
    (hspoken : id ∈ s.spoken) (hpend : id ∉ terminals s.results) :
    Revoked id (typesOf id s.results) (s.cancel cid) := by
  have ht := h.cancel cid
  have hreq := cancel_requests cid s
  have hop : s.initialized = true → ∀ a ∈ s.controller.operations,
      (s.controller.heap a).id = id → ((s.cancel cid).controller.heap a).status = .cancelled := by
    intro hinit a ha hid
    obtain ⟨v, hv, hd⟩ := h.delivering hinit
    apply cancel_operations hinit hcov _ ha hid
    have hnd := h.nodup
    rw [← hd.order, List.nodup_append'] at hnd
    rw [← hv.fst_eq]
    exact hnd.2.1
  obtain ⟨reqs, c, n, heq, -, hquiet, -⟩ := cancel_spec cid s
  rw [heq] at ht hreq hop ⊢
  constructor
  · exact ht
  · exact hspoken
  · intro hinit req hmem hid
    obtain ⟨req₀, -, hid₀, -, hdel⟩ := hreq req hmem
    apply hdel hinit
    rcases hcov with hall | hone
    · exact .inl hall
    · exact .inr (hid₀.symm.trans (hid.trans hone.symm))
  · intro hinit a ha hid
    rw [hquiet.heap_id] at hid
    exact hop hinit a (hquiet.operations.subset ha) hid
  · exact .inl ⟨rfl, hpend⟩

end Revoked

/-- The invariant of the sessions holds before the first one. -/
theorem SessionInv.start : SessionInv ({} : TtsImpl) where
  inv := inv_init
  spoken := ⟨.nil, by simp⟩
  contract := Delivering.init.contract
  delivering := fun hinit => by cases hinit

/-- **Cancel wins.**  When the locked part of a `cancel` that covers `id` is executed after
    `speak` has returned `id` and before `poll` has returned a terminal result for it, then
    nothing but one `TTS_RES_CANCELLED` is returned for `id` in the rest of the session, and until
    then the request or its operation is there to be reported.  The sessions of the object are
    opened with empty queues. -/
theorem cancel_wins {s t u : TtsImpl} {n : Nat} {id cid : Int}
    (hrun : Run Steps CleanPrepare {} s) (hcall : s.clients n = .cancel cid)
    (hcov : cid ≤ 0 ∨ cid = id) (hspoken : id ∈ s.spoken) (hpend : id ∉ terminals s.results)
    (hcancel : Steps s (.client n) t) (hrest : Run Steps SameSession t u) :
    typesOf id u.results = typesOf id s.results ++ [.cancelled] ∨
      typesOf id u.results = typesOf id s.results ∧
        (u.initialized = true → (∃ req ∈ u.requests, req.id = id ∧ req.deleted = true) ∨
          ∃ a ∈ u.controller.operations, (u.controller.heap a).id = id ∧
            (u.controller.heap a).status = .cancelled) := by
  have hs : SessionInv s := SessionInv.run hrun .start
  have ht : Revoked id (typesOf id s.results) t := by
    unfold Steps step at hcancel
    split at hcancel
    · cases hcancel
    · simp only at hcancel
      unfold TtsImpl.client at hcancel
      split at hcancel
      · simp only [hcall] at hcancel
        cases hcancel
        have hidle : SessionInv { s with clients := Function.update s.clients n .idle } :=
          hs.of_lined (hs.inv.congr rfl rfl rfl rfl rfl rfl rfl rfl rfl) rfl rfl rfl
            (fun hi => hi) (fun _ => rfl) fun _ hv => hv
        exact Revoked.of_cancel hidle hcov hspoken hpend
      · cases hcancel
  have hu : Revoked id (typesOf id s.results) u :=
    hrest.invariant (fun _ _ _ h hok hst => h.step hok hst) ht
  rcases hu.results with ⟨hsame, hnot⟩ | ⟨hlast, -⟩
  · refine .inr ⟨hsame, ?_⟩
    intro hinit
    obtain ⟨v, hv, hd⟩ := hu.session.delivering hinit
    have hmem : id ∈ terminals u.results ++ pendingIds v u.requests := by
      rw [hd.order]
      exact hu.spoken
    rcases List.mem_append.mp ((List.mem_append.mp hmem).resolve_left hnot) with hop | hreq
    · rw [hv.fst_eq] at hop
      obtain ⟨a, ha, hid⟩ := List.mem_map.mp hop
      exact .inr ⟨a, ha, hid, hu.operations hinit a ha hid⟩
    · obtain ⟨req, hreq, hid⟩ := List.mem_map.mp hreq
      exact .inl ⟨req, hreq, hid, hu.requests hinit req hreq hid⟩
  · exact .inl hlast

/-! ### Runs -/

/-- The start of request 1 has been polled, and a client is about to cancel it. -/
def streamingCancel : List TtsAct :=
  let resp : TtsResponse := { id := 1, voice := some [7], text := none, finish := false }
  [.prepare, .call 0 (.speak "a"), .client 0, .send .success, .send .success, .send .success,
    .send .success, .gen .success resp, .gen .success resp, .gen .success resp, .poll,
    .call 1 (.cancel 1)]

/-- The last response comes after the cancellation. -/
theorem cancel_wins_streaming :
    ∃ s t u, exec step {} streamingCancel = some s ∧ Steps s (.client 1) t ∧
      exec step t [.gen .success (finished 1), .gen .success (finished 1),
        .gen .success (finished 1), .poll, .poll] = some u ∧
      typesOf 1 s.results = [.start] ∧ typesOf 1 u.results = [.start, .cancelled] := by
  have hok : allOk step CleanPrepare {} streamingCancel = true := by decide +kernel
  refine ⟨_, _, _, rfl, rfl, rfl, by decide +kernel, ?_⟩
  have hwins := @cancel_wins _ _ _ 1 1 1 (Run.of_exec hok rfl) rfl (.inr rfl)
    (by decide +kernel) (by decide +kernel) rfl
    (Run.of_exec (by decide +kernel)
      (show exec step _ [.gen .success (finished 1), .gen .success (finished 1),
        .gen .success (finished 1), .poll, .poll] = some _ from rfl))
  rcases hwins with hlast | ⟨hsame, -⟩
  · exact hlast
  · revert hsame
    decide +kernel

/-- The first session leaves a failed operation 1 behind.  The first request of the next session
    has the id 1 too; it is cancelled, and `poll` reports an error for it. -/
theorem cancel_overridden :
    ∃ s t u, Run Steps Always {} s ∧ s.clients 0 = .cancel 1 ∧ s.spoken = [1] ∧ s.results = [] ∧
      Steps s (.client 0) t ∧ Run Steps SameSession t u ∧ typesOf 1 u.results = [.error] := by
  have hok : allOk step Always {} ([.prepare, .call 0 (.speak "a"), .client 0, .send .success,
      .send .success, .send .connectionNotAvailable, .send .success] ++ closed ++
      [.prepare, .call 0 (.speak "b"), .client 0, .call 0 (.cancel 1)]) = true := by
    decide +kernel
  exact ⟨_, _, _, Run.of_exec hok rfl, rfl, rfl, rfl, rfl,
    Run.of_exec (by decide +kernel) (show exec step _ [.poll] = some _ from rfl),
    by decide +kernel⟩

end TtsImpl

end OpenVoice
