import OpenVoice.Lib.Run
import OpenVoice.Tts.Sections

/-!
# The invariant of `TtsImpl`

`requests_`, `operations_`, `current_op_` and the streams in `responses_` belong together:
requests become operations in the order they were spoken, the operation that is current is the
one the send thread works on, and `responses_` is aligned with `operations_`.

The invariant is preserved by every step of every thread over any number of sessions, provided
that `prepare` finds nothing left over from the session before (`CleanPrepare`).
-/

namespace OpenVoice

open OpenVoice.Lib

namespace TtsImpl

/-- `responses_` is in use: from `prepare` until `release` closes it. -/
def Streaming (s : TtsImpl) : Prop :=
  s.initialized = true ∨ s.releasing = .closing ∨ s.releasing = .joinReq ∨
    s.releasing = .closeResp

/-- The current operation, if there is one, is that of the request with this id. -/
def OnlyCurrent (id : Int) (c : OpCtl TtsError) : Prop :=
  ∀ a, c.currentOp = some a → (c.heap a).id = id

/-- What the send thread relies on between its critical sections. -/
def SendPc.Knows (c : OpCtl TtsError) : SendPc → Prop
  | .loop | .waitReq | .done => c.currentOp = none
  | .request req | .sending req _ | .writing req _ | .sendFailed req _ | .sent req =>
      OnlyCurrent req.id c
  | .waitOp id => OnlyCurrent id c
  | .blocked id => OnlyCurrent id c ∧ (c.opWaiting = false → c.currentOp = none)

theorem OnlyCurrent.quiet {id : Int} {c c' : OpCtl TtsError} (h : OnlyCurrent id c)
    (hq : c.Quiet c') : OnlyCurrent id c' := by
  intro a ha
  rw [hq.heap_id]
  exact h a (hq.current_some ha)

/-- No other thread takes that knowledge away. -/
theorem SendPc.Knows.quiet {c c' : OpCtl TtsError} {pc : SendPc} (h : pc.Knows c)
    (hq : c.Quiet c') : pc.Knows c' := by
  cases pc with
  | loop => exact hq.current_none h
  | waitReq => exact hq.current_none h
  | done => exact hq.current_none h
  | request req => exact OnlyCurrent.quiet h hq
  | sending req treq => exact OnlyCurrent.quiet h hq
  | writing req treq => exact OnlyCurrent.quiet h hq
  | sendFailed req err => exact OnlyCurrent.quiet h hq
  | sent req => exact OnlyCurrent.quiet h hq
  | waitOp id => exact OnlyCurrent.quiet h hq
  | blocked id =>
      refine ⟨OnlyCurrent.quiet h.1 hq, ?_⟩
      intro hwait
      rcases hq.current with ⟨hcur, hwait'⟩ | ⟨hnone, -⟩
      · rw [hcur]
        exact h.2 (hwait' ▸ hwait)
      · exact hnone

/-- With nothing to wait for, nothing is current. -/
theorem OnlyCurrent.none_of_mustWait {id : Int} {c : OpCtl TtsError} (h : OnlyCurrent id c)
    (hwait : c.mustWait id = false) : c.currentOp = none := by
  cases hcur : c.currentOp with
  | none => rfl
  | some a =>
      have hid := h a hcur
      rw [OpCtl.mustWait, hcur] at hwait
      simp [hid] at hwait

/-- **A step of the send thread** leaves it with what it has to know at its new place. -/
theorem SendMove.knows {s t : TtsImpl} {r : ConnectionOpResult} (hmove : SendMove s r t)
    (h : s.send.Knows s.controller) : t.send.Knows t.controller := by
  cases hmove with
  | exit hpc hinit =>
      rw [hpc] at h
      exact h
  | sleep hpc hinit hreq =>
      rw [hpc] at h
      exact h
  | cancelled hpc hinit hreq hdel =>
      rw [hpc] at h
      exact h
  | start hpc hinit hreq hdel =>
      -- the new operation is the one that is current
      intro a ha
      obtain rfl : s.controller.fresh = a := by simpa using ha
      simp
  | wake hpc =>
      rw [hpc] at h
      exact h
  | build hpc =>
      rw [hpc] at h
      exact h
  | fail hpc hr =>
      rw [hpc] at h
      exact h
  | available hpc hr hopen =>
      rw [hpc] at h
      exact h
  | write hpc =>
      rw [hpc] at h
      exact h
  | setError hpc => exact OpCtl.setOpError_current _ _
  | refresh hpc =>
      rw [hpc] at h
      exact OnlyCurrent.quiet h (.refreshOpTime s.controller s.now false)
  | block hpc hwait =>
      rw [hpc] at h
      exact ⟨h, fun hf => by cases hf⟩
  | skip hpc hwait =>
      rw [hpc] at h
      exact OnlyCurrent.none_of_mustWait h hwait
  | awake hpc hwait =>
      rw [hpc] at h
      exact h.2 hwait

/-- The ids of the operations and of the queued requests, oldest first. -/
def pendingIds (v : List (Int × Bool)) (requests : List TtsReqInfo) : List Int :=
  v.map Prod.fst ++ requests.map (·.id)

/-- Ids are handed out in increasing order. -/
structure Increasing (nextId : Int) (ids : List Int) : Prop where
  sorted : ids.Pairwise (· < ·)
  le_nextId : ∀ id ∈ ids, id ≤ nextId

theorem Increasing.sublist {nextId : Int} {ids ids' : List Int} (h : Increasing nextId ids)
    (hsub : ids'.Sublist ids) : Increasing nextId ids' :=
  ⟨h.sorted.sublist hsub, fun id hid => h.le_nextId id (hsub.subset hid)⟩

/-- The invariant. -/
structure Inv (s : TtsImpl) : Prop where
  running : s.aborted = false
  releasing : s.releasing ≠ .idle → s.initialized = false
  lined : s.Streaming → ∃ v, Lined s.controller s.responses v ∧
    Increasing s.nextId (pendingIds v s.requests)
  noError : NoServerError s.responses
  closed : ¬ s.Streaming → s.controller.currentOp = none ∧ s.responses.records = []
  send : s.send.Knows s.controller
  sendDone : s.releasing = .closeResp ∨ ¬ s.Streaming → s.send = .done
  epoch : ∀ a ∈ s.controller.operations, s.epoch ≤ a
  fresh : s.epoch ≤ s.controller.fresh

/-- `prepare` opens a session on an object whose queues are empty. -/
def CleanPrepare (s : TtsImpl) (a : TtsAct) : Prop :=
  a = .prepare → s.initialized = false → s.requests = [] ∧ s.controller.operations = []

instance (s : TtsImpl) (a : TtsAct) : Decidable (CleanPrepare s a) :=
  inferInstanceAs (Decidable (_ → _ → _ ∧ _))

theorem inv_init : Inv ({} : TtsImpl) where
  running := rfl
  releasing := by simp
  lined := by
    intro h
    rcases h with h | h | h | h <;> cases h
  noError := by
    intro r hr
    cases hr
  closed := fun _ => ⟨rfl, rfl⟩
  send := rfl
  sendDone := fun _ => rfl
  epoch := by
    intro a ha
    cases ha
  fresh := Nat.le_refl _

namespace Inv

variable {s t : TtsImpl}

/-- A step that changes nothing the invariant is about. -/
theorem congr (h : Inv s) (ht : t.aborted = s.aborted) (hi : t.initialized = s.initialized)
    (hr : t.releasing = s.releasing) (hc : t.controller = s.controller)
    (hq : t.responses = s.responses) (hreq : t.requests.map (·.id) = s.requests.map (·.id))
    (hn : t.nextId = s.nextId) (hs : t.send = s.send) (he : t.epoch = s.epoch) : Inv t := by
  have hstr : t.Streaming ↔ s.Streaming := by simp only [Streaming, hi, hr]
  exact
    { running := ht.trans h.running
      releasing := by rw [hr, hi]; exact h.releasing
      lined := by
        intro hs'
        obtain ⟨v, hl, hord⟩ := h.lined (hstr.mp hs')
        refine ⟨v, hc ▸ hq ▸ hl, ?_⟩
        rw [pendingIds, hreq, hn]
        exact hord
      noError := hq ▸ h.noError
      closed := by
        intro hs'
        rw [hc, hq]
        exact h.closed fun hs => hs' (hstr.mpr hs)
      send := by rw [hs, hc]; exact h.send
      sendDone := by
        intro hs'
        rw [hs]
        exact h.sendDone (by rwa [hr, hstr] at hs')
      epoch := by rw [hc, he]; exact h.epoch
      fresh := by rw [hc, he]; exact h.fresh }

/-- A critical section of a thread other than the send thread. -/
theorem quiet (h : Inv s) (ht : t.aborted = s.aborted) (hi : t.initialized = s.initialized)
    (hr : t.releasing = s.releasing) (hreq : t.requests.map (·.id) = s.requests.map (·.id))
    (hn : t.nextId = s.nextId) (hs : t.send = s.send) (he : t.epoch = s.epoch)
    (hquiet : s.controller.Quiet t.controller)
    (hl : ∀ v, Lined s.controller s.responses v → ∃ v', Lined t.controller t.responses v' ∧
      v'.map Prod.fst <:+ v.map Prod.fst)
    (hno : NoServerError t.responses)
    (hidle : ¬ s.Streaming → t.responses.records = []) : Inv t := by
  have hstr : t.Streaming ↔ s.Streaming := by simp only [Streaming, hi, hr]
  exact
    { running := ht.trans h.running
      releasing := by rw [hr, hi]; exact h.releasing
      lined := by
        intro hs'
        obtain ⟨v, hlined, hord⟩ := h.lined (hstr.mp hs')
        obtain ⟨v', hl', hsuf⟩ := hl v hlined
        have hsub : (pendingIds v' t.requests).Sublist (pendingIds v s.requests) := by
          rw [pendingIds, pendingIds, hreq]
          exact hsuf.sublist.append_right _
        rw [hn]
        exact ⟨v', hl', hord.sublist hsub⟩
      noError := hno
      closed := by
        intro hs'
        have hs'' := fun hs => hs' (hstr.mpr hs)
        exact ⟨hquiet.current_none (h.closed hs'').1, hidle hs''⟩
      send := by rw [hs]; exact h.send.quiet hquiet
      sendDone := by
        intro hs'
        rw [hs]
        exact h.sendDone (by rwa [hr, hstr] at hs')
      epoch := by
        intro a ha
        rw [he]
        exact h.epoch a (hquiet.operations.subset ha)
      fresh := by rw [he, hquiet.fresh]; exact h.fresh }

/-! ### Sessions -/

theorem prepare (h : Inv s) (hidle : s.releasing = .idle)
    (hclean : s.initialized = false → s.requests = [] ∧ s.controller.operations = []) :
    Inv s.prepare := by
  unfold TtsImpl.prepare
  split
  · exact h
  · rename_i hi
    have hi' : s.initialized = false := by simpa using hi
    obtain ⟨hreq, hops⟩ := hclean hi'
    have hstr : ¬ s.Streaming := by simp [Streaming, hi', hidle]
    obtain ⟨hcur, hrec⟩ := h.closed hstr
    have hlined : Lined s.controller s.responses [] := by
      refine ⟨[], none, ?_, rfl⟩
      exact
        { operations := hops
          current := hcur
          streams := hrec
          heap := by simp
          addrs := by simp
          bound := by simp
          ids := by simp
          done_ok := by simp
          live_ok := by simp
          twins := .nil
          live_new := by simp }
    exact
      { running := h.running
        releasing := fun hne => absurd hidle hne
        lined := fun _ => ⟨[], hlined, by simp [pendingIds, hreq], by simp [pendingIds, hreq]⟩
        noError := h.noError
        closed := fun hs => absurd (Or.inl rfl) hs
        send := hcur
        sendDone := by
          intro hs
          rcases hs with hs | hs
          · rw [hidle] at hs
            cases hs
          · exact absurd (Or.inl rfl) hs
        epoch := by
          intro a ha
          rw [hops] at ha
          cases ha
        fresh := Nat.le_refl _ }

theorem release (h : Inv s) (hst : s.release = some t) : Inv t := by
  unfold TtsImpl.release at hst
  cases hr : s.releasing with
  | idle =>
      simp only [hr] at hst
      split at hst
      · rename_i hi
        cases hst
        have hstr : s.Streaming := .inl hi
        exact
          { running := h.running
            releasing := fun _ => rfl
            lined := fun _ => h.lined hstr
            noError := h.noError
            closed := fun hs => absurd (.inr (.inl rfl)) hs
            send := h.send
            sendDone := by
              rintro (hs | hs)
              · cases hs
              · exact absurd (.inr (.inl rfl)) hs
            epoch := h.epoch
            fresh := h.fresh }
      · cases hst
        exact h
  | closing =>
      simp only [hr] at hst
      cases hst
      have hstr : s.Streaming := .inr (.inl hr)
      exact
        { running := h.running
          releasing := fun _ => h.releasing (by simp [hr])
          lined := by
            intro _
            obtain ⟨v, hl, hord⟩ := h.lined hstr
            have hsub : (pendingIds v []).Sublist (pendingIds v s.requests) := by
              simp [pendingIds]
            exact ⟨v, hl, hord.sublist hsub⟩
          noError := h.noError
          closed := fun hs => absurd (.inr (.inr (.inl rfl))) hs
          send := h.send
          sendDone := by
            rintro (hs | hs)
            · cases hs
            · exact absurd (.inr (.inr (.inl rfl))) hs
          epoch := h.epoch
          fresh := h.fresh }
  | joinReq =>
      simp only [hr] at hst
      split at hst
      · rename_i hdone
        cases hst
        have hstr : s.Streaming := .inr (.inr (.inl hr))
        exact
          { running := h.running
            releasing := fun _ => h.releasing (by simp [hr])
            lined := fun _ => h.lined hstr
            noError := h.noError
            closed := fun hs => absurd (.inr (.inr (.inr rfl))) hs
            send := h.send
            sendDone := fun _ => hdone
            epoch := h.epoch
            fresh := h.fresh }
      · cases hst
  | closeResp =>
      simp only [hr] at hst
      cases hst
      have hdone : s.send = .done := h.sendDone (.inl hr)
      have hcur : s.controller.currentOp = none := by
        have hknows := h.send
        rw [hdone] at hknows
        exact hknows
      have hinit : s.initialized = false := h.releasing (by simp [hr])
      have hquiet := OpCtl.Quiet.finishOp s.controller
      exact
        { running := h.running
          releasing := fun _ => hinit
          lined := by
            rintro (hs | hs | hs | hs)
            · rw [hinit] at hs
              cases hs
            · cases hs
            · cases hs
            · cases hs
          noError := by
            intro r hr'
            rw [Streams.close_records] at hr'
            cases hr'
          closed := fun _ => ⟨hquiet.current_none hcur, Streams.close_records _⟩
          send := h.send.quiet hquiet
          sendDone := fun _ => hdone
          epoch := fun a ha => h.epoch a (hquiet.operations.subset ha)
          fresh := by rw [hquiet.fresh]; exact h.fresh }
  | joinResp =>
      simp only [hr] at hst
      split at hst
      · cases hst
        have hinit : s.initialized = false := h.releasing (by simp [hr])
        have hstr : ¬ s.Streaming := by simp [Streaming, hinit, hr]
        have hstr' : ¬ ({ s with releasing := .idle } : TtsImpl).Streaming := by
          simp [Streaming, hinit]
        exact
          { running := h.running
            releasing := fun hne => absurd rfl hne
            lined := fun hs => absurd hs hstr'
            noError := h.noError
            closed := fun _ => h.closed hstr
            send := h.send
            sendDone := fun _ => h.sendDone (.inr hstr)
            epoch := h.epoch
            fresh := h.fresh }
      · cases hst

/-! ### Clients -/

theorem speak (h : Inv s) (text : String) : Inv (s.speak text) := by
  have hord : ∀ v, Increasing s.nextId (pendingIds v s.requests) →
      Increasing (s.speak text).nextId (pendingIds v (s.speak text).requests) := by
    intro v hv
    have hids : pendingIds v (s.speak text).requests =
        pendingIds v s.requests ++ [s.nextId + 1] := by
      simp [pendingIds, TtsImpl.speak]
    rw [hids]
    constructor
    · rw [List.pairwise_append]
      refine ⟨hv.sorted, by simp, ?_⟩
      intro id hid id' hid'
      rw [List.mem_singleton.mp hid']
      exact Int.lt_add_one_of_le (hv.le_nextId id hid)
    · intro id hid
      rw [List.mem_append, List.mem_singleton] at hid
      rcases hid with hid | rfl
      · exact Int.le_trans (hv.le_nextId id hid) (Int.le_of_lt (Int.lt_succ _))
      · exact Int.le_refl _
  exact
    { running := h.running
      releasing := h.releasing
      lined := by
        intro hs
        obtain ⟨v, hl, hv⟩ := h.lined hs
        exact ⟨v, hl, hord v hv⟩
      noError := h.noError
      closed := h.closed
      send := h.send
      sendDone := h.sendDone
      epoch := h.epoch
      fresh := h.fresh }

theorem cancel (h : Inv s) (id : Int) : Inv (s.cancel id) := by
  obtain ⟨reqs, c, n, heq, hids, hquiet, hl⟩ := cancel_spec id s
  rw [heq]
  exact h.quiet rfl rfl rfl hids rfl rfl rfl hquiet
    (fun v hv => ⟨v, hl _ v hv, List.suffix_refl _⟩) h.noError fun hs => (h.closed hs).2

theorem call (h : Inv s) {n : Nat} {pc : ClientPc} (hst : s.call n pc = some t) : Inv t := by
  unfold TtsImpl.call at hst
  split at hst
  · split at hst
    · cases hst
      exact h.congr rfl rfl rfl rfl rfl rfl rfl rfl rfl
    · cases hst
      exact h
  · cases hst
    exact h.congr rfl rfl rfl rfl rfl rfl rfl rfl rfl
  · cases hst

theorem client (h : Inv s) {n : Nat} (hst : s.client n = some t) : Inv t := by
  have hidle : Inv { s with clients := Function.update s.clients n .idle } :=
    h.congr rfl rfl rfl rfl rfl rfl rfl rfl rfl
  unfold TtsImpl.client at hst
  split at hst
  · split at hst
    · cases hst
    · cases hst
      exact hidle.speak _
    · cases hst
      exact hidle.cancel _
  · cases hst

/-- A client that polls. -/
theorem pollStep (h : Inv s) : Inv s.pollStep := by
  unfold TtsImpl.pollStep
  split
  · rename_i hi
    have hstr : s.Streaming := .inl hi
    obtain ⟨v₀, hl₀, -⟩ := h.lined hstr
    obtain ⟨o, c, q, hpoll, hquiet, hno, -⟩ := poll_spec hl₀ h.noError
    -- whatever is reported, at most the operation in front is gone
    have hl : ∀ v, Lined s.controller s.responses v → ∃ v', Lined c q v' ∧
        v'.map Prod.fst <:+ v.map Prod.fst := by
      intro v hv
      obtain ⟨o', c', q', hpoll', -, -, hcase⟩ := poll_spec hv h.noError
      rw [hpoll, Option.some.injEq, Prod.mk.injEq] at hpoll'
      obtain ⟨rfl, heq⟩ := hpoll'
      obtain rfl : c = c' := congrArg TtsImpl.controller heq
      obtain rfl : q = q' := congrArg TtsImpl.responses heq
      rcases hcase with ⟨-, hv'⟩ | ⟨a, r, v', -, -, -, hv', hrep⟩
      · exact ⟨v, hv', List.suffix_refl _⟩
      · exact ⟨v', hv', hrep.suffix⟩
    have hpolled : ∀ l, Inv { s with controller := c, responses := q, polled := l } := fun l =>
      h.quiet rfl rfl rfl rfl rfl rfl rfl hquiet hl hno fun hs => absurd hstr hs
    rw [hpoll]
    cases o with
    | none => exact hpolled s.polled
    | some r => exact hpolled (s.polled ++ [r])
  · exact h

/-! ### The threads -/

theorem handle (h : Inv s) (r : ConnectionOpResult) (resp : TtsResponse) :
    Inv (s.handleResult r resp) := by
  have hsec := handleResult_section r resp s
  have heq := hsec.eq
  refine h.quiet ?_ ?_ ?_ ?_ ?_ ?_ ?_ hsec.quiet
    (fun v hv => ⟨v, hsec.lined v hv, List.suffix_refl _⟩) (hsec.noError h.noError) ?_
  · rw [heq]
  · rw [heq]
  · rw [heq]
  · rw [heq]
  · rw [heq]
  · rw [heq]
  · rw [heq]
  · intro hs
    obtain ⟨hcur, hrec⟩ := h.closed hs
    rw [hsec.idle hcur]
    exact hrec

theorem gen (h : Inv s) {r : ConnectionOpResult} {resp : TtsResponse}
    (hst : s.genStep r resp = some t) : Inv t := by
  unfold TtsImpl.genStep at hst
  split at hst
  · cases hst
    exact h.congr rfl rfl rfl rfl rfl rfl rfl rfl rfl
  · split at hst
    · split at hst
      · cases hst
        exact h.congr rfl rfl rfl rfl rfl rfl rfl rfl rfl
      · cases hst
        exact h.congr rfl rfl rfl rfl rfl rfl rfl rfl rfl
    · cases hst
  · cases hst
    exact (h.handle _ _).congr rfl rfl rfl rfl rfl rfl rfl rfl rfl
  · cases hst

/-- The send thread moves on with the controller changed quietly. -/
theorem advance (h : Inv s) {c : OpCtl TtsError} {pc : SendPc} (n : Nat) (l : List TtsRequest)
    (hquiet : s.controller.Quiet c)
    (hl : ∀ v, Lined s.controller s.responses v → Lined c s.responses v)
    (hpc : pc.Knows c) (hsend : s.send ≠ .done) :
    Inv { s with controller := c, respNotifies := n, sent := l, send := pc } where
  running := h.running
  releasing := h.releasing
  lined := by
    intro hs
    obtain ⟨v, hv, hord⟩ := h.lined hs
    exact ⟨v, hl v hv, hord⟩
  noError := h.noError
  closed := fun hs => absurd (h.sendDone (.inr hs)) hsend
  send := hpc
  sendDone := fun hs => absurd (h.sendDone hs) hsend
  epoch := fun a ha => h.epoch a (hquiet.operations.subset ha)
  fresh := by rw [hquiet.fresh]; exact h.fresh

/-- The send thread takes a request: it becomes the newest operation. -/
theorem take (h : Inv s) {req : TtsReqInfo} {requests : List TtsReqInfo}
    (hinit : s.initialized = true) (hreq : s.requests = req :: requests)
    {c : OpCtl TtsError} {pc : SendPc} (n : Nat)
    (hops : c.operations = s.controller.operations ++ [s.controller.fresh])
    (hfresh : c.fresh = s.controller.fresh + 1)
    (hl : ∀ v, Lined s.controller s.responses v → req.id ∉ v.map Prod.fst →
      Lined c s.responses (v ++ [(req.id, false)]))
    (hpc : pc.Knows c) :
    Inv { s with requests := requests, controller := c, respNotifies := n, send := pc } := by
  have hstr : s.Streaming := .inl hinit
  have hrel : s.releasing = .idle := by
    by_contra hne
    rw [h.releasing hne] at hinit
    cases hinit
  obtain ⟨v, hlined, hord⟩ := h.lined hstr
  have hids : pendingIds v s.requests = v.map Prod.fst ++ req.id :: requests.map (·.id) := by
    rw [pendingIds, hreq, List.map_cons]
  have hnew : req.id ∉ v.map Prod.fst := by
    intro hmem
    have hsorted := hord.sorted
    rw [hids, List.pairwise_append] at hsorted
    exact Int.lt_irrefl _ (hsorted.2.2 _ hmem req.id (by simp))
  have hord' : Increasing s.nextId (pendingIds (v ++ [(req.id, false)]) requests) := by
    have heq : pendingIds (v ++ [(req.id, false)]) requests = pendingIds v s.requests := by
      rw [hids]
      simp [pendingIds]
    rw [heq]
    exact hord
  exact
    { running := h.running
      releasing := h.releasing
      lined := fun _ => ⟨_, hl v hlined hnew, hord'⟩
      noError := h.noError
      closed := fun hs => absurd hstr hs
      send := hpc
      sendDone := by
        rintro (hs | hs)
        · exact absurd (hrel.symm.trans hs) (by simp)
        · exact absurd hstr hs
      epoch := by
        intro a ha
        have ha' : a ∈ s.controller.operations ++ [s.controller.fresh] := hops ▸ ha
        rcases List.mem_append.mp ha' with ha' | ha'
        · exact h.epoch a ha'
        · rw [List.mem_singleton.mp ha']
          exact h.fresh
      fresh := by
        have hle := h.fresh
        simp only [hfresh]
        omega }

theorem send_step (h : Inv s) {r : ConnectionOpResult} (hst : s.sendStep r = some t) :
    Inv t := by
  have hmove := sendStep_move hst
  have hknows := hmove.knows h.send
  cases hmove with
  | exit hpc hinit =>
      exact h.advance s.respNotifies s.sent (.refl _) (fun _ hv => hv) hknows (by simp [hpc])
  | sleep hpc hinit hreq =>
      exact h.advance s.respNotifies s.sent (.refl _) (fun _ hv => hv) hknows (by simp [hpc])
  | cancelled hpc hinit hreq hdel =>
      have hcur : s.controller.currentOp = none := hknows
      exact h.take hinit hreq _ rfl rfl
        (fun v hv _ => hv.newOp_cancelled hcur _ _) hknows
  | start hpc hinit hreq hdel =>
      have hbefore := h.send
      rw [hpc] at hbefore
      exact h.take hinit hreq s.respNotifies rfl rfl
        (fun v hv hnew => hv.newOp_start hbefore _ hnew) hknows
  | wake hpc =>
      exact h.advance s.respNotifies s.sent (.refl _) (fun _ hv => hv) hknows (by simp [hpc])
  | fail hpc hr =>
      exact h.advance s.respNotifies s.sent (.refl _) (fun _ hv => hv) hknows (by simp [hpc])
  | build hpc =>
      exact h.advance s.respNotifies s.sent (.refl _) (fun _ hv => hv) hknows (by simp [hpc])
  | available hpc hr hopen =>
      exact h.advance s.respNotifies s.sent (.refl _) (fun _ hv => hv) hknows (by simp [hpc])
  | write hpc =>
      exact h.advance s.respNotifies _ (.refl _) (fun _ hv => hv) hknows (by simp [hpc])
  | @setError req err hpc =>
      -- the operation, if it is still current, is finished here
      exact h.advance _ s.sent (.setOpError _ err) (fun _ hv => hv.setOpError err) hknows
        (by simp [hpc])
  | refresh hpc =>
      exact h.advance s.respNotifies s.sent (.refreshOpTime s.controller s.now false)
        (fun _ hv => hv.refreshOpTime _ _) hknows (by simp [hpc])
  | @block id hpc hwait =>
      have hne : s.send ≠ .done := by simp [hpc]
      exact
        { running := h.running
          releasing := h.releasing
          lined := by
            intro hs
            obtain ⟨v, hv, hord⟩ := h.lined hs
            exact ⟨v, hv.opWaiting true, hord⟩
          noError := h.noError
          closed := fun hs => absurd (h.sendDone (.inr hs)) hne
          send := hknows
          sendDone := fun hs => absurd (h.sendDone hs) hne
          epoch := h.epoch
          fresh := h.fresh }
  | skip hpc hwait =>
      exact h.advance s.respNotifies s.sent (.refl _) (fun _ hv => hv) hknows (by simp [hpc])
  | awake hpc hwait =>
      exact h.advance s.respNotifies s.sent (.refl _) (fun _ hv => hv) hknows (by simp [hpc])

/-- **One step.** -/
theorem step (h : Inv s) {a : TtsAct} (hok : CleanPrepare s a) (hst : s.step a = some t) :
    Inv t := by
  unfold TtsImpl.step at hst
  rw [h.running, if_neg Bool.false_ne_true] at hst
  cases a with
  | prepare =>
      simp only at hst
      split at hst
      · rename_i hidle
        cases hst
        exact h.prepare hidle (hok rfl)
      · cases hst
  | release => exact h.release hst
  | call n pc => exact h.call hst
  | client n => exact h.client hst
  | poll =>
      cases hst
      exact h.pollStep
  | config mod =>
      cases hst
      unfold TtsImpl.config
      cases mod with
      | none => exact h
      | some mod => exact h.congr rfl rfl rfl rfl rfl rfl rfl rfl rfl
  | send r => exact h.send_step hst
  | gen r resp => exact h.gen hst
  | tick ns =>
      cases hst
      exact h.congr h.running.symm rfl rfl rfl rfl rfl rfl rfl rfl

end Inv

/-- The step relation of the object. -/
def Steps (s : TtsImpl) (a : TtsAct) (t : TtsImpl) : Prop := s.step a = some t

/-- **Every run** of sessions that start clean keeps the invariant. -/
theorem Inv.run {s t : TtsImpl} (hrun : Run Steps CleanPrepare s t) (h : Inv s) : Inv t :=
  hrun.invariant (fun _ _ _ hinv hok hst => hinv.step hok hst) h

end TtsImpl

end OpenVoice
