import OpenVoice.Lib.Run
import OpenVoice.Speech.Ids
import OpenVoice.Speech.Knows

/-!
# The invariant of `SpeechImpl`

`responses_` is aligned with `operations_`, the send thread relies on what is so, and no id is
handed out twice.

The invariant is preserved by every step of every thread over any number of sessions, provided
that `prepare` finds nothing left over from the session before (`CleanPrepare`) and that
`++next_id_` is not interrupted (`AtomicIncr`).
-/

namespace OpenVoice

open OpenVoice.Lib

namespace SpeechImpl

/-- `responses_` is in use: from `prepare` until `release` closes it. -/
def Streaming (s : SpeechImpl) : Prop :=
  s.initialized = true ∨ s.releasing = .closing ∨ s.releasing = .setError ∨
    s.releasing = .joinReq ∨ s.releasing = .closeResp

/-- The invariant. -/
structure Inv (s : SpeechImpl) : Prop where
  running : s.aborted = false
  releasing : s.releasing ≠ .idle → s.initialized = false
  lined : s.Streaming → ∃ v, Lined s.controller s.responses v
  opIds : s.controller.opIds <:+ s.created
  plain : PlainContent s.responses
  closed : ¬ s.Streaming → s.controller.currentOp = none ∧ s.responses.records = [] ∧
    ∀ a ∈ s.controller.operations, (s.controller.heap a).status.Terminal
  send : s.send.Knows s.initialized s.voiceReqs.keys s.controller
  sendDone : s.releasing = .closeResp ∨ ¬ s.Streaming → s.send = .done
  texts : ∀ p ∈ s.textReqs, p.type = .text ∨ p.type = .cancelled
  started : ∀ id, (id, true) ∈ s.voiceReqs.keys →
    id ∈ s.created ∨ id ∈ s.send.starting
  ids : Ids s.nextId s.created s.queuedIds s.clients
  epoch : ∀ a ∈ s.controller.operations, s.epoch ≤ a
  fresh : s.epoch ≤ s.controller.fresh

/-- `prepare` opens a session on an object whose queues are empty, and nobody is about to queue a
    request of the session before. -/
def CleanPrepare (s : SpeechImpl) (a : SpeechAct) : Prop :=
  a = .prepare → s.initialized = false →
    s.textReqs = [] ∧ s.voiceReqs.records = [] ∧ s.controller.operations = [] ∧
      ∀ n, (s.clients n).held = none

/-- The value of `next_id_` a client has loaded and is about to increment. -/
def ClientPc.loaded : ClientPc → Option Int
  | .storeId _ _ loaded | .storeVoice _ loaded => some loaded
  | _ => none

/-- The store of `++next_id_`, in `put_text` or `start_voice`, finds the value that was loaded. -/
def atomicIncr (s : SpeechImpl) : SpeechAct → Bool
  | .client n => (s.clients n).loaded.all (s.nextId = ·)
  | _ => true

def AtomicIncr (s : SpeechImpl) (a : SpeechAct) : Prop := s.atomicIncr a = true

instance (s : SpeechImpl) (a : SpeechAct) : Decidable (AtomicIncr s a) :=
  inferInstanceAs (Decidable (s.atomicIncr a = true))

theorem AtomicIncr.store {s : SpeechImpl} {n : Nat} (h : AtomicIncr s (.client n))
    {text : Bytes} {options : Sp VoiceOptions} {loaded : Int}
    (hpc : s.clients n = .storeId text options loaded) : s.nextId = loaded := by
  unfold AtomicIncr atomicIncr at h
  simp only [hpc, ClientPc.loaded, Option.all_some] at h
  exact of_decide_eq_true h

theorem AtomicIncr.storeVoice {s : SpeechImpl} {n : Nat} (h : AtomicIncr s (.client n))
    {options : Sp VoiceOptions} {loaded : Int} (hpc : s.clients n = .storeVoice options loaded) :
    s.nextId = loaded := by
  unfold AtomicIncr atomicIncr at h
  simp only [hpc, ClientPc.loaded, Option.all_some] at h
  exact of_decide_eq_true h

theorem inv_init : Inv ({} : SpeechImpl) where
  running := rfl
  releasing := by simp
  lined := by
    intro h
    rcases h with h | h | h | h | h <;> cases h
  opIds := List.suffix_refl _
  plain := by
    intro r hr
    cases hr
  closed := by
    intro _
    refine ⟨rfl, rfl, ?_⟩
    intro a ha
    cases ha
  send := trivial
  sendDone := fun _ => rfl
  texts := by
    intro p hp
    cases hp
  started := by
    intro id hid
    cases hid
  ids :=
    { nodup := .nil
      queued_new := by
        intro id hid
        cases hid
      queued_le := by
        intro id hid
        cases hid
      created_le := by
        intro id hid
        cases hid
      held := by
        intro n id hn
        cases hn
      held_inj := by
        intro n m id hn
        cases hn }
  epoch := by
    intro a ha
    cases ha
  fresh := Nat.le_refl _

namespace Inv

variable {s t : SpeechImpl}

/-- A critical section of a thread other than the send thread. -/
theorem quiet (h : Inv s) (ht : t.aborted = false) (hi : t.initialized = s.initialized)
    (hr : t.releasing = s.releasing) (hs : t.send = s.send) (he : t.epoch = s.epoch)
    (hcr : t.created = s.created) (hks : Extended s.voiceReqs.keys t.voiceReqs.keys)
    (htext : ∀ p ∈ t.textReqs, p.type = .text ∨ p.type = .cancelled)
    (hids : Ids t.nextId s.created t.queuedIds t.clients)
    (hq : s.controller.Quiet t.controller)
    (hl : ∀ v, Lined s.controller s.responses v → ∃ v', Lined t.controller t.responses v')
    (hplain : PlainContent t.responses)
    (hidle : ¬ s.Streaming → t.responses.records = [] ∧
      ∀ a ∈ t.controller.operations, (t.controller.heap a).status.Terminal) : Inv t := by
  have hstr : t.Streaming ↔ s.Streaming := by simp only [Streaming, hi, hr]
  exact
    { running := ht
      releasing := by
        rw [hr, hi]
        exact h.releasing
      lined := by
        intro hst
        obtain ⟨v, hv⟩ := h.lined (hstr.mp hst)
        exact hl v hv
      opIds := by
        rw [hcr]
        exact hq.opIds.trans h.opIds
      plain := hplain
      closed := by
        intro hst
        have hst' : ¬ s.Streaming := fun hs' => hst (hstr.mpr hs')
        exact ⟨hq.current_none (h.closed hst').1, hidle hst'⟩
      send := by
        rw [hs]
        apply h.send.quiet hq
        intro hinit
        exact ⟨hi ▸ hinit, hks.isPrefix⟩
      sendDone := by
        intro hst
        rw [hs]
        exact h.sendDone (by rwa [hr, hstr] at hst)
      texts := htext
      started := by
        intro id hid
        rw [hcr, hs]
        exact h.started id (hks.started hid)
      ids := by
        rw [hcr]
        exact hids
      epoch := by
        intro a ha
        rw [he]
        exact h.epoch a (hq.operations.subset ha)
      fresh := by
        rw [he, hq.fresh]
        exact h.fresh }

/-- The same when the controller and the responses are left alone. -/
theorem still (h : Inv s) (ht : t.aborted = false) (hi : t.initialized = s.initialized)
    (hr : t.releasing = s.releasing) (hs : t.send = s.send) (he : t.epoch = s.epoch)
    (hcr : t.created = s.created) (hks : Extended s.voiceReqs.keys t.voiceReqs.keys)
    (htext : ∀ p ∈ t.textReqs, p.type = .text ∨ p.type = .cancelled)
    (hids : Ids t.nextId s.created t.queuedIds t.clients)
    (hc : t.controller = s.controller) (hresp : t.responses = s.responses) : Inv t := by
  refine h.quiet ht hi hr hs he hcr hks htext hids ?_ ?_ ?_ ?_
  · rw [hc]
    exact .refl _
  · intro v hv
    rw [hc, hresp]
    exact ⟨v, hv⟩
  · rw [hresp]
    exact h.plain
  · intro hst
    rw [hc, hresp]
    exact (h.closed hst).2

/-- Steps that the invariant does not see. -/
theorem unseen (h : Inv s) (ht : t.aborted = s.aborted) (hi : t.initialized = s.initialized)
    (hr : t.releasing = s.releasing) (hs : t.send = s.send) (he : t.epoch = s.epoch)
    (hcr : t.created = s.created) (hv : t.voiceReqs.keys = s.voiceReqs.keys)
    (htext : t.textReqs = s.textReqs) (hn : t.nextId = s.nextId) (hcl : t.clients = s.clients)
    (hc : t.controller = s.controller) (hresp : t.responses = s.responses) : Inv t := by
  refine h.still (ht.trans h.running) hi hr hs he hcr ?_ ?_ ?_ hc hresp
  · exact .of_eq hv
  · rw [htext]
    exact h.texts
  · rw [hn, hcl, queuedIds, hs, hcr, htext, hv]
    exact h.ids

/-! ### Sessions -/

theorem prepare (h : Inv s) (hidle : s.releasing = .idle)
    (hclean : s.initialized = false → s.textReqs = [] ∧ s.voiceReqs.records = [] ∧
      s.controller.operations = [] ∧ ∀ n, (s.clients n).held = none) : Inv s.prepare := by
  unfold SpeechImpl.prepare
  split
  · exact h
  · rename_i hi
    have hi' : s.initialized = false := by simpa using hi
    obtain ⟨htext, hvoice, hops, hheld⟩ := hclean hi'
    have hstr : ¬ s.Streaming := by simp [Streaming, hi', hidle]
    obtain ⟨hcur, hrec, -⟩ := h.closed hstr
    have hlined : Lined s.controller s.responses [] := by
      refine ⟨[], none, ?_, rfl⟩
      exact
        { operations := hops
          current := hcur
          streams := hrec
          heap := by simp
          addrs := by simp
          bound := by simp
          ids := by simp
          done_ok := by simp
          live_ok := by simp
          twins := .nil
          live_new := by simp }
    have hks : s.voiceReqs.keys = [] := by
      rw [Streams.keys, hvoice]
      rfl
    have hqueued : waiting (SendPc.taken [] .loop) s.textReqs s.voiceReqs.keys = [] := by
      simp [waiting, SendPc.taken, htext, hks]
    exact
      { running := h.running
        releasing := fun hne => absurd hidle hne
        lined := fun _ => ⟨[], hlined⟩
        opIds := by simp [OpCtl.opIds, hops]
        plain := h.plain
        closed := fun hs => absurd (Or.inl rfl) hs
        send := Attended.of_none hcur
        sendDone := by
          rintro (hs | hs)
          · simp [hidle] at hs
          · exact absurd (Or.inl rfl) hs
        texts := h.texts
        started := by
          intro id hid
          rw [hks] at hid
          cases hid
        ids := by
          rw [queuedIds, hqueued]
          exact
            { nodup := .nil
              queued_new := by simp
              queued_le := by simp
              created_le := by simp
              held := by simp [hheld]
              held_inj := by simp [hheld] }
        epoch := by
          intro a ha
          rw [hops] at ha
          cases ha
        fresh := Nat.le_refl _ }

/-- `release` goes on, the responses being still open. -/
theorem release_open (h : Inv s) {c : OpCtl SpeechError} {q : Streams Bytes VoiceOptions}
    {texts : List SpeechReqInfo} {pc : ReleasePc} (b : Bool) (hstr : s.Streaming)
    (hpc : pc = .closing ∨ pc = .setError ∨ pc = .joinReq ∨ pc = .closeResp)
    (hdone : pc = .closeResp → s.send = .done) (hq : s.controller.Quiet c)
    (hl : ∀ v, Lined s.controller s.responses v → Lined c s.responses v)
    (hks : q.keys = s.voiceReqs.keys ∨ q.keys = [])
    (htext : texts = s.textReqs ∨ texts = []) :
    Inv { s with
      initialized := false, connClosed := b, releasing := pc, controller := c
      voiceReqs := q, textReqs := texts } where
  running := h.running
  releasing := fun _ => rfl
  lined := by
    intro _
    obtain ⟨v, hv⟩ := h.lined hstr
    exact ⟨v, hl v hv⟩
  opIds := hq.opIds.trans h.opIds
  plain := h.plain
  closed := fun hs => absurd (.inr hpc) hs
  send := by
    apply h.send.quiet hq
    intro hinit
    cases hinit
  sendDone := by
    rintro (hs | hs)
    · exact hdone hs
    · exact absurd (.inr hpc) hs
  texts := by
    intro p hp
    rcases htext with rfl | rfl
    · exact h.texts p hp
    · cases hp
  started := by
    intro id hid
    rcases hks with hks | hks
    · rw [hks] at hid
      exact h.started id hid
    · rw [hks] at hid
      cases hid
  ids := by
    apply h.ids.sublist
    apply List.Sublist.subperm
    have hk : (unstarted q.keys).Sublist (unstarted s.voiceReqs.keys) := by
      rcases hks with hks | hks
      · rw [hks]
      · rw [hks, unstarted_nil]
        exact List.nil_sublist _
    have ht : (texts.map (·.id)).Sublist (s.textReqs.map (·.id)) := by
      rcases htext with rfl | rfl
      · exact List.Sublist.refl _
      · exact List.nil_sublist _
    exact ((List.Sublist.refl _).append ht).append hk
  epoch := fun a ha => h.epoch a (hq.operations.subset ha)
  fresh := by
    rw [hq.fresh]
    exact h.fresh

theorem release (h : Inv s) (hst : s.release = some t) : Inv t := by
  -- once `release` has begun the session is over
  have hover : s.releasing ≠ .idle → s.initialized = false := h.releasing
  cases release_move hst with
  | absent hrel hinit => exact h
  | enter hrel hinit =>
      exact h.release_open s.connClosed (.inl hinit) (.inl rfl) (by simp) (.refl _)
        (fun _ hv => hv) (.inl rfl) (.inl rfl)
  | close hrel =>
      have hinv := h.release_open true (.inr (.inl hrel)) (.inr (.inl (rfl : ReleasePc.setError = _)))
        (by simp) (.refl _) (fun _ hv => hv) (.inr (Streams.close_keys s.voiceReqs)) (.inr rfl)
      rw [← hover (by simp [hrel])] at hinv
      exact hinv
  | setError hrel =>
      have hinv := h.release_open s.connClosed (.inr (.inr (.inl hrel)))
        (.inr (.inr (.inl (rfl : ReleasePc.joinReq = _)))) (by simp)
        (.setOpError s.controller SpeechError.sdkClosed) (fun _ hv => hv.setOpError _)
        (.inl rfl) (.inl rfl)
      rw [← hover (by simp [hrel])] at hinv
      exact hinv
  | joinReq hrel hdone =>
      have hinv := h.release_open s.connClosed (.inr (.inr (.inr (.inl hrel))))
        (.inr (.inr (.inr (rfl : ReleasePc.closeResp = _)))) (fun _ => hdone) (.refl _)
        (fun _ hv => hv) (.inl rfl) (.inl rfl)
      rw [← hover (by simp [hrel])] at hinv
      exact hinv
  | closeResp hrel hfree =>
      have hdone : s.send = .done := h.sendDone (.inl hrel)
      have hinit : s.initialized = false := hover (by simp [hrel])
      have hquiet := OpCtl.Quiet.finishOp s.controller
      obtain ⟨v, hv⟩ := h.lined (.inr (.inr (.inr (.inr hrel))))
      exact
        { h with
          releasing := fun _ => hinit
          lined := by
            rintro (hs | hs | hs | hs | hs)
            · rw [hinit] at hs
              cases hs
            · cases hs
            · cases hs
            · cases hs
            · cases hs
          opIds := hquiet.opIds.trans h.opIds
          plain := by
            intro r hrec
            rw [Streams.close_records] at hrec
            cases hrec
          closed := fun _ => ⟨OpCtl.finishOp_current _, Streams.close_records _,
            hv.finishOp_terminal⟩
          send := by
            rw [hdone]
            exact trivial
          sendDone := fun _ => hdone
          epoch := fun a ha => h.epoch a (hquiet.operations.subset ha)
          fresh := by
            rw [hquiet.fresh]
            exact h.fresh }
  | joinResp hrel hdone =>
      have hinit : s.initialized = false := hover (by simp [hrel])
      have hstr : ¬ s.Streaming := by simp [Streaming, hinit, hrel]
      have hstr' : ¬ ({ s with releasing := .idle } : SpeechImpl).Streaming := by
        simp [Streaming, hinit]
      exact
        { h with
          releasing := fun hne => absurd rfl hne
          lined := fun hs => absurd hs hstr'
          closed := fun _ => h.closed hstr
          sendDone := fun _ => h.sendDone (.inr hstr) }

/-! ### Clients -/

theorem call (h : Inv s) {n : Nat} {c : SpeechCall} (hst : s.call n c = some t) : Inv t := by
  -- a client that starts a call holds no id
  have hmoved : ∀ pc : ClientPc, pc.held = none → Inv (s.setClient n pc) := by
    intro pc hpc
    exact h.still h.running rfl rfl rfl rfl rfl (.refl _) h.texts (h.ids.client n hpc)
      rfl rfl
  cases call_move hst with
  | stay => exact h
  | enter hidle hheld hpc => exact hmoved _ hheld
  | cancel id hidle =>
      exact (hmoved _ rfl).unseen rfl rfl rfl rfl rfl rfl rfl rfl rfl rfl rfl rfl

theorem client (h : Inv s) {n : Nat} (hok : AtomicIncr s (.client n))
    (hst : s.client n = some t) : Inv t := by
  cases client_move hst with
  | load hpc =>
      exact h.still h.running rfl rfl rfl rfl rfl (.refl _) h.texts
        (h.ids.client n rfl) rfl rfl
  | store hpc =>
      obtain rfl := hok.store hpc
      exact h.still h.running rfl rfl rfl rfl rfl (.refl _) h.texts
        (h.ids.take n rfl) rfl rfl
  | @push text options id p hpc hp htype =>
      refine h.still h.running rfl rfl rfl rfl rfl (.refl _) ?_ ?_ rfl rfl
      · intro x hx
        rcases List.mem_append.mp hx with hx | hx
        · exact h.texts x hx
        · rw [List.mem_singleton.mp hx]
          exact .inl htype
      · have hheld : (s.clients n).held = some id := by
          rw [hpc]
          rfl
        refine h.ids.push hheld rfl ?_
        have heq : queuedIds { s.setClient n .idle with
              textReqs := s.textReqs ++ [p], log := s.log ++ [.putText id] } =
            s.send.taken s.created ++ s.textReqs.map (·.id) ++ id :: unstarted s.voiceReqs.keys := by
          simp [queuedIds, waiting, setClient, hp]
        rw [heq]
        exact List.perm_middle
  | lock hpc =>
      exact h.still h.running rfl rfl rfl rfl rfl (.refl _) h.texts
        (h.ids.client n rfl) rfl rfl
  | start hpc hq =>
      obtain rfl := hok.storeVoice hpc
      refine h.still h.running rfl rfl rfl rfl rfl ?_ h.texts ?_ rfl rfl
      · rw [hq]
        exact .snoc _ _
      · apply Ids.start (h.ids.client n rfl)
        simp only [queuedIds, waiting, setClient, hq, unstarted_append, unstarted_cons_false,
          unstarted_nil]
        rw [← List.append_assoc]
        exact List.perm_append_singleton _ _
  | startFailed hpc hq =>
      obtain rfl := hok.storeVoice hpc
      refine h.still h.running rfl rfl rfl rfl rfl ?_ h.texts ?_ rfl rfl
      · exact .of_eq hq
      · have hids := (h.ids.client n (rfl : ClientPc.idle.held = none)).skip
        simp only [queuedIds, setClient, hq]
        exact hids
  | voice hpc hq =>
      refine h.still h.running rfl rfl rfl rfl rfl ?_ h.texts ?_ rfl rfl
      · exact .of_eq hq
      · have hids := h.ids.client n (rfl : ClientPc.idle.held = none)
        simp only [queuedIds, setClient, hq]
        exact hids
  | @cancelReq id q texts more pc e hpc hreq hq htext htype hmore =>
      have hheld : pc.held = none := by
        rcases hmore with ⟨-, rfl, -⟩ | ⟨-, rfl, -⟩
        · rfl
        · rfl
      refine h.still h.running rfl rfl rfl rfl rfl ?_ ?_ ?_ rfl rfl
      · exact .of_eq hq
      · intro p hp
        rcases htype p hp with hcan | hmem
        · exact .inr hcan
        · exact h.texts p hmem
      · have hids := h.ids.client n hheld
        simp only [queuedIds, waiting, setClient, hq, htext]
        exact hids
  | cancelOp hpc =>
      exact h.quiet h.running rfl rfl rfl rfl rfl (.refl _) h.texts
        (h.ids.client n rfl) (.cancelOp _ _) (fun v hv => ⟨v, hv.cancelOp _⟩) h.plain
        fun hs => ⟨(h.closed hs).2.1, fun a ha => OpCtl.cancelOp_terminal _ ((h.closed hs).2.2 a
          ((OpCtl.Quiet.cancelOp _ _).operations.subset ha))⟩

/-- What a poll does to the object, and that it does not abort. -/
theorem poll (h : Inv s) (hi : s.initialized = true) :
    ∃ o c q, s.poll = some (o, { s with controller := c, responses := q }) ∧
      Inv { s with controller := c, responses := q } ∧ s.controller.Quiet c ∧
      (o = none ∧ c = s.controller ∨ ∃ a r, o = some (a, r) ∧ Reported s.controller a r ∧
        c = if r.type.isTerminal then s.controller.removeFrontOp else s.controller) := by
  have hstr : s.Streaming := .inl hi
  obtain ⟨v, hv⟩ := h.lined hstr
  obtain ⟨o, c, q, v', hpoll, hplain, hl, hcase⟩ := poll_spec hv h.plain
  have hquiet : s.controller.Quiet c := by
    rcases hcase with ⟨-, rfl⟩ | ⟨a, r, -, -, rfl⟩
    · exact .refl _
    · split
      · exact .removeFrontOp _
      · exact .refl _
  refine ⟨o, c, q, hpoll, ?_, hquiet, hcase⟩
  exact h.quiet h.running rfl rfl rfl rfl rfl (.refl _) h.texts h.ids hquiet
    (fun _ _ => ⟨v', hl⟩) hplain fun hs => absurd hstr hs

theorem pollStep (h : Inv s) (hst : s.pollStep = some t) : Inv t := by
  unfold SpeechImpl.pollStep at hst
  split at hst
  · split at hst
    · rename_i hi
      obtain ⟨o, c, q, hpoll, hinv, -, -⟩ := h.poll hi
      rw [hpoll] at hst
      cases o with
      | none =>
          cases hst
          exact hinv
      | some r =>
          cases hst
          exact hinv.unseen rfl rfl rfl rfl rfl rfl rfl rfl rfl rfl rfl rfl
    · cases hst
      exact h
  · cases hst

/-! ### The threads -/

theorem handle (h : Inv s) (r : ConnectionOpResult) (resp : SpeechResponse) :
    Inv (s.handleResult r resp).2 := by
  have hsec := handleResult_section r resp s
  generalize (s.handleResult r resp).2 = u at hsec ⊢
  rw [hsec.eq]
  exact h.quiet h.running rfl rfl rfl rfl rfl (.refl _) h.texts h.ids hsec.quiet
    (fun v hv => ⟨v, hsec.lined v hv⟩) (hsec.plain h.plain) (by
      intro hs
      obtain ⟨hc, hq⟩ := hsec.idle (h.closed hs).1
      simp only [hc, hq]
      exact (h.closed hs).2)

/-- `erase_req` marks a voice request. -/
theorem eraseReq (h : Inv s) (id : Int) : Inv (s.eraseReq id) :=
  h.unseen rfl rfl rfl rfl rfl rfl (Streams.erase_keys _ _ _) rfl rfl rfl rfl rfl

theorem gen (h : Inv s) {r : ConnectionOpResult} {resp : SpeechResponse}
    (hst : s.genStep r resp = some t) : Inv t := by
  -- the place of the thread is nothing the invariant is about
  have hpc : ∀ u : SpeechImpl, Inv u → ∀ pc, Inv { u with gen := pc } := fun u hu pc =>
    hu.unseen rfl rfl rfl rfl rfl rfl rfl rfl rfl rfl rfl rfl
  unfold SpeechImpl.genStep at hst
  split at hst
  · split at hst
    · cases hst
      exact hpc s h _
    · cases hst
  · split at hst
    · split at hst
      · cases hst
        exact hpc s h _
      · cases hst
        exact hpc s h _
    · cases hst
  · rename_i r' resp' _
    split at hst
    · have hinv := h.handle r' resp'
      split at hst
      · rename_i id u hres
        rw [hres] at hinv
        cases hst
        exact hpc u hinv _
      · rename_i u hres
        rw [hres] at hinv
        cases hst
        exact hpc u hinv _
    · cases hst
  · rename_i id _
    split at hst
    · cases hst
      exact hpc _ (h.eraseReq id) _
    · cases hst
  · cases hst

end Inv

end SpeechImpl

end OpenVoice
