import OpenVoice.Speech.Doomed

/-!
# Cancelling a text request

A text request is first in `text_reqs_`, then in the hand of the send thread, then in
`operations_`.  `cancel` looks into the first and into the last of these, one after the other; a
request in the hand of the send thread it does not see (`cancel_lost`).  In every run where
`cancel_op` is not called for the request just then, its cancellation is reported
(`cancel_text_kept`).
-/

namespace OpenVoice

open OpenVoice.Lib

namespace SpeechImpl

/-! ### The invariant -/

/-- `cancel_op` is not called for the text request in the hand of the send thread. -/
def onTime (s : SpeechImpl) : SpeechAct → Bool
  | .client n =>
      match s.clients n, s.send.hand with
      | .cancelOp id, some info => info.id ≠ id ∨ info.type ≠ .text
      | _, _ => true
  | _ => true

def OnTime (s : SpeechImpl) (a : SpeechAct) : Prop := s.onTime a = true

instance (s : SpeechImpl) (a : SpeechAct) : Decidable (OnTime s a) :=
  inferInstanceAs (Decidable (s.onTime a = true))

theorem OnTime.hand {s : SpeechImpl} {n : Nat} (h : OnTime s (.client n)) {id : Int}
    (hpc : s.clients n = .cancelOp id) {info : SpeechReqInfo} (hhand : s.send.hand = some info)
    (hid : info.id = id) : info.type ≠ .text := by
  unfold OnTime onTime at h
  simp only [hpc, hhand] at h
  simpa [hid] using h

/-- As long as results are reported, none but `SPEECH_RES_CANCELLED` can settle the request. -/
def Dooms (s : SpeechImpl) (id : Int) : Prop :=
  s.initialized = true → Doomed id s.textReqs s.send.hand s.controller

/-- What makes a cancellation reach its request. -/
structure CancelInv (s : SpeechImpl) : Prop where
  inv : Inv s
  labels : Labels s.nextId s.clients (puts s.log) (starts s.log) (s.textReqs.map (·.id))
    (s.voiceReqs.keys.map Prod.fst) s.send.hand
  hand_new : ∀ info, s.send.hand = some info → info.id ∈ puts s.log → info.id ∉ s.created
  once : ∀ id ∈ puts s.log, s.created.count id ≤ 1
  past : Past s.clients s.log (s.textReqs.map (·.id))
  honoured : Honoured s.log s.Dooms

namespace CancelInv

variable {s t : SpeechImpl}

theorem opened : CancelInv opened where
  inv := inv_opened
  labels := .opened
  hand_new := by
    intro info hinfo
    cases hinfo
  once := by
    intro id hid
    cases hid
  past := by
    intro n id hn
    cases hn
  honoured := by
    intro l₁ l₂ t id heq
    cases l₁ <;> cases heq

/-- A queued text request has no operation yet. -/
theorem text_new (h : CancelInv s) {id : Int} (hid : id ∈ s.textReqs.map (·.id)) :
    id ∉ s.created := by
  apply h.inv.ids.queued_new
  exact List.mem_append_left _ (List.mem_append_right _ hid)

/-- A step of a thread that is not a client and creates no operation. -/
theorem still (h : CancelInv s) (hinv : Inv t) (hlog : t.log = s.log)
    (hcl : t.clients = s.clients) (hnext : t.nextId = s.nextId) (hcr : t.created = s.created)
    (hinit : t.initialized = true → s.initialized = true)
    (htext : ∀ p ∈ t.textReqs, p ∈ s.textReqs)
    (hkeys : ∀ id ∈ t.voiceReqs.keys.map Prod.fst, id ∈ s.voiceReqs.keys.map Prod.fst)
    (hhand : ∀ info, t.send.hand = some info →
      s.send.hand = some info ∨ info ∈ s.textReqs ∨ info.id ∈ starts s.log ∧ info.type ≠ .text)
    (hdoom : ∀ id ∈ puts s.log, Doomed id s.textReqs s.send.hand s.controller →
      Doomed id t.textReqs t.send.hand t.controller) : CancelInv t := by
  have htext' : ∀ id ∈ t.textReqs.map (·.id), id ∈ s.textReqs.map (·.id) := by
    intro id hid
    obtain ⟨p, hp, rfl⟩ := List.mem_map.mp hid
    exact List.mem_map_of_mem (htext p hp)
  exact
    { inv := hinv
      labels := by
        rw [hnext, hcl, hlog]
        refine h.labels.less htext' hkeys ?_
        intro info hinfo
        rcases hhand info hinfo with hold | hmem | hvoice
        · exact h.labels.hand info hold
        · exact .inl ⟨h.labels.texts _ (List.mem_map_of_mem hmem), h.inv.texts info hmem⟩
        · exact .inr hvoice
      hand_new := by
        intro info hinfo hput
        rw [hlog] at hput
        rw [hcr]
        rcases hhand info hinfo with hold | hmem | hvoice
        · exact h.hand_new info hold hput
        · exact h.text_new (List.mem_map_of_mem hmem)
        · exact absurd hvoice.1 (h.labels.apart _ hput)
      once := by
        rw [hlog, hcr]
        exact h.once
      past := by
        rw [hcl, hlog]
        exact h.past.less htext'
      honoured := by
        rw [hlog]
        exact h.honoured.mono fun id hid hd hi => hdoom id hid (hd (hinit hi)) }

/-- The same, `current_op_` being left alone or reset. -/
theorem quiet (h : CancelInv s) (hinv : Inv t) (hlog : t.log = s.log)
    (hcl : t.clients = s.clients) (hnext : t.nextId = s.nextId) (hcr : t.created = s.created)
    (hinit : t.initialized = true → s.initialized = true)
    (htext : ∀ p ∈ t.textReqs, p ∈ s.textReqs)
    (hkeys : ∀ id ∈ t.voiceReqs.keys.map Prod.fst, id ∈ s.voiceReqs.keys.map Prod.fst)
    (hhand : ∀ info, t.send.hand = some info →
      s.send.hand = some info ∨ info ∈ s.textReqs ∨ info.id ∈ starts s.log ∧ info.type ≠ .text)
    (hq : s.controller.Quiet t.controller) : CancelInv t := by
  refine h.still hinv hlog hcl hnext hcr hinit htext hkeys hhand ?_
  intro id hid hd
  refine hd.quiet h.inv.liveCurrent hq (fun p hp => .inl (htext p hp)) ?_
  intro info hinfo
  rcases hhand info hinfo with hold | hmem | hvoice
  · exact .inl hold
  · exact .inr (.inl hmem)
  · refine .inr (.inr ?_)
    rintro rfl
    exact h.labels.apart _ hid hvoice.1

/-! ### The send thread -/

/-- `do_ctl_change_op` creates an operation for the request in hand. -/
theorem create (h : CancelInv s) {info : SpeechReqInfo} {st : SpeechStatus} {pc : SendPc}
    {n : Nat}
    (hinv : Inv { s with
      controller := s.controller.newOp s.now info.id st, created := s.created ++ [info.id]
      respNotifies := n, send := pc })
    (hhand : s.send.hand = some info) (hpc : pc.hand = none)
    (hst : opens info.type = true ∨ st = .cancelled) :
    CancelInv { s with
      controller := s.controller.newOp s.now info.id st, created := s.created ++ [info.id]
      respNotifies := n, send := pc } where
  inv := hinv
  labels := by
    refine h.labels.less (fun _ hid => hid) (fun _ hid => hid) ?_
    intro x hx
    rw [hpc] at hx
    cases hx
  hand_new := by
    intro x hx
    simp only [hpc] at hx
    cases hx
  once := by
    intro id hid
    rw [List.count_append]
    by_cases heq : info.id = id
    · have hzero : s.created.count id = 0 := by
        rw [List.count_eq_zero, ← heq]
        exact h.hand_new info hhand (heq ▸ hid)
      rw [hzero, heq]
      simp
    · have hzero : [info.id].count id = 0 := by
        rw [List.count_eq_zero, List.mem_singleton]
        exact fun he => heq he.symm
      rw [hzero]
      exact h.once id hid
  past := h.past
  honoured := by
    refine h.honoured.mono ?_
    intro id hid hd hi
    obtain ⟨v, hv⟩ := h.inv.lined (.inl hi)
    have hd' := hd hi
    have hst' : info.id = id → st = .cancelled := by
      intro heq
      rcases hst with hopens | hst
      · -- a request that is cancelled opens no operation
        rw [hd'.hand info hhand heq] at hopens
        cases hopens
      · exact hst
    simp only [hpc]
    exact hd'.newOp (fun a ha => hv.lt_fresh ha) s.now hst'

theorem send_step (h : CancelInv s) {r : ConnectionOpResult} (hst : s.sendStep r = some t) :
    CancelInv t := by
  have hinv := h.inv.send_step hst
  have hsame : ∀ p ∈ s.textReqs, p ∈ s.textReqs := fun _ hp => hp
  cases sendStep_move hst with
  | @takeVoice info p q hpc hinit hpop htype =>
      refine h.quiet hinv rfl rfl rfl rfl id hsame ?_ ?_ (.refl _)
      · intro x hx
        exact hpop.fst_sublist.subset hx
      · intro x hx
        obtain rfl : info = x := by simpa [SendPc.hand] using hx
        refine .inr (.inr ⟨h.labels.keys _ hpop.mem, ?_⟩)
        rw [htype]
        cases p <;> simp [reqtype]
  | sleep hpc hinit hq =>
      exact h.quiet hinv rfl rfl rfl rfl id hsame (by rw [hq]; exact fun _ hx => hx) (by simp [SendPc.hand])
        (.refl _)
  | seeText hpc hinit hq =>
      exact h.quiet hinv rfl rfl rfl rfl id hsame (by rw [hq]; exact fun _ hx => hx) (by simp [SendPc.hand])
        (.refl _)
  | @takeText info texts hpc htext =>
      refine h.quiet hinv rfl rfl rfl rfl id ?_ (fun _ hx => hx) ?_ (.refl _)
      · intro p hp
        rw [htext]
        exact List.mem_cons_of_mem _ hp
      · intro x hx
        obtain rfl : info = x := by simpa [SendPc.hand] using hx
        refine .inr (.inl ?_)
        rw [htext]
        exact List.mem_cons_self
  | enter hpc =>
      refine h.quiet hinv rfl rfl rfl rfl id hsame (fun _ hx => hx) ?_ (.refl _)
      intro x hx
      rw [hpc]
      exact .inl hx
  | create hpc htype => exact h.create hinv (by rw [hpc]; rfl) rfl (.inl htype)
  | createCancelled hpc htype => exact h.create hinv (by rw [hpc]; rfl) rfl (.inr rfl)
  | cancelCurrent hpc htype =>
      exact h.still hinv rfl rfl rfl rfl id hsame (fun _ hx => hx) (by simp [SendPc.hand])
        fun _ _ hd => hd.cancelCurrent _
  | setError hpc =>
      exact h.quiet hinv rfl rfl rfl rfl id hsame (fun _ hx => hx) (by simp [SendPc.hand]) (.setOpError _ _)
  | erase hpc hq =>
      exact h.quiet hinv rfl rfl rfl rfl id hsame (by rw [hq]; exact fun _ hx => hx) (by simp [SendPc.hand])
        (.refl _)
  | @refresh info hpc =>
      refine h.quiet hinv rfl rfl rfl rfl id hsame (fun _ hx => hx) ?_ (.refreshOpTime _ _ _)
      intro x hx
      cases hlast : info.type.isLast <;> simp [hlast, SendPc.hand] at hx
  | park hpc =>
      exact h.still hinv rfl rfl rfl rfl id hsame (fun _ hx => hx) (by simp [SendPc.hand])
        fun _ _ hd => ⟨hd.texts, by simp [SendPc.hand], hd.ops⟩
  | crash hpc htext =>
      exact h.quiet hinv rfl rfl rfl rfl id hsame (fun _ hx => hx) (fun _ hx => .inl hx) (.refl _)
  | abort hpc htype =>
      exact h.quiet hinv rfl rfl rfl rfl id hsame (fun _ hx => hx) (fun _ hx => .inl hx) (.refl _)
  | _ =>
      exact h.quiet hinv rfl rfl rfl rfl id hsame (fun _ hx => hx) (by simp [SendPc.hand]) (.refl _)

/-! ### The other threads -/

theorem release (h : CancelInv s) (hst : s.release = some t) : CancelInv t := by
  have hinv := h.inv.release hst
  have hsame : ∀ p ∈ s.textReqs, p ∈ s.textReqs := fun _ hp => hp
  have hhand : ∀ info, s.send.hand = some info → s.send.hand = some info ∨ info ∈ s.textReqs ∨
      info.id ∈ starts s.log ∧ info.type ≠ .text := fun _ hinfo => .inl hinfo
  unfold SpeechImpl.release at hst
  split at hst
  · split at hst
    · split at hst
      · rename_i hi
        cases hst
        exact h.quiet hinv rfl rfl rfl rfl (fun _ => hi) hsame (fun _ hx => hx) hhand (.refl _)
      · cases hst
        exact h
    · cases hst
  · cases hst
    refine h.quiet hinv rfl rfl rfl rfl (fun hi => hi) (by simp) ?_ hhand (.refl _)
    intro id hid
    rw [Streams.close_keys] at hid
    cases hid
  · cases hst
    exact h.quiet hinv rfl rfl rfl rfl (fun hi => hi) hsame (fun _ hx => hx) hhand
      (.setOpError _ _)
  · split at hst
    · cases hst
      exact h.quiet hinv rfl rfl rfl rfl (fun hi => hi) hsame (fun _ hx => hx) hhand (.refl _)
    · cases hst
  · split at hst
    · cases hst
      exact h.quiet hinv rfl rfl rfl rfl (fun hi => hi) hsame (fun _ hx => hx) hhand (.finishOp _)
    · cases hst
  · split at hst
    · cases hst
      exact h.quiet hinv rfl rfl rfl rfl (fun hi => hi) hsame (fun _ hx => hx) hhand (.refl _)
    · cases hst

theorem gen (h : CancelInv s) {r : ConnectionOpResult} {resp : SpeechResponse}
    (hst : s.genStep r resp = some t) : CancelInv t := by
  have hinv := h.inv.gen hst
  obtain ⟨c, q, v, k, pc, hquiet, hv, rfl⟩ := genStep_spec hst
  refine h.quiet hinv rfl rfl rfl rfl id (fun _ hp => hp) ?_ (fun _ hx => .inl hx) hquiet
  rw [hv]
  exact fun _ hx => hx

/-- An event is recorded that gives nobody an id. -/
theorem event (h : CancelInv s) {e : SpeechEvent} (hput : puts [e] = [])
    (hstart : starts [e] = []) (hcall : ∀ n id, e = .cancelCall n id → s.clients n ≠ .cancelOp id)
    (hresult : ∀ a r, e = .result a r → s.Dooms r.id → r.type.isTerminal = true →
      r.type = .cancelled)
    (hret : ∀ n id, e = .cancelRet n id → Late n id s.log → s.Dooms id) :
    CancelInv (s.record e) where
  inv := h.inv.unseen rfl rfl rfl rfl rfl rfl rfl rfl rfl rfl rfl rfl
  labels := by
    simp only [SpeechImpl.record, puts_append, hput, starts_append, hstart, List.append_nil]
    exact h.labels
  hand_new := by
    simp only [SpeechImpl.record, puts_append, hput, List.append_nil]
    exact h.hand_new
  once := by
    simp only [SpeechImpl.record, puts_append, hput, List.append_nil]
    exact h.once
  past := h.past.snoc hcall
  honoured := h.honoured.snoc hresult hret

theorem pollStep (h : CancelInv s) (hst : s.pollStep = some t) : CancelInv t := by
  have hinv := h.inv.pollStep hst
  unfold SpeechImpl.pollStep at hst
  split at hst
  · split at hst
    · rename_i hi
      obtain ⟨o, c, q, hpoll, -, hquiet, hcase⟩ := h.inv.poll hi
      rw [hpoll] at hst
      rcases hcase with ⟨rfl, -⟩ | ⟨a, r, rfl, hrep, -⟩
      · cases hst
        exact h.quiet hinv rfl rfl rfl rfl id (fun _ hp => hp) (fun _ hx => hx)
          (fun _ hx => .inl hx) hquiet
      · cases hst
        have hevent : CancelInv (s.record (.result a r)) := by
          refine h.event rfl rfl (by simp) ?_ (by simp)
          rintro _ _ he hd hterm
          cases he
          -- the operation in front is the one the result is for
          have hops : a ∈ s.controller.operations := List.mem_of_mem_head? hrep.front
          exact hrep.cancelled ((hd hi).ops a hops hrep.id_eq.symm)
        exact hevent.quiet hinv rfl rfl rfl rfl id (fun _ hp => hp) (fun _ hx => hx)
          (fun _ hx => .inl hx) hquiet
    · cases hst
      exact h
  · cases hst

/-! ### Clients -/

/-- A client goes on without being given anything. -/
theorem client_still (h : CancelInv s) {n m : Nat} {pc : ClientPc} {g : Option Nat} {k : Int}
    {q : Streams Bytes VoiceOptions} {texts : List SpeechReqInfo} {c : OpCtl SpeechError}
    (hinv : Inv { s.setClient n pc with
      holder := g
      nextId := k
      voiceReqs := q
      textReqs := texts
      controller := c
      respNotifies := m })
    (hlabels : Labels k (Function.update s.clients n pc) (puts s.log) (starts s.log)
      (texts.map (·.id)) (q.keys.map Prod.fst) s.send.hand)
    (hpast : Past (Function.update s.clients n pc) s.log (texts.map (·.id)))
    (hdoom : ∀ id ∈ puts s.log, Doomed id s.textReqs s.send.hand s.controller →
      Doomed id texts s.send.hand c) :
    CancelInv { s.setClient n pc with
      holder := g
      nextId := k
      voiceReqs := q
      textReqs := texts
      controller := c
      respNotifies := m } where
  inv := hinv
  labels := hlabels
  hand_new := h.hand_new
  once := h.once
  past := hpast
  honoured := h.honoured.mono fun id hid hd hi => hdoom id hid (hd hi)

/-- A client goes elsewhere, not to `cancel_op`, and holds no id there. -/
theorem goto (h : CancelInv s) (n : Nat) {pc : ClientPc} {g : Option Nat} (hheld : pc.held = none)
    (hpc : ∀ id, pc ≠ .cancelOp id) : CancelInv { s.setClient n pc with holder := g } := by
  have hinv : Inv { s.setClient n pc with holder := g } :=
    h.inv.still h.inv.running rfl rfl rfl rfl rfl (.refl _) h.inv.texts (h.inv.ids.client n hheld)
      rfl rfl
  exact h.client_still hinv (h.labels.client n hheld)
    (h.past.client n fun id heq => absurd heq (hpc id)) fun _ _ hd => hd

theorem call (h : CancelInv s) {n : Nat} {c : SpeechCall} (hst : s.call n c = some t) :
    CancelInv t := by
  cases call_move hst with
  | stay => exact h
  | enter hidle hheld hpc => exact h.goto n hheld hpc
  | cancel id hidle =>
      refine (h.goto n (g := s.holder) rfl (by simp)).event rfl rfl ?_ (by simp) (by simp)
      intro m x he
      cases he
      simp [setClient]

/-- `put_text` queues its request and returns. -/
theorem push (h : CancelInv s) {n : Nat} {text : Bytes} {options : Sp VoiceOptions} {id : Int}
    {p : SpeechReqInfo} (hpc : s.clients n = .pushText text options id) (hp : p.id = id)
    (hinv : Inv { s.setClient n .idle with
      textReqs := s.textReqs ++ [p], log := s.log ++ [.putText id] }) :
    CancelInv { s.setClient n .idle with
      textReqs := s.textReqs ++ [p], log := s.log ++ [.putText id] } := by
  have hheld : (s.clients n).held = some id := by
    rw [hpc]
    rfl
  obtain ⟨-, hcreated, -⟩ := h.inv.ids.held n id hheld
  obtain ⟨-, -, hput, hstart⟩ := h.labels.held n id hheld
  have hne : ∀ x ∈ puts s.log, p.id ≠ x := by
    rintro x hx rfl
    exact hput (hp ▸ hx)
  exact
    { inv := hinv
      labels := by
        simp only [setClient, puts_append, puts_putText, starts_append, starts_putText,
          List.append_nil, List.map_append, List.map_singleton, hp]
        exact h.labels.put hheld rfl fun m hm => h.inv.ids.held_inj m n id hm hheld
      hand_new := by
        intro info hinfo hmem
        simp only [puts_append, puts_putText, List.mem_append, List.mem_singleton] at hmem
        rcases hmem with hmem | heq
        · exact h.hand_new info hinfo hmem
        · -- the request in hand has an id of its own
          rcases h.labels.hand info hinfo with ⟨hold, -⟩ | ⟨hold, -⟩
          · exact absurd (heq ▸ hold) hput
          · exact absurd (heq ▸ hold) hstart
      once := by
        intro x hx
        simp only [puts_append, puts_putText, List.mem_append, List.mem_singleton] at hx
        rcases hx with hx | rfl
        · exact h.once x hx
        · have hzero : s.created.count x = 0 := List.count_eq_zero.mpr hcreated
          simp only [setClient, hzero]
          exact Nat.zero_le _
      past := by
        simp only [setClient, List.map_append, List.map_singleton, hp]
        refine Past.snoc ?_ (by simp)
        exact (h.past.put hput).client n (by simp)
      honoured := by
        refine Honoured.quiet (Honoured.mono h.honoured ?_) (by simp) (by simp)
        intro x hx hd hi
        refine (hd hi).quiet h.inv.liveCurrent (.refl _) ?_ fun _ hinfo => .inl hinfo
        intro p' hp'
        rcases List.mem_append.mp hp' with hp' | hp'
        · exact .inl hp'
        · rw [List.mem_singleton.mp hp']
          exact .inr (.inr (hne x hx)) }

/-- `start_voice` queues its request and returns. -/
theorem start (h : CancelInv s) {n : Nat} {q : Streams Bytes VoiceOptions}
    (hq : q.keys = s.voiceReqs.keys ++ [(s.nextId + 1, false)])
    (hinv : Inv { s.setClient n .idle with
      holder := none
      nextId := s.nextId + 1
      voiceReqs := q
      log := s.log ++ [.startVoice (s.nextId + 1)] }) :
    CancelInv { s.setClient n .idle with
      holder := none
      nextId := s.nextId + 1
      voiceReqs := q
      log := s.log ++ [.startVoice (s.nextId + 1)] } where
  inv := hinv
  labels := by
    simp only [setClient, puts_append, puts_startVoice, starts_append, starts_startVoice,
      List.append_nil, hq, List.map_append, List.map_singleton]
    exact (h.labels.client n rfl).start
  hand_new := by
    simp only [puts_append, puts_startVoice, List.append_nil]
    exact h.hand_new
  once := by
    simp only [puts_append, puts_startVoice, List.append_nil]
    exact h.once
  past := (h.past.client n (by simp)).snoc (by simp)
  honoured := h.honoured.quiet (by simp) (by simp)

/-- A queued text request with the id is marked. -/
theorem marked (h : CancelInv s) {id : Int} {texts : List SpeechReqInfo}
    (hput : id ∈ puts s.log) (hm : markText id s.textReqs = some texts) :
    Doomed id texts s.send.hand s.controller := by
  have hids := markText_ids hm
  have hmem : id ∈ s.textReqs.map (·.id) := by
    by_contra hnot
    rw [markText_notMem hnot] at hm
    cases hm
  have hnd : (s.send.taken s.created ++ s.textReqs.map (·.id)).Nodup :=
    h.inv.ids.nodup.sublist (List.sublist_append_left _ _)
  exact
    { texts := by
        intro p hp hid
        rcases markText_mem hm (List.nodup_append'.mp hnd).2.1 hp with ⟨-, htype⟩ | ⟨hne, -⟩
        · exact htype
        · exact absurd hid hne
      hand := by
        intro info hinfo hid
        rcases h.labels.text_hand hinfo (hid ▸ hput) with htype | htype
        · -- the request cannot be in two places
          have htaken : id ∈ s.send.taken s.created := by
            rw [SendPc.taken_of_opens hinfo (by rw [htype]; rfl), hid]
            exact List.mem_singleton_self _
          exact absurd hmem (List.disjoint_of_nodup_append hnd htaken)
        · rw [htype]
          rfl
      ops := by
        intro a ha hid
        have hcreated : id ∈ s.created := by
          apply h.inv.opIds.subset
          rw [OpCtl.opIds, ← hid]
          exact List.mem_map_of_mem ha
        exact absurd hcreated (h.text_new hmem) }

/-- `cancel_op` reaches the operation of the request. -/
theorem covered (h : CancelInv s) {id : Int} {n : Nat} (hok : OnTime s (.client n))
    (hpc : s.clients n = .cancelOp id) (hlate : Late n id s.log) :
    Doomed id s.textReqs s.send.hand (s.controller.cancelOp id).2 := by
  have hput := hlate.mem_puts
  have hpos := (h.labels.puts_pos id hput).1
  exact
    { texts := by
        intro p hp hid
        exact absurd (List.mem_map.mpr ⟨p, hp, hid⟩) (h.past n id hpc hlate)
      hand := by
        intro info hinfo hid
        rcases h.labels.text_hand hinfo (hid ▸ hput) with htype | htype
        · exact absurd htype (hok.hand hpc hinfo hid)
        · rw [htype]
          rfl
      ops := by
        intro a ha hid
        have hquiet := OpCtl.Quiet.cancelOp s.controller id
        have hops := hquiet.operations.subset ha
        rw [hquiet.heap_id] at hid
        have hcount : s.controller.opIds.count id ≤ 1 :=
          Nat.le_trans (h.inv.opIds.sublist.count_le id) (h.once id hput)
        exact OpCtl.cancelOp_covered (OpCtl.mem_covered hpos hcount hops hid) }

theorem cancelReq (h : CancelInv s) {n : Nat} {id : Int} {q : Streams Bytes VoiceOptions}
    {texts : List SpeechReqInfo} {more : Bool} {pc : ClientPc} {e : List SpeechEvent}
    (hreq : (s.setClient n .idle).cancelReq id =
      (more, { s.setClient n .idle with voiceReqs := q, textReqs := texts }))
    (hq : q.keys = s.voiceReqs.keys) (htext : texts.map (·.id) = s.textReqs.map (·.id))
    (htype : ∀ p ∈ texts, p.type = .cancelled ∨ p ∈ s.textReqs)
    (hmore : more = true ∧ pc = .cancelOp id ∧ e = [] ∨
      more = false ∧ pc = .idle ∧ e = [.cancelRet n id])
    (hinv : Inv { s.setClient n pc with voiceReqs := q, textReqs := texts }) :
    CancelInv { s.setClient n pc with
      voiceReqs := q, textReqs := texts, log := s.log ++ e } := by
  have hheld : pc.held = none := by
    rcases hmore with ⟨-, rfl, -⟩ | ⟨-, rfl, -⟩
    · rfl
    · rfl
  have hlabels : Labels s.nextId (Function.update s.clients n pc) (puts s.log) (starts s.log)
      (texts.map (·.id)) (q.keys.map Prod.fst) s.send.hand := by
    rw [htext, hq]
    exact h.labels.client n hheld
  have hdoom : ∀ x ∈ puts s.log, Doomed x s.textReqs s.send.hand s.controller →
      Doomed x texts s.send.hand s.controller := by
    intro x _ hd
    refine hd.quiet h.inv.liveCurrent (.refl _) ?_ fun _ hinfo => .inl hinfo
    intro p hp
    rcases htype p hp with hcan | hmem
    · exact .inr (.inl hcan)
    · exact .inl hmem
  have hpast : Past (Function.update s.clients n pc) s.log (texts.map (·.id)) := by
    rw [htext]
    refine h.past.client n ?_
    intro x heq hlate
    rcases hmore with ⟨rfl, rfl, -⟩ | ⟨-, rfl, -⟩
    · cases heq
      have hnot := cancelReq_more (h.labels.puts_pos id hlate.mem_puts).1 hreq
      simp only [htext] at hnot
      exact hnot
    · cases heq
  have hstill : CancelInv { s.setClient n pc with voiceReqs := q, textReqs := texts } :=
    h.client_still hinv hlabels hpast hdoom
  rcases hmore with ⟨rfl, rfl, rfl⟩ | ⟨rfl, rfl, rfl⟩
  · rw [List.append_nil]
    exact hstill
  · refine hstill.event rfl rfl (by simp) (by simp) ?_
    rintro _ _ he hlate hi
    cases he
    have hput : id ∈ puts s.log := hlate.mem_puts
    have hinit : (s.setClient n .idle).initialized = true := hi
    have hm := cancelReq_done hinit (h.labels.puts_pos id hput).1 (h.labels.text_notMem hput) hreq
    exact h.marked hput hm

theorem client (h : CancelInv s) {n : Nat} (hincr : AtomicIncr s (.client n))
    (hok : OnTime s (.client n)) (hst : s.client n = some t) : CancelInv t := by
  have hinv := h.inv.client hincr hst
  cases client_move hst with
  | load hpc => exact h.goto n rfl (by simp)
  | store hpc =>
      obtain rfl := hincr.store hpc
      exact h.client_still hinv (h.labels.take n rfl) (h.past.client n (by simp))
        fun _ _ hd => hd
  | push hpc hp htype => exact h.push hpc hp hinv
  | lock hpc => exact h.goto n rfl (by simp)
  | start hpc hq =>
      obtain rfl := hincr.storeVoice hpc
      exact h.start hq hinv
  | startFailed hpc hq =>
      obtain rfl := hincr.storeVoice hpc
      refine h.client_still hinv ?_ (h.past.client n (by simp)) fun _ _ hd => hd
      rw [hq]
      exact (h.labels.client n rfl).skip
  | voice hpc hq =>
      refine h.client_still hinv ?_ (h.past.client n (by simp)) fun _ _ hd => hd
      rw [hq]
      exact h.labels.client n rfl
  | @cancelReq id q texts more pc e hpc hreq hq htext htype hmore =>
      refine h.cancelReq hreq hq htext htype hmore ?_
      exact hinv.unseen rfl rfl rfl rfl rfl rfl rfl rfl rfl rfl rfl rfl
  | @cancelOp id k hpc =>
      have hquiet := OpCtl.Quiet.cancelOp s.controller (if 0 < id then id else 0)
      have hstill : CancelInv { s.setClient n .idle with
          controller := (s.controller.cancelOp (if 0 < id then id else 0)).2
          respNotifies := k } := by
        refine h.client_still ?_ (h.labels.client n rfl) (h.past.client n (by simp)) ?_
        · exact hinv.unseen rfl rfl rfl rfl rfl rfl rfl rfl rfl rfl rfl rfl
        · intro x _ hd
          exact hd.quiet h.inv.liveCurrent hquiet (fun _ hp => .inl hp) fun _ hinfo => .inl hinfo
      refine hstill.event rfl rfl (by simp) (by simp) ?_
      rintro _ _ he hlate _
      cases he
      have hpos := (h.labels.puts_pos id hlate.mem_puts).1
      simp only [hpos, if_true]
      exact h.covered hok hpc hlate

/-- **One step.** -/
theorem step (h : CancelInv s) {a : SpeechAct} (hok : OneSession s a) (htime : OnTime s a)
    (hst : s.step a = some t) : CancelInv t := by
  have hinv : Inv t := h.inv.step hok.orderly.1 hok.2 hst
  unfold SpeechImpl.step at hst
  split at hst
  · cases hst
  · cases a with
    | prepare => exact absurd rfl hok.1
    | release => exact h.release hst
    | call n c => exact h.call hst
    | client n => exact h.client hok.2 htime hst
    | poll => exact h.pollStep hst
    | config mod =>
        cases hst
        cases mod with
        | none => exact h
        | some mod =>
            exact h.quiet hinv rfl rfl rfl rfl id (fun _ hp => hp) (fun _ hx => hx)
              (fun _ hx => .inl hx) (.refl _)
    | send r => exact h.send_step hst
    | gen r resp => exact h.gen hst
    | tick ns =>
        cases hst
        exact h.quiet hinv rfl rfl rfl rfl id (fun _ hp => hp) (fun _ hx => hx)
          (fun _ hx => .inl hx) (.refl _)

end CancelInv

/-- **No cancellation is lost** in a session in which `++next_id_` is not interrupted and
    `cancel_op` is never called for the text request in the hand of the send thread: when
    `cancel(id)` has returned in time, the terminal result for `id` is `SPEECH_RES_CANCELLED`. -/
theorem cancel_text_kept {s : SpeechImpl}
    (hrun : Run Steps (fun s a => OneSession s a ∧ OnTime s a) opened s) : CancelKept s.log := by
  have h : CancelInv s :=
    hrun.invariant (fun _ _ _ hinv hok hst => hinv.step hok.1 hok.2 hst) .opened
  exact h.honoured.kept

/-- A text request, up to the point where the send thread has taken it. -/
def takenText : List SpeechAct :=
  [.call 0 (.putText (some [104]) none), .client 0, .client 0, .client 0, .send .success,
    .send .success, .send .success]

/-- The same request is cancelled once its operation has been created. -/
theorem cancel_text_kept_created :
    ∃ s, exec step opened (takenText ++ [.send .success, .send .success, .call 0 (.cancel 1),
        .client 0, .client 0, .poll]) = some s ∧
      s.log.length = 4 ∧ (results s.log).map (fun r => (r.id, r.type)) = [(1, .cancelled)] ∧
      CancelKept s.log := by
  have hok : allOk step (fun s a => OneSession s a ∧ OnTime s a) opened
      (takenText ++ [.send .success, .send .success, .call 0 (.cancel 1), .client 0, .client 0,
        .poll]) = true := by
    decide +kernel
  refine ⟨_, rfl, by decide +kernel, by decide +kernel, ?_⟩
  exact cancel_text_kept (Run.of_exec hok rfl)

/-- What the server answers to a text that ends without a result. -/
def ended : SpeechResponse := { id := 1, type := respFinish, result := 0 }

/-- Cancelled while the send thread holds it, the request is sent, answered and reported as if
    nothing had happened. -/
theorem cancel_lost :
    ∃ s, Run Steps OneSession opened s ∧
      (results s.log).map (fun r => (r.id, r.type)) = [(1, .start), (1, .end_)] ∧
      ¬ CancelKept s.log := by
  have hok : allOk step OneSession opened (takenText ++ [.call 0 (.cancel 1), .client 0,
      .client 0, .send .success, .send .success, .send .success, .send .success, .send .success,
      .send .success, .gen .success ended, .gen .success ended, .gen .success ended, .poll,
      .poll]) = true := by
    decide +kernel
  refine ⟨_, Run.of_exec hok rfl, by decide +kernel, ?_⟩
  intro h
  have hkept := h [.putText 1, .cancelCall 0 1] _ 0 1 rfl (List.Sublist.refl _) (by decide)
  revert hkept
  decide +kernel

end SpeechImpl

end OpenVoice
