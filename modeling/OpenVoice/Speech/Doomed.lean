import OpenVoice.Speech.Alignment
import OpenVoice.Speech.History

/-!
# What a cancellation is to achieve

`CancelKept` says of a log that no cancellation of a text request was lost.  `Honoured` is what is
kept true of the log while the session goes on, `Doomed` what a cancellation makes of the request,
and `Past` where a client on its way to the controller has been already.
-/

namespace OpenVoice

namespace SpeechImpl

/-- After `put_text` had returned the id, `t` called `cancel` with it. -/
def Late (t : Nat) (id : Int) (l : List SpeechEvent) : Prop :=
  [SpeechEvent.putText id, .cancelCall t id].Sublist l

/-- When `cancel(id)` has returned before there was a terminal result for the text request `id`,
    the terminal result is `SPEECH_RES_CANCELLED`. -/
def CancelKept (l : List SpeechEvent) : Prop :=
  ∀ l₁ l₂ t id, l = l₁ ++ .cancelRet t id :: l₂ → Late t id l₁ →
    (∀ r ∈ results l₁, r.id = id → r.type.isTerminal = false) →
    ∀ r ∈ results l, r.id = id → r.type.isTerminal = true → r.type = .cancelled

theorem Late.mem_puts {t : Nat} {id : Int} {l : List SpeechEvent} (h : Late t id l) :
    id ∈ puts l := SpeechImpl.mem_puts.mpr (h.subset List.mem_cons_self)

/-- Only another call makes a call late. -/
theorem Late.of_snoc {t : Nat} {id : Int} {l : List SpeechEvent} {e : SpeechEvent}
    (h : Late t id (l ++ [e])) (he : e ≠ .cancelCall t id) : Late t id l := by
  obtain ⟨l₁, l₂, heq, hl₁, hl₂⟩ := List.sublist_append_iff.mp h
  rcases List.sublist_singleton.mp hl₂ with rfl | rfl
  · rw [List.append_nil] at heq
    rw [Late, heq]
    exact hl₁
  · have hlast := congrArg List.getLast? heq
    simp at hlast
    exact absurd hlast.symm he

/-- The calls of `cancel` that have returned have had their effect, `D` being the ids that can
    only be reported as cancelled. -/
def Honoured (l : List SpeechEvent) (D : Int → Prop) : Prop :=
  ∀ l₁ l₂ t id, l = l₁ ++ .cancelRet t id :: l₂ → Late t id l₁ →
    D id ∧ ∀ r ∈ results l₂, r.id = id → r.type.isTerminal = true → r.type = .cancelled

namespace Honoured

variable {l : List SpeechEvent} {D D' : Int → Prop}

theorem kept (h : Honoured l D) : CancelKept l := by
  intro l₁ l₂ t id heq hlate hnone r hr hid hterm
  have hr' : r ∈ results l₁ ∨ r ∈ results l₂ := by
    rw [heq, results_append, List.mem_append] at hr
    exact hr
  rcases hr' with hr' | hr'
  · rw [hnone r hr' hid] at hterm
    cases hterm
  · exact (h l₁ l₂ t id heq hlate).2 r hr' hid hterm

theorem mono (h : Honoured l D) (hD : ∀ id ∈ puts l, D id → D' id) : Honoured l D' := by
  intro l₁ l₂ t id heq hlate
  obtain ⟨hd, hrest⟩ := h l₁ l₂ t id heq hlate
  refine ⟨hD id ?_ hd, hrest⟩
  rw [heq, puts_append]
  exact List.mem_append_left _ hlate.mem_puts

/-- An event is recorded. -/
theorem snoc (h : Honoured l D) {e : SpeechEvent}
    (hresult : ∀ a r, e = .result a r → D r.id → r.type.isTerminal = true → r.type = .cancelled)
    (hret : ∀ t id, e = .cancelRet t id → Late t id l → D id) : Honoured (l ++ [e]) D := by
  intro l₁ l₂ t id heq hlate
  rcases List.eq_nil_or_concat l₂ with rfl | ⟨l₂', x, rfl⟩
  · -- it is the return of the call
    obtain ⟨rfl, he⟩ := List.append_inj' heq rfl
    refine ⟨hret t id (List.singleton_inj.mp he) hlate, ?_⟩
    intro r hr
    cases hr
  · have hsplit : l ++ [e] = (l₁ ++ .cancelRet t id :: l₂') ++ [x] := by
      rw [heq]
      simp
    obtain ⟨hl, he⟩ := List.append_inj' hsplit rfl
    obtain rfl : e = x := List.singleton_inj.mp he
    obtain ⟨hd, hrest⟩ := h l₁ l₂' t id hl hlate
    refine ⟨hd, ?_⟩
    intro r hr hid hterm
    rw [List.concat_eq_append, results_append, List.mem_append] at hr
    rcases hr with hr | hr
    · exact hrest r hr hid hterm
    · cases e with
      | result a r' =>
          obtain rfl : r = r' := by simpa using hr
          exact hresult a r rfl (hid ▸ hd) hterm
      | putText id' => cases hr
      | startVoice id' => cases hr
      | cancelCall t' id' => cases hr
      | cancelRet t' id' => cases hr

/-- An event other than a result or the return of a call. -/
theorem quiet (h : Honoured l D) {e : SpeechEvent} (hresult : ∀ a r, e ≠ .result a r)
    (hret : ∀ t id, e ≠ .cancelRet t id) : Honoured (l ++ [e]) D :=
  h.snoc (fun a r he => absurd he (hresult a r)) fun t id he => absurd he (hret t id)

end Honoured

/-- Wherever the request `id` is, it can only be reported as cancelled. -/
structure Doomed (id : Int) (texts : List SpeechReqInfo) (hand : Option SpeechReqInfo)
    (c : OpCtl SpeechError) : Prop where
  texts : ∀ p ∈ texts, p.id = id → p.type = .cancelled
  hand : ∀ info, hand = some info → info.id = id → opens info.type = false
  ops : ∀ a ∈ c.operations, (c.heap a).id = id → (c.heap a).status = .cancelled

/-- The current operation is not a cancelled one. -/
def LiveCurrent (c : OpCtl SpeechError) : Prop :=
  ∀ a, c.currentOp = some a → (c.heap a).status ≠ .cancelled

theorem Inv.liveCurrent {s : SpeechImpl} (h : Inv s) : LiveCurrent s.controller := by
  intro a hcur
  by_cases hstr : s.Streaming
  · obtain ⟨v, hv⟩ := h.lined hstr
    rcases hv.current_status hcur with hst | hst
    · rw [hst]
      decide
    · rw [hst]
      decide
  · rw [(h.closed hstr).1] at hcur
    cases hcur

namespace Doomed

variable {id : Int} {texts texts' : List SpeechReqInfo} {hand hand' : Option SpeechReqInfo}
  {c c' : OpCtl SpeechError}

theorem quiet (h : Doomed id texts hand c) (hcur : LiveCurrent c) (hq : c.Quiet c')
    (htext : ∀ p ∈ texts', p ∈ texts ∨ p.type = .cancelled ∨ p.id ≠ id)
    (hhand : ∀ info, hand' = some info →
      hand = some info ∨ info ∈ texts ∨ info.id ≠ id) :
    Doomed id texts' hand' c' where
  texts := by
    intro p hp hid
    rcases htext p hp with hmem | htype | hne
    · exact h.texts p hmem hid
    · exact htype
    · exact absurd hid hne
  hand := by
    intro info hinfo hid
    rcases hhand info hinfo with hsome | hmem | hne
    · exact h.hand info hsome hid
    · rw [h.texts info hmem hid]
      rfl
    · exact absurd hid hne
  ops := by
    intro a ha hid
    rw [hq.heap_id] at hid
    have hst := h.ops a (hq.operations.subset ha) hid
    exact hq.cancelled a (fun hc => hcur a hc hst) hst

/-- The operation that was current is cancelled. -/
theorem cancelCurrent (h : Doomed id texts hand c) (a : Nat) :
    Doomed id texts none (c.setStatus a .cancelled).clearCurrentOp where
  texts := h.texts
  hand := by
    intro info hinfo
    cases hinfo
  ops := by
    intro b hb hid
    have hid' : (c.heap b).id = id := by
      rw [← OpCtl.setStatus_heap_id c a .cancelled b]
      exact hid
    have hst : ((c.setStatus a .cancelled).heap b).status = .cancelled := by
      by_cases hba : b = a
      · subst hba
        simp
      · rw [OpCtl.setStatus_heap_ne c a _ hba]
        exact h.ops b hb hid'
    exact hst

/-- An operation is created, for another request or as a cancelled one. -/
theorem newOp (h : Doomed id texts hand c) (hbound : ∀ a ∈ c.operations, a < c.fresh)
    (now : Int) {id' : Int} {st : SpeechStatus} (hst : id' = id → st = .cancelled) :
    Doomed id texts none (c.newOp now id' st) where
  texts := h.texts
  hand := by
    intro info hinfo
    cases hinfo
  ops := by
    intro a ha hid
    rw [OpCtl.newOp_operations, List.mem_append, List.mem_singleton] at ha
    rcases ha with ha | rfl
    · have hne : a ≠ c.fresh := Nat.ne_of_lt (hbound a ha)
      rw [OpCtl.newOp_heap_ne _ _ _ _ hne] at hid ⊢
      exact h.ops a ha hid
    · rw [OpCtl.newOp_heap_id] at hid
      rw [OpCtl.newOp_heap_status]
      exact hst hid

end Doomed

/-- No client on its way to `cancel_op` has left the request in `text_reqs_`. -/
def Past (clients : Nat → ClientPc) (l : List SpeechEvent) (texts : List Int) : Prop :=
  ∀ n id, clients n = .cancelOp id → Late n id l → id ∉ texts

namespace Past

variable {clients : Nat → ClientPc} {l : List SpeechEvent} {texts texts' : List Int}

theorem less (h : Past clients l texts) (htext : ∀ id ∈ texts', id ∈ texts) :
    Past clients l texts' :=
  fun n id hn hlate hmem => h n id hn hlate (htext id hmem)

/-- A client goes to `cancel_op`, or elsewhere. -/
theorem client (h : Past clients l texts) (n : Nat) {pc : ClientPc}
    (hpc : ∀ id, pc = .cancelOp id → Late n id l → id ∉ texts) :
    Past (Function.update clients n pc) l texts := by
  intro m id hm
  by_cases hmn : m = n
  · subst hmn
    rw [Function.update_self] at hm
    exact hpc id hm
  · rw [Function.update_of_ne hmn] at hm
    exact h m id hm

/-- An event is recorded that is not the call of a client in `cancel_op`. -/
theorem snoc (h : Past clients l texts) {e : SpeechEvent}
    (he : ∀ n id, e = .cancelCall n id → clients n ≠ .cancelOp id) : Past clients (l ++ [e]) texts :=
  fun n id hn hlate => h n id hn (hlate.of_snoc fun heq => he n id heq hn)

/-- A request is queued whose id has not been returned yet. -/
theorem put (h : Past clients l texts) {id : Int} (hid : id ∉ puts l) :
    Past clients l (texts ++ [id]) := by
  intro n x hn hlate hmem
  rw [List.mem_append, List.mem_singleton] at hmem
  rcases hmem with hmem | rfl
  · exact h n x hn hlate hmem
  · exact hid hlate.mem_puts

end Past

end SpeechImpl

end OpenVoice
