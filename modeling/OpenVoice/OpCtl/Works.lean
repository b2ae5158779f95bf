import OpenVoice.OpCtl.Advance
import OpenVoice.OpCtl.Clock

/-!
# What the owners of a controller do with it

`Works now c c'` says that `c'` comes from `c` by calls of the functions of `op_ctl.h` and by the
writes of `gen_result_by_resp` to the status of an operation.  What each of these preserves is
preserved by every step of every thread.
-/

namespace OpenVoice

namespace OpCtl

variable {E : Type} [Inhabited E]

inductive Works (now : Int) (c : OpCtl E) : OpCtl E → Prop where
  | refl : Works now c c
  | newOp {c' : OpCtl E} (h : Works now c c') (id : Int) (st : OpStatus) :
      Works now c (c'.newOp now id st)
  | stream {c' : OpCtl E} (h : Works now c c') {a : Nat} (hst : (c'.heap a).status = .start) :
      Works now c (c'.setStatus a .streaming)
  | end_ {c' : OpCtl E} (h : Works now c c') (a : Nat) : Works now c (c'.setStatus a .end_)
  | cancelStale {c' : OpCtl E} (h : Works now c c') (a : Nat) :
      Works now c (c'.setStatus a .cancelled).clearCurrentOp
  | setOpError {c' : OpCtl E} (h : Works now c c') (err : E) : Works now c (c'.setOpError err)
  | finishOp {c' : OpCtl E} (h : Works now c c') : Works now c c'.finishOp
  | cancelOp {c' : OpCtl E} (h : Works now c c') (id : Int) : Works now c (c'.cancelOp id).2
  | removeFrontOp {c' : OpCtl E} (h : Works now c c') : Works now c c'.removeFrontOp
  | refreshOpTime {c' : OpCtl E} (h : Works now c c') (recv : Bool) :
      Works now c (c'.refreshOpTime now recv)
  | park {c' : OpCtl E} (h : Works now c c') (b : Bool) : Works now c { c' with opWaiting := b }

namespace Works

variable {now : Int} {c c' c₁ c₂ c₃ : OpCtl E}

theorem trans (h₁ : Works now c₁ c₂) (h₂ : Works now c₂ c₃) : Works now c₁ c₃ := by
  induction h₂ with
  | refl => exact h₁
  | newOp _ id st ih => exact ih.newOp id st
  | stream _ hst ih => exact ih.stream hst
  | end_ _ a ih => exact ih.end_ a
  | cancelStale _ a ih => exact ih.cancelStale a
  | setOpError _ err ih => exact ih.setOpError err
  | finishOp _ ih => exact ih.finishOp
  | cancelOp _ id ih => exact ih.cancelOp id
  | removeFrontOp _ ih => exact ih.removeFrontOp
  | refreshOpTime _ recv ih => exact ih.refreshOpTime recv
  | park _ b ih => exact ih.park b

theorem advances (h : Works now c c') : Advances c c' := by
  induction h with
  | refl => exact .refl _
  | newOp _ id st ih => exact ih.trans (.newOp _ now id st)
  | stream _ hst ih => exact ih.trans (.setStatus (.stream _ _ hst))
  | end_ _ a ih => exact ih.trans (.setStatus (.end_ _ a))
  | cancelStale _ a ih => exact ih.trans (.cancelStale _ a)
  | setOpError _ err ih => exact ih.trans (.of_quiet (.setOpError _ err) (.setOpError _ err))
  | finishOp _ ih => exact ih.trans (.of_quiet (.finishOp _) (.finishOp _))
  | cancelOp _ id ih => exact ih.trans (.of_quiet (.cancelOp _ id) (.cancelOp _ id))
  | removeFrontOp _ ih => exact ih.trans (.of_quiet (.removeFrontOp _) (.removeFrontOp _))
  | refreshOpTime _ recv ih =>
      exact ih.trans (.of_quiet (.refreshOpTime _ now recv) (.refreshOpTime _ now recv))
  | park _ b ih => exact ih.trans (.opWaiting _ b)

/-- An operation keeps its id. -/
theorem heap_id (h : Works now c c') {a : Nat} (ha : a < c.fresh) :
    (c'.heap a).id = (c.heap a).id := by
  induction h with
  | refl => rfl
  | @newOp c' h id st ih =>
      have hle := h.advances.fresh
      rw [newOp_heap_ne c' st now id (by omega), ih]
  | stream _ hst ih => exact (setStatus_heap_id _ _ _ _).trans ih
  | end_ _ b ih => exact (setStatus_heap_id _ _ _ _).trans ih
  | cancelStale _ b ih => exact (setStatus_heap_id _ _ _ _).trans ih
  | setOpError _ err ih => exact ((Quiet.setOpError _ err).heap_id a).trans ih
  | finishOp _ ih => exact ((Quiet.finishOp _).heap_id a).trans ih
  | cancelOp _ id ih => exact ((Quiet.cancelOp _ id).heap_id a).trans ih
  | removeFrontOp _ ih => exact ih
  | refreshOpTime _ recv ih => exact ((Quiet.refreshOpTime _ now recv).heap_id a).trans ih
  | park _ b ih => exact ih

theorem clocked (h : Works now c c') (hc : Clocked now c) : Clocked now c' := by
  induction h with
  | refl => exact hc
  | newOp _ id st ih => exact ih.newOp id st
  | stream _ hst ih => exact ih.setStatus _ _
  | end_ _ a ih => exact ih.setStatus a _
  | cancelStale _ a ih => exact (ih.setStatus a _).of_heap rfl
  | setOpError _ err ih => exact ih.setOpError err
  | finishOp _ ih => exact ih.finishOp
  | cancelOp _ id ih => exact ih.cancelOp id
  | removeFrontOp _ ih => exact ih.of_heap rfl
  | refreshOpTime _ recv ih => exact ih.refreshOpTime recv
  | park _ b ih => exact ih.of_heap rfl

end Works

/-- What has been received for an operation has its id. -/
structure Named {ρ : Type} (id : ρ → Int) (c : OpCtl E) (tr : List (Nat × ρ)) : Prop where
  current : ∀ a, c.currentOp = some a → a < c.fresh
  named : ∀ p ∈ tr, p.1 < c.fresh ∧ (c.heap p.1).id = id p.2

namespace Named

variable {ρ : Type} {id : ρ → Int} {c c' : OpCtl E} {tr : List (Nat × ρ)}

theorem init : Named id (.init : OpCtl E) [] where
  current a h := by cases h
  named p h := by cases h

theorem works (h : Named id c tr) {now : Int} (hworks : Works now c c') : Named id c' tr where
  current a ha := by
    rcases hworks.advances.current a ha with hcur | ⟨-, hlt⟩
    · exact Nat.lt_of_lt_of_le (h.current a hcur) hworks.advances.fresh
    · exact hlt
  named p hp := by
    obtain ⟨hlt, hid⟩ := h.named p hp
    exact ⟨Nat.lt_of_lt_of_le hlt hworks.advances.fresh, (hworks.heap_id hlt).trans hid⟩

omit [Inhabited E] in
/-- Responses for the current operation. -/
theorem append (h : Named id c tr) {l : List (Nat × ρ)}
    (hl : ∀ p ∈ l, c.currentOp = some p.1 ∧ (c.heap p.1).id = id p.2) : Named id c (tr ++ l) where
  current := h.current
  named p hp := by
    rcases List.mem_append.mp hp with hp | hp
    · exact h.named p hp
    · obtain ⟨hcur, hid⟩ := hl p hp
      exact ⟨h.current p.1 hcur, hid⟩

end Named

end OpCtl

end OpenVoice
