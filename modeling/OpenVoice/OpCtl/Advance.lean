import OpenVoice.OpCtl.Model

/-!
# Operations only advance

An operation that is finished stays finished, and what is in the list or current was there before
or has just been created.  Nothing is assumed of the controller, so this holds over any number of
sessions.
-/

namespace OpenVoice

instance (st : OpStatus) : Decidable st.Terminal :=
  inferInstanceAs (Decidable (st = .end_ ∨ st = .cancelled ∨ st = .error))

namespace OpCtl

variable {E : Type}

/-- What is finished stays finished. -/
def Settles (c c' : OpCtl E) : Prop :=
  ∀ a, (c.heap a).status.Terminal → (c'.heap a).status.Terminal

namespace Settles

variable {c c' c₁ c₂ c₃ : OpCtl E}

theorem refl (c : OpCtl E) : Settles c c := fun _ h => h

theorem trans (h : Settles c₁ c₂) (h' : Settles c₂ c₃) : Settles c₁ c₃ := by
  intro a ha
  exact h' a (h a ha)

/-- A step that writes to no operation. -/
theorem of_heap (h : c'.heap = c.heap) : Settles c c' := by
  intro a ha
  rw [h]
  exact ha

theorem modify (c : OpCtl E) (a : Nat) {f : Operation E → Operation E}
    (hst : (c.heap a).status.Terminal → (f (c.heap a)).status.Terminal) :
    Settles c (c.modify a f) := by
  intro b hb
  by_cases hba : b = a
  · subst hba
    rw [modify_heap_self]
    exact hst hb
  · rw [modify_heap_ne c a f hba]
    exact hb

theorem setStatus (c : OpCtl E) (a : Nat) {st : OpStatus}
    (hst : (c.heap a).status.Terminal → st.Terminal) : Settles c (c.setStatus a st) :=
  modify c a hst

/-- The first response is for an operation that is not finished. -/
theorem stream (c : OpCtl E) (a : Nat) (hst : (c.heap a).status = .start) :
    Settles c (c.setStatus a .streaming) := by
  apply setStatus
  rw [hst]
  rintro (h | h | h)
  · cases h
  · cases h
  · cases h

theorem end_ (c : OpCtl E) (a : Nat) : Settles c (c.setStatus a .end_) :=
  setStatus c a fun _ => .inl rfl

theorem cancel (c : OpCtl E) (a : Nat) : Settles c (c.setStatus a .cancelled) :=
  setStatus c a fun _ => .inr (.inl rfl)

theorem resetAndNotify (c : OpCtl E) : Settles c c.resetAndNotify := of_heap rfl

theorem setOpError (c : OpCtl E) (err : E) : Settles c (c.setOpError err) := by
  cases hcur : c.currentOp with
  | none =>
      rw [setOpError_none hcur]
      exact refl c
  | some a =>
      rw [setOpError_some hcur]
      apply trans _ (resetAndNotify _)
      apply modify
      intro _
      exact .inr (.inr rfl)

theorem finishOp (c : OpCtl E) : Settles c c.finishOp := by
  cases hcur : c.currentOp with
  | none =>
      rw [finishOp_none hcur]
      exact refl c
  | some a =>
      simp only [OpCtl.finishOp, hcur]
      split
      · exact (end_ c a).trans (resetAndNotify _)
      · exact resetAndNotify c

theorem cancelOp (c : OpCtl E) (id : Int) : Settles c (c.cancelOp id).2 :=
  fun _ ha => cancelOp_terminal id ha

theorem removeFrontOp (c : OpCtl E) : Settles c c.removeFrontOp := of_heap rfl

theorem refreshOpTime (c : OpCtl E) (now : Int) (recv : Bool) :
    Settles c (c.refreshOpTime now recv) := by
  unfold OpCtl.refreshOpTime
  split
  · exact refl c
  · exact modify c _ fun h => h

end Settles

/-- What a step does to the operations. -/
structure Advances (c c' : OpCtl E) : Prop where
  fresh : c.fresh ≤ c'.fresh
  operations : ∀ a ∈ c'.operations, a ∈ c.operations ∨ c.fresh ≤ a ∧ a < c'.fresh
  terminal : ∀ a < c.fresh, (c.heap a).status.Terminal → (c'.heap a).status.Terminal
  current : ∀ a, c'.currentOp = some a → c.currentOp = some a ∨ c.fresh ≤ a ∧ a < c'.fresh

namespace Advances

variable {c c' : OpCtl E}

/-- No operation is created. -/
theorem of_kept (hkept : Kept c c') (hsettles : Settles c c')
    (hcur : ∀ a, c'.currentOp = some a → c.currentOp = some a) : Advances c c' where
  fresh := Nat.le_of_eq hkept.fresh.symm
  operations _ ha := .inl (hkept.operations.subset ha)
  terminal a _ ha := hsettles a ha
  current a ha := .inl (hcur a ha)

theorem of_quiet (hquiet : Quiet c c') (hsettles : Settles c c') : Advances c c' :=
  of_kept hquiet.toKept hsettles fun _ ha => hquiet.current_some ha

theorem refl (c : OpCtl E) : Advances c c := of_quiet (.refl c) (.refl c)

theorem trans {c₁ c₂ c₃ : OpCtl E} (h : Advances c₁ c₂) (h' : Advances c₂ c₃) :
    Advances c₁ c₃ where
  fresh := Nat.le_trans h.fresh h'.fresh
  operations a ha := by
    rcases h'.operations a ha with hold | ⟨hle, hlt⟩
    · rcases h.operations a hold with hold | ⟨hle, hlt⟩
      · exact .inl hold
      · exact .inr ⟨hle, Nat.lt_of_lt_of_le hlt h'.fresh⟩
    · exact .inr ⟨Nat.le_trans h.fresh hle, hlt⟩
  terminal a hlt ha := h'.terminal a (Nat.lt_of_lt_of_le hlt h.fresh) (h.terminal a hlt ha)
  current a ha := by
    rcases h'.current a ha with hold | ⟨hle, hlt⟩
    · rcases h.current a hold with hold | ⟨hle, hlt⟩
      · exact .inl hold
      · exact .inr ⟨hle, Nat.lt_of_lt_of_le hlt h'.fresh⟩
    · exact .inr ⟨Nat.le_trans h.fresh hle, hlt⟩

/-- A write to the status of an operation. -/
theorem setStatus {a : Nat} {st : OpStatus} (h : Settles c (c.setStatus a st)) :
    Advances c (c.setStatus a st) :=
  of_kept ⟨rfl, List.suffix_refl _, fun b => setStatus_heap_id c a st b⟩ h fun _ hb => hb

/-- `op_cond_.wait`. -/
theorem opWaiting (c : OpCtl E) (b : Bool) : Advances c { c with opWaiting := b } :=
  of_kept ⟨rfl, List.suffix_refl _, fun _ => rfl⟩ (.of_heap rfl) fun _ ha => ha

/-- A request is cancelled while its operation is current. -/
theorem cancelStale (c : OpCtl E) (a : Nat) :
    Advances c (c.setStatus a .cancelled).clearCurrentOp := by
  refine of_kept (.cancelStale c a _) ((Settles.cancel c a).trans (.of_heap rfl)) ?_
  intro b hb
  cases hb

theorem newOp [Inhabited E] (c : OpCtl E) (now id : Int) (st : OpStatus) :
    Advances c (c.newOp now id st) where
  fresh := Nat.le_succ _
  operations a ha := by
    rw [newOp_operations, List.mem_append, List.mem_singleton] at ha
    rcases ha with ha | rfl
    · exact .inl ha
    · exact .inr ⟨Nat.le_refl _, Nat.lt_succ_self _⟩
  terminal a hlt ha := by
    rw [newOp_heap_ne c st now id (Nat.ne_of_lt hlt)]
    exact ha
  current a ha := by
    unfold OpCtl.newOp at ha
    simp only at ha
    split at ha
    · cases ha
      exact .inr ⟨Nat.le_refl _, Nat.lt_succ_self _⟩
    · exact .inl ha

end Advances

end OpCtl

end OpenVoice
