import Mathlib.Algebra.Group.Nat.Defs
import OpenVoice.StreamQueue.Removal

/-!
# The error of an erased stream

`erase(id, err)` takes an `uint32_t`, the tag of the stream keeps it in sixteen bits, and `pop`
widens it again.  What a consumer sees is the error only if it fits in sixteen bits.
-/

namespace OpenVoice

variable {T A : Type}

/-- The bit-field gives an error back exactly when it fits. -/
theorem narrowed_eq_iff (err : BitVec 32) :
    (err.setWidth 16).setWidth 32 = err ↔ err.toNat < 2 ^ 16 := by
  rw [← BitVec.toNat_inj, BitVec.toNat_setWidth, BitVec.toNat_setWidth]
  omega

/-- The stream `id` waits in the queue during the calls, and none of them closes it. -/
def Waits (id : Int) : List (Record T A) → List (Call T A) → Prop
  | rs, [] => id ∈ Fifo.ids rs
  | rs, c :: cs => id ∈ Fifo.ids rs ∧ ¬ c.Closes id ∧ Waits id (Fifo.call rs c).2 cs

section Erased

variable {rs : List (Record T A)} {id : Int} {err : BitVec 32} {e : BitVec 16}

theorem inState_erase (herr : err ≠ 0) (hmem : id ∈ Fifo.ids rs) :
    InState (· = .error (err.setWidth 16)) id (Fifo.erase id err rs).2 := by
  rw [Fifo.erase_of_mem err hmem]
  intro r hr hrid
  obtain ⟨r₀, -, rfl⟩ := List.mem_map.mp hr
  split
  · exact if_pos herr
  · rename_i hne
    rw [if_neg hne] at hrid
    exact absurd hrid hne

/-- The error stays while the stream waits, by induction on the calls. -/
theorem InState.calls (h : InState (· = .error e) id rs) {cs : List (Call T A)}
    (hw : Waits id rs cs) : InState (· = .error e) id (Fifo.calls rs cs).2 ∧
      id ∈ Fifo.ids (Fifo.calls rs cs).2 := by
  induction cs generalizing rs with
  | nil => exact ⟨h, hw⟩
  | cons c cs ih =>
      obtain ⟨hmem, hc, hw⟩ := hw
      have hstep : InState (· = .error e) id (Fifo.call rs c).2 :=
        h.call (fun _ hst => .inr ⟨e, hst⟩) hmem hc
      exact ih hstep hw

/-- The pop that takes the stream out of the queue returns the error. -/
theorem InState.pop_last (h : InState (· = .error e) id rs) (hmem : id ∈ Fifo.ids rs)
    {out : PopArgs T} (hgone : id ∉ Fifo.ids (Fifo.pop out rs).2.2) :
    (Fifo.pop out rs).1 = .error ∧
      (Fifo.pop out rs).2.1 = { out with id := id, err := e.setWidth 32 } := by
  cases rs with
  | nil => simp at hmem
  | cons r rs =>
      have hid : r.id = id := by
        by_contra hne
        have htail : id ∈ Fifo.ids rs := by
          rw [Fifo.ids_cons, List.mem_cons] at hmem
          exact hmem.resolve_left fun hid => hne hid.symm
        rcases Fifo.pop_tail out r rs with heq | ⟨r', hr', heq⟩
        · rw [heq] at hgone
          exact hgone htail
        · rw [heq, Fifo.ids_cons] at hgone
          exact hgone (List.mem_cons_of_mem _ htail)
      rw [Fifo.pop_error out (h r List.mem_cons_self hid), hid]
      exact ⟨rfl, rfl⟩

end Erased

/-- Calls on a queue erase the stream `id` with `err`, it waits, and the pop that removes it returns
    `t` and `out'`. -/
structure ErasedPop (T A : Type) (id : Int) (err : BitVec 32) (t : PopType) (out' : PopArgs T) :
    Prop where
  calls : ∃ (cs₀ cs : List (Call T A)) (rets₀ rets : List (Ret T A)) (ret : Ret T A)
    (q₀ q₁ q₂ q₃ : StreamQueue T A) (out : PopArgs T),
    StreamQueue.empty.calls cs₀ = some (rets₀, q₀) ∧ id ∈ Fifo.ids q₀.records ∧
    q₀.call (.erase id err) = some (ret, q₁) ∧
    q₁.calls cs = some (rets, q₂) ∧ Waits id q₁.records cs ∧
    q₂.call (.pop out) = some (.popped t out', q₃) ∧ id ∉ Fifo.ids q₃.records

/-- That pop returns an error, and of the error what the bit-field has kept. -/
theorem ErasedPop.spec {id : Int} {err : BitVec 32} {t : PopType} {out' : PopArgs T}
    (h : ErasedPop T A id err t out') (herr : err ≠ 0) :
    t = .error ∧ out'.id = id ∧ out'.err = (err.setWidth 16).setWidth 32 := by
  obtain ⟨cs₀, cs, rets₀, rets, ret, q₀, q₁, q₂, q₃, out, h₀, hlive, h₁, h₂, hw, h₃, hgone⟩ :=
    h.calls
  obtain ⟨q₀', hq₀, hwf₀, -⟩ :=
    StreamQueue.calls_simulates (⟨[], StreamQueue.represents_empty⟩ :
      (StreamQueue.empty : StreamQueue T A).Wf) cs₀
  rw [hq₀] at h₀
  obtain ⟨-, rfl⟩ : _ ∧ q₀' = q₀ := by simpa using h₀
  obtain ⟨q₁', hq₁, hwf₁, hrec₁⟩ := StreamQueue.call_simulates hwf₀ (.erase id err)
  rw [hq₁] at h₁
  obtain ⟨-, rfl⟩ : _ ∧ q₁' = q₁ := by simpa using h₁
  obtain ⟨q₂', hq₂, hwf₂, hrec₂⟩ := StreamQueue.calls_simulates hwf₁ cs
  rw [hq₂] at h₂
  obtain ⟨-, rfl⟩ : _ ∧ q₂' = q₂ := by simpa using h₂
  obtain ⟨q₃', hq₃, -, hrec₃⟩ := StreamQueue.call_simulates hwf₂ (.pop out)
  rw [hq₃] at h₃
  obtain ⟨⟨ht, hout⟩, rfl⟩ : ((Fifo.pop out q₂'.records).1 = t ∧
      (Fifo.pop out q₂'.records).2.1 = out') ∧ q₃' = q₃ := by
    simpa [Fifo.call] using h₃
  have herased : InState (· = .error (err.setWidth 16)) id q₁'.records := by
    rw [hrec₁]
    exact inState_erase herr hlive
  obtain ⟨hstate, hmem⟩ := herased.calls hw
  rw [← hrec₂] at hstate hmem
  rw [hrec₃] at hgone
  obtain ⟨hlast, hfill⟩ := hstate.pop_last hmem hgone
  rw [← ht, ← hout, hfill]
  exact ⟨hlast, rfl, rfl⟩

end OpenVoice
