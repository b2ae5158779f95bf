import OpenVoice.OpCtl.Model

/-!
# When an operation is overdue

`op_timeout` returns the milliseconds left until the current operation times out.  It returns 0
exactly if the deadline has been reached, and that is also the timeout for which
`connection_.recv` waits without bound.
-/

namespace OpenVoice

namespace OpCtl

variable {E : Type}

/-- There is a current operation and its time is counted. -/
def counting (c : OpCtl E) : Bool :=
  match c.current with
  | none => false
  | some op => op.calcOpTimeout

/-- The time of the current operation is counted and its deadline has been reached: nothing has
    been sent or received for 20 seconds, or nothing has been received for 30. -/
def overdue (now : Int) (c : OpCtl E) : Bool :=
  match c.current with
  | none => false
  | some op =>
      op.calcOpTimeout &&
        (noopTimeout ≤ elapsedMs now op.beginTimepoint ||
          norespTimeout ≤ elapsedMs now op.lastestRecvTimepoint)

theorem counting_of_overdue {c : OpCtl E} {now : Int} (h : c.overdue now = true) :
    c.counting = true := by
  unfold overdue at h
  unfold counting
  cases hcur : c.current with
  | none => simp [hcur] at h
  | some op =>
      simp only [hcur, Bool.and_eq_true] at h
      exact h.1

/-- The two waiting times of `op_timeout`, as it subtracts and compares them: the smaller one. -/
theorem min_left_toNat (d e : BitVec 32) :
    (if noopTimeout < d then (0 : BitVec 32)
      else if norespTimeout < e then 0
      else if norespTimeout - e < noopTimeout - d then norespTimeout - e
      else noopTimeout - d).toNat = min (20000 - d.toNat) (30000 - e.toNat) := by
  unfold noopTimeout norespTimeout
  by_cases hd : (20000 : BitVec 32) < d
  · rw [if_pos hd]
    bv_omega
  · rw [if_neg hd]
    by_cases he : (30000 : BitVec 32) < e
    · rw [if_pos he]
      bv_omega
    · rw [if_neg he]
      by_cases hlt : (30000 : BitVec 32) - e < 20000 - d
      · rw [if_pos hlt]
        bv_omega
      · rw [if_neg hlt]
        bv_omega

theorem min_left_eq_zero (d e : BitVec 32) :
    (if noopTimeout < d then (0 : BitVec 32)
      else if norespTimeout < e then 0
      else if norespTimeout - e < noopTimeout - d then norespTimeout - e else noopTimeout - d) = 0 ↔
      noopTimeout ≤ d ∨ norespTimeout ≤ e := by
  have hnoop : noopTimeout.toNat = 20000 := rfl
  have hnoresp : norespTimeout.toNat = 30000 := rfl
  have hzero : (0 : BitVec 32).toNat = 0 := rfl
  rw [← BitVec.toNat_inj, min_left_toNat, BitVec.le_def, BitVec.le_def, hnoop, hnoresp, hzero]
  omega

theorem noopTimeout_ne_zero : noopTimeout ≠ 0 := by decide

/-- **`op_timeout` is 0 exactly when the deadline has been reached.** -/
theorem opTimeout_eq_zero {c : OpCtl E} {now : Int} :
    c.opTimeout now = 0 ↔ c.overdue now = true := by
  unfold opTimeout overdue
  cases hcur : c.current with
  | none =>
      constructor
      · intro h
        exact absurd h noopTimeout_ne_zero
      · intro h
        cases h
  | some op =>
      simp only
      cases hcalc : op.calcOpTimeout with
      | false =>
          constructor
          · intro h
            rw [if_pos rfl] at h
            exact absurd h noopTimeout_ne_zero
          · intro h
            rw [Bool.false_and] at h
            cases h
      | true =>
          simp only [Bool.true_eq_false, if_false, Bool.true_and, Bool.or_eq_true,
            decide_eq_true_iff]
          exact min_left_eq_zero _ _

/-- `set_op_error` fails the operation that is current. -/
theorem setOpError_fails {c : OpCtl E} {a : Nat} (err : E) (hcur : c.currentOp = some a) :
    ((c.setOpError err).heap a).status = .error ∧ ((c.setOpError err).heap a).error = err ∧
      (c.setOpError err).currentOp = none := by
  rw [setOpError_some hcur]
  refine ⟨?_, ?_, rfl⟩
  · rw [resetAndNotify_heap, modify_heap_self]
  · rw [resetAndNotify_heap, modify_heap_self]

end OpCtl

end OpenVoice
