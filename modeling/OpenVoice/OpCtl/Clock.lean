import Mathlib.Algebra.Group.Int.Defs
import Mathlib.Algebra.Group.Nat.Defs
import OpenVoice.OpCtl.Deadline

/-!
# The clock and `op_timeout`

The time points of an operation are readings of a clock that does not go back.  `op_timeout` counts
the milliseconds since then in `uint32_t`.  `refresh_op_time(true)` sets both time points to the
present, and that changes what `op_timeout` returns, then or later, unless it has just been done.
-/

namespace OpenVoice

namespace OpCtl

variable {E : Type}

/-- Nanoseconds as milliseconds in a `uint32_t`. -/
def msOf (ns : Nat) : Nat := ns / 1000000 % 2 ^ 32

/-! ### No time point is in the future -/

structure Clocked (now : Int) (c : OpCtl E) : Prop where
  now_nonneg : 0 ≤ now
  begin_le : ∀ a, (c.heap a).beginTimepoint ≤ now
  recv_le : ∀ a, (c.heap a).lastestRecvTimepoint ≤ now

namespace Clocked

variable {c c' : OpCtl E} {now now' : Int}

theorem init [Inhabited E] : Clocked 0 (.init : OpCtl E) where
  now_nonneg := Int.le_refl _
  begin_le _ := Int.le_refl _
  recv_le _ := Int.le_refl _

theorem later (h : Clocked now c) (hle : now ≤ now') : Clocked now' c where
  now_nonneg := Int.le_trans h.now_nonneg hle
  begin_le a := Int.le_trans (h.begin_le a) hle
  recv_le a := Int.le_trans (h.recv_le a) hle

/-- A step that writes to no operation. -/
theorem of_heap (h : Clocked now c) (hheap : c'.heap = c.heap) : Clocked now c' where
  now_nonneg := h.now_nonneg
  begin_le a := by
    rw [hheap]
    exact h.begin_le a
  recv_le a := by
    rw [hheap]
    exact h.recv_le a

theorem modify (h : Clocked now c) {a : Nat} {f : Operation E → Operation E}
    (hbegin : (f (c.heap a)).beginTimepoint ≤ now)
    (hrecv : (f (c.heap a)).lastestRecvTimepoint ≤ now) : Clocked now (c.modify a f) where
  now_nonneg := h.now_nonneg
  begin_le b := by
    by_cases hb : b = a
    · rw [hb, modify_heap_self]
      exact hbegin
    · rw [modify_heap_ne c a f hb]
      exact h.begin_le b
  recv_le b := by
    by_cases hb : b = a
    · rw [hb, modify_heap_self]
      exact hrecv
    · rw [modify_heap_ne c a f hb]
      exact h.recv_le b

theorem setStatus (h : Clocked now c) (a : Nat) (st : OpStatus) :
    Clocked now (c.setStatus a st) :=
  h.modify (h.begin_le a) (h.recv_le a)

theorem newOp [Inhabited E] (h : Clocked now c) (id : Int) (st : OpStatus) :
    Clocked now (c.newOp now id st) where
  now_nonneg := h.now_nonneg
  begin_le a := by
    by_cases ha : a = c.fresh
    · subst ha
      simp only [OpCtl.newOp, Function.update_self]
      exact h.now_nonneg
    · rw [newOp_heap_ne c st now id ha]
      exact h.begin_le a
  recv_le a := by
    by_cases ha : a = c.fresh
    · subst ha
      simp [OpCtl.newOp]
    · rw [newOp_heap_ne c st now id ha]
      exact h.recv_le a

theorem setOpError (h : Clocked now c) (err : E) : Clocked now (c.setOpError err) := by
  cases hcur : c.currentOp with
  | none =>
      rw [setOpError_none hcur]
      exact h
  | some a =>
      rw [setOpError_some hcur]
      have hfail : Clocked now
          (c.modify a fun op => { op with status := .error, error := err }) :=
        h.modify (h.begin_le a) (h.recv_le a)
      exact hfail.of_heap rfl

theorem finishOp (h : Clocked now c) : Clocked now c.finishOp := by
  cases hcur : c.currentOp with
  | none =>
      rw [finishOp_none hcur]
      exact h
  | some a =>
      simp only [OpCtl.finishOp, hcur]
      split
      · exact (h.setStatus a .end_).of_heap rfl
      · exact h.of_heap rfl

/-- The loop of `cancel_op`, by induction on the operations it has still to visit. -/
theorem cancelLoop (id : Int) (l : List Nat) (needNotify : Bool) (h : Clocked now c) :
    Clocked now (OpCtl.cancelLoop id l needNotify c).2 := by
  induction l generalizing needNotify c with
  | nil => exact h
  | cons a rest ih =>
      unfold OpCtl.cancelLoop
      split
      · simp only
        split
        · exact h.setStatus a .cancelled
        · exact ih _ (h.setStatus a .cancelled)
      · exact ih _ h

theorem cancelOp (h : Clocked now c) (id : Int) : Clocked now (c.cancelOp id).2 := by
  rw [cancelOp_snd]
  split
  · exact (h.cancelLoop id c.operations false).of_heap rfl
  · exact h.cancelLoop id c.operations false

theorem refreshOpTime (h : Clocked now c) (recv : Bool) :
    Clocked now (c.refreshOpTime now recv) := by
  unfold OpCtl.refreshOpTime
  split
  · exact h
  · rename_i a _
    apply h.modify
    · exact Int.le_refl _
    · simp only
      split
      · exact Int.le_refl _
      · exact h.recv_le a

end Clocked

/-! ### `op_timeout` -/

section Timeout

variable {c : OpCtl E} {now since : Int} {a : Nat}

theorem elapsedMs_toNat (h : since ≤ now) :
    (elapsedMs now since).toNat = msOf (now - since).toNat := by
  obtain ⟨n, hn⟩ : ∃ n : Nat, now - since = n := ⟨(now - since).toNat, by omega⟩
  have hdiv : (n : Int).tdiv 1000000 = (n / 1000000 : Nat) := rfl
  rw [elapsedMs, hn, msOf, Int.toNat_natCast, hdiv, BitVec.ofInt_natCast, BitVec.toNat_ofNat]

/-- What `op_timeout` returns when the time is counted: the smaller of the two waiting times. -/
theorem opTimeout_toNat (h : Clocked now c) (hcur : c.currentOp = some a)
    (hcalc : (c.heap a).calcOpTimeout = true) :
    (c.opTimeout now).toNat =
      min (20000 - msOf (now - (c.heap a).beginTimepoint).toNat)
        (30000 - msOf (now - (c.heap a).lastestRecvTimepoint).toNat) := by
  rw [← elapsedMs_toNat (h.begin_le a), ← elapsedMs_toNat (h.recv_le a), ← min_left_toNat,
    opTimeout, current, hcur]
  simp only [Option.map_some, hcalc, Bool.true_eq_false, if_false]

/-- Counting anew from now on changes nothing exactly if the twenty seconds have just begun, up to a
    turn of the `uint32_t`, and ten of the thirty seconds at most are over. -/
theorem msOf_restart (d e : Nat) :
    (∀ k, min (20000 - msOf (d + k)) (30000 - msOf (e + k)) = 20000 - msOf k) ↔
      d % (2 ^ 32 * 1000000) = 0 ∧ e % (2 ^ 32 * 1000000) ≤ 10000000000 := by
  unfold msOf
  constructor
  · intro h
    have h₀ := h 0
    have hd := h (1000000 - d % 1000000)
    have he := h (10001 * 1000000 - e % (2 ^ 32 * 1000000))
    constructor
    · omega
    · omega
  · rintro ⟨hd, he⟩ k
    omega

/-- The time of the current operation has just been refreshed: it is counted, the twenty seconds
    begin now, and of the thirty seconds ten at most are over; both up to a turn of the
    `uint32_t`. -/
def Refreshed (now : Int) (c : OpCtl E) : Prop :=
  ∀ a, c.currentOp = some a → (c.heap a).calcOpTimeout = true ∧
    (now - (c.heap a).beginTimepoint) % (2 ^ 32 * 1000000) = 0 ∧
    (now - (c.heap a).lastestRecvTimepoint) % (2 ^ 32 * 1000000) ≤ 10000000000

theorem refreshed_of_current (hcur : c.currentOp = some a) :
    c.Refreshed now ↔ (c.heap a).calcOpTimeout = true ∧
      (now - (c.heap a).beginTimepoint) % (2 ^ 32 * 1000000) = 0 ∧
      (now - (c.heap a).lastestRecvTimepoint) % (2 ^ 32 * 1000000) ≤ 10000000000 := by
  simp [Refreshed, hcur]

/-- **`refresh_op_time(true)` goes unnoticed** by `op_timeout`, now and later, exactly if the time
    has just been refreshed. -/
theorem refreshOpTime_unnoticed (h : Clocked now c) :
    (∀ ns : Nat, (c.refreshOpTime now true).opTimeout (now + ns) = c.opTimeout (now + ns)) ↔
      c.Refreshed now := by
  cases hcur : c.currentOp with
  | none =>
      have hsame : c.refreshOpTime now true = c := by rw [refreshOpTime, hcur]
      rw [hsame]
      have hrefreshed : c.Refreshed now := by simp [Refreshed, hcur]
      exact ⟨fun _ => hrefreshed, fun _ _ => rfl⟩
  | some a =>
      rw [refreshed_of_current hcur]
      -- what is returned after the refresh
      have hnew : ∀ ns : Nat,
          ((c.refreshOpTime now true).opTimeout (now + ns)).toNat = 20000 - msOf ns := by
        intro ns
        have hclock : Clocked (now + ns) (c.refreshOpTime now true) :=
          (h.refreshOpTime true).later (by omega)
        have hcur' : (c.refreshOpTime now true).currentOp = some a :=
          (refreshOpTime_currentOp c now true).trans hcur
        have htime : ((c.refreshOpTime now true).heap a).beginTimepoint = now ∧
            ((c.refreshOpTime now true).heap a).lastestRecvTimepoint = now := by
          rw [refreshOpTime, hcur]
          simp
        rw [opTimeout_toNat hclock hcur' (refreshOpTime_counting hcur), htime.1, htime.2]
        have hns : (now + (ns : Int) - now).toNat = ns := by omega
        rw [hns]
        omega
      cases hcalc : (c.heap a).calcOpTimeout with
      | false =>
          -- without counting twenty seconds are left forever
          have hold : ∀ ns : Nat, c.opTimeout (now + ns) = noopTimeout := by
            intro ns
            rw [opTimeout, current, hcur]
            simp [hcalc]
          constructor
          · intro hall
            have hbound := hnew 1000000
            rw [hall, hold] at hbound
            exact absurd hbound (by decide)
          · rintro ⟨hfalse, -⟩
            cases hfalse
      | true =>
          obtain ⟨d, hd⟩ : ∃ d : Nat, now - (c.heap a).beginTimepoint = d :=
            ⟨_, (Int.toNat_of_nonneg (by have := h.begin_le a; omega)).symm⟩
          obtain ⟨e, he⟩ : ∃ e : Nat, now - (c.heap a).lastestRecvTimepoint = e :=
            ⟨_, (Int.toNat_of_nonneg (by have := h.recv_le a; omega)).symm⟩
          have hold : ∀ ns : Nat, (c.opTimeout (now + ns)).toNat =
              min (20000 - msOf (d + ns)) (30000 - msOf (e + ns)) := by
            intro ns
            rw [opTimeout_toNat (h.later (by omega)) hcur hcalc]
            have hdns : (now + (ns : Int) - (c.heap a).beginTimepoint).toNat = d + ns := by omega
            have hens : (now + (ns : Int) - (c.heap a).lastestRecvTimepoint).toNat = e + ns := by
              omega
            rw [hdns, hens]
          have hsame : (∀ ns : Nat,
              (c.refreshOpTime now true).opTimeout (now + ns) = c.opTimeout (now + ns)) ↔
              ∀ k, min (20000 - msOf (d + k)) (30000 - msOf (e + k)) = 20000 - msOf k := by
            simp only [← BitVec.toNat_inj, hnew, hold]
            exact ⟨fun hall k => (hall k).symm, fun hall k => (hall k).symm⟩
          rw [hsame, msOf_restart, hd, he]
          constructor
          · rintro ⟨hdz, hez⟩
            exact ⟨rfl, by omega, by omega⟩
          · rintro ⟨-, hdz, hez⟩
            exact ⟨by omega, by omega⟩

end Timeout

end OpCtl

end OpenVoice
