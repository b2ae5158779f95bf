import Mathlib.Algebra.Group.Nat.Defs
import OpenVoice.OpCtl.Works

/-!
# The time an operation has left

`op_timeout` is meant to say how much is left of the twenty seconds since `begin_timepoint` and of
the thirty since `lastest_recv_timepoint`, whichever runs out first.  It keeps the elapsed
milliseconds in a `uint32_t`, so that after 2³² of them the count starts again.
-/

namespace OpenVoice

namespace OpCtl

variable {E : Type}

/-- The whole milliseconds from one reading of the clock to another. -/
def wholeMs (now since : Int) : Nat := (now - since).toNat / 1000000

/-- The controllers that calls of the functions of `op_ctl.h` lead to, each made at a reading of
    a clock that does not go back; `now` is the last reading. -/
inductive Lifetime [Inhabited E] : Int → OpCtl E → Prop where
  | init : Lifetime 0 .init
  | tick {now now' : Int} {c : OpCtl E} (h : Lifetime now c) (hle : now ≤ now') : Lifetime now' c
  | call {now : Int} {c c' : OpCtl E} (h : Lifetime now c) (hcall : Works now c c') :
      Lifetime now c'

theorem Lifetime.clocked [Inhabited E] {now : Int} {c : OpCtl E} (h : Lifetime now c) :
    Clocked now c := by
  induction h with
  | init => exact .init
  | tick _ hle ih => exact ih.later hle
  | call _ hcall ih => exact hcall.clocked ih

/-- What is left of the two waiting times of an operation, in milliseconds. -/
def leftMs (now : Int) (op : Operation E) : Nat :=
  min (20000 - wholeMs now op.beginTimepoint) (30000 - wholeMs now op.lastestRecvTimepoint)

theorem wholeMs_mono {t t' since : Int} (h : t ≤ t') : wholeMs t since ≤ wholeMs t' since :=
  Nat.div_le_div_right (by omega)

theorem leftMs_antitone {t t' : Int} (h : t ≤ t') (op : Operation E) :
    leftMs t' op ≤ leftMs t op := by
  have hbegin : wholeMs t op.beginTimepoint ≤ wholeMs t' op.beginTimepoint := wholeMs_mono h
  have hrecv : wholeMs t op.lastestRecvTimepoint ≤ wholeMs t' op.lastestRecvTimepoint :=
    wholeMs_mono h
  unfold leftMs
  omega

theorem leftMs_eq_zero {t : Int} {op : Operation E} :
    leftMs t op = 0 ↔
      20000 ≤ wholeMs t op.beginTimepoint ∨ 30000 ≤ wholeMs t op.lastestRecvTimepoint := by
  unfold leftMs
  omega

/-- Neither count has started again, or one that has is past its limit all the same. -/
def CountsOn (t : Int) (op : Operation E) : Prop :=
  wholeMs t op.beginTimepoint < 2 ^ 32 ∧ wholeMs t op.lastestRecvTimepoint < 2 ^ 32 ∨
    20000 ≤ wholeMs t op.beginTimepoint % 2 ^ 32 ∨
    30000 ≤ wholeMs t op.lastestRecvTimepoint % 2 ^ 32

instance (t : Int) (op : Operation E) : Decidable (CountsOn t op) :=
  inferInstanceAs (Decidable (_ ∨ _))

/-- What `op_timeout` returns at these readings is the time the operation has left; it does not
    grow from one reading to a later one, and after a 0 it is 0. -/
structure TellsTimeLeft (c : OpCtl E) (op : Operation E) (readings : List Int) : Prop where
  exact : ∀ t ∈ readings, (c.opTimeout t).toNat = leftMs t op
  zero : ∀ t ∈ readings, c.opTimeout t = 0 ↔
    20000 ≤ wholeMs t op.beginTimepoint ∨ 30000 ≤ wholeMs t op.lastestRecvTimepoint
  falls : readings.Pairwise fun t t' => (c.opTimeout t').toNat ≤ (c.opTimeout t).toNat
  stays_zero : readings.Pairwise fun t t' => c.opTimeout t = 0 → c.opTimeout t' = 0

section Exact

variable {c : OpCtl E} {now t : Int} {a : Nat}

/-- A reading of `op_timeout` is exact if and only if the counts are. -/
theorem opTimeout_exact (h : Clocked t c) (hcur : c.currentOp = some a)
    (hcalc : (c.heap a).calcOpTimeout = true) :
    (c.opTimeout t).toNat = leftMs t (c.heap a) ↔ CountsOn t (c.heap a) := by
  rw [opTimeout_toNat h hcur hcalc]
  unfold leftMs CountsOn msOf wholeMs
  generalize (t - (c.heap a).beginTimepoint).toNat / 1000000 = total
  generalize (t - (c.heap a).lastestRecvTimepoint).toNat / 1000000 = silent
  omega

end Exact

/-- **`op_timeout` tells the time left at every reading between two refreshes** exactly if at each
    of them the counts of milliseconds go on. -/
theorem tellsTimeLeft_iff [Inhabited E] {now : Int} {c : OpCtl E} (h : Lifetime now c) {a : Nat}
    (hcur : c.currentOp = some a) (hcalc : (c.heap a).calcOpTimeout = true) {readings : List Int}
    (hclock : (now :: readings).Pairwise (· ≤ ·)) :
    TellsTimeLeft c (c.heap a) readings ↔ ∀ t ∈ readings, CountsOn t (c.heap a) := by
  obtain ⟨hlater, hsorted⟩ := List.pairwise_cons.mp hclock
  have hexact : ∀ t ∈ readings,
      (c.opTimeout t).toNat = leftMs t (c.heap a) ↔ CountsOn t (c.heap a) :=
    fun t ht => opTimeout_exact (h.clocked.later (hlater t ht)) hcur hcalc
  constructor
  · intro htells t ht
    exact (hexact t ht).mp (htells.exact t ht)
  · intro hcounts
    have hval : ∀ t ∈ readings, (c.opTimeout t).toNat = leftMs t (c.heap a) :=
      fun t ht => (hexact t ht).mpr (hcounts t ht)
    have hzero : ∀ t ∈ readings, c.opTimeout t = 0 ↔ leftMs t (c.heap a) = 0 := by
      intro t ht
      rw [← hval t ht, ← BitVec.toNat_inj]
      rfl
    have hfalls : readings.Pairwise fun t t' =>
        leftMs t' (c.heap a) ≤ leftMs t (c.heap a) :=
      hsorted.imp fun hle => leftMs_antitone hle _
    refine ⟨hval, ?_, ?_, ?_⟩
    · intro t ht
      exact (hzero t ht).trans leftMs_eq_zero
    · refine hfalls.imp_of_mem ?_
      intro t t' ht ht' hle
      rw [hval t ht, hval t' ht']
      exact hle
    · refine hfalls.imp_of_mem ?_
      intro t t' ht ht' hle hz
      rw [hzero t' ht']
      have hleft := (hzero t ht).mp hz
      omega

/-- An operation has been created and refreshed when the clock stood at 0. -/
def justRefreshed : OpCtl Unit := (init.newOp 0 1 .start).refreshOpTime 0 true

theorem justRefreshed_lifetime : Lifetime 0 justRefreshed :=
  .call .init (.refreshOpTime (.newOp .refl 1 .start) true)

/-- It is asked for its timeout after 5, 20 and 25 seconds. -/
theorem tellsTimeLeft_justRefreshed :
    TellsTimeLeft justRefreshed (justRefreshed.heap 0) [5000000000, 20000000000, 25000000000] :=
  (tellsTimeLeft_iff justRefreshed_lifetime (a := 0) rfl rfl (by decide)).mpr (by decide)

/-- After 20 seconds the time is up, and after 2³² milliseconds twenty seconds are left. -/
theorem opTimeout_starts_again :
    ¬ ∀ (now : Int) (c : OpCtl Unit) (a : Nat) (readings : List Int), Lifetime now c →
      c.currentOp = some a → (c.heap a).calcOpTimeout = true →
      (now :: readings).Pairwise (· ≤ ·) → TellsTimeLeft c (c.heap a) readings := by
  intro h
  have htells := h 0 justRefreshed 0 [20000000000, 4294967296000000] justRefreshed_lifetime rfl rfl
    (by decide)
  have hstays := htells.stays_zero
  revert hstays
  decide

end OpCtl

end OpenVoice
