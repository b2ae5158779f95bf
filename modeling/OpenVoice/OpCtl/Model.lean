import Mathlib.Data.List.Basic
import Mathlib.Logic.Function.Basic

/-!
# `OperationController` (`op_ctl.h`)

The operations whose result has not been polled yet, in the order they were created, and the
one that is being worked on.  An `Operation` is shared: `operations_`, `current_op_` and local
variables point to the same object.  The model keeps the objects in a heap and a `shared_ptr`
is an address, so that a write through one pointer is seen through the others.

Time is a `SteadyClock` reading in nanoseconds.  `opWaiting` says that a thread sleeps in
`wait_op_finish`; `op_cond_.notify_one()` clears it.
-/

namespace OpenVoice

/-- `TtsStatus` and `SpeechStatus`, which have the same enumerators. -/
inductive OpStatus where
  | start | streaming | end_ | cancelled | error
deriving DecidableEq, Repr

/-- Nothing more happens to an operation with this status than that it is polled. -/
def OpStatus.Terminal (st : OpStatus) : Prop := st = .end_ ∨ st = .cancelled ∨ st = .error

/-- `OperationController::Operation`. -/
structure Operation (E : Type) where
  id : Int
  status : OpStatus
  error : E
  beginTimepoint : Int
  lastestRecvTimepoint : Int
  calcOpTimeout : Bool
deriving DecidableEq, Repr

/-- The members of `OperationController`; `fresh` is the address the next operation gets. -/
structure OpCtl (E : Type) where
  heap : Nat → Operation E
  fresh : Nat
  operations : List Nat
  currentOp : Option Nat
  opWaiting : Bool

namespace OpCtl

variable {E : Type}

def noopTimeout : BitVec 32 := 20000

def norespTimeout : BitVec 32 := 30000

/-- An `Operation` as `new Operation()` leaves it. -/
def blank [Inhabited E] : Operation E :=
  { id := 0, status := .start, error := default, beginTimepoint := 0,
    lastestRecvTimepoint := 0, calcOpTimeout := false }

def init [Inhabited E] : OpCtl E :=
  { heap := fun _ => blank, fresh := 0, operations := [], currentOp := none,
    opWaiting := false }

/-- The operation behind `current_op_`. -/
def current (c : OpCtl E) : Option (Operation E) := c.currentOp.map c.heap

/-- A write through a pointer. -/
def modify (a : Nat) (f : Operation E → Operation E) (c : OpCtl E) : OpCtl E :=
  { c with heap := Function.update c.heap a (f (c.heap a)) }

def setStatus (a : Nat) (st : OpStatus) (c : OpCtl E) : OpCtl E :=
  c.modify a fun op => { op with status := st }

def newOp [Inhabited E] (now : Int) (id : Int) (status : OpStatus) (c : OpCtl E) : OpCtl E :=
  let op : Operation E :=
    { (blank : Operation E) with id := id, status := status, lastestRecvTimepoint := now }
  { c with
    heap := Function.update c.heap c.fresh op
    fresh := c.fresh + 1
    operations := c.operations ++ [c.fresh]
    currentOp := if status = .start then some c.fresh else c.currentOp }

/-- `current_op_.reset()` and `op_cond_.notify_one()`. -/
def resetAndNotify (c : OpCtl E) : OpCtl E := { c with currentOp := none, opWaiting := false }

def setOpError (err : E) (c : OpCtl E) : OpCtl E :=
  match c.currentOp with
  | none => c
  | some a => (c.modify a fun op => { op with status := .error, error := err }).resetAndNotify

def finishOp (c : OpCtl E) : OpCtl E :=
  match c.currentOp with
  | none => c
  | some a =>
      if (c.heap a).status ≠ .cancelled ∧ (c.heap a).status ≠ .error then
        (c.setStatus a .end_).resetAndNotify
      else c.resetAndNotify

/-- The test of `wait_op_finish`: is there something to wait for? -/
def mustWait (id : Int) (c : OpCtl E) : Bool :=
  match c.currentOp with
  | none => false
  | some a => (c.heap a).id = id

/-- The loop of `cancel_op`; the flag is `need_notify`. -/
def cancelLoop (id : Int) : List Nat → Bool → OpCtl E → Bool × OpCtl E
  | [], needNotify, c => (needNotify, c)
  | a :: rest, needNotify, c =>
      if id ≤ 0 ∨ id = (c.heap a).id then
        let c := c.setStatus a .cancelled
        let needNotify := needNotify || c.mustWait (c.heap a).id
        if id > 0 then (needNotify, c) else cancelLoop id rest needNotify c
      else cancelLoop id rest needNotify c

/-- The flag says that `cond` was notified. -/
def cancelOp (id : Int) (c : OpCtl E) : Bool × OpCtl E :=
  let r := cancelLoop id c.operations false c
  if r.1 then (true, r.2.resetAndNotify) else (false, r.2)

def removeFrontOp (c : OpCtl E) : OpCtl E := { c with operations := c.operations.tail }

def refreshOpTime (now : Int) (recv : Bool) (c : OpCtl E) : OpCtl E :=
  match c.currentOp with
  | none => c
  | some a =>
      c.modify a fun op =>
        { op with
          calcOpTimeout := true
          beginTimepoint := now
          lastestRecvTimepoint := if recv then now else op.lastestRecvTimepoint }

/-- `duration_cast` to milliseconds kept in a `uint32_t`. -/
def elapsedMs (now since : Int) : BitVec 32 := BitVec.ofInt 32 ((now - since).tdiv 1000000)

def opTimeout (now : Int) (c : OpCtl E) : BitVec 32 :=
  match c.current with
  | none => noopTimeout
  | some op =>
      if op.calcOpTimeout = false then noopTimeout
      else
        let dur := elapsedMs now op.beginTimepoint
        if noopTimeout < dur then 0
        else
          let t1 := noopTimeout - dur
          let dur := elapsedMs now op.lastestRecvTimepoint
          if norespTimeout < dur then 0
          else
            let t2 := norespTimeout - dur
            if t2 < t1 then t2 else t1

def frontOp (c : OpCtl E) : Option Nat := c.operations.head?

def clearCurrentOp (c : OpCtl E) : OpCtl E := { c with currentOp := none }

/-! ### Reading the members after an operation -/

section Members

variable (c : OpCtl E) (a : Nat) (f : Operation E → Operation E) (st : OpStatus)

@[simp] theorem modify_heap_self : (c.modify a f).heap a = f (c.heap a) := by simp [modify]

theorem modify_heap_ne {b : Nat} (h : b ≠ a) : (c.modify a f).heap b = c.heap b := by
  simp [modify, h]

@[simp] theorem modify_fresh : (c.modify a f).fresh = c.fresh := rfl
@[simp] theorem modify_operations : (c.modify a f).operations = c.operations := rfl
@[simp] theorem modify_currentOp : (c.modify a f).currentOp = c.currentOp := rfl
@[simp] theorem modify_opWaiting : (c.modify a f).opWaiting = c.opWaiting := rfl

@[simp] theorem setStatus_heap_self : (c.setStatus a st).heap a = { c.heap a with status := st } := by
  simp [setStatus]

theorem setStatus_heap_ne {b : Nat} (h : b ≠ a) : (c.setStatus a st).heap b = c.heap b :=
  modify_heap_ne c a _ h

theorem setStatus_heap_id (b : Nat) : ((c.setStatus a st).heap b).id = (c.heap b).id := by
  by_cases h : b = a
  · subst h
    rw [setStatus_heap_self]
  · rw [setStatus_heap_ne c a st h]

@[simp] theorem setStatus_fresh : (c.setStatus a st).fresh = c.fresh := rfl
@[simp] theorem setStatus_operations : (c.setStatus a st).operations = c.operations := rfl
@[simp] theorem setStatus_currentOp : (c.setStatus a st).currentOp = c.currentOp := rfl
@[simp] theorem setStatus_opWaiting : (c.setStatus a st).opWaiting = c.opWaiting := rfl

@[simp] theorem resetAndNotify_heap : c.resetAndNotify.heap = c.heap := rfl
@[simp] theorem resetAndNotify_fresh : c.resetAndNotify.fresh = c.fresh := rfl
@[simp] theorem resetAndNotify_operations : c.resetAndNotify.operations = c.operations := rfl
@[simp] theorem resetAndNotify_currentOp : c.resetAndNotify.currentOp = none := rfl
@[simp] theorem resetAndNotify_opWaiting : c.resetAndNotify.opWaiting = false := rfl

variable {c a}

theorem setOpError_none (h : c.currentOp = none) (err : E) : c.setOpError err = c := by
  rw [setOpError, h]

theorem setOpError_some (h : c.currentOp = some a) (err : E) :
    c.setOpError err =
      (c.modify a fun op => { op with status := .error, error := err }).resetAndNotify := by
  rw [setOpError, h]

theorem finishOp_none (h : c.currentOp = none) : c.finishOp = c := by
  rw [finishOp, h]

/-- An operation that is neither cancelled nor failed ends. -/
theorem finishOp_some (h : c.currentOp = some a) (hst : (c.heap a).status ≠ .cancelled)
    (hst' : (c.heap a).status ≠ .error) :
    c.finishOp = (c.setStatus a .end_).resetAndNotify := by
  rw [finishOp, h]
  exact if_pos ⟨hst, hst'⟩

theorem setOpError_current (c : OpCtl E) (err : E) : (c.setOpError err).currentOp = none := by
  cases h : c.currentOp with
  | none =>
      rw [setOpError_none h]
      exact h
  | some a =>
      rw [setOpError_some h]
      rfl

theorem finishOp_current (c : OpCtl E) : c.finishOp.currentOp = none := by
  cases h : c.currentOp with
  | none =>
      rw [finishOp_none h]
      exact h
  | some a =>
      simp only [finishOp, h]
      split
      · rfl
      · rfl

@[simp] theorem setOpError_operations (c : OpCtl E) (err : E) :
    (c.setOpError err).operations = c.operations := by
  unfold setOpError
  split <;> rfl

@[simp] theorem finishOp_operations (c : OpCtl E) : c.finishOp.operations = c.operations := by
  unfold finishOp
  split
  · rfl
  · split <;> rfl

@[simp] theorem refreshOpTime_operations (c : OpCtl E) (now : Int) (recv : Bool) :
    (c.refreshOpTime now recv).operations = c.operations := by
  unfold refreshOpTime
  split <;> rfl

@[simp] theorem refreshOpTime_currentOp (c : OpCtl E) (now : Int) (recv : Bool) :
    (c.refreshOpTime now recv).currentOp = c.currentOp := by
  unfold refreshOpTime
  split <;> rfl

@[simp] theorem refreshOpTime_fresh (c : OpCtl E) (now : Int) (recv : Bool) :
    (c.refreshOpTime now recv).fresh = c.fresh := by
  unfold refreshOpTime
  split <;> rfl

/-- Only times are refreshed. -/
@[simp] theorem refreshOpTime_heap (c : OpCtl E) (now : Int) (recv : Bool) (b : Nat) :
    ((c.refreshOpTime now recv).heap b).id = (c.heap b).id ∧
      ((c.refreshOpTime now recv).heap b).status = (c.heap b).status := by
  unfold refreshOpTime
  split
  · exact ⟨rfl, rfl⟩
  · rename_i a _
    by_cases hb : b = a
    · subst hb
      rw [modify_heap_self]
      exact ⟨rfl, rfl⟩
    · rw [modify_heap_ne c a _ hb]
      exact ⟨rfl, rfl⟩

variable (c) [Inhabited E] (now id : Int)

theorem newOp_heap_ne {b : Nat} (h : b ≠ c.fresh) : (c.newOp now id st).heap b = c.heap b := by
  simp [newOp, h]

@[simp] theorem newOp_heap_id : ((c.newOp now id st).heap c.fresh).id = id := by simp [newOp]

@[simp] theorem newOp_heap_status : ((c.newOp now id st).heap c.fresh).status = st := by
  simp [newOp]

@[simp] theorem newOp_operations :
    (c.newOp now id st).operations = c.operations ++ [c.fresh] := rfl

@[simp] theorem newOp_currentOp_start : (c.newOp now id .start).currentOp = some c.fresh := rfl

@[simp] theorem newOp_currentOp_cancelled :
    (c.newOp now id .cancelled).currentOp = c.currentOp := rfl

@[simp] theorem newOp_opWaiting : (c.newOp now id st).opWaiting = c.opWaiting := rfl

end Members

/-! ### `cancel_op` -/

/-- `c'` is `c` with the operations at the addresses `marked` cancelled. -/
structure Cancelled (marked : List Nat) (c c' : OpCtl E) : Prop where
  operations : c'.operations = c.operations
  fresh : c'.fresh = c.fresh
  heap_id : ∀ a, (c'.heap a).id = (c.heap a).id
  counting : ∀ a, (c'.heap a).calcOpTimeout = (c.heap a).calcOpTimeout
  status : ∀ a, (c'.heap a).status = if a ∈ marked then .cancelled else (c.heap a).status

theorem Cancelled.nil (c : OpCtl E) : Cancelled [] c c where
  operations := rfl
  fresh := rfl
  heap_id _ := rfl
  counting _ := rfl
  status _ := by simp

theorem Cancelled.setStatus (c : OpCtl E) (a : Nat) :
    Cancelled [a] c (c.setStatus a .cancelled) where
  operations := rfl
  fresh := rfl
  heap_id b := setStatus_heap_id c a _ b
  counting b := by
    by_cases h : b = a
    · subst h
      simp
    · rw [setStatus_heap_ne c a _ h]
  status b := by
    by_cases h : b = a
    · subst h
      simp
    · simp [setStatus_heap_ne c a _ h, h]

theorem Cancelled.cons {a : Nat} {marked : List Nat} {c c₁ c₂ : OpCtl E}
    (h₁ : Cancelled [a] c c₁) (h₂ : Cancelled marked c₁ c₂) : Cancelled (a :: marked) c c₂ where
  operations := h₂.operations.trans h₁.operations
  fresh := h₂.fresh.trans h₁.fresh
  heap_id b := (h₂.heap_id b).trans (h₁.heap_id b)
  counting b := (h₂.counting b).trans (h₁.counting b)
  status b := by
    rw [h₂.status, h₁.status]
    by_cases hb : b = a <;> by_cases hm : b ∈ marked <;> simp [hb, hm]

/-- The operations a `cancel_op(id)` reaches: all of them, or the first one with the id. -/
def covered (id : Int) (l : List Nat) (c : OpCtl E) : List Nat :=
  if id ≤ 0 then l else (l.find? fun a => id = (c.heap a).id).toList

theorem mustWait_setStatus (c : OpCtl E) (a : Nat) (st : OpStatus) (id : Int) :
    (c.setStatus a st).mustWait id = c.mustWait id := by
  unfold mustWait
  rw [setStatus_currentOp]
  cases c.currentOp with
  | none => rfl
  | some b => simp only [setStatus_heap_id]

theorem covered_setStatus (c : OpCtl E) (a : Nat) (st : OpStatus) (id : Int) (l : List Nat) :
    covered id l (c.setStatus a st) = covered id l c := by
  simp only [covered, setStatus_heap_id]

/-- **What the loop does**, by induction on the operations it has still to visit. -/
theorem cancelLoop_spec (id : Int) (l : List Nat) (needNotify : Bool) (c : OpCtl E) :
    Cancelled (covered id l c) c (cancelLoop id l needNotify c).2 ∧
      (cancelLoop id l needNotify c).2.currentOp = c.currentOp ∧
      (cancelLoop id l needNotify c).2.opWaiting = c.opWaiting ∧
      (cancelLoop id l needNotify c).1 =
        (needNotify || (covered id l c).any fun a => c.mustWait (c.heap a).id) := by
  induction l generalizing needNotify c with
  | nil =>
      have hnil : covered id [] c = [] := by simp [covered]
      rw [hnil]
      exact ⟨.nil c, rfl, rfl, by simp [cancelLoop]⟩
  | cons a rest ih =>
      by_cases hid : id ≤ 0
      · -- every operation is cancelled
        have hcov : covered id (a :: rest) c = a :: covered id rest c := by
          simp [covered, hid]
        have hpos : ¬ id > 0 := by omega
        obtain ⟨hc, hcur, hwait, hflag⟩ := ih (needNotify || c.mustWait (c.heap a).id)
          (c.setStatus a .cancelled)
        rw [covered_setStatus] at hc hflag
        have hstep : cancelLoop id (a :: rest) needNotify c =
            cancelLoop id rest (needNotify || c.mustWait (c.heap a).id)
              (c.setStatus a .cancelled) := by
          simp only [cancelLoop, hid, true_or, if_true, hpos, if_false, setStatus_heap_id,
            mustWait_setStatus]
        rw [hstep, hcov]
        refine ⟨(Cancelled.setStatus c a).cons hc, hcur, hwait, ?_⟩
        rw [hflag]
        simp only [setStatus_heap_id, mustWait_setStatus, List.any_cons, Bool.or_assoc]
      · have hpos : id > 0 := by omega
        by_cases ha : id = (c.heap a).id
        · -- the first operation with this id
          have hcov : covered id (a :: rest) c = [a] := by
            simp [covered, hid, ← ha]
          have hstep : cancelLoop id (a :: rest) needNotify c =
              (needNotify || c.mustWait (c.heap a).id, c.setStatus a .cancelled) := by
            simp only [cancelLoop, ← ha, or_true, if_true, setStatus_heap_id, mustWait_setStatus]
            exact if_pos hpos
          rw [hstep, hcov]
          exact ⟨Cancelled.setStatus c a, rfl, rfl, by simp⟩
        · have hcov : covered id (a :: rest) c = covered id rest c := by
            simp [covered, hid, ha]
          have hstep : cancelLoop id (a :: rest) needNotify c =
              cancelLoop id rest needNotify c := by
            simp only [cancelLoop, hid, ha, or_self, if_false]
          rw [hstep, hcov]
          exact ih needNotify c

theorem cancelOp_snd (id : Int) (c : OpCtl E) :
    (c.cancelOp id).2 =
      if (cancelLoop id c.operations false c).1 then
        (cancelLoop id c.operations false c).2.resetAndNotify
      else (cancelLoop id c.operations false c).2 := by
  unfold cancelOp
  split
  · rename_i h
    rw [if_pos h]
  · rename_i h
    rw [if_neg h]

@[simp] theorem cancelOp_operations (id : Int) (c : OpCtl E) :
    (c.cancelOp id).2.operations = c.operations := by
  obtain ⟨hc, -, -, -⟩ := cancelLoop_spec id c.operations false c
  rw [cancelOp_snd]
  split
  · exact hc.operations
  · exact hc.operations

/-! ### Everything but creating operations -/

/-- `c'` may come after `c` without an operation being created. -/
structure Kept (c c' : OpCtl E) : Prop where
  fresh : c'.fresh = c.fresh
  operations : c'.operations <:+ c.operations
  heap_id : ∀ a, (c'.heap a).id = (c.heap a).id

theorem Kept.refl (c : OpCtl E) : Kept c c := ⟨rfl, List.suffix_refl _, fun _ => rfl⟩

/-- `clear_current_op` after a write to the status of an operation. -/
theorem Kept.cancelStale (c : OpCtl E) (a : Nat) (st : OpStatus) :
    Kept c (c.setStatus a st).clearCurrentOp :=
  ⟨rfl, List.suffix_refl _, setStatus_heap_id c a st⟩

/-- In addition `current_op_` is either left alone or reset, and if it is reset then `op_cond_`
    is notified; what has been cancelled stays so. -/
structure Quiet (c c' : OpCtl E) : Prop extends Kept c c' where
  counting : ∀ a, (c.heap a).calcOpTimeout = true → (c'.heap a).calcOpTimeout = true
  cancelled : ∀ a, c.currentOp ≠ some a → (c.heap a).status = .cancelled →
    (c'.heap a).status = .cancelled
  current : c'.currentOp = c.currentOp ∧ c'.opWaiting = c.opWaiting ∨
    c'.currentOp = none ∧ c'.opWaiting = false

namespace Quiet

theorem refl (c : OpCtl E) : Quiet c c :=
  ⟨.refl c, fun _ h => h, fun _ _ h => h, .inl ⟨rfl, rfl⟩⟩

theorem trans {c₁ c₂ c₃ : OpCtl E} (h : Quiet c₁ c₂) (h' : Quiet c₂ c₃) : Quiet c₁ c₃ where
  fresh := h'.fresh.trans h.fresh
  operations := h'.operations.trans h.operations
  heap_id a := (h'.heap_id a).trans (h.heap_id a)
  counting a ha := h'.counting a (h.counting a ha)
  cancelled a hne ha := by
    apply h'.cancelled a _ (h.cancelled a hne ha)
    rcases h.current with ⟨hcur, -⟩ | ⟨hnone, -⟩
    · rw [hcur]
      exact hne
    · simp [hnone]
  current := by
    rcases h'.current with ⟨hcur, hwait⟩ | hreset
    · rw [hcur, hwait]
      exact h.current
    · exact .inr hreset

theorem modify (c : OpCtl E) (a : Nat) {f : Operation E → Operation E}
    (hid : ∀ op, (f op).id = op.id)
    (hcalc : ∀ op, op.calcOpTimeout = true → (f op).calcOpTimeout = true)
    (hst : c.currentOp ≠ some a → (c.heap a).status = .cancelled →
      (f (c.heap a)).status = .cancelled) :
    Quiet c (c.modify a f) where
  fresh := rfl
  operations := List.suffix_refl _
  heap_id b := by
    by_cases hb : b = a
    · subst hb
      rw [modify_heap_self, hid]
    · rw [modify_heap_ne c a f hb]
  counting b h := by
    by_cases hb : b = a
    · subst hb
      rw [modify_heap_self]
      exact hcalc _ h
    · rw [modify_heap_ne c a f hb]
      exact h
  cancelled b hne h := by
    by_cases hb : b = a
    · subst hb
      rw [modify_heap_self]
      exact hst hne h
    · rw [modify_heap_ne c a f hb]
      exact h
  current := .inl ⟨rfl, rfl⟩

theorem setStatus (c : OpCtl E) (a : Nat) (st : OpStatus)
    (h : c.currentOp = some a ∨ (c.heap a).status ≠ .cancelled) : Quiet c (c.setStatus a st) := by
  refine modify c a (fun _ => rfl) (fun _ hcalc => hcalc) ?_
  intro hne hst
  rcases h with hcur | hst'
  · exact absurd hcur hne
  · exact absurd hst hst'

theorem resetAndNotify (c : OpCtl E) : Quiet c c.resetAndNotify :=
  ⟨⟨rfl, List.suffix_refl _, fun _ => rfl⟩, fun _ h => h, fun _ _ h => h, .inr ⟨rfl, rfl⟩⟩

theorem setOpError (c : OpCtl E) (err : E) : Quiet c (c.setOpError err) := by
  cases h : c.currentOp with
  | none =>
      rw [setOpError_none h]
      exact refl c
  | some a =>
      rw [setOpError_some h]
      refine trans (modify c a ?_ ?_ ?_) (resetAndNotify _)
      · intro op
        rfl
      · intro op hcalc
        exact hcalc
      · intro hne
        exact absurd h hne

theorem finishOp (c : OpCtl E) : Quiet c c.finishOp := by
  cases h : c.currentOp with
  | none =>
      rw [finishOp_none h]
      exact refl c
  | some a =>
      simp only [OpCtl.finishOp, h]
      split
      · exact (setStatus c a _ (.inl h)).trans (resetAndNotify _)
      · exact resetAndNotify c

theorem cancelOp (c : OpCtl E) (id : Int) : Quiet c (c.cancelOp id).2 := by
  obtain ⟨hc, hcur, hwait, -⟩ := cancelLoop_spec id c.operations false c
  have hloop : Quiet c (cancelLoop id c.operations false c).2 :=
    ⟨⟨hc.fresh, ⟨[], by rw [hc.operations]; rfl⟩, hc.heap_id⟩,
      fun a ha => (hc.counting a).trans ha,
      fun a _ ha => by
        rw [hc.status]
        split
        · rfl
        · exact ha,
      .inl ⟨hcur, hwait⟩⟩
  rw [cancelOp_snd]
  split
  · exact hloop.trans (resetAndNotify _)
  · exact hloop

theorem removeFrontOp (c : OpCtl E) : Quiet c c.removeFrontOp :=
  ⟨⟨rfl, List.tail_suffix _, fun _ => rfl⟩, fun _ h => h, fun _ _ h => h, .inl ⟨rfl, rfl⟩⟩

theorem refreshOpTime (c : OpCtl E) (now : Int) (recv : Bool) :
    Quiet c (c.refreshOpTime now recv) := by
  unfold OpCtl.refreshOpTime
  split
  · exact refl c
  · exact modify c _ (fun _ => rfl) (fun _ _ => rfl) fun _ h => h

/-- Nobody makes an operation current this way. -/
theorem current_none {c c' : OpCtl E} (h : Quiet c c') (hcur : c.currentOp = none) :
    c'.currentOp = none := by
  rcases h.current with ⟨hsame, -⟩ | ⟨hnone, -⟩
  · rw [hsame, hcur]
  · exact hnone

/-- An operation that is still current was current before. -/
theorem current_some {c c' : OpCtl E} (h : Quiet c c') {a : Nat} (hcur : c'.currentOp = some a) :
    c.currentOp = some a := by
  rcases h.current with ⟨hsame, -⟩ | ⟨hnone, -⟩
  · rw [← hsame, hcur]
  · rw [hnone] at hcur
    cases hcur

end Quiet

/-! ### The ids of the operations -/

/-- Oldest first. -/
def opIds (c : OpCtl E) : List Int := c.operations.map fun a => (c.heap a).id

theorem Kept.opIds {c c' : OpCtl E} (h : Kept c c') : c'.opIds <:+ c.opIds := by
  have heq : c'.opIds = c'.operations.map fun a => (c.heap a).id := by
    unfold OpCtl.opIds
    simp only [h.heap_id]
  rw [heq]
  exact h.operations.map _

/-- Cancelling leaves finished operations finished. -/
theorem cancelOp_terminal {c : OpCtl E} (id : Int) {a : Nat}
    (h : (c.heap a).status.Terminal) : ((c.cancelOp id).2.heap a).status.Terminal := by
  obtain ⟨hc, -, -, -⟩ := cancelLoop_spec id c.operations false c
  have hloop : ((cancelLoop id c.operations false c).2.heap a).status.Terminal := by
    rw [hc.status]
    split
    · exact .inr (.inl rfl)
    · exact h
  rw [cancelOp_snd]
  split
  · exact hloop
  · exact hloop

/-- An operation that is the only one with its id is reached by `cancel_op`. -/
theorem mem_covered {c : OpCtl E} {id : Int} (hpos : 0 < id) {l : List Nat} {a : Nat}
    (hcount : (l.map fun b => (c.heap b).id).count id ≤ 1) (ha : a ∈ l)
    (hid : (c.heap a).id = id) : a ∈ covered id l c := by
  have hnot : ¬ id ≤ 0 := by omega
  rw [covered, if_neg hnot]
  induction l with
  | nil => cases ha
  | cons b rest ih =>
      rw [List.map_cons, List.count_cons] at hcount
      by_cases hb : (c.heap b).id = id
      · have hrest : id ∉ rest.map fun b => (c.heap b).id := by
          rw [← List.count_eq_zero]
          simp [hb] at hcount
          simpa using hcount
        rcases List.mem_cons.mp ha with rfl | ha
        · simp [hid]
        · exact absurd (List.mem_map.mpr ⟨a, ha, hid⟩) hrest
      · rcases List.mem_cons.mp ha with rfl | ha
        · exact absurd hid hb
        · have hfind : (b :: rest).find? (fun a => decide (id = (c.heap a).id)) =
              rest.find? fun a => decide (id = (c.heap a).id) := by
            apply List.find?_cons_of_neg
            simpa using fun heq => hb heq.symm
          rw [hfind]
          apply ih _ ha
          omega

theorem cancelOp_covered {c : OpCtl E} {id : Int} {a : Nat}
    (h : a ∈ covered id c.operations c) : ((c.cancelOp id).2.heap a).status = .cancelled := by
  obtain ⟨hc, -, -, -⟩ := cancelLoop_spec id c.operations false c
  have hloop : ((cancelLoop id c.operations false c).2.heap a).status = .cancelled := by
    rw [hc.status, if_pos h]
  rw [cancelOp_snd]
  split
  · exact hloop
  · exact hloop

/-- The operation in front, if there is one, has the first id. -/
theorem opIds_of_front {c : OpCtl E} {a : Nat} (h : c.frontOp = some a) :
    c.opIds = (c.heap a).id :: c.removeFrontOp.opIds := by
  unfold frontOp at h
  obtain ⟨rest, hops⟩ : ∃ rest, c.operations = a :: rest := by
    cases hops : c.operations with
    | nil => simp [hops] at h
    | cons b rest =>
        obtain rfl : b = a := by simpa [hops] using h
        exact ⟨rest, rfl⟩
  simp [OpCtl.opIds, removeFrontOp, hops]

/-- What has this id is not for the current operation. -/
def Foreign (c : OpCtl E) (id : Int) : Prop := ∀ a, c.currentOp = some a → (c.heap a).id ≠ id

instance (c : OpCtl E) (id : Int) : Decidable (c.Foreign id) :=
  decidable_of_iff (∀ a ∈ c.currentOp, (c.heap a).id ≠ id) Iff.rfl

theorem exists_current {c : OpCtl E} {id : Int} (h : ¬ c.Foreign id) :
    ∃ a, c.currentOp = some a ∧ (c.heap a).id = id := by
  simpa [Foreign] using h

/-! ### Timeouts -/

/-- From then on its time is counted. -/
theorem refreshOpTime_counting {c : OpCtl E} {now : Int} {recv : Bool} {a : Nat}
    (hcur : c.currentOp = some a) : ((c.refreshOpTime now recv).heap a).calcOpTimeout = true := by
  rw [refreshOpTime, hcur]
  simp

/-- The clock reaches a reading at which the cast of the elapsed time is this one. -/
theorem exists_elapsedMs (now since : Int) (n : Nat) :
    ∃ ns : Nat, elapsedMs (now + ns) since = BitVec.ofNat 32 n := by
  -- far enough in the future, a whole number of turns of the `uint32_t` away
  obtain ⟨m, hle, hm⟩ : ∃ m : Nat, now - since ≤ m ∧ m % 2 ^ 32 = n % 2 ^ 32 := by
    refine ⟨n + 2 ^ 32 * (now - since).toNat, ?_, Nat.add_mul_mod_self_left _ _ _⟩
    have hself := Int.self_le_toNat (now - since)
    omega
  refine ⟨(since - now + m * 1000000).toNat, ?_⟩
  have heq : now + (since - now + m * 1000000).toNat - since = m * 1000000 := by omega
  rw [elapsedMs, heq, Int.mul_tdiv_cancel _ (by decide)]
  apply BitVec.eq_of_toNat_eq
  rw [BitVec.ofInt_natCast, BitVec.toNat_ofNat, BitVec.toNat_ofNat, hm]

/-- The current operation times out some time, once its time is counted. -/
theorem exists_opTimeout (c : OpCtl E) (now : Int) {a : Nat} (hcur : c.currentOp = some a)
    (hcalc : (c.heap a).calcOpTimeout = true) : ∃ ns : Nat, c.opTimeout (now + ns) = 0 := by
  obtain ⟨ns, hns⟩ := exists_elapsedMs now (c.heap a).beginTimepoint 20001
  refine ⟨ns, ?_⟩
  rw [opTimeout, current, hcur]
  simp only [Option.map_some, hcalc, Bool.true_eq_false, if_false, hns]
  rfl

end OpCtl

end OpenVoice
