import OpenVoice.OpCtl.Model
import OpenVoice.StreamQueue.Streams
import Mathlib.Data.List.Nodup

/-!
# Operations and their result streams

`operations_` of the controller and `responses_` of its owner are two queues that `poll` reads
in step: the stream in front of `responses_` has to be the one of the operation in front of
`operations_`.  `Aligned` describes both queues by one list of slots, one for each operation,
that says which stream the operation has.  All slots but the last are finished; the last one is
live when its operation is `current_op_`.

Every critical section of the send and response threads and of `cancel` and `poll` is one of the
steps of this file.
-/

namespace OpenVoice

variable {E T A : Type}

/-- An operation, by what the invariant needs to know of it, with its stream. -/
structure Slot (T A : Type) where
  addr : Nat
  id : Int
  status : OpStatus
  stream : Option (Record T A)

/-- A finished operation.  One that ended has a stream, closed by `end` or by a server error. -/
def Slot.Done (s : Slot T A) : Prop :=
  s.status = .cancelled ∨ s.status = .error ∨
    s.status = .end_ ∧ ∃ r, s.stream = some r ∧ (r.state = .completed ∨ ∃ e, r.state = .error e)

/-- An operation in progress: its stream is opened by the first response. -/
def Slot.Live (s : Slot T A) : Prop :=
  s.status = .start ∧ s.stream = none ∨
    s.status = .streaming ∧ ∃ r, s.stream = some r ∧ r.state = .uncompleted

/-- All slots, oldest first. -/
def slots (done : List (Slot T A)) (live : Option (Slot T A)) : List (Slot T A) :=
  done ++ live.toList

/-- The controller and the streams of its owner are what the slots say. -/
structure Aligned (c : OpCtl E) (rs : List (Record T A)) (done : List (Slot T A))
    (live : Option (Slot T A)) : Prop where
  operations : c.operations = (slots done live).map Slot.addr
  current : c.currentOp = live.map Slot.addr
  streams : rs = (slots done live).filterMap Slot.stream
  heap : ∀ s ∈ slots done live, (c.heap s.addr).id = s.id ∧ (c.heap s.addr).status = s.status
  addrs : ((slots done live).map Slot.addr).Nodup
  bound : ∀ s ∈ slots done live, s.addr < c.fresh
  ids : ∀ s ∈ slots done live, ∀ r, s.stream = some r → r.id = s.id
  done_ok : ∀ s ∈ done, s.Done
  live_ok : ∀ s, live = some s → s.Live
  /-- Of two operations with one id only the older may have the stream. -/
  twins : done.Pairwise fun x y => x.id = y.id → y.stream = none
  live_new : ∀ s, live = some s → ∀ x ∈ done, x.id ≠ s.id

@[simp] theorem slots_none (done : List (Slot T A)) : slots done none = done := by simp [slots]

@[simp] theorem slots_some (done : List (Slot T A)) (s : Slot T A) :
    slots done (some s) = done ++ [s] := rfl

theorem slots_cons (x : Slot T A) (done : List (Slot T A)) (live : Option (Slot T A)) :
    slots (x :: done) live = x :: slots done live := rfl

namespace Aligned

variable {c c' : OpCtl E} {rs rs' : List (Record T A)} {done : List (Slot T A)}
  {live : Option (Slot T A)} {s : Slot T A}

theorem init [Inhabited E] : Aligned (OpCtl.init : OpCtl E) ([] : List (Record T A)) [] none where
  operations := rfl
  current := rfl
  streams := rfl
  heap := by simp
  addrs := by simp
  bound := by simp
  ids := by simp
  done_ok := by simp
  live_ok := by simp
  twins := .nil
  live_new := by simp

/-! ### Creating operations -/

/-- A new slot behind finished ones. -/
theorem fresh_ne (h : Aligned c rs done live) {x : Slot T A} (hx : x ∈ slots done live) :
    x.addr ≠ c.fresh := Nat.ne_of_lt (h.bound x hx)

theorem newOp_cancelled [Inhabited E] (h : Aligned c rs done none) (now id : Int) :
    Aligned (c.newOp now id .cancelled) rs (done ++ [⟨c.fresh, id, .cancelled, none⟩]) none where
  operations := by simp [h.operations]
  current := by simp [h.current]
  streams := by simp [h.streams]
  heap := by
    intro x hx
    rw [slots_none, List.mem_append, List.mem_singleton] at hx
    rcases hx with hx | rfl
    · have hx' : x ∈ slots done none := by simpa using hx
      rw [OpCtl.newOp_heap_ne _ _ _ _ (h.fresh_ne hx')]
      exact h.heap x hx'
    · simp
  addrs := by
    have hnd := h.addrs
    simp only [slots_none] at hnd ⊢
    rw [List.map_append, List.nodup_append']
    refine ⟨hnd, by simp, ?_⟩
    intro a ha ha'
    obtain ⟨x, hx, rfl⟩ := List.mem_map.mp ha
    exact h.fresh_ne (by simpa using hx) (by simpa using ha')
  bound := by
    intro x hx
    rw [slots_none, List.mem_append, List.mem_singleton] at hx
    rcases hx with hx | rfl
    · exact Nat.lt_succ_of_lt (h.bound x (by simpa using hx))
    · exact Nat.lt_succ_self _
  ids := by
    intro x hx r hr
    rw [slots_none, List.mem_append, List.mem_singleton] at hx
    rcases hx with hx | rfl
    · exact h.ids x (by simpa using hx) r hr
    · cases hr
  done_ok := by
    intro x hx
    rcases List.mem_append.mp hx with hx | hx
    · exact h.done_ok x hx
    · rw [List.mem_singleton.mp hx]
      exact .inl rfl
  live_ok := by simp
  twins := by
    rw [List.pairwise_append]
    refine ⟨h.twins, by simp, ?_⟩
    intro x _ y hy _
    rw [List.mem_singleton.mp hy]
  live_new := by simp

theorem newOp_start [Inhabited E] (h : Aligned c rs done none) (now : Int) {id : Int}
    (hid : ∀ x ∈ done, x.id ≠ id) :
    Aligned (c.newOp now id .start) rs done (some ⟨c.fresh, id, .start, none⟩) where
  operations := by simp [h.operations]
  current := by simp
  streams := by simp [h.streams]
  heap := by
    intro x hx
    rw [slots_some, List.mem_append, List.mem_singleton] at hx
    rcases hx with hx | rfl
    · have hx' : x ∈ slots done none := by simpa using hx
      rw [OpCtl.newOp_heap_ne _ _ _ _ (h.fresh_ne hx')]
      exact h.heap x hx'
    · simp
  addrs := by
    have hnd := h.addrs
    simp only [slots_none, slots_some] at hnd ⊢
    rw [List.map_append, List.nodup_append']
    refine ⟨hnd, by simp, ?_⟩
    intro a ha ha'
    obtain ⟨x, hx, rfl⟩ := List.mem_map.mp ha
    exact h.fresh_ne (by simpa using hx) (by simpa using ha')
  bound := by
    intro x hx
    rw [slots_some, List.mem_append, List.mem_singleton] at hx
    rcases hx with hx | rfl
    · exact Nat.lt_succ_of_lt (h.bound x (by simpa using hx))
    · exact Nat.lt_succ_self _
  ids := by
    intro x hx r hr
    rw [slots_some, List.mem_append, List.mem_singleton] at hx
    rcases hx with hx | rfl
    · exact h.ids x (by simpa using hx) r hr
    · cases hr
  done_ok := h.done_ok
  live_ok := by
    rintro _ ⟨⟩
    exact .inl ⟨rfl, rfl⟩
  twins := h.twins
  live_new := by
    rintro _ ⟨⟩
    exact hid

/-! ### The live operation -/

/-- The address of the live slot is not one of a finished slot. -/
theorem live_addr_ne (h : Aligned c rs done (some s)) {x : Slot T A} (hx : x ∈ done) :
    x.addr ≠ s.addr := by
  have hnd := h.addrs
  rw [slots_some, List.map_append, List.nodup_append'] at hnd
  intro heq
  exact hnd.2.2 (List.mem_map.mpr ⟨x, hx, rfl⟩) (by simp [heq])

theorem heap_live (h : Aligned c rs done (some s)) :
    (c.heap s.addr).id = s.id ∧ (c.heap s.addr).status = s.status :=
  h.heap s (by simp)

/-- The live operation goes on: its slot is rewritten. -/
theorem replaceLive (h : Aligned c rs done (some s)) {t : Slot T A} (haddr : t.addr = s.addr)
    (hid : t.id = s.id) (ht : t.Live) (hids : ∀ r, t.stream = some r → r.id = t.id)
    (hops : c'.operations = c.operations) (hfresh : c'.fresh = c.fresh)
    (hcur : c'.currentOp = c.currentOp)
    (hheap : ∀ a, a ≠ s.addr → c'.heap a = c.heap a)
    (hnew : (c'.heap s.addr).id = t.id ∧ (c'.heap s.addr).status = t.status)
    (hrs : rs' = done.filterMap Slot.stream ++ t.stream.toList) :
    Aligned c' rs' done (some t) where
  operations := by rw [hops, h.operations]; simp [haddr]
  current := by rw [hcur, h.current]; simp [haddr]
  streams := by
    rw [hrs, slots_some, List.filterMap_append]
    cases hst : t.stream <;> simp [hst]
  heap := by
    intro x hx
    rw [slots_some, List.mem_append, List.mem_singleton] at hx
    rcases hx with hx | rfl
    · rw [hheap _ (h.live_addr_ne hx)]
      exact h.heap x (by simp [hx])
    · rw [haddr]
      exact hnew
  addrs := by
    have hnd := h.addrs
    rw [slots_some, List.map_append] at hnd ⊢
    simpa [haddr] using hnd
  bound := by
    intro x hx
    rw [slots_some, List.mem_append, List.mem_singleton] at hx
    rw [hfresh]
    rcases hx with hx | rfl
    · exact h.bound x (by simp [hx])
    · rw [haddr]
      exact h.bound s (by simp)
  ids := by
    intro x hx r hr
    rw [slots_some, List.mem_append, List.mem_singleton] at hx
    rcases hx with hx | rfl
    · exact h.ids x (by simp [hx]) r hr
    · exact hids r hr
  done_ok := h.done_ok
  live_ok := by
    rintro _ ⟨⟩
    exact ht
  twins := h.twins
  live_new := by
    rintro _ ⟨⟩ x hx
    rw [hid]
    exact h.live_new s rfl x hx

/-- The live operation is finished: its slot joins the others. -/
theorem settle (h : Aligned c rs done (some s)) {t : Slot T A} (haddr : t.addr = s.addr)
    (hid : t.id = s.id) (ht : t.Done) (hids : ∀ r, t.stream = some r → r.id = t.id)
    (hops : c'.operations = c.operations) (hfresh : c'.fresh = c.fresh)
    (hcur : c'.currentOp = none)
    (hheap : ∀ a, a ≠ s.addr → c'.heap a = c.heap a)
    (hnew : (c'.heap s.addr).id = t.id ∧ (c'.heap s.addr).status = t.status)
    (hrs : rs' = done.filterMap Slot.stream ++ t.stream.toList) :
    Aligned c' rs' (done ++ [t]) none where
  operations := by rw [hops, h.operations]; simp [haddr]
  current := by rw [hcur]; rfl
  streams := by
    rw [hrs, slots_none, List.filterMap_append]
    cases hst : t.stream <;> simp [hst]
  heap := by
    intro x hx
    rw [slots_none, List.mem_append, List.mem_singleton] at hx
    rcases hx with hx | rfl
    · rw [hheap _ (h.live_addr_ne hx)]
      exact h.heap x (by simp [hx])
    · rw [haddr]
      exact hnew
  addrs := by
    have hnd := h.addrs
    rw [slots_some, List.map_append] at hnd
    simpa [haddr] using hnd
  bound := by
    intro x hx
    rw [slots_none, List.mem_append, List.mem_singleton] at hx
    rw [hfresh]
    rcases hx with hx | rfl
    · exact h.bound x (by simp [hx])
    · rw [haddr]
      exact h.bound s (by simp)
  ids := by
    intro x hx r hr
    rw [slots_none, List.mem_append, List.mem_singleton] at hx
    rcases hx with hx | rfl
    · exact h.ids x (by simp [hx]) r hr
    · exact hids r hr
  done_ok := by
    intro x hx
    rcases List.mem_append.mp hx with hx | hx
    · exact h.done_ok x hx
    · rw [List.mem_singleton.mp hx]
      exact ht
  live_ok := by simp
  twins := by
    rw [List.pairwise_append]
    refine ⟨h.twins, by simp, ?_⟩
    intro x hx y hy heq
    rw [List.mem_singleton.mp hy, hid] at heq
    exact absurd heq (h.live_new s rfl x hx)
  live_new := by simp

end Aligned

end OpenVoice
