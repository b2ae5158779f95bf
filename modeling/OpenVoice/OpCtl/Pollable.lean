import OpenVoice.OpCtl.Lined

/-!
# When `poll` has something to return

A thread in `poll` sleeps in `resp_cond_.wait` as long as the operation in front neither is
finished nor has a result to pop.  An operation that is not current is finished, so what can
make `poll` return is the current operation, and only if it is the only one.
-/

namespace OpenVoice

variable {E T A : Type}

/-- `poll` returns: the operation in front is cancelled or failed, or there is a result to pop. -/
def pollable (c : OpCtl E) (q : Streams T A) : Bool :=
  match c.frontOp with
  | none => false
  | some a =>
      (c.heap a).status = .cancelled || (c.heap a).status = .error || q.available

/-- Something to return that was not there before comes with a notification; `n` and `m` count
    the notifications. -/
def Announced (before after : Bool) (n m : Nat) : Prop := before = false → after = true → n < m

section Announced

variable {before after : Bool} {n m : Nat}

theorem Announced.same (h : after = before) : Announced before after n m := by
  intro hbefore hafter
  rw [h, hbefore] at hafter
  cases hafter

theorem Announced.notified (h : m = n + 1) : Announced before after n m :=
  fun _ _ => Nat.lt_of_lt_of_eq (Nat.lt_succ_self _) h.symm

end Announced

section Pollable

variable {c c' : OpCtl E} {q q' : Streams T A} {a : Nat}

theorem pollable_of_nil (h : c.operations = []) : pollable c q = false := by
  simp [pollable, OpCtl.frontOp, h]

theorem pollable_of_front (h : c.frontOp = some a) :
    pollable c q =
      ((c.heap a).status = .cancelled || (c.heap a).status = .error || q.available) := by
  simp [pollable, h]

/-- The times of the operations and what is current do not matter. -/
theorem pollable_congr (hops : c'.operations = c.operations)
    (hst : ∀ b, (c'.heap b).status = (c.heap b).status) (hq : q'.records = q.records) :
    pollable c' q' = pollable c q := by
  simp only [pollable, OpCtl.frontOp, hops, hst, Streams.available_eq, hq]

theorem pollable_refreshOpTime (now : Int) (recv : Bool) :
    pollable (c.refreshOpTime now recv) q = pollable c q :=
  pollable_congr (OpCtl.refreshOpTime_operations c now recv)
    (fun b => (OpCtl.refreshOpTime_heap c now recv b).2) rfl

/-- A stream that is started in an empty queue. -/
theorem records_start_nil (h : q.records = []) (id : Int) :
    (q.start id).2.records = [.opened id] := by
  rw [Streams.start_records, h, Fifo.start_of_notMem (by simp [Fifo.ids])]
  rfl

/-- Data for the only stream can be popped. -/
theorem available_push {r : Record T A} (h : q.records = [r]) (hopen : r.state = .uncompleted)
    (d : Sp T) : (q.stream r.id d).2.available = true := by
  have hfind : Fifo.find r.id q.records = some r := by simp [h, Fifo.find]
  rw [Streams.available_eq, Streams.stream_records, Fifo.stream_of_uncompleted d hfind hopen, h]
  simp [Fifo.amend, Fifo.available, Record.push]

end Pollable

namespace Lined

variable {c : OpCtl E} {q : Streams T A} {v : List (Int × Bool)} {a : Nat}

/-- A finished operation can be polled. -/
theorem pollable_of_ne_current (h : Lined c q v) (hfront : c.frontOp = some a)
    (hcur : c.currentOp ≠ some a) : pollable c q = true := by
  obtain ⟨done, live, hal, -⟩ := h
  rw [pollable_of_front hfront]
  rcases hal.front_eq hfront with ⟨x, rest, rfl, -, -, hst⟩ | ⟨-, s, rfl, rfl, -⟩
  · rw [hst]
    rcases hal.done_ok x List.mem_cons_self with hx | hx | ⟨hx, r, hr, hstate⟩
    · simp [hx]
    · simp [hx]
    · have hav : q.available = true := by
        rw [Streams.available_eq, hal.streams, slots_cons, List.filterMap_cons, hr]
        rcases hstate with hcompleted | ⟨e, herror⟩
        · simp [Fifo.available, hcompleted]
        · simp [Fifo.available, herror]
      simp [hx, hav]
  · exact absurd hal.current hcur

/-- If there is nothing to poll there is nothing but the current operation. -/
theorem operations_of_not_pollable (h : Lined c q v) (hpoll : pollable c q = false) :
    c.operations = [] ∨ ∃ a, c.operations = [a] ∧ c.currentOp = some a := by
  cases hops : c.operations with
  | nil => exact .inl rfl
  | cons a rest =>
      have hfront : c.frontOp = some a := by rw [OpCtl.frontOp, hops, List.head?_cons]
      have hcur : c.currentOp = some a := by
        by_contra hne
        rw [h.pollable_of_ne_current hfront hne] at hpoll
        cases hpoll
      obtain ⟨l, hl⟩ := h.current_last hcur
      obtain ⟨done, live, hal, -⟩ := h
      have hnodup : c.operations.Nodup := hal.operations ▸ hal.addrs
      cases l with
      | nil =>
          rw [hops] at hl
          exact .inr ⟨a, hl, hcur⟩
      | cons b l =>
          rw [hl] at hnodup
          obtain rfl : a = b := by
            rw [hl] at hops
            exact (List.cons.inj hops).1.symm
          rw [List.cons_append, List.nodup_cons] at hnodup
          exact absurd (List.mem_append_right _ List.mem_cons_self) hnodup.1

/-- An operation that is started has nothing to poll yet. -/
theorem not_pollable_newOp [Inhabited E] (h : Lined c q v) (hcur : c.currentOp = none)
    (hpoll : pollable c q = false) (now id : Int) :
    pollable (c.newOp now id .start) q = false := by
  rcases h.operations_of_not_pollable hpoll with hnil | ⟨a, -, ha⟩
  · obtain ⟨done, live, hal, -⟩ := h
    have hslots : slots done live = [] := by
      rw [hal.operations] at hnil
      exact List.map_eq_nil_iff.mp hnil
    have hrecords : q.records = [] := by
      rw [hal.streams, hslots, List.filterMap_nil]
    have hfront : (c.newOp now id .start).frontOp = some c.fresh := by
      simp [OpCtl.frontOp, hnil]
    rw [pollable_of_front hfront, Streams.available_eq, hrecords]
    simp [Fifo.available]
  · rw [hcur] at ha
    cases ha

/-- The queue when there is only the current operation. -/
theorem records_single (h : Lined c q v) (hops : c.operations = [a])
    (hcur : c.currentOp = some a) :
    (c.heap a).status = .start ∧ q.records = [] ∨
      (c.heap a).status = .streaming ∧
        ∃ r, q.records = [r] ∧ r.id = (c.heap a).id ∧ r.state = .uncompleted := by
  obtain ⟨done, live, hal, -⟩ := h
  obtain ⟨x, rfl, rfl, hid, hst⟩ := current_live hal hcur
  have hdone : done = [] := by
    have hlen := congrArg List.length (hal.operations.symm.trans hops)
    rw [List.length_map, slots_some, List.length_append, List.length_singleton,
      List.length_singleton] at hlen
    exact List.length_eq_zero_iff.mp (Nat.succ.inj hlen)
  subst hdone
  have hrecords : q.records = x.stream.toList := by
    rw [hal.streams, slots_some, List.nil_append, List.filterMap_cons, List.filterMap_nil]
    cases x.stream <;> rfl
  rw [hst, hid, hrecords]
  rcases hal.live_ok x rfl with ⟨hstart, hnone⟩ | ⟨hstream, r, hr, hopen⟩
  · exact .inl ⟨hstart, by rw [hnone, Option.toList_none]⟩
  · exact .inr ⟨hstream, r, by rw [hr, Option.toList_some], hal.ids x (by simp) r hr, hopen⟩

/-- `cancel_op` notifies when it cancels the operation a thread in `poll` waits for. -/
theorem cancelOp_notifies (h : Lined c q v) {id : Int} (hpoll : pollable c q = false)
    (hpoll' : pollable (c.cancelOp id).2 q = true) : (c.cancelOp id).1 = true := by
  rcases h.operations_of_not_pollable hpoll with hnil | ⟨a, hops, hcur⟩
  · rw [pollable_of_nil (by rw [OpCtl.cancelOp_operations, hnil])] at hpoll'
    cases hpoll'
  · obtain ⟨hc, -, -, hflag⟩ := OpCtl.cancelLoop_spec id c.operations false c
    by_cases hid : id ≤ 0 ∨ id = (c.heap a).id
    · -- the only operation is cancelled, and it is the current one
      have hcov : OpCtl.covered id c.operations c = [a] := by
        rw [hops, OpCtl.covered]
        split
        · rfl
        · rename_i hpos
          simp [hid.resolve_left hpos]
      have hnotify : (OpCtl.cancelLoop id c.operations false c).1 = true := by
        rw [hflag, hcov]
        simp [OpCtl.mustWait, hcur]
      rw [OpCtl.cancelOp, if_pos hnotify]
    · -- nothing is cancelled
      have hcov : OpCtl.covered id c.operations c = [] := by
        rw [hops, OpCtl.covered, if_neg fun hle => hid (.inl hle)]
        have hne : id ≠ (c.heap a).id := fun heq => hid (.inr heq)
        simp [hne]
      have hstatus : ∀ b, ((c.cancelOp id).2.heap b).status = (c.heap b).status := by
        intro b
        have hloop : ((OpCtl.cancelLoop id c.operations false c).2.heap b).status
            = (c.heap b).status := by
          rw [hc.status, hcov, if_neg List.not_mem_nil]
        rw [OpCtl.cancelOp_snd]
        split
        · exact hloop
        · exact hloop
      rw [pollable_congr (OpCtl.cancelOp_operations id c) hstatus rfl, hpoll] at hpoll'
      cases hpoll'

end Lined

end OpenVoice
