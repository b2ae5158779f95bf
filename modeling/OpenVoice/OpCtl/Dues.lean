import OpenVoice.OpCtl.Lined
import OpenVoice.StreamQueue.Dues

/-!
# What is still to be polled of an operation

An operation that is among `operations_` is owed what its stream is owed; nothing more is polled
of one that `poll` has removed.  On aligned queues a poll serves the operation in front, a
response adds to the current operation, and what the other operations are owed stays as it is, as
long as they are neither cancelled nor failed.
-/

namespace OpenVoice

variable {E T A : Type}

namespace OpCtl

/-- Neither cancelled nor failed. -/
def Intact (c : OpCtl E) (a : Nat) : Prop :=
  (c.heap a).status ≠ .cancelled ∧ (c.heap a).status ≠ .error

instance (c : OpCtl E) (a : Nat) : Decidable (c.Intact a) :=
  inferInstanceAs (Decidable (_ ∧ _))

/-- What is still to be polled of the operation at `a`. -/
def dues (c : OpCtl E) (q : Streams T A) (a : Nat) : List (Piece T) :=
  if a ∈ c.operations then Fifo.dues (c.heap a).id q.records else []

section Dues

variable {c c' : OpCtl E} {q q' : Streams T A} {a b : Nat}

theorem dues_of_mem (h : a ∈ c.operations) : c.dues q a = Fifo.dues (c.heap a).id q.records :=
  if_pos h

theorem dues_of_notMem (h : a ∉ c.operations) : c.dues q a = [] := if_neg h

theorem dues_congr (hops : c'.operations = c.operations) (hid : (c'.heap a).id = (c.heap a).id)
    (hfind : Fifo.find (c.heap a).id q'.records = Fifo.find (c.heap a).id q.records) :
    c'.dues q' a = c.dues q a := by
  rw [dues, dues, hops, hid, Fifo.dues_congr hfind]

/-- `remove_front_op` is about the operation in front only. -/
theorem dues_removeFrontOp (ha : c.frontOp = some a) (hne : b ≠ a) :
    c.removeFrontOp.dues q b = c.dues q b := by
  obtain ⟨rest, hops⟩ : ∃ rest, c.operations = a :: rest := List.head?_eq_some_iff.mp ha
  have hmem : b ∈ c.removeFrontOp.operations ↔ b ∈ c.operations := by
    simp [removeFrontOp, hops, hne]
  by_cases hb : b ∈ c.operations
  · rw [dues_of_mem hb, dues_of_mem (hmem.mpr hb)]
    rfl
  · rw [dues_of_notMem hb, dues_of_notMem (mt hmem.mp hb)]

end Dues

/-! ### Steps that create and remove nothing -/

/-- The operations stay, what is neither cancelled nor failed was so before, and an operation fails
    only while it is current. -/
structure Steady (c c' : OpCtl E) : Prop where
  operations : c'.operations = c.operations
  fresh : c'.fresh = c.fresh
  heap_id : ∀ a, (c'.heap a).id = (c.heap a).id
  intact : ∀ a, c'.Intact a → c.Intact a
  failed : ∀ a, (c'.heap a).status = .error →
    (c.heap a).status = .error ∨ c.currentOp = some a
  current : ∀ a, c'.currentOp = some a → c.currentOp = some a ∧
    (c'.heap a).status = (c.heap a).status

namespace Steady

theorem refl (c : OpCtl E) : Steady c c where
  operations := rfl
  fresh := rfl
  heap_id _ := rfl
  intact _ h := h
  failed _ h := .inl h
  current _ h := ⟨h, rfl⟩

/-- The operation at `a` is changed, and nothing is current afterwards. -/
theorem settle {c c' : OpCtl E} {a : Nat} (hops : c'.operations = c.operations)
    (hfresh : c'.fresh = c.fresh) (hheap : ∀ b, b ≠ a → c'.heap b = c.heap b)
    (hid : (c'.heap a).id = (c.heap a).id) (hst : c'.Intact a → c.Intact a)
    (hfail : (c'.heap a).status = .error → c.currentOp = some a)
    (hcur : c'.currentOp = none) : Steady c c' where
  operations := hops
  fresh := hfresh
  heap_id b := by
    by_cases hb : b = a
    · subst hb
      exact hid
    · rw [hheap b hb]
  intact b hb := by
    by_cases hba : b = a
    · subst hba
      exact hst hb
    · rw [Intact, hheap b hba] at hb
      exact hb
  failed b hb := by
    by_cases hba : b = a
    · subst hba
      exact .inr (hfail hb)
    · rw [hheap b hba] at hb
      exact .inl hb
  current b hb := by
    rw [hcur] at hb
    cases hb

theorem setOpError (c : OpCtl E) (err : E) : Steady c (c.setOpError err) := by
  cases hcur : c.currentOp with
  | none =>
      rw [setOpError_none hcur]
      exact refl c
  | some a =>
      rw [setOpError_some hcur]
      refine settle (a := a) rfl rfl ?_ (by simp) ?_ (fun _ => hcur) rfl
      · intro b hb
        rw [resetAndNotify_heap, modify_heap_ne c a _ hb]
      · intro h
        exact absurd (by simp) h.2

theorem cancelStale (c : OpCtl E) (a : Nat) :
    Steady c (c.setStatus a .cancelled).clearCurrentOp := by
  refine settle rfl rfl (fun b hb => setStatus_heap_ne c a _ hb) (setStatus_heap_id c a _ a) ?_ ?_
    rfl
  · intro h
    exact absurd (by simp [clearCurrentOp]) h.1
  · intro h
    simp [clearCurrentOp] at h

theorem finishOp (c : OpCtl E) : Steady c c.finishOp := by
  cases hcur : c.currentOp with
  | none =>
      rw [finishOp_none hcur]
      exact refl c
  | some a =>
      by_cases hst : (c.heap a).status ≠ .cancelled ∧ (c.heap a).status ≠ .error
      · rw [finishOp_some hcur hst.1 hst.2]
        exact settle rfl rfl (fun b hb => setStatus_heap_ne c a _ hb) (setStatus_heap_id c a _ a)
          (fun _ => hst) (fun _ => hcur) rfl
      · have heq : c.finishOp = c.resetAndNotify := by
          simp only [OpCtl.finishOp, hcur, if_neg hst]
        rw [heq]
        exact ⟨rfl, rfl, fun _ => rfl, fun _ h => h, fun _ h => .inl h, fun _ h => by cases h⟩

theorem refreshOpTime (c : OpCtl E) (now : Int) (recv : Bool) :
    Steady c (c.refreshOpTime now recv) where
  operations := refreshOpTime_operations c now recv
  fresh := refreshOpTime_fresh c now recv
  heap_id a := (refreshOpTime_heap c now recv a).1
  intact a h := by
    rw [Intact, (refreshOpTime_heap c now recv a).2] at h
    exact h
  failed a h := by
    rw [(refreshOpTime_heap c now recv a).2] at h
    exact .inl h
  current a h := by
    rw [refreshOpTime_currentOp] at h
    exact ⟨h, (refreshOpTime_heap c now recv a).2⟩

theorem cancelOp (c : OpCtl E) (id : Int) : Steady c (c.cancelOp id).2 := by
  obtain ⟨hc, hcur, -, hflag⟩ := cancelLoop_spec id c.operations false c
  have hintact : ∀ a, (cancelLoop id c.operations false c).2.Intact a → c.Intact a := by
    intro a ha
    rw [Intact, hc.status] at ha
    split at ha
    · exact absurd rfl ha.1
    · exact ha
  have hfailed : ∀ a, ((cancelLoop id c.operations false c).2.heap a).status = .error →
      (c.heap a).status = .error ∨ c.currentOp = some a := by
    intro a ha
    rw [hc.status] at ha
    split at ha
    · cases ha
    · exact .inl ha
  rw [cancelOp_snd]
  split
  · exact ⟨hc.operations, hc.fresh, hc.heap_id, hintact, hfailed, fun _ h => by cases h⟩
  · rename_i hno
    refine ⟨hc.operations, hc.fresh, hc.heap_id, hintact, hfailed, ?_⟩
    intro a ha
    rw [hcur] at ha
    -- the current operation is not among those that have been cancelled, or it would be reset
    have hnot : a ∉ covered id c.operations c := by
      intro hmem
      apply hno
      rw [hflag, Bool.false_or, List.any_eq_true]
      exact ⟨a, hmem, by simp [mustWait, ha]⟩
    refine ⟨ha, ?_⟩
    rw [hc.status, if_neg hnot]

/-- What is owed depends on nothing else. -/
theorem dues_eq {c c' : OpCtl E} (h : Steady c c') {q q' : Streams T A}
    (hq : q'.records = q.records) (a : Nat) : c'.dues q' a = c.dues q a :=
  dues_congr h.operations (h.heap_id a) (by rw [hq])

end Steady

/-! ### What is said of a poll and of a response -/

section Frames

variable {c c' : OpCtl E} {q q' : Streams T A} {a : Nat}

/-- What the intact operations other than `a` are owed stays as it is. -/
def Spares (a : Nat) (c : OpCtl E) (q : Streams T A) (c' : OpCtl E) (q' : Streams T A) : Prop :=
  ∀ b, b ≠ a → c.Intact b → c'.dues q' b = c.dues q b

theorem Spares.removeFrontOp (h : Spares a c q c q') (ha : c.frontOp = some a) :
    Spares a c q c.removeFrontOp q' := by
  intro b hne hint
  rw [dues_removeFrontOp ha hne]
  exact h b hne hint

/-- A pop serves the first piece that is owed to the operation at `a`. -/
structure Takes (p : Piece T) (a : Nat) (c : OpCtl E) (q : Streams T A) (c' : OpCtl E)
    (q' : Streams T A) : Prop where
  front : c.dues q a = p :: c'.dues q' a
  others : Spares a c q c' q'

/-- Only the operation at `a` and the stream `id` change. -/
structure Confined (a : Nat) (id : Int) (c : OpCtl E) (q : Streams T A) (c' : OpCtl E)
    (q' : Streams T A) : Prop where
  operations : c'.operations = c.operations
  fresh : c'.fresh = c.fresh
  heap : ∀ b, b ≠ a → c'.heap b = c.heap b
  heap_id : (c'.heap a).id = (c.heap a).id
  find : ∀ i, i ≠ id → Fifo.find i q'.records = Fifo.find i q.records

namespace Confined

variable {id : Int} {c₁ c₂ : OpCtl E} {q₁ q₂ : Streams T A}

theorem refl (c : OpCtl E) (q : Streams T A) : Confined a id c q c q where
  operations := rfl
  fresh := rfl
  heap _ _ := rfl
  heap_id := rfl
  find _ _ := rfl

theorem trans (h : Confined a id c q c₁ q₁) (h' : Confined a id c₁ q₁ c₂ q₂) :
    Confined a id c q c₂ q₂ where
  operations := h'.operations.trans h.operations
  fresh := h'.fresh.trans h.fresh
  heap b hb := (h'.heap b hb).trans (h.heap b hb)
  heap_id := h'.heap_id.trans h.heap_id
  find i hi := (h'.find i hi).trans (h.find i hi)

theorem setStatus (st : OpStatus) : Confined a id c q (c.setStatus a st) q where
  operations := rfl
  fresh := rfl
  heap _ hb := setStatus_heap_ne c a st hb
  heap_id := setStatus_heap_id c a st a
  find _ _ := rfl

theorem finishOp (hcur : c.currentOp = some a) : Confined a id c q c.finishOp q := by
  have heq : c.finishOp = (c.setStatus a .end_).resetAndNotify ∨
      c.finishOp = c.resetAndNotify := by
    simp only [OpCtl.finishOp, hcur]
    split
    · exact .inl rfl
    · exact .inr rfl
  rcases heq with heq | heq
  · rw [heq]
    exact ⟨rfl, rfl, fun _ hb => setStatus_heap_ne c a _ hb, setStatus_heap_id c a _ a,
      fun _ _ => rfl⟩
  · rw [heq]
    exact ⟨rfl, rfl, fun _ _ => rfl, rfl, fun _ _ => rfl⟩

/-- A call on the stream. -/
theorem call (cl : Call T A) (hcl : cl.target = some id)
    (hq : q'.records = (Fifo.call q.records cl).2) : Confined a id c q c q' where
  operations := rfl
  fresh := rfl
  heap _ _ := rfl
  heap_id := rfl
  find i hi := by
    rw [hq]
    exact Fifo.find_call_of_ne q.records hcl hi

theorem start : Confined a id c q c (q.start id).2 :=
  call (.start id) rfl (Streams.start_records q id)

theorem stream (d : Sp T) : Confined a id c q c (q.stream id d).2 :=
  call (.stream id d) rfl (Streams.stream_records q id d)

theorem end_ (d : Sp T) : Confined a id c q c (q.end_ id d).2 :=
  call (.end_ id d) rfl (Streams.end_records q id d)

theorem erase (err : BitVec 32) : Confined a id c q c (q.erase id err).2 :=
  call (.erase id err) rfl (Streams.erase_records q id err)

theorem id_eq (h : Confined a id c q c' q') (b : Nat) : (c'.heap b).id = (c.heap b).id := by
  by_cases hb : b = a
  · rw [hb]
    exact h.heap_id
  · rw [h.heap b hb]

/-- What the operation at `a` is owed depends on its stream only. -/
theorem dues_eq (h : Confined a id c q c' q') (q₁ : Streams T A) : c'.dues q₁ a = c.dues q₁ a :=
  dues_congr h.operations h.heap_id rfl

end Confined

end Frames

end OpCtl

/-! ### Aligned queues -/

namespace Lined

open OpCtl

variable {c c' : OpCtl E} {q q' : Streams T A} {v : List (Int × Bool)} {a b : Nat}

theorem nodup_operations (h : Lined c q v) : c.operations.Nodup := by
  obtain ⟨done, live, hal, -⟩ := h
  rw [hal.operations]
  exact hal.addrs

theorem mem_of_current (h : Lined c q v) (hcur : c.currentOp = some a) : a ∈ c.operations := by
  obtain ⟨l, hl⟩ := h.current_last hcur
  rw [hl]
  simp

/-- No other operation has the id of the current one. -/
theorem current_id_ne (h : Lined c q v) (hcur : c.currentOp = some a) (hb : b ∈ c.operations)
    (hne : b ≠ a) : (c.heap b).id ≠ (c.heap a).id := by
  obtain ⟨done, live, hal, -⟩ := h
  obtain ⟨s, rfl, rfl, hid, -⟩ := current_live hal hcur
  rw [hal.operations] at hb
  obtain ⟨x, hx, rfl⟩ := List.mem_map.mp hb
  rw [(hal.heap x hx).1, hid]
  rw [slots_some, List.mem_append, List.mem_singleton] at hx
  rcases hx with hx | rfl
  · exact hal.live_new s rfl x hx
  · exact absurd rfl hne

/-- A younger operation with the id of the one in front has been cancelled or has failed. -/
theorem front_id_ne (h : Lined c q v) (ha : c.frontOp = some a) (hb : b ∈ c.operations)
    (hne : b ≠ a) (hint : c.Intact b) : (c.heap b).id ≠ (c.heap a).id := by
  obtain ⟨done, live, hal, -⟩ := h
  rw [hal.operations] at hb
  obtain ⟨y, hy, rfl⟩ := List.mem_map.mp hb
  obtain ⟨hyid, hyst⟩ := hal.heap y hy
  rw [hyid]
  rcases hal.front_eq ha with ⟨x, rest, rfl, rfl, hid, -⟩ | ⟨rfl, s, rfl, rfl, -, -⟩
  · rw [hid]
    rw [slots, List.cons_append, List.mem_cons, List.mem_append, Option.mem_toList] at hy
    rcases hy with rfl | hy | hy
    · exact absurd rfl hne
    · intro heq
      -- it would have no stream, and an operation that has ended has one
      have hnone : y.stream = none :=
        (List.pairwise_cons.mp hal.twins).1 y hy heq.symm
      rcases hal.done_ok y (List.mem_cons_of_mem _ hy) with hst | hst | ⟨-, r, hr, -⟩
      · exact hint.1 (hyst.trans hst)
      · exact hint.2 (hyst.trans hst)
      · rw [hnone] at hr
        cases hr
    · exact fun heq => hal.live_new y hy x List.mem_cons_self heq.symm
  · obtain rfl : y = s := by simpa using hy
    exact absurd rfl hne

/-- The stream of a current operation that streams is open. -/
theorem live_record (h : Lined c q v) (hcur : c.currentOp = some a)
    (hst : (c.heap a).status = .streaming) :
    ∃ r, Fifo.find (c.heap a).id q.records = some r ∧ r.state = .uncompleted := by
  obtain ⟨done, live, hal, -⟩ := h
  obtain ⟨s, rfl, rfl, hid, hs⟩ := current_live hal hcur
  obtain ⟨r, -, hopen, hrid, hrs⟩ := hal.live_stream (hs ▸ hst)
  refine ⟨r, ?_, hopen⟩
  rw [hid, ← hrid]
  apply Fifo.find_of_mem q.ids_nodup
  rw [hrs]
  simp

/-- The stream of an operation that has ended is closed. -/
theorem closed_record (h : Lined c q v) (ha : a ∈ c.operations) (hcur : c.currentOp ≠ some a)
    (hint : c.Intact a) : ∃ r, Fifo.find (c.heap a).id q.records = some r ∧
      (r.state = .completed ∨ ∃ e, r.state = .error e) := by
  obtain ⟨done, live, hal, -⟩ := h
  rw [hal.operations] at ha
  obtain ⟨s, hs, rfl⟩ := List.mem_map.mp ha
  obtain ⟨hid, hst⟩ := hal.heap s hs
  have hrec : ∃ r, s.stream = some r ∧ (r.state = .completed ∨ ∃ e, r.state = .error e) := by
    have hs' := hs
    rw [slots, List.mem_append, Option.mem_toList] at hs'
    rcases hs' with hs' | hs'
    · rcases hal.done_ok s hs' with hd | hd | ⟨-, hr⟩
      · exact absurd (hst.trans hd) hint.1
      · exact absurd (hst.trans hd) hint.2
      · exact hr
    · rw [hal.current, hs'] at hcur
      exact absurd rfl hcur
  obtain ⟨r, hr, hclosed⟩ := hrec
  refine ⟨r, ?_, hclosed⟩
  rw [hid, ← hal.ids s hs r hr]
  apply Fifo.find_of_mem q.ids_nodup
  rw [hal.streams]
  exact List.mem_filterMap.mpr ⟨s, hs, hr⟩

/-- As long as it is among the operations there is something to poll of it; an error is all. -/
theorem closed_dues (h : Lined c q v) (ha : a ∈ c.operations) (hcur : c.currentOp ≠ some a)
    (hint : c.Intact a) :
    c.dues q a ≠ [] ∧ ∀ e, .error e ∈ c.dues q a → c.dues q a = [.error e] := by
  obtain ⟨r, hfind, hclosed⟩ := h.closed_record ha hcur hint
  rw [dues_of_mem ha, Fifo.dues_of_find hfind]
  exact ⟨Record.dues_ne_nil hclosed, fun _ => Record.dues_of_error⟩

/-- The stream in front belongs to the operation in front. -/
theorem front_record (h : Lined c q v) (ha : c.frontOp = some a) (hint : c.Intact a) :
    q.records = [] ∨
      ∃ r rs, q.records = r :: rs ∧ r.id = (c.heap a).id ∧ r.state ≠ .deleted := by
  obtain ⟨done, live, hal, -⟩ := h
  rcases hal.front_eq ha with ⟨x, rest, rfl, -, hid, hxst⟩ | ⟨rfl, s, rfl, -, hid, -⟩
  · have hstr := hal.streams_cons
    rcases hal.done_ok x List.mem_cons_self with hst | hst | ⟨-, r, hr, hclosed⟩
    · exact absurd (hxst.trans hst) hint.1
    · exact absurd (hxst.trans hst) hint.2
    · rw [hr, Option.toList_some, List.singleton_append] at hstr
      refine .inr ⟨r, _, hstr, ?_, ?_⟩
      · rw [hid]
        exact hal.ids x (by simp [slots_cons]) r hr
      · rcases hclosed with hst | ⟨e, hst⟩
        · simp [hst]
        · simp [hst]
  · have hstr := hal.streams_some
    rcases hal.live_ok s rfl with ⟨-, hnone⟩ | ⟨-, r, hr, hopen⟩
    · rw [hnone] at hstr
      exact .inl (by simpa using hstr)
    · rw [hr] at hstr
      refine .inr ⟨r, [], by simpa using hstr, ?_, by simp [hopen]⟩
      rw [hid]
      exact hal.ids s (by simp) r hr

/-! ### Polling -/

/-- Only the stream of the operation in front changes. -/
theorem spares_front (h : Lined c q v) (ha : c.frontOp = some a)
    (hfind : ∀ i, i ≠ (c.heap a).id → Fifo.find i q'.records = Fifo.find i q.records) :
    Spares a c q c q' := by
  intro b hne hint
  by_cases hb : b ∈ c.operations
  · rw [dues_of_mem hb, dues_of_mem hb]
    exact Fifo.dues_congr (hfind _ (h.front_id_ne ha hb hne hint))
  · rw [dues_of_notMem hb, dues_of_notMem hb]

theorem find_dropStream {id i : Int} {out : PopArgs T} (hdrop : dropStream id out q = some q')
    (hne : i ≠ id) : Fifo.find i q'.records = Fifo.find i q.records := by
  have herase : Fifo.find i (q.erase id 0#32).2.records = Fifo.find i q.records := by
    rw [Streams.erase_records]
    exact Fifo.find_call_of_ne q.records (c := Call.erase (T := T) (A := A) id 0) rfl hne
  unfold dropStream at hdrop
  simp only at hdrop
  split at hdrop
  · split at hdrop
    · rename_i hid
      obtain rfl := Option.some.inj hdrop
      obtain ⟨t, out', q₁, hpop, hfifo⟩ := (q.erase id 0#32).2.pop_eq out
      rw [hpop] at hid ⊢
      rw [← herase]
      have hrec : q₁.records = (Fifo.pop out (q.erase id 0#32).2.records).2.2 := by rw [hfifo]
      have hout : out' = (Fifo.pop out (q.erase id 0#32).2.records).2.1 := by rw [hfifo]
      simp only [hrec]
      generalize (q.erase id 0#32).2.records = rs at hout ⊢
      cases rs with
      | nil => rfl
      | cons r rs =>
          by_cases hr : r.id = i
          · -- the stream in front is another one, so nothing has been popped
            have hempty : (Fifo.pop out (r :: rs)).1 = .empty := by
              by_contra hne'
              have hpopid := Fifo.pop_id hne'
              rw [← hout, hid, hr] at hpopid
              exact hne hpopid.symm
            rw [Fifo.pop_of_empty hempty]
          · exact Fifo.find_pop_of_ne hr out
    · cases hdrop
  · obtain rfl := Option.some.inj hdrop
    exact herase

/-- A cancelled or failed operation in front is removed with its own stream. -/
theorem dropStream_spares (h : Lined c q v) (ha : c.frontOp = some a) {out : PopArgs T}
    (hdrop : dropStream (c.heap a).id out q = some q') : Spares a c q c.removeFrontOp q' :=
  (h.spares_front ha fun _ hne => find_dropStream hdrop hne).removeFrontOp ha

/-- **A pop for an intact operation in front** takes the first piece it is owed, if there is
    one. -/
theorem pop_dues (h : Lined c q v) (ha : c.frontOp = some a) (hint : c.Intact a)
    (out : PopArgs T) :
    ∃ q', c.dues q a = [] ∧ q.pop out = ((.empty, out), q') ∧ q'.records = q.records ∨
      ∃ p, q.pop out = ((p.type, p.fill (c.heap a).id out), q') ∧
        Takes p a c q (if p.isLast then c.removeFrontOp else c) q' := by
  obtain ⟨t, out', q', hpop, hfifo⟩ := q.pop_eq out
  refine ⟨q', ?_⟩
  have hmem : a ∈ c.operations := List.mem_of_mem_head? ha
  rcases h.front_record ha hint with hnil | ⟨r, rs, hrs, hrid, hst⟩
  · rw [hnil, Fifo.pop, Prod.mk.injEq, Prod.mk.injEq] at hfifo
    obtain ⟨rfl, rfl, hrec⟩ := hfifo
    refine .inl ⟨?_, hpop, ?_⟩
    · rw [dues_of_mem hmem, hnil]
      rfl
    · rw [hnil, ← hrec]
  · have hfind : ∀ r' rs', r'.id = (c.heap a).id →
        Fifo.find (c.heap a).id (r' :: rs' : List (Record T A)) = some r' := by
      intro r' rs' hid
      simp [Fifo.find, hid]
    have hdues : c.dues q a = r.dues := by
      rw [dues_of_mem hmem, hrs]
      exact Fifo.dues_of_find (hfind r rs hrid)
    have hspares : Spares a c q c q' := by
      apply h.spares_front ha
      intro i hne
      have hrec : q'.records = (Fifo.pop out q.records).2.2 := by rw [hfifo]
      rw [hrec, hrs]
      exact Fifo.find_pop_of_ne (fun heq => hne (heq.symm.trans hrid)) out
    have hserves : Fifo.Serves out r rs (t, out', q'.records) := by
      rw [← hfifo, hrs]
      exact Fifo.pop_serves out hst
    generalize hrec : q'.records = rs' at hserves
    cases hserves with
    | wait hnil => exact .inl ⟨hdues.trans hnil, hpop, hrs.symm⟩
    | @next p r' hnext hlast hid =>
        rw [hrid] at hid hpop
        refine .inr ⟨p, hpop, ?_⟩
        rw [hlast]
        refine ⟨?_, hspares⟩
        rw [hdues, hnext, if_neg Bool.false_ne_true, dues_of_mem hmem, hrec,
          Fifo.dues_of_find (hfind r' rs hid)]
    | @last p hlast hp =>
        rw [hrid] at hpop
        refine .inr ⟨p, hpop, ?_⟩
        rw [hp, if_pos rfl]
        have hgone : a ∉ c.removeFrontOp.operations := by
          obtain ⟨rest, hops⟩ : ∃ rest, c.operations = a :: rest := List.head?_eq_some_iff.mp ha
          have hnd := h.nodup_operations
          rw [hops] at hnd
          simpa [removeFrontOp, hops] using (List.nodup_cons.mp hnd).1
        refine ⟨?_, hspares.removeFrontOp ha⟩
        rw [hdues, hlast, dues_of_notMem hgone]

/-! ### Responses -/

/-- When `a` is current and `id` is its id, the other operations are owed what they were. -/
theorem confined_others (hl : Lined c q v) (h : Confined a (c.heap a).id c q c' q')
    (hcur : c.currentOp = some a) (hne : b ≠ a) : c'.dues q' b = c.dues q b := by
  by_cases hb : b ∈ c.operations
  · rw [dues_congr h.operations (h.id_eq b) (h.find _ (hl.current_id_ne hcur hb hne))]
  · rw [dues_of_notMem hb, dues_of_notMem (h.operations ▸ hb)]

/-- The first response: nothing has been owed, and the start is now. -/
theorem start_dues (h : Lined c q v) (hcur : c.currentOp = some a)
    (hst : (c.heap a).status = .start) :
    c.dues q a = [] ∧ c.dues (q.start (c.heap a).id).2 a = [.start] := by
  have hmem := h.mem_of_current hcur
  have hnew := h.no_stream hmem hst
  rw [dues_of_mem hmem, dues_of_mem hmem, Streams.start_records]
  exact ⟨Fifo.dues_of_notMem hnew, Fifo.dues_of_find (Fifo.find_start hnew)⟩

section Streaming

variable (h : Lined c q v) (hcur : c.currentOp = some a)
  (hst : (c.heap a).status = .streaming)

include h hcur hst

theorem push_dues (d : Sp T) :
    c.dues (q.stream (c.heap a).id d).2 a = c.dues q a ++ [.data d] := by
  obtain ⟨r, hfind, hopen⟩ := h.live_record hcur hst
  have hmem := h.mem_of_current hcur
  rw [dues_of_mem hmem, dues_of_mem hmem, Streams.stream_records, Fifo.dues_of_find hfind,
    Fifo.dues_of_find (Fifo.find_stream hfind hopen d), Record.dues_push hopen]

theorem end_dues (d : Sp T) : ∃ r ∈ q.records, c.dues (q.end_ (c.heap a).id d).2 a =
    c.dues q a ++ [.end_ (if d.isSome then d else r.content)] := by
  obtain ⟨r, hfind, hopen⟩ := h.live_record hcur hst
  have hmem := h.mem_of_current hcur
  refine ⟨r, (Fifo.mem_of_find hfind).1, ?_⟩
  rw [dues_of_mem hmem, dues_of_mem hmem, Streams.end_records, Fifo.dues_of_find hfind,
    Fifo.dues_of_find (Fifo.find_end hfind d), Record.dues_complete hopen]

theorem erase_dues {err : BitVec 32} (herr : err ≠ 0) :
    c.dues (q.erase (c.heap a).id err).2 a = [.error (err.setWidth 16)] := by
  obtain ⟨r, hfind, -⟩ := h.live_record hcur hst
  have hmem := h.mem_of_current hcur
  rw [dues_of_mem hmem, Streams.erase_records, Fifo.dues_of_find (Fifo.find_erase hfind err),
    Record.dues_erase herr]

end Streaming

/-- A new operation is owed nothing. -/
theorem newOp_dues [Inhabited E] {now id : Int} (h : Lined (c.newOp now id .start) q v) :
    (c.newOp now id .start).dues q c.fresh = [] := by
  have hmem : c.fresh ∈ (c.newOp now id .start).operations := by simp
  rw [dues_of_mem hmem]
  exact Fifo.dues_of_notMem (h.no_stream hmem (by simp))

end Lined

end OpenVoice
