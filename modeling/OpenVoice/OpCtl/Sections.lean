import OpenVoice.OpCtl.Align

/-!
# What the critical sections do to the slots

One lemma for each thing a critical section does to the controller and the response streams.
They keep the two aligned, and what `poll` has to know of the slots, their ids and whether their
stream is being polled, changes in one way only: an operation is created at the end.
-/

namespace OpenVoice

variable {E T A : Type}

/-- The start of the stream has been polled. -/
def Slot.polled (s : Slot T A) : Bool := s.stream.any (·.polling)

/-- The slots as `poll` sees them. -/
def view (done : List (Slot T A)) (live : Option (Slot T A)) : List (Int × Bool) :=
  (slots done live).map fun s => (s.id, s.polled)

namespace Aligned

variable {c c' : OpCtl E} {rs rs' : List (Record T A)} {done : List (Slot T A)}
  {live : Option (Slot T A)} {s : Slot T A}

/-- `view` of a list whose last slot is rewritten. -/
theorem view_last (done : List (Slot T A)) {s t : Slot T A} (hpoll : t.polled = s.polled)
    (hid : t.id = s.id) :
    view done (some t) = view done (some s) ∧ view (done ++ [t]) none = view done (some s) := by
  simp [view, hid, hpoll]

/-- A status is not part of the view. -/
theorem view_settle (done : List (Slot T A)) (s : Slot T A) (st : OpStatus) :
    view (done ++ [{ s with status := st }]) none = view done (some s) := by
  have hpolled : Slot.polled { s with status := st } = s.polled := rfl
  exact (view_last done hpolled rfl).2

/-! ### The stream of the live operation -/

theorem mem_streams (h : Aligned c rs done live) {r : Record T A} (hr : r ∈ rs) :
    ∃ x ∈ slots done live, x.stream = some r ∧ r.id = x.id := by
  rw [h.streams, List.mem_filterMap] at hr
  obtain ⟨x, hx, hxr⟩ := hr
  exact ⟨x, hx, hxr, h.ids x hx r hxr⟩

theorem streams_some (h : Aligned c rs done (some s)) :
    rs = done.filterMap Slot.stream ++ s.stream.toList := by
  rw [h.streams, slots_some, List.filterMap_append]
  cases hst : s.stream <;> simp [hst]

/-- Finished operations have other ids than the live one, and so have their streams. -/
theorem live_notMem (h : Aligned c rs done (some s)) :
    s.id ∉ Fifo.ids (done.filterMap Slot.stream) := by
  rw [Fifo.mem_ids]
  rintro ⟨r, hr, hid⟩
  obtain ⟨x, hx, hxr⟩ := List.mem_filterMap.mp hr
  have hxid : r.id = x.id := h.ids x (by simp [hx]) r hxr
  exact h.live_new s rfl x hx (hxid.symm.trans hid)

/-- An operation that streams has the last stream, which is open. -/
theorem live_stream (h : Aligned c rs done (some s)) (hst : s.status = .streaming) :
    ∃ r, s.stream = some r ∧ r.state = .uncompleted ∧ r.id = s.id ∧
      rs = done.filterMap Slot.stream ++ [r] := by
  rcases h.live_ok s rfl with ⟨hstart, -⟩ | ⟨-, r, hr, hun⟩
  · rw [hst] at hstart
    cases hstart
  · refine ⟨r, hr, hun, h.ids s (by simp) r hr, ?_⟩
    rw [h.streams_some, hr]
    rfl

theorem live_status (h : Aligned c rs done (some s)) :
    s.status = .start ∨ s.status = .streaming := by
  rcases h.live_ok s rfl with ⟨hst, -⟩ | ⟨hst, -⟩
  · exact .inl hst
  · exact .inr hst

/-- The first response: the stream is started and the operation streams. -/
theorem begin_stream (h : Aligned c rs done (some s)) (hst : s.status = .start) :
    ∃ t, Aligned (c.setStatus s.addr .streaming) (Fifo.start s.id rs).2 done (some t) ∧
      t.addr = s.addr ∧ t.id = s.id ∧ t.status = .streaming ∧
      view done (some t) = view done (some s) := by
  have hnone : s.stream = none := by
    rcases h.live_ok s rfl with ⟨-, hnone⟩ | ⟨hstream, -⟩
    · exact hnone
    · rw [hst] at hstream
      cases hstream
  have hrs : rs = done.filterMap Slot.stream := by
    rw [h.streams_some, hnone]
    simp
  have hnew : s.id ∉ Fifo.ids rs := by
    rw [hrs]
    exact h.live_notMem
  refine ⟨{ s with status := .streaming, stream := some (.opened s.id) }, ?_, rfl, rfl, rfl, ?_⟩
  · rw [Fifo.start_of_notMem hnew]
    refine h.replaceLive rfl rfl (.inr ⟨rfl, _, rfl, rfl⟩) ?_ rfl rfl rfl ?_ ?_ ?_
    · rintro r ⟨⟩
      rfl
    · intro a ha
      exact OpCtl.setStatus_heap_ne _ _ _ ha
    · simp [h.heap_live.1]
    · rw [hrs]
      rfl
  · have hpolled : Slot.polled (⟨s.addr, s.id, .streaming, some (.opened s.id)⟩ : Slot T A) =
        s.polled := by
      simp [Slot.polled, hnone, Record.opened]
    exact (view_last done hpolled rfl).1

/-- The open stream is amended by an operation that leaves it open. -/
theorem amend_stream (h : Aligned c rs done (some s)) (hst : s.status = .streaming)
    {f : Record T A → Record T A} (hid : ∀ r, (f r).id = r.id)
    (hpoll : ∀ r, (f r).polling = r.polling)
    (hun : ∀ r, r.state = .uncompleted → (f r).state = .uncompleted)
    (hnd : (Fifo.ids rs).Nodup) :
    ∃ t, Aligned c (Fifo.amend s.id f rs) done (some t) ∧ t.addr = s.addr ∧ t.id = s.id ∧
      t.status = s.status ∧ view done (some t) = view done (some s) := by
  obtain ⟨r, hr, hopen, hrid, rfl⟩ := h.live_stream hst
  refine ⟨{ s with stream := some (f r) }, ?_, rfl, rfl, rfl, ?_⟩
  · have hamend := Fifo.amend_split f hnd
    rw [hrid] at hamend
    rw [hamend]
    refine h.replaceLive rfl rfl (.inr ⟨hst, _, rfl, hun r hopen⟩) ?_ rfl rfl rfl
      (fun _ _ => rfl) h.heap_live rfl
    rintro x ⟨⟩
    rw [hid, hrid]
  · have hpolled : Slot.polled { s with stream := some (f r) } = s.polled := by
      simp [Slot.polled, hr, hpoll]
    exact (view_last done hpolled rfl).1

theorem push_data (h : Aligned c rs done (some s)) (hst : s.status = .streaming) (d : Sp T)
    (hnd : (Fifo.ids rs).Nodup) :
    ∃ t, Aligned c (Fifo.stream s.id d rs).2 done (some t) ∧ t.addr = s.addr ∧ t.id = s.id ∧
      t.status = s.status ∧ view done (some t) = view done (some s) := by
  obtain ⟨r, -, hopen, hrid, hrs⟩ := h.live_stream hst
  have hfind : Fifo.find s.id rs = some r := by
    rw [← hrid]
    apply Fifo.find_of_mem hnd
    rw [hrs]
    simp
  rw [Fifo.stream_of_uncompleted d hfind hopen]
  exact h.amend_stream hst (fun _ => rfl) (fun _ => rfl) (fun _ hr => hr) hnd

/-- The open stream is closed, by `end` or by a server error, and the operation ends. -/
theorem close_stream (h : Aligned c rs done (some s)) (hst : s.status = .streaming)
    {f : Record T A → Record T A} (hid : ∀ r, (f r).id = r.id)
    (hpoll : ∀ r, (f r).polling = r.polling)
    (hclosed : ∀ r, (f r).state = .completed ∨ ∃ e, (f r).state = .error e)
    (hnd : (Fifo.ids rs).Nodup)
    (hops : c'.operations = c.operations) (hfresh : c'.fresh = c.fresh)
    (hcur : c'.currentOp = none) (hheap : ∀ a, a ≠ s.addr → c'.heap a = c.heap a)
    (hnew : (c'.heap s.addr).id = s.id ∧ (c'.heap s.addr).status = .end_) :
    ∃ t, Aligned c' (Fifo.amend s.id f rs) (done ++ [t]) none ∧
      view (done ++ [t]) none = view done (some s) := by
  obtain ⟨r, hr, -, hrid, rfl⟩ := h.live_stream hst
  refine ⟨{ s with status := .end_, stream := some (f r) }, ?_, ?_⟩
  · have hamend := Fifo.amend_split f hnd
    rw [hrid] at hamend
    rw [hamend]
    refine h.settle rfl rfl (.inr (.inr ⟨rfl, _, rfl, hclosed r⟩)) ?_ hops hfresh hcur hheap
      hnew rfl
    rintro x ⟨⟩
    rw [hid, hrid]
  · have hpolled : Slot.polled { s with status := .end_, stream := some (f r) } = s.polled := by
      simp [Slot.polled, hr, hpoll]
    exact (view_last done hpolled rfl).2

theorem mem_ids_live (h : Aligned c rs done (some s)) (hst : s.status = .streaming) :
    s.id ∈ Fifo.ids rs := by
  obtain ⟨r, -, -, hrid, hrs⟩ := h.live_stream hst
  rw [← hrid]
  apply Fifo.mem_ids_of_mem
  rw [hrs]
  simp

/-! ### Ending an operation -/

/-- The live operation is finished without touching its stream. -/
theorem settle_status (h : Aligned c rs done (some s)) {st : OpStatus}
    (hst : st = .cancelled ∨ st = .error) (hops : c'.operations = c.operations)
    (hfresh : c'.fresh = c.fresh) (hcur : c'.currentOp = none)
    (hheap : ∀ a, a ≠ s.addr → c'.heap a = c.heap a)
    (hnew : (c'.heap s.addr).id = s.id ∧ (c'.heap s.addr).status = st) :
    Aligned c' rs (done ++ [{ s with status := st }]) none := by
  refine h.settle rfl rfl ?_ (h.ids s (by simp)) hops hfresh hcur hheap hnew h.streams_some
  rcases hst with rfl | rfl
  · exact .inl rfl
  · exact .inr (.inl rfl)

/-- `set_op_error`: the live operation, if there is one, fails. -/
theorem setOpError (h : Aligned c rs done live) (err : E) :
    ∃ done', Aligned (c.setOpError err) rs done' none ∧ view done' none = view done live := by
  cases live with
  | none =>
      refine ⟨done, ?_, rfl⟩
      rw [OpCtl.setOpError_none h.current]
      exact h
  | some s =>
      refine ⟨done ++ [{ s with status := .error }], ?_, view_settle done s .error⟩
      rw [OpCtl.setOpError_some h.current]
      refine h.settle_status (.inr rfl) rfl rfl rfl ?_ ?_
      · intro a ha
        rw [OpCtl.resetAndNotify_heap, OpCtl.modify_heap_ne _ _ _ ha]
      · simp [h.heap_live.1]

end Aligned

/-! ### Cancelling -/

/-- The slots after the operations at the addresses `marked` have been cancelled. -/
def Slot.mark (marked : List Nat) (s : Slot T A) : Slot T A :=
  if s.addr ∈ marked then { s with status := .cancelled } else s

section Mark

variable (marked : List Nat) (s : Slot T A)

@[simp] theorem Slot.mark_addr : (s.mark marked).addr = s.addr := by
  unfold Slot.mark
  split <;> rfl

@[simp] theorem Slot.mark_id : (s.mark marked).id = s.id := by
  unfold Slot.mark
  split <;> rfl

@[simp] theorem Slot.mark_stream : (s.mark marked).stream = s.stream := by
  unfold Slot.mark
  split <;> rfl

@[simp] theorem Slot.mark_polled : (s.mark marked).polled = s.polled := by simp [Slot.polled]

theorem Slot.Done.mark {s : Slot T A} (h : s.Done) : (s.mark marked).Done := by
  unfold Slot.mark
  split
  · exact .inl rfl
  · exact h

end Mark

namespace Aligned

variable {c c' : OpCtl E} {rs : List (Record T A)} {done : List (Slot T A)}
  {live : Option (Slot T A)}

/-- Cancelling changes the slots one by one; which of them are finished is up to the caller. -/
theorem relabel (h : Aligned c rs done live) {marked : List Nat}
    (hc : OpCtl.Cancelled marked c c') {done' : List (Slot T A)} {live' : Option (Slot T A)}
    (hslots : slots done' live' = (slots done live).map (Slot.mark marked))
    (current : c'.currentOp = live'.map Slot.addr) (done_ok : ∀ s ∈ done', s.Done)
    (live_ok : ∀ s, live' = some s → s.Live)
    (twins : done'.Pairwise fun x y => x.id = y.id → y.stream = none)
    (live_new : ∀ s, live' = some s → ∀ x ∈ done', x.id ≠ s.id) :
    Aligned c' rs done' live' where
  operations := by
    rw [hc.operations, h.operations, hslots, List.map_map]
    apply List.map_congr_left
    intro s _
    simp
  current := current
  streams := by
    rw [h.streams, hslots, List.filterMap_map]
    congr 1
    funext s
    simp
  heap := by
    intro t ht
    rw [hslots, List.mem_map] at ht
    obtain ⟨s, hs, rfl⟩ := ht
    obtain ⟨hid, hst⟩ := h.heap s hs
    rw [Slot.mark_addr]
    refine ⟨by rw [hc.heap_id, Slot.mark_id, hid], ?_⟩
    rw [hc.status, Slot.mark, hst]
    split <;> rfl
  addrs := by
    rw [hslots, List.map_map]
    have hcomp : (Slot.addr ∘ Slot.mark marked : Slot T A → Nat) = Slot.addr := by
      funext s
      simp
    rw [hcomp]
    exact h.addrs
  bound := by
    intro t ht
    rw [hslots, List.mem_map] at ht
    obtain ⟨s, hs, rfl⟩ := ht
    rw [Slot.mark_addr, hc.fresh]
    exact h.bound s hs
  ids := by
    intro t ht r hr
    rw [hslots, List.mem_map] at ht
    obtain ⟨s, hs, rfl⟩ := ht
    rw [Slot.mark_stream] at hr
    rw [Slot.mark_id]
    exact h.ids s hs r hr
  done_ok := done_ok
  live_ok := live_ok
  twins := twins
  live_new := live_new

theorem twins_mark (marked : List Nat)
    (h : done.Pairwise fun x y => x.id = y.id → y.stream = none) :
    (done.map (Slot.mark marked)).Pairwise fun x y => x.id = y.id → y.stream = none := by
  rw [List.pairwise_map]
  simpa using h

/-- Cancelling finished operations; a live one among them is finished by it. -/
theorem mark (h : Aligned c rs done live) {marked : List Nat} (hc : OpCtl.Cancelled marked c c')
    (hcur : c'.currentOp = c.currentOp ∧ (∀ s, live = some s → s.addr ∉ marked) ∨
      c'.currentOp = none ∧ (∀ s, live = some s → s.addr ∈ marked)) :
    ∃ done' live', Aligned c' rs done' live' ∧ view done' live' = view done live ∧
      (live' = live ∨ live' = none) ∧ (c'.currentOp = none → live' = none) := by
  have hdone : ∀ x ∈ done.map (Slot.mark marked), x.Done := by
    intro x hx
    obtain ⟨y, hy, rfl⟩ := List.mem_map.mp hx
    exact (h.done_ok y hy).mark marked
  cases live with
  | none =>
      have hnone : c'.currentOp = none := by
        rcases hcur with ⟨hcur, -⟩ | ⟨hcur, -⟩
        · rw [hcur]
          exact h.current
        · exact hcur
      refine ⟨done.map (Slot.mark marked), none, ?_, ?_, .inr rfl, fun _ => rfl⟩
      · exact h.relabel hc (by simp) hnone hdone (by simp) (twins_mark marked h.twins) (by simp)
      · simp [view, Function.comp_def]
  | some s =>
      rcases hcur with ⟨hcur, hout⟩ | ⟨hnone, hin⟩
      · -- the live operation is not cancelled
        have hs : s.mark marked = s := by
          rw [Slot.mark, if_neg (hout s rfl)]
        refine ⟨done.map (Slot.mark marked), some s, ?_, ?_, .inl rfl, ?_⟩
        · refine h.relabel hc (by simp [hs]) ?_ hdone h.live_ok (twins_mark marked h.twins) ?_
          · rw [hcur]
            exact h.current
          · rintro _ ⟨⟩ x hx
            obtain ⟨y, hy, rfl⟩ := List.mem_map.mp hx
            rw [Slot.mark_id]
            exact h.live_new s rfl y hy
        · simp [view, Function.comp_def]
        · intro hnone
          rw [hcur] at hnone
          have hsome := h.current
          rw [hnone] at hsome
          cases hsome
      · -- the live operation is cancelled with the others
        have hlast : (s.mark marked).Done := by
          rw [Slot.mark, if_pos (hin s rfl)]
          exact .inl rfl
        have htwins : (done ++ [s]).Pairwise fun x y => x.id = y.id → y.stream = none := by
          rw [List.pairwise_append]
          refine ⟨h.twins, by simp, ?_⟩
          intro x hx y hy heq
          rw [List.mem_singleton.mp hy] at heq
          exact absurd heq (h.live_new s rfl x hx)
        refine ⟨(done ++ [s]).map (Slot.mark marked), none, ?_, ?_, .inr rfl, fun _ => rfl⟩
        · refine h.relabel hc (by simp) hnone ?_ (by simp) (twins_mark marked htwins) (by simp)
          intro x hx
          rw [List.map_append, List.mem_append] at hx
          rcases hx with hx | hx
          · exact hdone x hx
          · obtain rfl := List.mem_singleton.mp hx
            exact hlast
        · simp [view, Function.comp_def]

/-- `cancel_op` keeps the alignment; a live operation it reaches is finished by it. -/
theorem cancelOp (h : Aligned c rs done live) (id : Int) :
    ∃ done' live', Aligned (c.cancelOp id).2 rs done' live' ∧
      view done' live' = view done live := by
  obtain ⟨hc, hcur, -, hflag⟩ := OpCtl.cancelLoop_spec id c.operations false c
  have hsub : ∀ a ∈ OpCtl.covered id c.operations c, a ∈ c.operations := by
    intro a ha
    unfold OpCtl.covered at ha
    split at ha
    · exact ha
    · exact List.mem_of_find?_eq_some (Option.mem_toList.mp ha)
  -- `need_notify` is set exactly if the live operation is among the cancelled ones
  have hnotify : ∀ s, live = some s →
      ((OpCtl.cancelLoop id c.operations false c).1 = true ↔
        s.addr ∈ OpCtl.covered id c.operations c) := by
    rintro s rfl
    have hcurrent : c.currentOp = some s.addr := h.current
    rw [hflag, Bool.false_or, List.any_eq_true]
    constructor
    · rintro ⟨a, ha, hwait⟩
      have hid : (c.heap s.addr).id = (c.heap a).id := by
        simpa [OpCtl.mustWait, hcurrent] using hwait
      have hmem := hsub a ha
      rw [h.operations, List.mem_map] at hmem
      obtain ⟨x, hx, rfl⟩ := hmem
      rw [(h.heap x hx).1, h.heap_live.1] at hid
      rw [slots_some, List.mem_append, List.mem_singleton] at hx
      rcases hx with hx | rfl
      · exact absurd hid.symm (h.live_new s rfl x hx)
      · exact ha
    · intro ha
      exact ⟨s.addr, ha, by simp [OpCtl.mustWait, hcurrent]⟩
  cases hn : (OpCtl.cancelLoop id c.operations false c).1 with
  | true =>
      rw [OpCtl.cancelOp_snd, hn, if_pos rfl]
      have hc' : OpCtl.Cancelled (OpCtl.covered id c.operations c) c
          (OpCtl.cancelLoop id c.operations false c).2.resetAndNotify :=
        ⟨hc.operations, hc.fresh, hc.heap_id, hc.counting, hc.status⟩
      obtain ⟨done', live', hal, hview, -⟩ :=
        h.mark hc' (.inr ⟨rfl, fun s hs => (hnotify s hs).mp hn⟩)
      exact ⟨done', live', hal, hview⟩
  | false =>
      rw [OpCtl.cancelOp_snd, hn, if_neg Bool.false_ne_true]
      obtain ⟨done', live', hal, hview, -⟩ := h.mark hc (.inl ⟨hcur, fun s hs hmem => by
        have hset := (hnotify s hs).mpr hmem
        rw [hn] at hset
        cases hset⟩)
      exact ⟨done', live', hal, hview⟩

/-- `status = CANCELLED` through a pointer read earlier, and `clear_current_op`: if an
    operation is live it is the one the pointer points to. -/
theorem cancelStale (h : Aligned c rs done live) {a : Nat}
    (ha : ∀ b, c.currentOp = some b → b = a) :
    ∃ done', Aligned (c.setStatus a .cancelled).clearCurrentOp rs done' none ∧
      view done' none = view done live := by
  have hc := OpCtl.Cancelled.setStatus c a
  have hc' : OpCtl.Cancelled [a] c (c.setStatus a .cancelled).clearCurrentOp :=
    ⟨hc.operations, hc.fresh, hc.heap_id, hc.counting, hc.status⟩
  have hmarked : ∀ s, live = some s → s.addr ∈ [a] := by
    intro s hs
    rw [List.mem_singleton]
    apply ha
    rw [h.current, hs]
    rfl
  obtain ⟨done', live', hal, hview, -, hnone⟩ := h.mark hc' (.inr ⟨rfl, hmarked⟩)
  obtain rfl := hnone rfl
  exact ⟨done', hal, hview⟩

/-! ### Polling -/

section Poll

variable {x : Slot T A}

theorem streams_cons (h : Aligned c rs (x :: done) live) :
    rs = x.stream.toList ++ (slots done live).filterMap Slot.stream := by
  rw [h.streams, slots_cons, List.filterMap_cons]
  cases x.stream <;> rfl

/-- An operation in front that has no stream: nobody else has a stream with its id. -/
theorem front_notMem (h : Aligned c rs (x :: done) live) (hx : x.stream = none) :
    x.id ∉ Fifo.ids rs := by
  rw [Fifo.mem_ids]
  rintro ⟨r, hr, hid⟩
  obtain ⟨y, hy, hyr, hyid⟩ := h.mem_streams hr
  have heq : x.id = y.id := hid.symm.trans hyid
  rw [slots, List.mem_append, List.mem_cons, Option.mem_toList] at hy
  rcases hy with (rfl | hy) | hy
  · rw [hx] at hyr
    cases hyr
  · rw [(List.pairwise_cons.mp h.twins).1 y hy heq] at hyr
    cases hyr
  · exact h.live_new y hy x (by simp) heq

/-- `remove_front_op`, the front stream having been taken out of the queue. -/
theorem removeFront (h : Aligned c rs (x :: done) live) :
    Aligned c.removeFrontOp ((slots done live).filterMap Slot.stream) done live where
  operations := by
    rw [OpCtl.removeFrontOp, h.operations, slots_cons, List.map_cons, List.tail_cons]
  current := h.current
  streams := rfl
  heap := fun s hs => h.heap s (List.mem_cons_of_mem _ hs)
  addrs := (List.nodup_cons.mp h.addrs).2
  bound := fun s hs => h.bound s (List.mem_cons_of_mem _ hs)
  ids := fun s hs => h.ids s (List.mem_cons_of_mem _ hs)
  done_ok := fun s hs => h.done_ok s (List.mem_cons_of_mem _ hs)
  live_ok := h.live_ok
  twins := (List.pairwise_cons.mp h.twins).2
  live_new := fun s hs y hy => h.live_new s hs y (List.mem_cons_of_mem _ hy)

/-- The front stream changes, but not its id nor its state. -/
theorem replaceFront (h : Aligned c rs (x :: done) live) {r r' : Record T A}
    (hx : x.stream = some r) (hid : r'.id = r.id) (hst : r'.state = r.state) :
    Aligned c (r' :: (slots done live).filterMap Slot.stream)
      ({ x with stream := some r' } :: done) live where
  operations := h.operations
  current := h.current
  streams := by rw [slots_cons, List.filterMap_cons]
  heap := by
    intro s hs
    rcases List.mem_cons.mp hs with rfl | hs
    · exact h.heap x (by simp [slots_cons])
    · exact h.heap s (List.mem_cons_of_mem _ hs)
  addrs := h.addrs
  bound := by
    intro s hs
    rcases List.mem_cons.mp hs with rfl | hs
    · exact h.bound x (by simp [slots_cons])
    · exact h.bound s (List.mem_cons_of_mem _ hs)
  ids := by
    intro s hs p hp
    rcases List.mem_cons.mp hs with rfl | hs
    · obtain rfl : r' = p := by simpa using hp
      rw [hid]
      exact h.ids x (by simp [slots_cons]) r hx
    · exact h.ids s (List.mem_cons_of_mem _ hs) p hp
  done_ok := by
    intro s hs
    rcases List.mem_cons.mp hs with rfl | hs
    · rcases h.done_ok x (by simp) with hc | he | ⟨hend, p, hp, hclosed⟩
      · exact .inl hc
      · exact .inr (.inl he)
      · rw [hx] at hp
        obtain rfl : r = p := by simpa using hp
        exact .inr (.inr ⟨hend, r', rfl, hst ▸ hclosed⟩)
    · exact h.done_ok s (List.mem_cons_of_mem _ hs)
  live_ok := h.live_ok
  twins := by
    rw [List.pairwise_cons]
    exact List.pairwise_cons.mp h.twins
  live_new := by
    intro s hs y hy
    rcases List.mem_cons.mp hy with rfl | hy
    · exact h.live_new s hs x (by simp)
    · exact h.live_new s hs y (List.mem_cons_of_mem _ hy)

end Poll

end Aligned

end OpenVoice
