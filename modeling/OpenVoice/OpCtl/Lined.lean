import OpenVoice.OpCtl.Poll

/-!
# The controller and the response streams as one thing

`Lined c q v`: the controller and the response streams are aligned and `poll` sees `v`.  The
critical sections of `send_reqs`, `gen_results`, `cancel` and `poll` are restated on it; their
owners only have to say which of them they execute.
-/

namespace OpenVoice

variable {E T A : Type}

/-- Aligned queues, `v` being what `poll` sees of the operations. -/
def Lined (c : OpCtl E) (q : Streams T A) (v : List (Int × Bool)) : Prop :=
  ∃ done live, Aligned c q.records done live ∧ view done live = v

namespace Lined

variable {c : OpCtl E} {q : Streams T A} {v : List (Int × Bool)} {a : Nat}

theorem init [Inhabited E] : Lined (.init : OpCtl E) (.empty : Streams T A) [] :=
  ⟨[], none, .init, rfl⟩

/-- Fields of the controller and of the operations that the alignment does not depend on. -/
theorem congr (h : Lined c q v) {c' : OpCtl E} (hops : c'.operations = c.operations)
    (hfresh : c'.fresh = c.fresh) (hcur : c'.currentOp = c.currentOp)
    (hheap : ∀ b, (c'.heap b).id = (c.heap b).id ∧ (c'.heap b).status = (c.heap b).status) :
    Lined c' q v := by
  obtain ⟨done, live, hal, hview⟩ := h
  refine ⟨done, live, ?_, hview⟩
  exact { hal with
    operations := hops.trans hal.operations
    current := hcur.trans hal.current
    heap := by
      intro s hs
      rw [(hheap s.addr).1, (hheap s.addr).2]
      exact hal.heap s hs
    bound := by
      intro s hs
      rw [hfresh]
      exact hal.bound s hs }

theorem of_records (h : Lined c q v) {q' : Streams T A} (hq : q'.records = q.records) :
    Lined c q' v := by
  obtain ⟨done, live, hal, hview⟩ := h
  exact ⟨done, live, hq ▸ hal, hview⟩

theorem refreshOpTime (h : Lined c q v) (now : Int) (recv : Bool) :
    Lined (c.refreshOpTime now recv) q v := by
  unfold OpCtl.refreshOpTime
  split
  · exact h
  · rename_i a _
    refine h.congr rfl rfl rfl ?_
    intro b
    by_cases hb : b = a
    · subst hb
      simp
    · rw [OpCtl.modify_heap_ne _ _ _ hb]
      exact ⟨rfl, rfl⟩

theorem opWaiting (h : Lined c q v) (b : Bool) : Lined { c with opWaiting := b } q v :=
  h.congr rfl rfl rfl fun _ => ⟨rfl, rfl⟩

theorem setOpError (h : Lined c q v) (err : E) : Lined (c.setOpError err) q v := by
  obtain ⟨done, live, hal, rfl⟩ := h
  obtain ⟨done', hal', hview⟩ := hal.setOpError err
  exact ⟨done', none, hal', hview⟩

theorem cancelOp (h : Lined c q v) (id : Int) : Lined (c.cancelOp id).2 q v := by
  obtain ⟨done, live, hal, rfl⟩ := h
  exact hal.cancelOp id

theorem cancelStale (h : Lined c q v) (ha : ∀ b, c.currentOp = some b → b = a) :
    Lined (c.setStatus a .cancelled).clearCurrentOp q v := by
  obtain ⟨done, live, hal, rfl⟩ := h
  obtain ⟨done', hal', hview⟩ := hal.cancelStale ha
  exact ⟨done', none, hal', hview⟩

theorem live_eq_none {done : List (Slot T A)} {live : Option (Slot T A)}
    (hal : Aligned c q.records done live) (hcur : c.currentOp = none) : live = none := by
  have h := hal.current
  rw [hcur] at h
  exact Option.map_eq_none_iff.mp h.symm

section New

variable [Inhabited E]

theorem newOp_opIds (h : Lined c q v) (now id : Int) (st : OpStatus) :
    (c.newOp now id st).opIds = c.opIds ++ [id] := by
  obtain ⟨done, live, hal, -⟩ := h
  have hold : ∀ a ∈ c.operations, ((c.newOp now id st).heap a).id = (c.heap a).id := by
    intro a ha
    rw [hal.operations] at ha
    obtain ⟨s, hs, rfl⟩ := List.mem_map.mp ha
    rw [OpCtl.newOp_heap_ne _ _ _ _ (hal.fresh_ne hs)]
  rw [OpCtl.opIds, OpCtl.newOp_operations, List.map_append, List.map_congr_left hold]
  simp [OpCtl.opIds]

theorem newOp_cancelled (h : Lined c q v) (hcur : c.currentOp = none) (now id : Int) :
    Lined (c.newOp now id .cancelled) q (v ++ [(id, false)]) := by
  obtain ⟨done, live, hal, rfl⟩ := h
  obtain rfl := live_eq_none hal hcur
  refine ⟨_, none, hal.newOp_cancelled now id, ?_⟩
  simp [view, Slot.polled]

theorem newOp_start (h : Lined c q v) (hcur : c.currentOp = none) (now : Int) {id : Int}
    (hid : id ∉ v.map Prod.fst) : Lined (c.newOp now id .start) q (v ++ [(id, false)]) := by
  obtain ⟨done, live, hal, rfl⟩ := h
  obtain rfl := live_eq_none hal hcur
  have hnew : ∀ x ∈ done, x.id ≠ id := by
    intro x hx heq
    apply hid
    simp only [view, slots_none, List.map_map, List.mem_map]
    exact ⟨x, hx, heq⟩
  refine ⟨done, _, hal.newOp_start now hnew, ?_⟩
  simp [view, Slot.polled]

end New

/-- The ids `poll` sees are those of the operations. -/
theorem fst_eq (h : Lined c q v) : v.map Prod.fst = c.opIds := by
  obtain ⟨done, live, hal, rfl⟩ := h
  rw [view, List.map_map, OpCtl.opIds, hal.operations, List.map_map]
  apply List.map_congr_left
  intro s hs
  exact (hal.heap s hs).1.symm

/-! ### The current operation -/

/-- `current_op_` belongs to the live slot. -/
theorem current_live {done : List (Slot T A)} {live : Option (Slot T A)}
    (hal : Aligned c q.records done live) (hcur : c.currentOp = some a) :
    ∃ s, live = some s ∧ s.addr = a ∧ (c.heap a).id = s.id ∧ (c.heap a).status = s.status := by
  have h := hal.current
  rw [hcur] at h
  obtain ⟨s, hs, rfl⟩ := Option.map_eq_some_iff.mp h.symm
  subst hs
  exact ⟨s, rfl, rfl, hal.heap_live⟩

/-- The current operation has started or streams. -/
theorem current_status (h : Lined c q v) (hcur : c.currentOp = some a) :
    (c.heap a).status = .start ∨ (c.heap a).status = .streaming := by
  obtain ⟨done, live, hal, -⟩ := h
  obtain ⟨s, rfl, -, -, hst⟩ := current_live hal hcur
  rw [hst]
  exact hal.live_status

/-- Every other operation is finished. -/
theorem terminal (h : Lined c q v) {b : Nat} (hb : b ∈ c.operations)
    (hcur : c.currentOp ≠ some b) : (c.heap b).status.Terminal := by
  obtain ⟨done, live, hal, -⟩ := h
  rw [hal.operations] at hb
  obtain ⟨s, hs, rfl⟩ := List.mem_map.mp hb
  rw [(hal.heap s hs).2]
  rw [slots, List.mem_append, Option.mem_toList] at hs
  rcases hs with hs | hs
  · rcases hal.done_ok s hs with hst | hst | ⟨hst, -⟩
    · exact .inr (.inl hst)
    · exact .inr (.inr hst)
    · exact .inl hst
  · apply absurd _ hcur
    rw [hal.current, hs]
    rfl

/-- It is the operation created last. -/
theorem current_last (h : Lined c q v) (hcur : c.currentOp = some a) :
    ∃ l, c.operations = l ++ [a] := by
  obtain ⟨done, live, hal, -⟩ := h
  obtain ⟨s, rfl, rfl, -⟩ := current_live hal hcur
  refine ⟨done.map Slot.addr, ?_⟩
  rw [hal.operations, slots_some, List.map_append, List.map_singleton]

theorem ids_filterMap_sublist (l : List (Slot T A))
    (hids : ∀ s ∈ l, ∀ r, s.stream = some r → r.id = s.id) :
    (Fifo.ids (l.filterMap Slot.stream)).Sublist (l.map Slot.id) := by
  induction l with
  | nil => exact List.Sublist.refl _
  | cons s l ih =>
      have hrest := ih fun x hx => hids x (List.mem_cons_of_mem _ hx)
      rw [List.filterMap_cons]
      cases hs : s.stream with
      | none => exact hrest.cons _
      | some r =>
          have hid : r.id = s.id := hids s List.mem_cons_self r hs
          rw [Fifo.ids_cons, hid]
          exact hrest.cons_cons _

/-- The streams come in the order of their operations. -/
theorem ids_sublist (h : Lined c q v) : (Fifo.ids q.records).Sublist c.opIds := by
  obtain ⟨done, live, hal, hview⟩ := h
  have hids : c.opIds = (slots done live).map Slot.id := by
    rw [OpCtl.opIds, hal.operations, List.map_map]
    apply List.map_congr_left
    intro s hs
    exact (hal.heap s hs).1
  rw [hids, hal.streams]
  exact ids_filterMap_sublist _ hal.ids

/-- The slot of an operation. -/
theorem mem_slot {done : List (Slot T A)} {live : Option (Slot T A)}
    (hal : Aligned c q.records done live) (ha : a ∈ c.operations) :
    ∃ s ∈ slots done live, (c.heap a).id = s.id ∧ (c.heap a).status = s.status := by
  rw [hal.operations] at ha
  obtain ⟨s, hs, rfl⟩ := List.mem_map.mp ha
  exact ⟨s, hs, hal.heap s hs⟩

/-- No operation has the address the next one gets. -/
theorem lt_fresh (h : Lined c q v) (ha : a ∈ c.operations) : a < c.fresh := by
  obtain ⟨done, live, hal, -⟩ := h
  rw [hal.operations] at ha
  obtain ⟨s, hs, rfl⟩ := List.mem_map.mp ha
  exact hal.bound s hs

/-- An operation that streams or has ended has its stream. -/
theorem has_stream (h : Lined c q v) (ha : a ∈ c.operations)
    (hst : (c.heap a).status = .streaming ∨ (c.heap a).status = .end_) :
    (c.heap a).id ∈ Fifo.ids q.records := by
  obtain ⟨done, live, hal, -⟩ := h
  obtain ⟨s, hs, hid, hsst⟩ := mem_slot hal ha
  rw [hsst] at hst
  have hstream : ∃ r, s.stream = some r := by
    rw [slots, List.mem_append, Option.mem_toList] at hs
    rcases hs with hs | hs
    · rcases hal.done_ok s hs with hd | hd | ⟨-, r, hr, -⟩
      · simp [hd] at hst
      · simp [hd] at hst
      · exact ⟨r, hr⟩
    · rcases hal.live_ok s hs with ⟨hd, -⟩ | ⟨-, r, hr, -⟩
      · simp [hd] at hst
      · exact ⟨r, hr⟩
  obtain ⟨r, hr⟩ := hstream
  rw [hid, ← hal.ids s hs r hr]
  apply Fifo.mem_ids_of_mem
  rw [hal.streams]
  exact List.mem_filterMap.mpr ⟨s, hs, hr⟩

/-- An operation without a response has none, and no stream has its id. -/
theorem no_stream (h : Lined c q v) (ha : a ∈ c.operations)
    (hst : (c.heap a).status = .start) : (c.heap a).id ∉ Fifo.ids q.records := by
  obtain ⟨done, live, hal, -⟩ := h
  obtain ⟨s, hs, hid, hsst⟩ := mem_slot hal ha
  rw [hsst] at hst
  have hlive : live = some s := by
    rw [slots, List.mem_append, Option.mem_toList] at hs
    rcases hs with hs | hs
    · rcases hal.done_ok s hs with hd | hd | ⟨hd, -⟩
      · simp [hd] at hst
      · simp [hd] at hst
      · simp [hd] at hst
    · exact hs
  subst hlive
  rw [hid, Fifo.mem_ids]
  rintro ⟨r, hr, hrid⟩
  obtain ⟨x, hx, hxr, hxid⟩ := hal.mem_streams hr
  rw [slots_some, List.mem_append, List.mem_singleton] at hx
  rcases hx with hx | rfl
  · exact hal.live_new s rfl x hx (hxid.symm.trans hrid)
  · rcases hal.live_ok x rfl with ⟨-, hnone⟩ | ⟨hd, -⟩
    · rw [hxr] at hnone
      cases hnone
    · simp [hd] at hst

theorem begin_stream (h : Lined c q v) (hcur : c.currentOp = some a)
    (hst : (c.heap a).status = .start) :
    Lined (c.setStatus a .streaming) (q.start (c.heap a).id).2 v := by
  obtain ⟨done, live, hal, rfl⟩ := h
  obtain ⟨s, rfl, rfl, hid, hs⟩ := current_live hal hcur
  obtain ⟨t, hal', -, -, -, hview⟩ := hal.begin_stream (hs ▸ hst)
  refine ⟨done, some t, ?_, hview⟩
  rw [Streams.start_records, hid]
  exact hal'

theorem push_data (h : Lined c q v) (hcur : c.currentOp = some a)
    (hst : (c.heap a).status = .streaming) (d : Sp T) :
    Lined c (q.stream (c.heap a).id d).2 v := by
  obtain ⟨done, live, hal, rfl⟩ := h
  obtain ⟨s, rfl, rfl, hid, hs⟩ := current_live hal hcur
  obtain ⟨t, hal', -, -, -, hview⟩ := hal.push_data (hs ▸ hst) d q.ids_nodup
  refine ⟨done, some t, ?_, hview⟩
  rw [Streams.stream_records, hid]
  exact hal'

/-- `status = END` and `finish_op`. -/
theorem finishOp_eq (h : Lined c q v) (hcur : c.currentOp = some a) :
    c.finishOp = (c.setStatus a .end_).resetAndNotify ∧
      (c.setStatus a .end_).finishOp = (c.setStatus a .end_).resetAndNotify := by
  have hst : (c.heap a).status ≠ .cancelled ∧ (c.heap a).status ≠ .error := by
    rcases h.current_status hcur with hst | hst <;> simp [hst]
  constructor
  · exact OpCtl.finishOp_some hcur hst.1 hst.2
  · have hcur' : (c.setStatus a .end_).currentOp = some a := hcur
    rw [OpCtl.finishOp_some hcur' (by simp) (by simp), OpCtl.setStatus, OpCtl.setStatus]
    simp [OpCtl.modify]

/-- The response that ends the operation: its stream is ended. -/
theorem finish_end (h : Lined c q v) (hcur : c.currentOp = some a)
    (hst : (c.heap a).status = .streaming) (d : Sp T) :
    Lined (c.setStatus a .end_).finishOp (q.end_ (c.heap a).id d).2 v := by
  rw [(h.finishOp_eq hcur).2]
  obtain ⟨done, live, hal, rfl⟩ := h
  obtain ⟨s, rfl, rfl, hid, hs⟩ := current_live hal hcur
  rw [hs] at hst
  have hops : (c.setStatus s.addr .end_).resetAndNotify.operations = c.operations := rfl
  obtain ⟨t, hal', hview⟩ := hal.close_stream hst (f := Record.complete d) (fun _ => rfl)
    (fun _ => rfl) (fun _ => .inl rfl) q.ids_nodup hops rfl rfl
    (fun b hb => OpCtl.setStatus_heap_ne _ _ _ hb) (by simp [hid])
  refine ⟨done ++ [t], none, ?_, hview⟩
  rw [Streams.end_records, hid, Fifo.end_of_mem d (hal.mem_ids_live hst)]
  exact hal'

/-- The response that fails the operation: its stream is closed with the server's error. -/
theorem finish_error (h : Lined c q v) (hcur : c.currentOp = some a)
    (hst : (c.heap a).status = .streaming) {err : BitVec 32} (herr : err ≠ 0) :
    Lined c.finishOp (q.erase (c.heap a).id err).2 v := by
  rw [(h.finishOp_eq hcur).1]
  obtain ⟨done, live, hal, rfl⟩ := h
  obtain ⟨s, rfl, rfl, hid, hs⟩ := current_live hal hcur
  rw [hs] at hst
  have hclosed : ∀ r : Record T A, (r.erase err).state = .completed ∨
      ∃ e, (r.erase err).state = .error e := by
    intro r
    refine .inr ⟨err.setWidth 16, ?_⟩
    have hstate : Record.erasedState err = .error (err.setWidth 16) := if_pos herr
    exact hstate
  have hops : (c.setStatus s.addr .end_).resetAndNotify.operations = c.operations := rfl
  obtain ⟨t, hal', hview⟩ := hal.close_stream hst (f := Record.erase err) (fun _ => rfl)
    (fun _ => rfl) hclosed q.ids_nodup hops rfl rfl
    (fun b hb => OpCtl.setStatus_heap_ne _ _ _ hb) (by simp [hid])
  refine ⟨done ++ [t], none, ?_, hview⟩
  rw [Streams.erase_records, hid, Fifo.erase_of_mem err (hal.mem_ids_live hst)]
  exact hal'

/-- When the current operation has been finished all of them are. -/
theorem finishOp_terminal (h : Lined c q v) :
    ∀ b ∈ c.finishOp.operations, (c.finishOp.heap b).status.Terminal := by
  intro b hb
  have hb' : b ∈ c.operations := (OpCtl.Quiet.finishOp c).operations.subset hb
  by_cases hcur : c.currentOp = some b
  · rw [(h.finishOp_eq hcur).1]
    exact .inl (by simp)
  · have hterm := h.terminal hb' hcur
    cases hc : c.currentOp with
    | none =>
        rw [OpCtl.finishOp_none hc]
        exact hterm
    | some a =>
        have hne : b ≠ a := by
          rintro rfl
          exact hcur hc
        rw [(h.finishOp_eq hc).1, OpCtl.resetAndNotify_heap, OpCtl.setStatus_heap_ne _ _ _ hne]
        exact hterm

/-! ### Polling -/

theorem dropStream_front (h : Lined c q v) (ha : c.frontOp = some a)
    (hst : (c.heap a).status = .cancelled ∨ (c.heap a).status = .error) (out : PopArgs T) :
    ∃ q' b v', dropStream (c.heap a).id out q = some q' ∧ v = ((c.heap a).id, b) :: v' ∧
      Lined c.removeFrontOp q' v' ∧ ∀ r ∈ q'.records, r ∈ q.records := by
  obtain ⟨done, live, hal, rfl⟩ := h
  obtain ⟨q', done', hdrop, hal', ⟨b, hview⟩, hmem⟩ := hal.dropStream_front ha hst out
  exact ⟨q', b, _, hdrop, hview, ⟨done', live, hal', rfl⟩, hmem⟩

theorem pop_front (h : Lined c q v) (ha : c.frontOp = some a)
    (hc : (c.heap a).status ≠ .cancelled) (he : (c.heap a).status ≠ .error) (out : PopArgs T) :
    ∃ t out' q', q.pop out = ((t, out'), q') ∧
      Fifo.pop out q.records = (t, out', q'.records) ∧
      (t = .empty ∧ q'.records = q.records ∨
        t ≠ .empty ∧ out'.id = (c.heap a).id ∧ ∃ v',
          Lined (if t.isLast then c.removeFrontOp else c) q' v' ∧
          Served (c.heap a).id v v' t) ∧
      (t = .error → ∃ r ∈ q.records, ∃ e, r.state = .error e) := by
  obtain ⟨done, live, hal, rfl⟩ := h
  obtain ⟨t, out', q', hpop, hcase, herr⟩ := hal.pop_front ha hc he out
  obtain ⟨t₁, out₁, q₁, hpop₁, hfifo⟩ := q.pop_eq out
  rw [hpop] at hpop₁
  cases hpop₁
  refine ⟨t, out', q', hpop, hfifo, ?_, herr⟩
  rcases hcase with hempty | ⟨ht, hid, done', live', hal', hserved⟩
  · exact .inl hempty
  · exact .inr ⟨ht, hid, view done' live', ⟨done', live', hal', rfl⟩, hserved⟩

end Lined

end OpenVoice
