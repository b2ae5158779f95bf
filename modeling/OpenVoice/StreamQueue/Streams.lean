import OpenVoice.StreamQueue.Calls

/-!
# Well-formed stream queues

The members of a `StreamQueue` object are private, so every object a client meets has gone
through the operations only.  `Streams` carries that invariant as a field: on it the operations
are total, and each of them does to the records what the FIFO operation of the same name does.
The request and response sides use the queue in this form.
-/

namespace OpenVoice

/-- A `StreamQueue` object with its representation invariant. -/
structure Streams (T A : Type) where
  queue : StreamQueue T A
  wf : queue.Wf

namespace Streams

variable {T A : Type}

def records (q : Streams T A) : List (Record T A) := q.queue.records

theorem ids_nodup (q : Streams T A) : (Fifo.ids q.records).Nodup := by
  obtain ⟨segs, hrep⟩ := q.wf
  rw [records, hrep.records_eq]
  exact hrep.ids

/-- The result of an operation that neither fails an `assert` nor breaks the invariant. -/
def lift {β : Type} (r : Option (β × StreamQueue T A))
    (h : ∃ b q, r = some (b, q) ∧ q.Wf) : β × Streams T A :=
  have hsome : r.isSome := by
    obtain ⟨b, q, rfl, -⟩ := h
    rfl
  have hwf : (r.get hsome).2.Wf := by
    obtain ⟨b, q, rfl, hq⟩ := h
    exact hq
  ((r.get hsome).1, ⟨(r.get hsome).2, hwf⟩)

theorem lift_fst {β : Type} {r : Option (β × StreamQueue T A)} {b : β} {q : StreamQueue T A}
    {h : ∃ b q, r = some (b, q) ∧ q.Wf} (hr : r = some (b, q)) : (lift r h).1 = b := by
  subst hr
  rfl

theorem lift_records {β : Type} {r : Option (β × StreamQueue T A)} {b : β}
    {q : StreamQueue T A} {h : ∃ b q, r = some (b, q) ∧ q.Wf} (hr : r = some (b, q)) :
    (lift r h).2.records = q.records := by
  subst hr
  rfl

/-! ### The operations -/

def empty : Streams T A := ⟨.empty, ⟨[], StreamQueue.represents_empty⟩⟩

def start (id : Int) (q : Streams T A) : Bool × Streams T A :=
  ((q.queue.start id).1, ⟨(q.queue.start id).2, by
    obtain ⟨segs, hrep⟩ := q.wf
    obtain ⟨segs', hrep', -⟩ := StreamQueue.start_represents id hrep
    exact ⟨segs', hrep'⟩⟩)

def stream (id : Int) (data : Sp T) (q : Streams T A) : Bool × Streams T A :=
  lift (q.queue.stream id data) (by
    obtain ⟨segs, hrep⟩ := q.wf
    obtain ⟨b, q', segs', hq', hrep', -⟩ := StreamQueue.stream_represents id hrep data
    exact ⟨b, q', hq', segs', hrep'⟩)

/-- `end(id)` is `end(id, nullptr)`. -/
def end_ (id : Int) (data : Sp T) (q : Streams T A) : Bool × Streams T A :=
  lift (q.queue.end_ id data) (by
    obtain ⟨segs, hrep⟩ := q.wf
    obtain ⟨b, q', segs', hq', hrep', -⟩ := StreamQueue.end_represents id hrep data
    exact ⟨b, q', hq', segs', hrep'⟩)

def setArg (id : Int) (arg : Sp A) (q : Streams T A) : Streams T A :=
  (lift ((q.queue.setArg id arg).map fun q' => ((), q')) (by
    obtain ⟨segs, hrep⟩ := q.wf
    obtain ⟨q', segs', hq', hrep', -⟩ := StreamQueue.setArg_represents id hrep arg
    exact ⟨(), q', by rw [hq', Option.map_some], segs', hrep'⟩)).2

def getArg (id : Int) (q : Streams T A) : Sp A :=
  (q.queue.getArg id).get (by
    obtain ⟨segs, hrep⟩ := q.wf
    rw [StreamQueue.getArg_represents id hrep]
    rfl)

def erase (id : Int) (err : BitVec 32) (q : Streams T A) : Bool × Streams T A :=
  lift (q.queue.erase id err) (by
    obtain ⟨segs, hrep⟩ := q.wf
    obtain ⟨b, q', segs', hq', hrep', -⟩ := StreamQueue.erase_represents id hrep err
    exact ⟨b, q', hq', segs', hrep'⟩)

def clear (q : Streams T A) : (Int × Int) × Streams T A :=
  lift q.queue.clear (by
    obtain ⟨segs, hrep⟩ := q.wf
    obtain ⟨q', segs', hq', hrep', -⟩ := StreamQueue.clear_represents hrep
    exact ⟨_, q', hq', segs', hrep'⟩)

def close (q : Streams T A) : Streams T A :=
  ⟨q.queue.close, [], StreamQueue.represents_close q.queue⟩

def pop (out : PopArgs T) (q : Streams T A) : (PopType × PopArgs T) × Streams T A :=
  lift ((q.queue.pop out).map fun r => ((r.1, r.2.1), r.2.2)) (by
    obtain ⟨segs, hrep⟩ := q.wf
    obtain ⟨t, out', q', segs', hq', hrep', -⟩ := StreamQueue.pop_represents hrep out
    exact ⟨(t, out'), q', by rw [hq', Option.map_some], segs', hrep'⟩)

def available (q : Streams T A) : Bool :=
  q.queue.available.get (by
    obtain ⟨segs, hrep⟩ := q.wf
    rw [StreamQueue.available_represents hrep]
    rfl)

/-! ### Their effect on the records -/

section Records

variable (q : Streams T A) (id : Int)

@[simp] theorem records_empty : (empty : Streams T A).records = [] := rfl

@[simp] theorem start_fst : (q.start id).1 = (Fifo.start id q.records).1 := by
  obtain ⟨segs, hrep⟩ := q.wf
  obtain ⟨segs', -, hret, -⟩ := StreamQueue.start_represents id hrep
  rw [records, hrep.records_eq]
  exact hret

@[simp] theorem start_records : (q.start id).2.records = (Fifo.start id q.records).2 := by
  obtain ⟨segs, hrep⟩ := q.wf
  obtain ⟨segs', hrep', -, hrec⟩ := StreamQueue.start_represents id hrep
  rw [records, records, hrep.records_eq, ← hrec]
  exact hrep'.records_eq

@[simp] theorem stream_fst (data : Sp T) :
    (q.stream id data).1 = (Fifo.stream id data q.records).1 := by
  obtain ⟨segs, hrep⟩ := q.wf
  obtain ⟨b, q', segs', hq', -, hret, -⟩ := StreamQueue.stream_represents id hrep data
  rw [records, hrep.records_eq, stream, lift_fst hq', hret]

@[simp] theorem stream_records (data : Sp T) :
    (q.stream id data).2.records = (Fifo.stream id data q.records).2 := by
  obtain ⟨segs, hrep⟩ := q.wf
  obtain ⟨b, q', segs', hq', hrep', -, hrec⟩ := StreamQueue.stream_represents id hrep data
  rw [stream, lift_records hq', hrep'.records_eq, hrec, records, hrep.records_eq]

@[simp] theorem end_fst (data : Sp T) :
    (q.end_ id data).1 = (Fifo.end_ id data q.records).1 := by
  obtain ⟨segs, hrep⟩ := q.wf
  obtain ⟨b, q', segs', hq', -, hret, -⟩ := StreamQueue.end_represents id hrep data
  rw [records, hrep.records_eq, end_, lift_fst hq', hret]

@[simp] theorem end_records (data : Sp T) :
    (q.end_ id data).2.records = (Fifo.end_ id data q.records).2 := by
  obtain ⟨segs, hrep⟩ := q.wf
  obtain ⟨b, q', segs', hq', hrep', -, hrec⟩ := StreamQueue.end_represents id hrep data
  rw [end_, lift_records hq', hrep'.records_eq, hrec, records, hrep.records_eq]

@[simp] theorem setArg_records (arg : Sp A) :
    (q.setArg id arg).records = Fifo.setArg id arg q.records := by
  obtain ⟨segs, hrep⟩ := q.wf
  obtain ⟨q', segs', hq', hrep', hrec⟩ := StreamQueue.setArg_represents id hrep arg
  have hmap : (q.queue.setArg id arg).map (fun q' => ((), q')) = some ((), q') := by
    rw [hq', Option.map_some]
  rw [setArg, lift_records hmap, records, hrep.records_eq, ← hrec, hrep'.records_eq]

theorem getArg_eq : q.getArg id = Fifo.getArg id q.records := by
  obtain ⟨segs, hrep⟩ := q.wf
  simp only [getArg, StreamQueue.getArg_represents id hrep, Option.get_some, records,
    hrep.records_eq]

@[simp] theorem erase_fst (err : BitVec 32) :
    (q.erase id err).1 = (Fifo.erase id err q.records).1 := by
  obtain ⟨segs, hrep⟩ := q.wf
  obtain ⟨b, q', segs', hq', -, hret, -⟩ := StreamQueue.erase_represents id hrep err
  rw [records, hrep.records_eq, erase, lift_fst hq', hret]

@[simp] theorem erase_records (err : BitVec 32) :
    (q.erase id err).2.records = (Fifo.erase id err q.records).2 := by
  obtain ⟨segs, hrep⟩ := q.wf
  obtain ⟨b, q', segs', hq', hrep', -, hrec⟩ := StreamQueue.erase_represents id hrep err
  rw [erase, lift_records hq', hrep'.records_eq, hrec, records, hrep.records_eq]

@[simp] theorem clear_fst : q.clear.1 = (Fifo.clear q.records).1 := by
  obtain ⟨segs, hrep⟩ := q.wf
  obtain ⟨q', segs', hq', -, -⟩ := StreamQueue.clear_represents hrep
  rw [records, hrep.records_eq, clear, lift_fst hq']

@[simp] theorem clear_records : q.clear.2.records = (Fifo.clear q.records).2 := by
  obtain ⟨segs, hrep⟩ := q.wf
  obtain ⟨q', segs', hq', hrep', hrec⟩ := StreamQueue.clear_represents hrep
  rw [clear, lift_records hq', hrep'.records_eq, hrec, records, hrep.records_eq]

@[simp] theorem close_records : q.close.records = [] :=
  (StreamQueue.represents_close q.queue).records_eq

theorem available_eq : q.available = Fifo.available q.records := by
  obtain ⟨segs, hrep⟩ := q.wf
  simp only [available, StreamQueue.available_represents hrep, Option.get_some, records,
    hrep.records_eq]

theorem pop_eq (out : PopArgs T) : ∃ t out' q',
    q.pop out = ((t, out'), q') ∧ Fifo.pop out q.records = (t, out', q'.records) := by
  obtain ⟨segs, hrep⟩ := q.wf
  obtain ⟨t, out', q', segs', hq', hrep', hpop⟩ := StreamQueue.pop_represents hrep out
  have hmap : (q.queue.pop out).map (fun r => ((r.1, r.2.1), r.2.2)) = some ((t, out'), q') := by
    rw [hq', Option.map_some]
  refine ⟨t, out', ⟨q', segs', hrep'⟩, ?_, ?_⟩
  · rw [pop]
    exact Prod.ext (lift_fst hmap) (by simp only [lift, hmap, Option.get_some])
  · rw [records, hrep.records_eq, hpop, records, hrep'.records_eq]

end Records

/-! ### What holds of all streams -/

section All

variable {P : Record T A → Prop} {q : Streams T A}

theorem all_amend {rs : List (Record T A)} (h : ∀ r ∈ rs, P r) (id : Int)
    {f : Record T A → Record T A} (hf : ∀ r, P r → P (f r)) :
    ∀ r ∈ Fifo.amend id f rs, P r := by
  intro r hr
  obtain ⟨r₀, hr₀, rfl⟩ := List.mem_map.mp hr
  split
  · exact hf r₀ (h r₀ hr₀)
  · exact h r₀ hr₀

theorem all_start (h : ∀ r ∈ q.records, P r) (id : Int) (hnew : P (.opened id)) :
    ∀ r ∈ (q.start id).2.records, P r := by
  rw [start_records]
  by_cases hid : id ∈ Fifo.ids q.records
  · rw [Fifo.start_of_mem hid]
    exact h
  · rw [Fifo.start_of_notMem hid]
    intro r hr
    rcases List.mem_append.mp hr with hr | hr
    · exact h r hr
    · rw [List.mem_singleton.mp hr]
      exact hnew

theorem all_stream (h : ∀ r ∈ q.records, P r) (id : Int) (d : Sp T)
    (hpush : ∀ r, P r → P (r.push d)) : ∀ r ∈ (q.stream id d).2.records, P r := by
  rw [stream_records]
  unfold Fifo.stream
  split
  · exact h
  · split
    · exact all_amend h id hpush
    · exact h

theorem all_end (h : ∀ r ∈ q.records, P r) (id : Int) (d : Sp T)
    (hcomplete : ∀ r, P r → P (r.complete d)) : ∀ r ∈ (q.end_ id d).2.records, P r := by
  rw [end_records]
  unfold Fifo.end_
  split
  · exact all_amend h id hcomplete
  · exact h

theorem all_erase (h : ∀ r ∈ q.records, P r) (id : Int) (err : BitVec 32)
    (herase : ∀ r, P r → P (r.erase err)) : ∀ r ∈ (q.erase id err).2.records, P r := by
  rw [erase_records]
  unfold Fifo.erase
  split
  · exact all_amend h id herase
  · exact h

/-- A pop changes neither the state nor the content of a stream that stays. -/
theorem all_pop (h : ∀ r ∈ q.records, P r) {out : PopArgs T} {q' : Streams T A}
    (hq' : (Fifo.pop out q.records).2.2 = q'.records)
    (hP : ∀ r r' : Record T A, r'.state = r.state → r'.content = r.content → P r → P r') :
    ∀ r ∈ q'.records, P r := by
  intro r hr
  rw [← hq'] at hr
  obtain ⟨r₀, hr₀, -, hst, hcont⟩ := Fifo.mem_pop hr
  exact hP r₀ r hst hcont (h r₀ hr₀)

end All

end Streams

end OpenVoice
