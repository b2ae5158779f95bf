import OpenVoice.OpCtl.Sections

/-!
# Polling an aligned pair of queues

`poll` looks at the operation in front.  A cancelled or failed one is reported and removed with
its stream (`dropStream`); for any other the stream in front of `responses_` is served.  On
aligned queues the stream that is taken is the one of the operation, so the assertions
`id == op->id` hold.
-/

namespace OpenVoice

variable {E T A : Type}

/-- `if (responses_.erase(op->id)) { responses_.pop(id, resin, err); assert(id == op->id); }`,
    which `poll` executes for a cancelled and for a failed operation; `none` is the failed
    assertion. -/
def dropStream (id : Int) (out : PopArgs T) (q : Streams T A) : Option (Streams T A) :=
  let r := q.erase id 0#32
  if r.1 then
    let p := r.2.pop out
    if p.1.2.id = id then some p.2 else none
  else some r.2

/-- What a pop for the operation in front may be: the start of its stream, a piece of data, the
    end of it, or nothing yet. -/
inductive Served (id : Int) (v v' : List (Int × Bool)) : PopType → Prop where
  | start {rest : List (Int × Bool)} (hv : v = (id, false) :: rest)
      (hv' : v' = (id, true) :: rest) : Served id v v' .start
  | data {rest : List (Int × Bool)} (hv : v = (id, true) :: rest) (hv' : v' = v) :
      Served id v v' .data
  | end_ (hv : v = (id, true) :: v') : Served id v v' .end_
  | error {b : Bool} (hv : v = (id, b) :: v') : Served id v v' .error

/-- The pop results with which `poll` removes the operation. -/
def PopType.isLast : PopType → Bool
  | .end_ | .error => true
  | _ => false

namespace Aligned

variable {c : OpCtl E} {rs : List (Record T A)} {done : List (Slot T A)}
  {live : Option (Slot T A)}

/-- The operation in front belongs to the first slot. -/
theorem front_eq (h : Aligned c rs done live) {a : Nat} (ha : c.operations.head? = some a) :
    (∃ x rest, done = x :: rest ∧ x.addr = a ∧ (c.heap a).id = x.id ∧
        (c.heap a).status = x.status) ∨
      done = [] ∧ ∃ s, live = some s ∧ s.addr = a ∧ (c.heap a).id = s.id ∧
        (c.heap a).status = s.status := by
  rw [h.operations] at ha
  cases done with
  | nil =>
      cases live with
      | none => simp at ha
      | some s =>
          obtain rfl : s.addr = a := by simpa using ha
          exact .inr ⟨rfl, s, rfl, rfl, h.heap s (by simp)⟩
  | cons x rest =>
      obtain rfl : x.addr = a := by simpa [slots_cons] using ha
      exact .inl ⟨x, rest, rfl, rfl, h.heap x (by simp [slots_cons])⟩

/-- **A cancelled or failed operation in front** is removed together with its stream. -/
theorem dropStream_front {q : Streams T A} (h : Aligned c q.records done live) {a : Nat}
    (ha : c.operations.head? = some a)
    (hst : (c.heap a).status = .cancelled ∨ (c.heap a).status = .error) (out : PopArgs T) :
    ∃ q' done', dropStream (c.heap a).id out q = some q' ∧
      Aligned c.removeFrontOp q'.records done' live ∧
      (∃ b, view done live = ((c.heap a).id, b) :: view done' live) ∧
      ∀ r ∈ q'.records, r ∈ q.records := by
  rcases h.front_eq ha with ⟨x, rest, rfl, -, hid, -⟩ | ⟨rfl, s, rfl, -, -, hst'⟩
  · rw [hid]
    have hrest := h.removeFront
    cases hx : x.stream with
    | none =>
        have hno := h.front_notMem hx
        have herase := Fifo.erase_of_notMem 0#32 hno
        refine ⟨(q.erase x.id 0#32).2, rest, ?_, ?_, ⟨x.polled, rfl⟩, ?_⟩
        · have hflag : (q.erase x.id 0#32).1 = false := by rw [Streams.erase_fst, herase]
          simp only [dropStream, hflag, Bool.false_eq_true, if_false]
        · rw [Streams.erase_records, herase, h.streams_cons, hx]
          exact hrest
        · rw [Streams.erase_records, herase]
          exact fun r hr => hr
    | some r =>
        have hrid : r.id = x.id := h.ids x (by simp [slots_cons]) r hx
        have hrs := h.streams_cons
        rw [hx, Option.toList_some, List.singleton_append] at hrs
        have hmem : x.id ∈ Fifo.ids q.records := by
          rw [hrs, ← hrid]
          simp
        -- the stream in front is erased and then popped as removed
        have herased : (q.erase x.id 0#32).2.records =
            r.erase 0#32 :: (slots rest live).filterMap Slot.stream := by
          have hnd := q.ids_nodup
          rw [hrs] at hnd
          rw [Streams.erase_records, Fifo.erase_of_mem 0#32 hmem, hrs, ← hrid]
          exact Fifo.amend_split (Record.erase 0#32) (l := []) hnd
        obtain ⟨t, out', q', hpop, hfifo⟩ := (q.erase x.id 0#32).2.pop_eq out
        have hdel : (r.erase 0#32).state = .deleted := rfl
        rw [herased, Fifo.pop_removed out hdel, Prod.mk.injEq, Prod.mk.injEq] at hfifo
        obtain ⟨-, hout, hq'⟩ := hfifo
        have hflag : (q.erase x.id 0#32).1 = true := by
          rw [Streams.erase_fst, Fifo.erase_of_mem 0#32 hmem]
        have hpopid : out'.id = x.id := by
          rw [← hout, Record.erase_id, hrid]
        refine ⟨q', rest, ?_, hq' ▸ hrest, ⟨x.polled, rfl⟩, ?_⟩
        · simp only [dropStream, hflag, hpop, hpopid, if_true]
        · rw [← hq', hrs]
          exact fun r' hr' => List.mem_cons_of_mem _ hr'
  · -- a live operation is neither cancelled nor failed
    rcases h.live_status with hs | hs
    · rw [hst', hs] at hst
      simp at hst
    · rw [hst', hs] at hst
      simp at hst

/-- What a pop of the queue `rs` does when the operation in front has this id: nothing yet, or the
    operation is served. -/
structure PopsFront (c : OpCtl E) (id : Int) (rs : List (Record T A)) (done : List (Slot T A))
    (live : Option (Slot T A)) (p : PopType × PopArgs T × List (Record T A)) : Prop where
  serves : p.1 = .empty ∧ p.2.2 = rs ∨
    p.1 ≠ .empty ∧ p.2.1.id = id ∧ ∃ done' live',
      Aligned (if p.1.isLast then c.removeFrontOp else c) p.2.2 done' live' ∧
      Served id (view done live) (view done' live') p.1
  error : p.1 = .error → ∃ r ∈ rs, ∃ e, r.state = .error e

/-- A finished operation that is neither cancelled nor failed has ended, so its stream is closed. -/
theorem pop_finished {x : Slot T A} {rest : List (Slot T A)} (h : Aligned c rs (x :: rest) live)
    (hc : x.status ≠ .cancelled) (he : x.status ≠ .error) (out : PopArgs T) :
    PopsFront c x.id rs (x :: rest) live (Fifo.pop out rs) := by
  have hx : x ∈ x :: rest := List.mem_cons_self
  rcases h.done_ok x hx with hcan | herr | ⟨-, r, hr, hclosed⟩
  · exact absurd hcan hc
  · exact absurd herr he
  have hrid : r.id = x.id := h.ids x (by simp [slots_cons]) r hr
  have hrs := h.streams_cons
  rw [hr, Option.toList_some, List.singleton_append] at hrs
  have hrest := h.removeFront
  have hpolled : x.polled = r.polling := by simp [Slot.polled, hr]
  rcases hclosed with hcomp | ⟨e, herr⟩
  · cases hpoll : r.polling with
    | false =>
        rw [hrs, Fifo.pop_start out (.inr hcomp) hpoll]
        refine ⟨.inr ⟨by simp, hrid,
          { x with stream := some { r with polling := true } } :: rest, live, ?_, ?_⟩, by simp⟩
        · exact h.replaceFront hr rfl rfl
        · apply Served.start
          · rw [view, slots_cons, List.map_cons, hpolled, hpoll]
          · rfl
    | true =>
        have hview : view (x :: rest) live = (x.id, true) :: view rest live := by
          rw [view, slots_cons, List.map_cons, hpolled, hpoll]
          rfl
        cases hpend : r.pending with
        | nil =>
            rw [hrs, Fifo.pop_end out hcomp hpoll hpend]
            exact ⟨.inr ⟨by simp, hrid, rest, live, hrest, .end_ hview⟩, by simp⟩
        | cons d ds =>
            rw [hrs, Fifo.pop_data out (.inr hcomp) hpoll hpend]
            refine ⟨.inr ⟨by simp, hrid,
              { x with stream := some { r with pending := ds } } :: rest, live, ?_, ?_⟩, by simp⟩
            · exact h.replaceFront hr rfl rfl
            · refine Served.data hview ?_
              rw [hview, view, slots_cons, List.map_cons]
              simp [Slot.polled, hpoll, view]
  · rw [hrs, Fifo.pop_error out herr]
    refine ⟨.inr ⟨by simp, hrid, rest, live, hrest, .error rfl⟩, ?_⟩
    intro _
    exact ⟨r, List.mem_cons_self, e, herr⟩

/-- A live operation has a stream from its first response on. -/
theorem pop_live {s : Slot T A} (h : Aligned c rs [] (some s)) (out : PopArgs T) :
    PopsFront c s.id rs [] (some s) (Fifo.pop out rs) := by
  rcases h.live_ok s rfl with ⟨-, hnone⟩ | ⟨hstream, -⟩
  · -- no response yet: nothing is queued
    have hrs := h.streams_some
    rw [hnone] at hrs
    have hnil : rs = [] := by simpa using hrs
    rw [hnil]
    exact ⟨.inl ⟨rfl, rfl⟩, by simp [Fifo.pop]⟩
  · obtain ⟨r, hr, hopen, hrid, hrs⟩ := h.live_stream hstream
    rw [List.filterMap_nil, List.nil_append] at hrs
    have hpolled : s.polled = r.polling := by simp [Slot.polled, hr]
    have hview : ∀ t : Slot T A, view [] (some t) = [(t.id, t.polled)] := fun t => rfl
    -- the record is replaced by one of the same stream, which stays open
    have hreplace : ∀ r' : Record T A, r'.id = r.id → r'.state = .uncompleted →
        Aligned c [r'] [] (some { s with stream := some r' }) := by
      intro r' hid' hopen'
      refine h.replaceLive rfl rfl (.inr ⟨hstream, _, rfl, hopen'⟩) ?_ rfl rfl rfl
        (fun _ _ => rfl) h.heap_live rfl
      rintro p ⟨⟩
      exact hid'.trans hrid
    cases hpoll : r.polling with
    | false =>
        rw [hrs, Fifo.pop_start out (.inl hopen) hpoll]
        refine ⟨.inr ⟨by simp, hrid, [],
          some { s with stream := some { r with polling := true } }, ?_, ?_⟩, by simp⟩
        · exact hreplace _ rfl hopen
        · apply Served.start
          · rw [hview, hpolled, hpoll]
          · rfl
    | true =>
        cases hpend : r.pending with
        | nil =>
            rw [hrs, Fifo.pop_wait out hopen hpoll hpend]
            exact ⟨.inl ⟨rfl, rfl⟩, by simp⟩
        | cons d ds =>
            rw [hrs, Fifo.pop_data out (.inl hopen) hpoll hpend]
            refine ⟨.inr ⟨by simp, hrid, [],
              some { s with stream := some { r with pending := ds } }, ?_, ?_⟩, by simp⟩
            · exact hreplace _ rfl hopen
            · have hv : view [] (some s) = [(s.id, true)] := by
                rw [hview, hpolled, hpoll]
              refine Served.data hv ?_
              rw [hv, hview]
              simp [Slot.polled, hpoll]

/-- **Any other operation in front** is served from its own stream. -/
theorem pop_front {q : Streams T A} (h : Aligned c q.records done live) {a : Nat}
    (ha : c.operations.head? = some a) (hc : (c.heap a).status ≠ .cancelled)
    (he : (c.heap a).status ≠ .error) (out : PopArgs T) :
    ∃ t out' q', q.pop out = ((t, out'), q') ∧
      (t = .empty ∧ q'.records = q.records ∨
        t ≠ .empty ∧ out'.id = (c.heap a).id ∧ ∃ done' live',
          Aligned (if t.isLast then c.removeFrontOp else c) q'.records done' live' ∧
          Served (c.heap a).id (view done live) (view done' live') t) ∧
      (t = .error → ∃ r ∈ q.records, ∃ e, r.state = .error e) := by
  obtain ⟨t, out', q', hpop, hfifo⟩ := q.pop_eq out
  have hfront : PopsFront c (c.heap a).id q.records done live (Fifo.pop out q.records) := by
    rcases h.front_eq ha with ⟨x, rest, rfl, -, hid, hxst⟩ | ⟨rfl, s, rfl, -, hid, -⟩
    · rw [hid]
      rw [hxst] at hc he
      exact h.pop_finished hc he out
    · rw [hid]
      exact h.pop_live out
  rw [hfifo] at hfront
  exact ⟨t, out', q', hpop, hfront.serves, hfront.error⟩

end Aligned

end OpenVoice
