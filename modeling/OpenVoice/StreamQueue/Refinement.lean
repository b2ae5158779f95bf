import OpenVoice.StreamQueue.Model
import Mathlib.Data.List.Flatten
import Mathlib.Data.List.Induction

/-!
# `StreamQueue` refines the FIFO of streams

`queue_` is cut into segments, one for each stream: its data items, then its tag.  The
representation invariant `Represents` ties the three members to such a cut: `tag_queue_` lists
the tags in order, `item_tags_` indexes them by id, positions are distinct, and a removed stream
has no data left (which is what makes `pop_front` take the tag in the removed and error cases).

Every operation keeps the invariant and does to the records what the operation of `Fifo` of the
same name does.  No `assert` fails and no iterator dangles.
-/

namespace OpenVoice

open OpenVoice.Lib OpenVoice.Lib.LinkedList

variable {T A : Type}

/-! ### Segments -/

/-- The data items of a stream and its tag. -/
structure Segment (T A : Type) where
  data : List (Node (QueueItem T A))
  tag : Node (QueueItem T A)

namespace Segment

def nodes (s : Segment T A) : List (Node (QueueItem T A)) := s.data ++ [s.tag]

/-- State of the stream whose tag is `item`; a data item is no tag. -/
def stateOf (item : QueueItem T A) : StreamState :=
  match item.type with
  | .data => .uncompleted
  | .uncompleted => .uncompleted
  | .completed => .completed
  | .deleted => .deleted
  | .error => .error item.err

def record (s : Segment T A) : Record T A :=
  { id := s.tag.val.id
    state := stateOf s.tag.val
    polling := s.tag.val.polling
    pending := s.data.map (·.val.content)
    content := s.tag.val.content
    arg := s.tag.val.arg }

/-- `queue_` as the segments say. -/
def flat (segs : List (Segment T A)) : List (Node (QueueItem T A)) := segs.flatMap nodes

def records (segs : List (Segment T A)) : List (Record T A) := segs.map record

/-- A well-formed segment: data in front, a tag behind, nothing left of a removed stream. -/
structure Ok (s : Segment T A) : Prop where
  data : ∀ n ∈ s.data, n.val.type = .data
  tag : s.tag.val.type ≠ .data
  removed : s.tag.val.type = .deleted ∨ s.tag.val.type = .error → s.data = []

@[simp] theorem flat_nil : flat ([] : List (Segment T A)) = [] := rfl

theorem flat_cons (s : Segment T A) (segs : List (Segment T A)) :
    flat (s :: segs) = s.data ++ s.tag :: flat segs := by
  simp [flat, nodes]

theorem flat_append (l r : List (Segment T A)) : flat (l ++ r) = flat l ++ flat r := by
  simp [flat]

theorem flat_split (l r : List (Segment T A)) (s : Segment T A) :
    flat (l ++ s :: r) = (flat l ++ s.data) ++ s.tag :: flat r := by
  rw [flat_append, flat_cons, List.append_assoc]

@[simp] theorem records_nil : records ([] : List (Segment T A)) = [] := rfl

@[simp] theorem records_cons (s : Segment T A) (segs : List (Segment T A)) :
    records (s :: segs) = s.record :: records segs := rfl

theorem records_append (l r : List (Segment T A)) :
    records (l ++ r) = records l ++ records r := List.map_append

theorem ids_records (segs : List (Segment T A)) :
    Fifo.ids (records segs) = segs.map (·.tag.val.id) := by
  simp [Fifo.ids, records, record]

end Segment

open Segment

namespace StreamQueue

/-! ### The representation invariant -/

structure Represents (q : StreamQueue T A) (segs : List (Segment T A)) : Prop where
  queue : q.queue = flat segs
  tags : q.tagQueue = segs.map (·.tag.pos)
  index : ∀ id it, q.itemTags id = some it ↔ ∃ s ∈ segs, s.tag.val.id = id ∧ s.tag.pos = it
  ids : (Fifo.ids (records segs)).Nodup
  positions : (positions (flat segs)).Nodup
  bound : ∀ n ∈ flat segs, n.pos < q.nextPos
  ok : ∀ s ∈ segs, s.Ok

/-- The records, read off `queue_`: `pending` collects the data in front of the next tag. -/
def recordsFrom (pending : List (Sp T)) : List (Node (QueueItem T A)) → List (Record T A)
  | [] => []
  | n :: rest =>
      if n.val.type = .data then recordsFrom (pending ++ [n.val.content]) rest
      else
        { id := n.val.id, state := stateOf n.val, polling := n.val.polling, pending := pending,
          content := n.val.content, arg := n.val.arg } :: recordsFrom [] rest

/-- The abstraction function. -/
def records (q : StreamQueue T A) : List (Record T A) := recordsFrom [] q.queue

theorem recordsFrom_data (pending : List (Sp T)) (data rest : List (Node (QueueItem T A)))
    (h : ∀ n ∈ data, n.val.type = .data) :
    recordsFrom pending (data ++ rest) =
      recordsFrom (pending ++ data.map (·.val.content)) rest := by
  induction data generalizing pending with
  | nil => simp
  | cons n data ih =>
      have hn : n.val.type = .data := h n (by simp)
      rw [List.cons_append, recordsFrom, if_pos hn, ih _ fun m hm => h m (by simp [hm])]
      simp

theorem recordsFrom_flat (segs : List (Segment T A)) (hok : ∀ s ∈ segs, s.Ok) :
    recordsFrom [] (flat segs) = Segment.records segs := by
  induction segs with
  | nil => rfl
  | cons s segs ih =>
      have hs : s.Ok := hok s (by simp)
      rw [flat_cons, recordsFrom_data _ _ _ hs.data, recordsFrom, if_neg hs.tag,
        ih fun s' h => hok s' (by simp [h])]
      simp [record]

theorem Represents.records_eq {q : StreamQueue T A} {segs : List (Segment T A)}
    (h : q.Represents segs) : q.records = Segment.records segs := by
  unfold StreamQueue.records
  rw [h.queue, recordsFrom_flat segs h.ok]

/-- Well-formed: some cut into segments is represented. -/
def Wf (q : StreamQueue T A) : Prop := ∃ segs, q.Represents segs

theorem represents_empty : (empty : StreamQueue T A).Represents [] where
  queue := rfl
  tags := rfl
  index := by simp [empty]
  ids := by simp
  positions := by simp
  bound := by simp
  ok := by simp

/-! ### Finding a stream -/

section Lookup

variable {q : StreamQueue T A} {segs : List (Segment T A)} {id : Int}

theorem Represents.exists_split (h : q.Represents segs) {it : StreamingItemPos}
    (hit : q.itemTags id = some it) :
    ∃ l s r, segs = l ++ s :: r ∧ s.tag.val.id = id ∧ s.tag.pos = it := by
  obtain ⟨s, hs, hid, hpos⟩ := (h.index id it).mp hit
  obtain ⟨l, r, hsplit⟩ := List.append_of_mem hs
  exact ⟨l, s, r, hsplit, hid, hpos⟩

theorem Represents.notMem_ids (h : q.Represents segs) (hit : q.itemTags id = none) :
    id ∉ Fifo.ids (Segment.records segs) := by
  intro hmem
  rw [ids_records] at hmem
  obtain ⟨s, hs, hid⟩ := List.mem_map.mp hmem
  have := (h.index id s.tag.pos).mpr ⟨s, hs, hid, rfl⟩
  rw [hit] at this
  cases this

theorem Represents.deref_tag {l r : List (Segment T A)} {s : Segment T A}
    (h : q.Represents (l ++ s :: r)) : deref s.tag.pos q.queue = some s.tag.val := by
  have hnd := h.positions
  rw [h.queue]
  rw [flat_split] at hnd ⊢
  exact deref_split hnd

theorem Represents.modify_tag {l r : List (Segment T A)} {s : Segment T A}
    (h : q.Represents (l ++ s :: r)) (f : QueueItem T A → QueueItem T A) :
    modify s.tag.pos f q.queue =
      flat (l ++ { s with tag := { s.tag with val := f s.tag.val } } :: r) := by
  have hnd := h.positions
  rw [h.queue]
  rw [flat_split] at hnd ⊢
  rw [modify_split f hnd, flat_split]

end Lookup

/-! ### Replacing one segment -/

/-- Nodup survives when a block is replaced by one without repetition whose new entries are
    nowhere else. -/
theorem nodup_replace_block {α : Type} {l d d' r : List α} (hnd : (l ++ d ++ r).Nodup)
    (hd' : d'.Nodup) (hnew : ∀ x ∈ d', x ∈ d ∨ (x ∉ l ∧ x ∉ r)) : (l ++ d' ++ r).Nodup := by
  simp only [List.nodup_append] at hnd ⊢
  obtain ⟨⟨hl, -, hld⟩, hr, hldr⟩ := hnd
  refine ⟨⟨hl, hd', ?_⟩, hr, ?_⟩
  · intro a ha b hb heq
    subst heq
    rcases hnew a hb with hin | ⟨hnl, -⟩
    · exact hld a ha a hin rfl
    · exact hnl ha
  · intro a ha b hb heq
    subst heq
    rcases List.mem_append.mp ha with hal | had'
    · exact hldr a (List.mem_append.mpr (.inl hal)) a hb rfl
    · rcases hnew a had' with hin | ⟨-, hnr⟩
      · exact hldr a (List.mem_append.mpr (.inr hin)) a hb rfl
      · exact hnr hb

/-- One segment replaced by another one with the same tag position and id: the invariant holds
    again, the data positions being old ones of this stream or unused ones. -/
theorem Represents.replace {q : StreamQueue T A} {l r : List (Segment T A)}
    {s t : Segment T A} {k : Nat} (h : q.Represents (l ++ s :: r))
    (hpos : t.tag.pos = s.tag.pos) (hid : t.tag.val.id = s.tag.val.id) (hok : t.Ok)
    (hnd : (LinkedList.positions t.data).Nodup) (hnext : q.nextPos ≤ k)
    (hnew : ∀ p ∈ LinkedList.positions t.data,
      p ∈ LinkedList.positions s.data ∨ (q.nextPos ≤ p ∧ p < k)) :
    ({ q with queue := flat (l ++ t :: r), nextPos := k } :
      StreamQueue T A).Represents (l ++ t :: r) where
  queue := rfl
  tags := by rw [h.tags]; simp [hpos]
  index := by
    intro id it
    rw [h.index]
    simp only [List.mem_append, List.mem_cons, or_and_right, exists_or, exists_eq_left, hpos, hid]
  ids := by
    have := h.ids
    rw [ids_records] at this ⊢
    simpa [hid] using this
  positions := by
    have hold := h.positions
    have hb := h.bound
    rw [flat_split] at hold hb ⊢
    simp only [positions_append, positions_cons, hpos] at hold ⊢
    refine nodup_replace_block hold hnd ?_
    intro p hp
    rcases hnew p hp with hin | ⟨hge, -⟩
    · exact .inl hin
    · -- an unused position is at none of the old nodes
      have hfar : ∀ n ∈ (flat l ++ s.data) ++ s.tag :: flat r, n.pos ≠ p := fun n hn => by
        have := hb n hn
        omega
      refine .inr ⟨?_, ?_⟩
      · rw [mem_positions]
        rintro ⟨n, hn, hnp⟩
        exact hfar n (by simp [hn]) hnp
      · rw [List.mem_cons, mem_positions]
        rintro (htag | ⟨n, hn, hnp⟩)
        · exact hfar s.tag (by simp) htag.symm
        · exact hfar n (by simp [hn]) hnp
  bound := by
    have hb := h.bound
    rw [flat_split] at hb ⊢
    intro n hn
    simp only [List.mem_append, List.mem_cons] at hb hn
    rcases hn with (hl | hd) | rfl | hr
    · exact Nat.lt_of_lt_of_le (hb n (.inl (.inl hl))) hnext
    · rcases hnew n.pos (mem_positions.mpr ⟨n, hd, rfl⟩) with hin | ⟨-, hlt⟩
      · obtain ⟨m, hm, hmn⟩ := mem_positions.mp hin
        exact hmn ▸ Nat.lt_of_lt_of_le (hb m (.inl (.inr hm))) hnext
      · exact hlt
    · exact hpos ▸ Nat.lt_of_lt_of_le (hb s.tag (.inr (.inl rfl))) hnext
    · exact Nat.lt_of_lt_of_le (hb n (.inr (.inr hr))) hnext
  ok := by
    intro x hx
    rcases List.mem_append.mp hx with hl | hr
    · exact h.ok x (by simp [hl])
    · rcases List.mem_cons.mp hr with rfl | hr
      · exact hok
      · exact h.ok x (by simp [hr])

/-- The replaced segment in a queue whose records are amended. -/
theorem records_replace {q : StreamQueue T A} {l r : List (Segment T A)} {s s' : Segment T A}
    (h : q.Represents (l ++ s :: r)) {f : Record T A → Record T A} (hf : s'.record = f s.record) :
    Segment.records (l ++ s' :: r) =
      Fifo.amend s.tag.val.id f (Segment.records (l ++ s :: r)) := by
  have hids := h.ids
  rw [records_append, records_cons] at hids ⊢
  rw [records_append, records_cons, hf]
  exact (Fifo.amend_split (r := s.record) f hids).symm

theorem find_records {q : StreamQueue T A} {l r : List (Segment T A)} {s : Segment T A}
    (h : q.Represents (l ++ s :: r)) :
    Fifo.find s.tag.val.id (Segment.records (l ++ s :: r)) = some s.record := by
  have hids := h.ids
  rw [records_append, records_cons] at hids ⊢
  exact Fifo.find_split (r := s.record) hids

theorem mem_ids_records {l r : List (Segment T A)} {s : Segment T A} :
    s.tag.val.id ∈ Fifo.ids (Segment.records (l ++ s :: r)) := by
  rw [ids_records]
  simp

/-- A tag rewritten in place. -/
theorem Represents.modify {q : StreamQueue T A} {l r : List (Segment T A)} {s : Segment T A}
    (h : q.Represents (l ++ s :: r)) (f : QueueItem T A → QueueItem T A)
    (hid : (f s.tag.val).id = s.tag.val.id)
    (hok : Segment.Ok { s with tag := { s.tag with val := f s.tag.val } }) :
    ({ q with queue := LinkedList.modify s.tag.pos f q.queue } : StreamQueue T A).Represents
      (l ++ { s with tag := { s.tag with val := f s.tag.val } } :: r) := by
  rw [h.modify_tag f]
  have hnd := h.positions
  rw [flat_split] at hnd
  simp only [positions_append] at hnd
  have hdata : (LinkedList.positions s.data).Nodup :=
    (List.nodup_append.mp (List.nodup_append.mp hnd).1).2.1
  exact h.replace (t := { s with tag := { s.tag with val := f s.tag.val } }) rfl hid hok hdata
    (Nat.le_refl _) fun p hp => .inl hp

/-! ### Producer operations -/

section Operations

variable {q : StreamQueue T A} {segs : List (Segment T A)} (id : Int)

/-- The segment `start` appends. -/
def openedSegment (q : StreamQueue T A) (id : Int) : Segment T A :=
  { data := []
    tag := ⟨q.nextPos,
      { type := .uncompleted, polling := false, err := 0, id := id, content := none,
        arg := none, dataCount := 0 }⟩ }

theorem start_eq (hit : q.itemTags id = none) (h : q.Represents segs) :
    (q.start id).1 = true ∧ (q.start id).2.Represents (segs ++ [openedSegment q id]) := by
  have hmem := h.notMem_ids hit
  have hflat : flat (segs ++ [openedSegment q id]) =
      flat segs ++ [(openedSegment q id).tag] := by
    rw [flat_append, flat_cons]; simp [openedSegment]
  have hrec : Segment.records (segs ++ [openedSegment q id]) =
      Segment.records segs ++ [.opened id] := by
    rw [records_append]; rfl
  have hstart : q.start id = (true,
      { queue := q.queue ++ [(openedSegment q id).tag],
        itemTags := Function.update q.itemTags id (some q.nextPos),
        tagQueue := q.tagQueue ++ [q.nextPos], nextPos := q.nextPos + 1 }) := by
    simp [start, hit, openedSegment]
  rw [hstart]
  refine ⟨rfl, ?_⟩
  constructor
  · rw [hflat, h.queue]
  · simp [h.tags, openedSegment]
  · -- the new tag is found under `id`, every other entry is as before
    intro id' it
    by_cases hid : id' = id
    · subst hid
      have hold : ¬ ∃ s ∈ segs, s.tag.val.id = id' ∧ s.tag.pos = it := by
        rw [← h.index, hit]; simp
      simp only [Function.update_self, Option.some.injEq, List.mem_append,
        List.mem_singleton, or_and_right, exists_or, exists_eq_left, openedSegment, true_and]
      exact (or_iff_right hold).symm
    · simp only [Function.update_of_ne hid, h.index, List.mem_append, List.mem_singleton,
        or_and_right, exists_or, exists_eq_left, openedSegment, Ne.symm hid, false_and, or_false]
  · rw [hrec]
    have := Fifo.ids_start_nodup id h.ids
    rwa [Fifo.start_of_notMem hmem] at this
  · rw [hflat, positions_append, List.nodup_append']
    refine ⟨h.positions, by simp, ?_⟩
    intro p hp hp'
    obtain ⟨n, hn, hnp⟩ := mem_positions.mp hp
    have hlt := h.bound n hn
    have : p = q.nextPos := by simpa [openedSegment] using hp'
    omega
  · rw [hflat]
    intro n hn
    rcases List.mem_append.mp hn with hn | hn
    · exact Nat.lt_succ_of_lt (h.bound n hn)
    · have hn' : n = (openedSegment q id).tag := by simpa using hn
      rw [hn']
      exact Nat.lt_succ_self _
  · intro s hs
    rcases List.mem_append.mp hs with hs | hs
    · exact h.ok s hs
    · have hs' : s = openedSegment q id := by simpa using hs
      rw [hs']
      exact ⟨by simp [openedSegment], by simp [openedSegment], by simp [openedSegment]⟩

theorem start_represents (h : q.Represents segs) :
    ∃ segs', (q.start id).2.Represents segs' ∧
      (q.start id).1 = (Fifo.start id (Segment.records segs)).1 ∧
      Segment.records segs' = (Fifo.start id (Segment.records segs)).2 := by
  cases hit : q.itemTags id with
  | some it =>
      obtain ⟨l, s, r, rfl, rfl, -⟩ := h.exists_split hit
      have hmem := mem_ids_records (l := l) (s := s) (r := r)
      refine ⟨l ++ s :: r, ?_, ?_, ?_⟩
      · simpa [start, hit] using h
      · rw [Fifo.start_of_mem hmem]; simp [start, hit]
      · rw [Fifo.start_of_mem hmem]
  | none =>
      obtain ⟨hret, hrep⟩ := start_eq id hit h
      rw [Fifo.start_of_notMem (h.notMem_ids hit)]
      refine ⟨_, hrep, hret, ?_⟩
      rw [records_append]
      rfl

/-- The segment `stream` leaves: one more data item, and it is counted. -/
def pushedSegment (q : StreamQueue T A) (data : Sp T) (s : Segment T A) : Segment T A :=
  { data := s.data ++ [⟨q.nextPos,
      { type := .data, polling := false, err := 0, id := 0, content := data, arg := none,
        dataCount := 0 }⟩]
    tag := { s.tag with val := { s.tag.val with dataCount := s.tag.val.dataCount + 1 } } }

theorem stream_eq {l r : List (Segment T A)} {s : Segment T A} (h : q.Represents (l ++ s :: r))
    (hit : q.itemTags s.tag.val.id = some s.tag.pos) (htype : s.tag.val.type = .uncompleted)
    (data : Sp T) :
    ∃ q', q.stream s.tag.val.id data = some (true, q') ∧
      q'.Represents (l ++ pushedSegment q data s :: r) := by
  have hderef := h.deref_tag
  let new : Node (QueueItem T A) := ⟨q.nextPos,
    { type := .data, polling := false, err := 0, id := 0, content := data, arg := none,
      dataCount := 0 }⟩
  let f : QueueItem T A → QueueItem T A := fun tag => { tag with dataCount := tag.dataCount + 1 }
  have hnd := h.positions
  have hb := h.bound
  rw [flat_split] at hnd hb
  -- the list the two writes leave
  have hqueue : LinkedList.modify s.tag.pos f
      (insertBefore s.tag.pos new q.queue) = flat (l ++ pushedSegment q data s :: r) := by
    have hsplit : insertBefore s.tag.pos new q.queue =
        (flat l ++ s.data ++ [new]) ++ s.tag :: flat r := by
      rw [h.queue, flat_split, insertBefore_split new hnd]
      simp
    have hnd' : (LinkedList.positions
        ((flat l ++ s.data ++ [new]) ++ s.tag :: flat r)).Nodup := by
      have hfresh : q.nextPos ∉
          LinkedList.positions ((flat l ++ s.data) ++ s.tag :: flat r) := by
        rw [mem_positions]
        rintro ⟨n, hn, hp⟩
        exact absurd (hb n hn) (by omega)
      simp only [positions_append, positions_cons, positions_nil] at hnd hfresh ⊢
      refine (List.Perm.nodup_iff ?_).mp (List.nodup_cons.mpr ⟨hfresh, hnd⟩)
      simp only [List.append_assoc, List.singleton_append]
      exact (List.perm_middle.symm.trans (by simp [new])) |>.trans
        (List.Perm.append_left _ List.perm_middle.symm)
    rw [hsplit, modify_split f hnd', flat_split]
    simp [pushedSegment, new, f]
  have hok := h.ok s (by simp)
  have hok' : (pushedSegment q data s).Ok := by
    refine ⟨?_, by simpa [pushedSegment] using hok.tag, by simp [pushedSegment, htype]⟩
    intro n hn
    rcases List.mem_append.mp hn with hn | hn
    · exact hok.data n hn
    · have hn' : n = new := List.mem_singleton.mp hn
      simp [hn', new]
  have hdata : (LinkedList.positions (pushedSegment q data s).data).Nodup := by
    have hs : (LinkedList.positions s.data).Nodup := by
      simp only [positions_append] at hnd
      exact (List.nodup_append.mp (List.nodup_append.mp hnd).1).2.1
    simp only [pushedSegment, positions_append, List.nodup_append']
    refine ⟨hs, by simp, ?_⟩
    intro p hp hp'
    obtain ⟨n, hn, hnp⟩ := mem_positions.mp hp
    have := hb n (by simp [hn])
    have : p = q.nextPos := by simpa using hp'
    omega
  have hrep := h.replace (t := pushedSegment q data s) (k := q.nextPos + 1) rfl rfl hok' hdata
    (Nat.le_succ _) (by
      intro p hp
      simp only [pushedSegment, positions_append, List.mem_append] at hp
      rcases hp with hp | hp
      · exact .inl hp
      · have : p = q.nextPos := by simpa using hp
        exact .inr (by omega))
  exact ⟨_, by simp [stream, hit, hderef, htype, ← hqueue, new, f], hrep⟩

theorem stream_represents (h : q.Represents segs) (data : Sp T) :
    ∃ b q' segs', q.stream id data = some (b, q') ∧ q'.Represents segs' ∧
      b = (Fifo.stream id data (Segment.records segs)).1 ∧
      Segment.records segs' = (Fifo.stream id data (Segment.records segs)).2 := by
  cases hit : q.itemTags id with
  | none =>
      have hmem := h.notMem_ids hit
      exact ⟨false, q, segs, by simp [stream, hit], h, by rw [Fifo.stream_of_notMem _ hmem],
        by rw [Fifo.stream_of_notMem _ hmem]⟩
  | some it =>
      obtain ⟨l, s, r, rfl, rfl, rfl⟩ := h.exists_split hit
      have hfind := find_records h
      by_cases htype : s.tag.val.type = .uncompleted
      · have hstate : s.record.state = .uncompleted := by simp [record, stateOf, htype]
        obtain ⟨q', hq', hrep⟩ := stream_eq h hit htype data
        refine ⟨true, q', _, hq', hrep, ?_, ?_⟩
        · rw [Fifo.stream_of_uncompleted _ hfind hstate]
        · rw [Fifo.stream_of_uncompleted _ hfind hstate]
          exact records_replace h (by simp [record, pushedSegment, Record.push, stateOf])
      · have hstate : s.record.state ≠ .uncompleted := by
          have htag := (h.ok s (by simp)).tag
          cases htp : s.tag.val.type <;> simp_all [record, stateOf]
        refine ⟨false, q, l ++ s :: r, ?_, h, ?_, ?_⟩
        · simp [stream, hit, h.deref_tag, htype]
        · rw [Fifo.stream_of_closed _ hfind hstate]
        · rw [Fifo.stream_of_closed _ hfind hstate]

/-- The tag of a segment rewritten. -/
def retagged (f : QueueItem T A → QueueItem T A) (s : Segment T A) : Segment T A :=
  { s with tag := { s.tag with val := f s.tag.val } }

theorem end_eq {l r : List (Segment T A)} {s : Segment T A} (h : q.Represents (l ++ s :: r))
    (hit : q.itemTags s.tag.val.id = some s.tag.pos) (data : Sp T) :
    ∃ q', q.end_ s.tag.val.id data = some (true, q') ∧
      q'.Represents (l ++ retagged (fun tag => { tag with
        type := .completed, content := if data.isSome then data else tag.content }) s :: r) := by
  have hok := h.ok s (by simp)
  have hrep := h.modify (fun tag => { tag with
    type := .completed, content := if data.isSome then data else tag.content }) rfl
    ⟨hok.data, by simp, by simp⟩
  exact ⟨_, by simp [end_, hit, h.deref_tag], hrep⟩

theorem end_represents (h : q.Represents segs) (data : Sp T) :
    ∃ b q' segs', q.end_ id data = some (b, q') ∧ q'.Represents segs' ∧
      b = (Fifo.end_ id data (Segment.records segs)).1 ∧
      Segment.records segs' = (Fifo.end_ id data (Segment.records segs)).2 := by
  cases hit : q.itemTags id with
  | none =>
      have hmem := h.notMem_ids hit
      exact ⟨false, q, segs, by simp [end_, hit], h, by rw [Fifo.end_of_notMem _ hmem],
        by rw [Fifo.end_of_notMem _ hmem]⟩
  | some it =>
      obtain ⟨l, s, r, rfl, rfl, rfl⟩ := h.exists_split hit
      obtain ⟨q', hq', hrep⟩ := end_eq h hit data
      refine ⟨true, q', _, hq', hrep, ?_, ?_⟩
      · rw [Fifo.end_of_mem _ mem_ids_records]
      · rw [Fifo.end_of_mem _ mem_ids_records]
        exact records_replace h rfl

theorem setArg_eq {l r : List (Segment T A)} {s : Segment T A} (h : q.Represents (l ++ s :: r))
    (hit : q.itemTags s.tag.val.id = some s.tag.pos) (arg : Sp A) :
    ∃ q', q.setArg s.tag.val.id arg = some q' ∧
      q'.Represents (l ++ retagged (fun tag => { tag with arg := arg }) s :: r) := by
  have hok := h.ok s (by simp)
  have hrep := h.modify (fun tag => { tag with arg := arg }) rfl
    ⟨hok.data, hok.tag, hok.removed⟩
  exact ⟨_, by simp [setArg, hit, h.deref_tag], hrep⟩

theorem setArg_represents (h : q.Represents segs) (arg : Sp A) :
    ∃ q' segs', q.setArg id arg = some q' ∧ q'.Represents segs' ∧
      Segment.records segs' = Fifo.setArg id arg (Segment.records segs) := by
  cases hit : q.itemTags id with
  | none =>
      exact ⟨q, segs, by simp [setArg, hit], h,
        (Fifo.amend_of_notMem _ (h.notMem_ids hit)).symm⟩
  | some it =>
      obtain ⟨l, s, r, rfl, rfl, rfl⟩ := h.exists_split hit
      obtain ⟨q', hq', hrep⟩ := setArg_eq h hit arg
      exact ⟨q', _, hq', hrep, records_replace h rfl⟩

theorem getArg_represents (h : q.Represents segs) :
    q.getArg id = some (Fifo.getArg id (Segment.records segs)) := by
  cases hit : q.itemTags id with
  | none => simp [getArg, hit, Fifo.getArg, Fifo.find_eq_none.mpr (h.notMem_ids hit)]
  | some it =>
      obtain ⟨l, s, r, rfl, rfl, rfl⟩ := h.exists_split hit
      rw [Fifo.getArg, find_records h]
      simp [getArg, hit, h.deref_tag, record]

/-! ### Removal -/

/-- The backward scan counts the data of the stream: in front of it stands another tag, or
    nothing. -/
theorem scanBack_segment (l : List (Segment T A)) (hok : ∀ s ∈ l, s.Ok)
    (data : List (Node (QueueItem T A))) (hdata : ∀ n ∈ data, n.val.type = .data) :
    scanBack (flat l ++ data).reverse = data.length := by
  have hstop : scanBack (flat l).reverse = 0 := by
    rcases List.eq_nil_or_concat l with rfl | ⟨l', s, rfl⟩
    · rfl
    · have htag : s.tag.val.type ≠ .data := (hok s (by simp)).tag
      rw [List.concat_eq_append, flat_append, flat_cons]
      simp [scanBack, htag]
  induction data using List.reverseRecOn with
  | nil => simpa using hstop
  | append_singleton data n ih =>
      have hn : n.val.type = .data := hdata n (by simp)
      rw [← List.append_assoc, List.reverse_append, List.reverse_singleton,
        List.singleton_append, scanBack, if_neg (by simp [hn]),
        ih fun m hm => hdata m (by simp [hm])]
      simp

/-- The scan of `erase` from a tag counts the data of its stream. -/
theorem Represents.scanBack {l r : List (Segment T A)} {s : Segment T A}
    (h : q.Represents (l ++ s :: r)) :
    StreamQueue.scanBack (before s.tag.pos q.queue).reverse = s.data.length := by
  have hnd := h.positions
  rw [flat_split] at hnd
  rw [h.queue, flat_split, before_split hnd]
  exact scanBack_segment l (fun s' hs' => h.ok s' (by simp [hs'])) s.data (h.ok s (by simp)).data

/-- The segment `erase` leaves: the tag, marked, and what the scan counted is taken off. -/
def erasedSegment (err : BitVec 32) (s : Segment T A) : Segment T A :=
  { data := []
    tag := { s.tag with val :=
      { s.tag.val with
        type := if err ≠ 0 then .error else .deleted
        err := if err ≠ 0 then err.setWidth 16 else s.tag.val.err
        content := none
        dataCount := s.tag.val.dataCount - BitVec.ofNat 32 s.data.length } } }

theorem erase_eq {l r : List (Segment T A)} {s : Segment T A} (h : q.Represents (l ++ s :: r))
    (hit : q.itemTags s.tag.val.id = some s.tag.pos) (err : BitVec 32) :
    ∃ q', q.erase s.tag.val.id err = some (true, q') ∧
      q'.Represents (l ++ erasedSegment err s :: r) := by
  have hok := h.ok s (by simp)
  have hderef := h.deref_tag
  have hcount := h.scanBack
  have hnd := h.positions
  rw [flat_split] at hnd
  let f : QueueItem T A → QueueItem T A := fun tag =>
    if err ≠ 0 then { tag with content := none, type := .error, err := err.setWidth 16 }
    else { tag with content := none, type := .deleted }
  let g : QueueItem T A → QueueItem T A := fun tag =>
    { tag with dataCount := tag.dataCount - BitVec.ofNat 32 s.data.length }
  -- both writes go to the tag
  have htag : (erasedSegment err s).tag = { s.tag with val := g (f s.tag.val) } := by
    by_cases herr : err = 0#32
    · simp [erasedSegment, f, g, herr]
    · simp [erasedSegment, f, g, herr]
  have hok' : (erasedSegment err s).Ok := by
    refine ⟨by simp [erasedSegment], ?_, fun _ => rfl⟩
    by_cases herr : err = 0#32
    · simp [erasedSegment, herr]
    · simp [erasedSegment, herr]
  have hrep := h.replace (t := erasedSegment err s) (k := q.nextPos) rfl rfl hok'
    (by simp [erasedSegment]) (Nat.le_refl _) (by simp [erasedSegment])
  refine ⟨_, ?_, hrep⟩
  have hflat : flat (l ++ erasedSegment err s :: r) =
      flat l ++ { s.tag with val := g (f s.tag.val) } :: flat r := by
    rw [flat_split, ← htag]
    simp [erasedSegment]
  by_cases hc : s.data.length = 0
  · have hnil : s.data = [] := List.length_eq_zero_iff.mp hc
    have hmod : LinkedList.modify s.tag.pos f q.queue = flat (l ++ erasedSegment err s :: r) := by
      have hzero : g (f s.tag.val) = f s.tag.val := by simp [g, hc]
      rw [hflat, hzero, h.modify_tag f, flat_split, hnil, List.append_nil]
    simp only [erase, hit, hderef, hcount, hc, ← hmod]
    simp [f, hok.tag]
  · -- the data is cut out
    have hmod : LinkedList.modify s.tag.pos g (LinkedList.modify s.tag.pos f q.queue) =
        (flat l ++ s.data) ++ { s.tag with val := g (f s.tag.val) } :: flat r := by
      rw [h.queue, flat_split, modify_split f hnd]
      exact modify_split (n := { s.tag with val := f s.tag.val }) g
        (by simpa [positions_append] using hnd)
    have hcut : eraseBack s.tag.pos s.data.length
        (LinkedList.modify s.tag.pos g (LinkedList.modify s.tag.pos f q.queue)) =
          flat (l ++ erasedSegment err s :: r) := by
      rw [hmod, hflat]
      have hnd' : (LinkedList.positions ((flat l ++ s.data) ++
          { s.tag with val := g (f s.tag.val) } :: flat r)).Nodup := by
        simpa [positions_append] using hnd
      exact eraseBack_split hnd'
    simp only [erase, hit, hderef, hcount, hc, ← hcut]
    simp [f, g, hok.tag]

theorem erase_represents (h : q.Represents segs) (err : BitVec 32) :
    ∃ b q' segs', q.erase id err = some (b, q') ∧ q'.Represents segs' ∧
      b = (Fifo.erase id err (Segment.records segs)).1 ∧
      Segment.records segs' = (Fifo.erase id err (Segment.records segs)).2 := by
  cases hit : q.itemTags id with
  | none =>
      have hmem := h.notMem_ids hit
      exact ⟨false, q, segs, by simp [erase, hit], h, by rw [Fifo.erase_of_notMem _ hmem],
        by rw [Fifo.erase_of_notMem _ hmem]⟩
  | some it =>
      obtain ⟨l, s, r, rfl, rfl, rfl⟩ := h.exists_split hit
      obtain ⟨q', hq', hrep⟩ := erase_eq h hit err
      have hrecord : (erasedSegment err s).record = s.record.erase err := by
        by_cases herr : err = 0#32
        · simp [record, Record.erase, Record.erasedState, stateOf, erasedSegment, herr]
        · simp [record, Record.erase, Record.erasedState, stateOf, erasedSegment, herr]
      refine ⟨true, q', _, hq', hrep, ?_, ?_⟩
      · rw [Fifo.erase_of_mem _ mem_ids_records]
      · rw [Fifo.erase_of_mem _ mem_ids_records]
        exact records_replace h hrecord

/-- The segments `clear` leaves: `c` is the running count of the loop. -/
def clearSegments (c : BitVec 32) : List (Segment T A) → List (Segment T A)
  | [] => []
  | s :: segs =>
      let c' := c + BitVec.ofNat 32 s.data.length
      ⟨[], { s.tag with val := { s.tag.val with
        type := .deleted, content := none, dataCount := s.tag.val.dataCount - c' } }⟩ ::
        clearSegments c' segs

theorem clearLoop_data (c : BitVec 32) (data rest : List (Node (QueueItem T A)))
    (h : ∀ n ∈ data, n.val.type = .data) :
    clearLoop c (data ++ rest) = clearLoop (c + BitVec.ofNat 32 data.length) rest := by
  induction data generalizing c with
  | nil => simp
  | cons n data ih =>
      have hn : n.val.type = .data := h n (by simp)
      have hlen : c + 1 + BitVec.ofNat 32 data.length =
          c + BitVec.ofNat 32 (data.length + 1) := by
        rw [BitVec.ofNat_add, BitVec.add_assoc, BitVec.add_comm 1]
        rfl
      rw [List.cons_append, clearLoop, if_pos hn, ih _ fun m hm => h m (by simp [hm]), hlen]
      rfl

theorem clearLoop_flat (c : BitVec 32) (segs : List (Segment T A)) (hok : ∀ s ∈ segs, s.Ok) :
    clearLoop c (flat segs) = flat (clearSegments c segs) := by
  induction segs generalizing c with
  | nil => rfl
  | cons s segs ih =>
      have hs : s.Ok := hok s (by simp)
      rw [flat_cons, clearLoop_data _ _ _ hs.data, clearLoop, if_neg hs.tag,
        ih _ fun s' h => hok s' (by simp [h]), clearSegments, flat_cons]
      rfl

/-- Tag by tag, clearing keeps id and position. -/
theorem clearSegments_tags (c : BitVec 32) (segs : List (Segment T A)) :
    (clearSegments c segs).map (fun s => (s.tag.pos, s.tag.val.id)) =
      segs.map (fun s => (s.tag.pos, s.tag.val.id)) := by
  induction segs generalizing c with
  | nil => rfl
  | cons s segs ih => simp [clearSegments, ih]

theorem records_clearSegments (c : BitVec 32) (segs : List (Segment T A)) :
    Segment.records (clearSegments c segs) =
      (Segment.records segs).map (Record.erase 0) := by
  induction segs generalizing c with
  | nil => rfl
  | cons s segs ih =>
      rw [clearSegments, records_cons, records_cons, List.map_cons, ih]
      simp [record, Record.erase, Record.erasedState, stateOf]

theorem flat_clearSegments_sublist (c : BitVec 32) (segs : List (Segment T A)) :
    (LinkedList.positions (flat (clearSegments c segs))).Sublist
      (LinkedList.positions (flat segs)) := by
  induction segs generalizing c with
  | nil => simp [clearSegments]
  | cons s segs ih =>
      rw [clearSegments, flat_cons, flat_cons]
      simp only [positions_append, positions_cons, List.nil_append]
      exact ((ih _).cons_cons _).trans (List.sublist_append_right _ _)

theorem clearSegments_ok (c : BitVec 32) (segs : List (Segment T A)) :
    ∀ s ∈ clearSegments c segs, s.Ok := by
  induction segs generalizing c with
  | nil => simp [clearSegments]
  | cons s segs ih =>
      intro x hx
      rcases List.mem_cons.mp hx with rfl | hx
      · exact ⟨by simp, by simp, fun _ => rfl⟩
      · exact ih _ x hx

theorem clear_eq (h : q.Represents segs) :
    ∃ q', q.clear = some ((Fifo.clear (Segment.records segs)).1, q') ∧
      q'.Represents (clearSegments 0 segs) := by
  have htags := clearSegments_tags 0 segs
  have hpos : (clearSegments 0 segs).map (·.tag.pos) = segs.map (·.tag.pos) := by
    simpa [Function.comp_def] using congrArg (List.map Prod.fst) htags
  have hids : (clearSegments 0 segs).map (·.tag.val.id) = segs.map (·.tag.val.id) := by
    simpa [Function.comp_def] using congrArg (List.map Prod.snd) htags
  have hrep : ({ q with queue := clearLoop 0 q.queue } : StreamQueue T A).Represents
      (clearSegments 0 segs) := by
    rw [h.queue, clearLoop_flat 0 segs h.ok]
    refine ⟨rfl, by rw [h.tags, hpos], ?_, ?_, ?_, ?_, clearSegments_ok 0 segs⟩
    · intro id it
      have hmem : ∀ segs' : List (Segment T A),
          (∃ s ∈ segs', s.tag.val.id = id ∧ s.tag.pos = it) ↔
            (it, id) ∈ segs'.map (fun s => (s.tag.pos, s.tag.val.id)) := by
        intro segs'
        simp only [List.mem_map, Prod.mk.injEq]
        exact exists_congr fun s => and_congr_right fun _ => and_comm
      rw [h.index, hmem, hmem, htags]
    · have := h.ids
      rw [ids_records] at this ⊢
      rwa [hids]
    · exact h.positions.sublist (flat_clearSegments_sublist 0 segs)
    · intro n hn
      have hmem := (flat_clearSegments_sublist 0 segs).subset (mem_positions.mpr ⟨n, hn, rfl⟩)
      obtain ⟨m, hm, hmn⟩ := mem_positions.mp hmem
      exact hmn ▸ h.bound m hm
  have hrange : q.clear = some ((Fifo.clear (Segment.records segs)).1,
      { q with queue := clearLoop 0 q.queue }) := by
    cases segs with
    | nil => simp [clear, h.tags, Fifo.clear]
    | cons s segs =>
        have hfront := h.deref_tag (l := [])
        obtain ⟨l, s', hlast⟩ : ∃ l s', s :: segs = l ++ [s'] :=
          ⟨(s :: segs).dropLast, (s :: segs).getLast (by simp),
            (List.dropLast_append_getLast (by simp)).symm⟩
        have hback : deref s'.tag.pos q.queue = some s'.tag.val := by
          have h' := h
          rw [hlast] at h'
          exact h'.deref_tag (r := [])
        have hq : q.tagQueue.getLast? = some s'.tag.pos := by rw [h.tags, hlast]; simp
        have hqh : q.tagQueue.head? = some s.tag.pos := by rw [h.tags]; rfl
        have hi : (Fifo.ids (Segment.records (s :: segs))).getLast? = some s'.tag.val.id := by
          rw [ids_records, hlast]; simp
        have hih : (Fifo.ids (Segment.records (s :: segs))).head? = some s.tag.val.id := by
          rw [ids_records]; rfl
        rw [Fifo.clear, hi, hih]
        simp [clear, hq, hqh, hfront, hback]
  exact ⟨_, hrange, hrep⟩

theorem clear_represents (h : q.Represents segs) :
    ∃ q' segs', q.clear = some ((Fifo.clear (Segment.records segs)).1, q') ∧
      q'.Represents segs' ∧
      Segment.records segs' = (Fifo.clear (Segment.records segs)).2 := by
  obtain ⟨q', hq', hrep⟩ := clear_eq h
  exact ⟨q', _, hq', hrep, records_clearSegments 0 segs⟩

theorem represents_close (q : StreamQueue T A) : q.close.Represents [] where
  queue := rfl
  tags := rfl
  index := by simp [close]
  ids := by simp
  positions := by simp
  bound := by simp
  ok := by simp

/-! ### Consumer operations -/

/-- The head tag is the first node of `queue_` exactly when its stream has no data. -/
theorem Represents.head_pos {s : Segment T A} (h : q.Represents (s :: segs)) :
    q.queue.head?.map (·.pos) = some s.tag.pos ↔ s.data = [] := by
  have hnd := h.positions
  rw [h.queue]
  rw [flat_cons] at hnd ⊢
  cases hd : s.data with
  | nil => simp
  | cons n data =>
      have hne := pos_ne_of_mem_pre hnd n (by simp [hd])
      simpa using hne

theorem available_represents (h : q.Represents segs) :
    q.available = some (Fifo.available (Segment.records segs)) := by
  cases segs with
  | nil => simp [available, h.tags, Fifo.available]
  | cons s segs =>
      have hderef := h.deref_tag (l := [])
      have htag := (h.ok s (by simp)).tag
      have hhead := h.head_pos
      have htags : q.tagQueue = s.tag.pos :: segs.map (·.tag.pos) := h.tags
      have hstate : s.record.state = .uncompleted ↔ s.tag.val.type = .uncompleted := by
        cases htp : s.tag.val.type <;> simp_all [record, stateOf]
      have hpend : s.record.pending.isEmpty = true ↔ s.data = [] := by simp [record]
      simp only [available, htags, hderef, Fifo.available, records_cons, hstate]
      by_cases hc : s.tag.val.type = .uncompleted ∧ s.tag.val.polling = true
      · have hc' : s.tag.val.type = .uncompleted ∧ s.record.polling = true := hc
        by_cases hdata : s.data = []
        · simp [hc, hc', hhead.mpr hdata, hpend.mpr hdata]
        · have hhead' := mt hhead.mp hdata
          have hpend' : s.record.pending.isEmpty = false := by
            simpa using mt hpend.mp hdata
          simp [hc, hc', hhead', hpend']
      · have hc' : ¬ (s.tag.val.type = .uncompleted ∧ s.record.polling = true) := hc
        simp [hc, hc', htag]

/-- Taking the head tag out: its stream has no data, so the tag is the first node. -/
theorem Represents.popTag {s : Segment T A} (h : q.Represents (s :: segs))
    (hdata : s.data = []) :
    ∃ q', StreamQueue.popTag s.tag.val q = some q' ∧ q'.Represents segs := by
  have hqueue : q.queue = s.tag :: flat segs := by rw [h.queue, flat_cons, hdata]; rfl
  refine ⟨_, by rw [StreamQueue.popTag, hqueue], ?_⟩
  have hids := h.ids
  have hpos := h.positions
  rw [records_cons, Fifo.ids_cons] at hids
  rw [flat_cons, hdata, List.nil_append, positions_cons] at hpos
  have hother : ∀ s' ∈ segs, s'.tag.val.id ≠ s.tag.val.id := by
    intro s' hs' heq
    refine (List.nodup_cons.mp hids).1 ?_
    rw [ids_records]
    exact List.mem_map.mpr ⟨s', hs', heq⟩
  constructor
  · rfl
  · simp [h.tags]
  · intro id it
    by_cases hid : id = s.tag.val.id
    · subst hid
      simp only [Function.update_self, reduceCtorEq, false_iff]
      rintro ⟨s', hs', hid', -⟩
      exact hother s' hs' hid'
    · simp only [Function.update_of_ne hid, h.index, List.mem_cons, or_and_right, exists_or,
        exists_eq_left, Ne.symm hid, false_and, false_or]
  · exact (List.nodup_cons.mp hids).2
  · exact (List.nodup_cons.mp hpos).2
  · intro n hn
    exact h.bound n (by rw [flat_cons]; simp [hn])
  · intro s' hs'
    exact h.ok s' (by simp [hs'])

/-- What is left when the first data item of the stream is taken: these data, and one less is
    counted. -/
def servedSegment (data : List (Node (QueueItem T A))) (s : Segment T A) : Segment T A :=
  { data := data
    tag := { s.tag with val := { s.tag.val with dataCount := s.tag.val.dataCount - 1 } } }

/-- Taking the first data item out. -/
theorem Represents.popData {s : Segment T A} {n : Node (QueueItem T A)}
    {data : List (Node (QueueItem T A))} (h : q.Represents (s :: segs))
    (hdata : s.data = n :: data) :
    ∃ rest, LinkedList.modify s.tag.pos
        (fun item => { item with dataCount := item.dataCount - 1#32 }) q.queue = n :: rest ∧
      ({ q with queue := rest } : StreamQueue T A).Represents (servedSegment data s :: segs) := by
  have hmod := h.modify_tag (l := [])
    (fun item => { item with dataCount := item.dataCount - 1#32 })
  have hok := h.ok s (by simp)
  have hnd := h.positions
  rw [flat_cons, hdata] at hnd
  have hdnd : (LinkedList.positions data).Nodup := by
    simp only [List.cons_append, positions_cons, positions_append] at hnd
    exact (List.nodup_append.mp (List.nodup_cons.mp hnd).2).1
  have hrep := h.replace (l := []) (t := servedSegment data s) rfl rfl
    ⟨fun m hm => hok.data m (by simp [hdata, show m ∈ data from hm]), hok.tag,
      fun hrem => by simp [hok.removed hrem] at hdata⟩
    hdnd (Nat.le_refl _) (fun p hp => .inl (by rw [hdata, positions_cons]; exact .tail _ hp))
  refine ⟨_, ?_, hrep⟩
  rw [hmod, List.nil_append, List.nil_append, flat_cons, flat_cons]
  simp [hdata, servedSegment]

/-- What a `pop` leaves of the segments when the front one is `s`. -/
inductive PopLeaves (s : Segment T A) (segs : List (Segment T A)) : List (Segment T A) → Prop where
  | wait (hpoll : s.tag.val.polling = true) (hdata : s.data = []) : PopLeaves s segs (s :: segs)
  | start (hpoll : s.tag.val.polling = false) :
      PopLeaves s segs (retagged (fun item => { item with polling := true }) s :: segs)
  | datum {n : Node (QueueItem T A)} {data : List (Node (QueueItem T A))}
      (hdata : s.data = n :: data) : PopLeaves s segs (servedSegment data s :: segs)
  | gone (hdata : s.data = []) : PopLeaves s segs segs

theorem pop_eq {s : Segment T A} (h : q.Represents (s :: segs)) (out : PopArgs T) :
    ∃ t out' q' segs', q.pop out = some (t, out', q') ∧ q'.Represents segs' ∧
      PopLeaves s segs segs' ∧
      Fifo.pop out (Segment.records (s :: segs)) = (t, out', Segment.records segs') := by
  have hderef := h.deref_tag (l := [])
  have hok := h.ok s (by simp)
  have hhead := h.head_pos
  have htags : q.tagQueue = s.tag.pos :: segs.map (·.tag.pos) := h.tags
  have hactive : s.tag.val.type = .uncompleted ∨ s.tag.val.type = .completed →
      s.record.state = .uncompleted ∨ s.record.state = .completed := by
    rintro (htype | htype)
    · exact .inl (by simp [record, stateOf, htype])
    · exact .inr (by simp [record, stateOf, htype])
  -- the two cases the live states share: the start, and the first data item
  have hstart : s.tag.val.type = .uncompleted ∨ s.tag.val.type = .completed →
      s.tag.val.polling = false →
      ∃ t out' q' segs', q.pop out = some (t, out', q') ∧ q'.Represents segs' ∧
        PopLeaves s segs segs' ∧
        Fifo.pop out (Segment.records (s :: segs)) = (t, out', Segment.records segs') := by
    intro htype hpoll
    refine ⟨_, _, _, _, ?_, h.modify (l := []) (fun item => { item with polling := true })
      rfl ⟨hok.data, hok.tag, hok.removed⟩, .start hpoll, Fifo.pop_start out (hactive htype) hpoll⟩
    simp [pop, htags, hderef, hok.tag, htype, hpoll, record]
  have hdatum : s.tag.val.type = .uncompleted ∨ s.tag.val.type = .completed →
      s.tag.val.polling = true → ∀ n data, s.data = n :: data →
      ∃ t out' q' segs', q.pop out = some (t, out', q') ∧ q'.Represents segs' ∧
        PopLeaves s segs segs' ∧
        Fifo.pop out (Segment.records (s :: segs)) = (t, out', Segment.records segs') := by
    intro htype hpoll n data hdata
    obtain ⟨rest, hrest, hrep⟩ := h.popData hdata
    have hne := mt hhead.mp (by simp [hdata])
    have hn : n.val.type = .data := hok.data n (by simp [hdata])
    have hpend : s.record.pending = n.val.content :: data.map (·.val.content) := by
      simp [record, hdata]
    refine ⟨_, _, _, _, ?_, hrep, .datum hdata, Fifo.pop_data out (hactive htype) hpoll hpend⟩
    simp [pop, htags, hderef, hok.tag, htype, hpoll, hne, hrest, hn, record]
  cases htype : s.tag.val.type with
  | data => exact absurd htype hok.tag
  | uncompleted =>
      have hst : s.record.state = .uncompleted := by simp [record, stateOf, htype]
      cases hpoll : s.tag.val.polling with
      | false => exact hstart (.inl htype) hpoll
      | true =>
          cases hdata : s.data with
          | cons n data => exact hdatum (.inl htype) hpoll n data hdata
          | nil =>
              refine ⟨_, _, q, s :: segs, ?_, h, .wait hpoll hdata,
                Fifo.pop_wait out hst hpoll (by simp [record, hdata])⟩
              simp [pop, htags, hderef, htype, hpoll, hhead.mpr hdata]
  | completed =>
      have hst : s.record.state = .completed := by simp [record, stateOf, htype]
      cases hpoll : s.tag.val.polling with
      | false => exact hstart (.inr htype) hpoll
      | true =>
          cases hdata : s.data with
          | cons n data => exact hdatum (.inr htype) hpoll n data hdata
          | nil =>
              obtain ⟨q', hq', hrep⟩ := h.popTag hdata
              refine ⟨_, _, q', segs, ?_, hrep, .gone hdata,
                Fifo.pop_end out hst hpoll (by simp [record, hdata])⟩
              simp [pop, htags, hderef, htype, hpoll, hhead.mpr hdata, hq', record]
  | deleted =>
      have hdata := hok.removed (.inl htype)
      obtain ⟨q', hq', hrep⟩ := h.popTag hdata
      have hst : s.record.state = .deleted := by simp [record, stateOf, htype]
      refine ⟨_, _, q', segs, ?_, hrep, .gone hdata, Fifo.pop_removed out hst⟩
      simp [pop, htags, hderef, htype, hq', record]
  | error =>
      have hdata := hok.removed (.inr htype)
      obtain ⟨q', hq', hrep⟩ := h.popTag hdata
      have hst : s.record.state = .error s.tag.val.err := by simp [record, stateOf, htype]
      refine ⟨_, _, q', segs, ?_, hrep, .gone hdata, Fifo.pop_error out hst⟩
      simp [pop, htags, hderef, htype, hq', record]

theorem pop_represents (h : q.Represents segs) (out : PopArgs T) :
    ∃ t out' q' segs', q.pop out = some (t, out', q') ∧ q'.Represents segs' ∧
      Fifo.pop out (Segment.records segs) = (t, out', Segment.records segs') := by
  cases segs with
  | nil => exact ⟨.empty, out, q, [], by simp [pop, h.tags], h, rfl⟩
  | cons s segs =>
      obtain ⟨t, out', q', segs', hq', hrep, -, hfifo⟩ := pop_eq h out
      exact ⟨t, out', q', segs', hq', hrep, hfifo⟩

end Operations

end StreamQueue

end OpenVoice
