import Mathlib.Algebra.Group.Nat.Defs
import OpenVoice.StreamQueue.Calls

/-!
# `data_count`

A tag carries the number of data items of its stream, kept up to date by `stream`, `erase`,
`clear` and `pop`.  The loop of `clear` does not start its count anew behind a tag, so that the data
of earlier streams is taken off the counts of later ones, below zero.
-/

namespace OpenVoice

open OpenVoice.Lib OpenVoice.Lib.LinkedList

variable {T A : Type}

namespace StreamQueue

/-! ### The law -/

/-- The data items queued for the stream whose tag is at `it`: those right in front of it. -/
def queued (it : StreamingItemPos) (q : StreamQueue T A) : Nat :=
  scanBack (before it q.queue).reverse

/-- The count of every live stream is the number of its data items. -/
def CountsExact (q : StreamQueue T A) : Prop :=
  ∀ id it tag, q.itemTags id = some it → deref it q.queue = some tag →
    tag.dataCount.toNat = q.queued it

/-- The subtractions in the loop of `clear`: from which count, and how much. -/
def clearDecrements (c : BitVec 32) : List (Node (QueueItem T A)) → List (BitVec 32 × BitVec 32)
  | [] => []
  | n :: rest =>
      if n.val.type = .data then clearDecrements (c + 1) rest
      else (n.val.dataCount, c) :: clearDecrements c rest

/-- The subtractions a call makes. -/
def decrements (q : StreamQueue T A) : Call T A → List (BitVec 32 × BitVec 32)
  | .erase id _ =>
      match q.itemTags id with
      | none => []
      | some it =>
          match deref it q.queue with
          | none => []
          | some tag =>
              if q.queued it = 0 then [] else [(tag.dataCount, BitVec.ofNat 32 (q.queued it))]
  | .clear => clearDecrements 0 q.queue
  | .pop _ =>
      match q.tagQueue with
      | [] => []
      | ip :: _ =>
          match deref ip q.queue with
          | none => []
          | some item =>
              if (item.type = .uncompleted ∨ item.type = .completed) ∧ item.polling = true ∧
                  q.queue.head?.map (·.pos) ≠ some ip then [(item.dataCount, 1)]
              else []
  | _ => []

/-- No subtraction of the call goes below zero. -/
def NoWrap (q : StreamQueue T A) (c : Call T A) : Prop := ∀ d ∈ q.decrements c, d.2 ≤ d.1

instance (q : StreamQueue T A) (c : Call T A) : Decidable (q.NoWrap c) :=
  List.decidableBAll (fun d : BitVec 32 × BitVec 32 => d.2 ≤ d.1) (q.decrements c)

/-- `clear` finds data of the last stream only, and `stream` a count that is not at its end. -/
def countable (q : StreamQueue T A) : Call T A → Bool
  | .stream id _ =>
      match q.itemTags id with
      | none => true
      | some it =>
          match deref it q.queue with
          | none => true
          | some tag => tag.type ≠ .uncompleted || q.queued it + 1 < 2 ^ 32
  | .clear => q.tagQueue.dropLast.all fun it => q.queued it = 0
  | _ => true

def Countable (q : StreamQueue T A) (c : Call T A) : Prop := q.countable c = true

instance (q : StreamQueue T A) (c : Call T A) : Decidable (q.Countable c) :=
  inferInstanceAs (Decidable (q.countable c = true))

/-- `P` holds of every queue that these calls lead through, and `ok` of every call. -/
def Along (P : StreamQueue T A → Prop) (ok : StreamQueue T A → Call T A → Prop) :
    StreamQueue T A → List (Call T A) → Prop
  | q, [] => P q
  | q, c :: cs =>
      P q ∧ ok q c ∧
        match q.call c with
        | none => True
        | some r => Along P ok r.2 cs

/-! ### One segment -/

/-- The tag counts the data of its segment. -/
def SegmentExact (s : Segment T A) : Prop := s.tag.val.dataCount.toNat = s.data.length

theorem SegmentExact.dataCount {s : Segment T A} (h : SegmentExact s) :
    s.tag.val.dataCount = BitVec.ofNat 32 s.data.length := by
  rw [← h, BitVec.ofNat_toNat, BitVec.setWidth_eq]

theorem SegmentExact.length_lt {s : Segment T A} (h : SegmentExact s) : s.data.length < 2 ^ 32 :=
  h ▸ s.tag.val.dataCount.isLt

theorem pushedSegment_exact {q : StreamQueue T A} {data : Sp T} {s : Segment T A}
    (h : SegmentExact s) :
    SegmentExact (pushedSegment q data s) ↔ s.data.length + 1 < 2 ^ 32 := by
  have hlt := h.length_lt
  unfold SegmentExact at h ⊢
  simp only [pushedSegment, List.length_append, List.length_singleton, BitVec.toNat_add, h]
  have hone : (1 : BitVec 32).toNat = 1 := rfl
  rw [hone]
  omega

theorem erasedSegment_exact {err : BitVec 32} {s : Segment T A} (h : SegmentExact s) :
    SegmentExact (erasedSegment err s) := by
  simp [SegmentExact, erasedSegment, h.dataCount]

theorem servedSegment_exact {s : Segment T A} {n : Node (QueueItem T A)}
    {data : List (Node (QueueItem T A))} (hdata : s.data = n :: data) (h : SegmentExact s) :
    SegmentExact (servedSegment data s) := by
  have hlt := h.length_lt
  unfold SegmentExact at h ⊢
  rw [hdata, List.length_cons] at h hlt
  have hone : (1 : BitVec 32).toNat = 1 := rfl
  simp only [servedSegment, BitVec.toNat_sub, h, hone]
  omega

/-! ### The loop of `clear` -/

theorem clearDecrements_data (c : BitVec 32) (data rest : List (Node (QueueItem T A)))
    (h : ∀ n ∈ data, n.val.type = .data) :
    clearDecrements c (data ++ rest) =
      clearDecrements (c + BitVec.ofNat 32 data.length) rest := by
  induction data generalizing c with
  | nil => simp
  | cons n data ih =>
      have hn : n.val.type = .data := h n (by simp)
      have hlen : c + 1 + BitVec.ofNat 32 data.length =
          c + BitVec.ofNat 32 (data.length + 1) := by
        rw [BitVec.ofNat_add, BitVec.add_assoc, BitVec.add_comm 1]
        rfl
      rw [List.cons_append, clearDecrements, if_pos hn, ih _ fun m hm => h m (by simp [hm]), hlen]
      rfl

theorem sub_add_toNat_eq_zero (c n : BitVec 32) : (n - (c + n)).toNat = 0 ↔ c = 0 := by
  constructor
  · intro h
    bv_omega
  · rintro rfl
    bv_omega

/-- After the clearing the counts are right exactly if the loop came with a count of 0 and only
    the last stream had data. -/
theorem clearSegments_exact_iff (c : BitVec 32) (segs : List (Segment T A))
    (h : ∀ s ∈ segs, SegmentExact s) :
    (∀ s ∈ clearSegments c segs, SegmentExact s) ↔
      segs = [] ∨ c = 0 ∧ ∀ s ∈ segs.dropLast, s.data = [] := by
  induction segs generalizing c with
  | nil => simp [clearSegments]
  | cons s segs ih =>
      have hs : SegmentExact s := h s (by simp)
      have hlt := hs.length_lt
      have hfirst : SegmentExact (⟨[], { s.tag with val := { s.tag.val with
          type := .deleted, content := none,
          dataCount := s.tag.val.dataCount - (c + BitVec.ofNat 32 s.data.length) } }⟩ :
            Segment T A) ↔ c = 0 := by
        rw [SegmentExact, hs.dataCount]
        exact sub_add_toNat_eq_zero c _
      have hnil : 0 + BitVec.ofNat 32 s.data.length = 0 ↔ s.data = [] := by
        rw [← List.length_eq_zero_iff]
        bv_omega
      rw [clearSegments, List.forall_mem_cons, hfirst, ih _ fun s' hs' => h s' (by simp [hs'])]
      cases segs with
      | nil => simp
      | cons s' segs =>
          rw [List.dropLast_cons_cons, List.forall_mem_cons]
          constructor
          · rintro ⟨rfl, hrest | ⟨hzero, hrest⟩⟩
            · cases hrest
            · exact .inr ⟨rfl, hnil.mp hzero, hrest⟩
          · rintro (hrest | ⟨rfl, hdata, hrest⟩)
            · cases hrest
            · exact ⟨rfl, .inr ⟨hnil.mpr hdata, hrest⟩⟩

theorem clearDecrements_noWrap (segs : List (Segment T A)) (hok : ∀ s ∈ segs, s.Ok)
    (h : ∀ s ∈ segs, SegmentExact s) (hdata : ∀ s ∈ segs.dropLast, s.data = []) :
    ∀ d ∈ clearDecrements 0 (Segment.flat segs), d.2 ≤ d.1 := by
  induction segs with
  | nil => simp [clearDecrements]
  | cons s segs ih =>
      have hs : SegmentExact s := h s (by simp)
      have hsok : s.Ok := hok s (by simp)
      rw [Segment.flat_cons, clearDecrements_data _ _ _ hsok.data, clearDecrements,
        if_neg hsok.tag, ← hs.dataCount]
      have hadd : 0 + s.tag.val.dataCount = s.tag.val.dataCount := BitVec.zero_add _
      rw [hadd]
      intro d hd
      rcases List.mem_cons.mp hd with rfl | hd
      · exact BitVec.le_refl _
      · cases segs with
        | nil => simp [clearDecrements] at hd
        | cons s' segs =>
            rw [List.dropLast_cons_cons, List.forall_mem_cons] at hdata
            have hzero : s.tag.val.dataCount = 0 := by simp [hs.dataCount, hdata.1]
            rw [hzero] at hd
            exact ih (fun x hx => hok x (by simp [hx])) (fun x hx => h x (by simp [hx]))
              hdata.2 d hd

/-! ### One call -/

section Calls

variable {q q' : StreamQueue T A} {segs : List (Segment T A)} {ret : Ret T A}

theorem Represents.queued {l r : List (Segment T A)} {s : Segment T A}
    (h : q.Represents (l ++ s :: r)) : q.queued s.tag.pos = s.data.length := h.scanBack

theorem Represents.queued_mem (h : q.Represents segs) {s : Segment T A} (hs : s ∈ segs) :
    q.queued s.tag.pos = s.data.length := by
  obtain ⟨l, r, rfl⟩ := List.append_of_mem hs
  exact h.queued

theorem Represents.countsExact_iff (h : q.Represents segs) :
    q.CountsExact ↔ ∀ s ∈ segs, SegmentExact s := by
  constructor
  · intro hex s hs
    obtain ⟨l, r, rfl⟩ := List.append_of_mem hs
    have hit : q.itemTags s.tag.val.id = some s.tag.pos :=
      (h.index _ _).mpr ⟨s, hs, rfl, rfl⟩
    exact (hex _ _ _ hit h.deref_tag).trans h.queued
  · intro hex id it tag hit htag
    obtain ⟨l, s, r, rfl, rfl, rfl⟩ := h.exists_split hit
    rw [h.deref_tag, Option.some.injEq] at htag
    subst htag
    exact (hex s (by simp)).trans h.queued.symm

/-- One segment put for another one. -/
theorem forall_replace {P : Segment T A → Prop} {l r : List (Segment T A)} {s s' : Segment T A}
    (h : ∀ x ∈ l ++ s :: r, P x) : (∀ x ∈ l ++ s' :: r, P x) ↔ P s' := by
  constructor
  · intro h'
    exact h' s' (by simp)
  · intro hs' x hx
    rcases List.mem_append.mp hx with hx | hx
    · exact h x (by simp [hx])
    · rcases List.mem_cons.mp hx with rfl | hx
      · exact hs'
      · exact h x (by simp [hx])

theorem call_start (h : q.Represents segs) (hex : ∀ s ∈ segs, SegmentExact s) (id : Int) :
    (q.start id).2.CountsExact := by
  cases hit : q.itemTags id with
  | some it =>
      have hsame : (q.start id).2 = q := by simp [start, hit]
      rw [hsame]
      exact h.countsExact_iff.mpr hex
  | none =>
      obtain ⟨-, hrep⟩ := start_eq id hit h
      refine hrep.countsExact_iff.mpr ?_
      intro s hs
      rcases List.mem_append.mp hs with hs | hs
      · exact hex s hs
      · rw [List.mem_singleton.mp hs]
        rfl

theorem call_stream (h : q.Represents segs) (hex : ∀ s ∈ segs, SegmentExact s) {id : Int}
    {data : Sp T} {b : Bool} (hq' : q.stream id data = some (b, q')) :
    q'.CountsExact ↔ q.Countable (.stream id data) := by
  cases hit : q.itemTags id with
  | none =>
      have hsame : q' = q := by simpa [stream, hit, eq_comm] using congrArg (·.map (·.2)) hq'
      rw [hsame, h.countsExact_iff]
      exact ⟨fun _ => by simp [Countable, countable, hit], fun _ => hex⟩
  | some it =>
      obtain ⟨l, s, r, rfl, rfl, rfl⟩ := h.exists_split hit
      by_cases htype : s.tag.val.type = .uncompleted
      · obtain ⟨q₁, hq₁, hrep⟩ := stream_eq h hit htype data
        obtain rfl : q₁ = q' := by
          rw [hq₁, Option.some.injEq, Prod.mk.injEq] at hq'
          exact hq'.2
        rw [hrep.countsExact_iff, forall_replace hex, pushedSegment_exact (hex s (by simp))]
        simp [Countable, countable, hit, h.deref_tag, htype, h.queued]
      · have hclosed : q.stream s.tag.val.id data = some (false, q) := by
          simp [stream, hit, h.deref_tag, htype]
        have hsame : q' = q := by
          rw [hclosed, Option.some.injEq, Prod.mk.injEq] at hq'
          exact hq'.2.symm
        rw [hsame, h.countsExact_iff]
        exact ⟨fun _ => by simp [Countable, countable, hit, h.deref_tag, htype], fun _ => hex⟩

theorem call_end (h : q.Represents segs) (hex : ∀ s ∈ segs, SegmentExact s) {id : Int}
    {data : Sp T} {b : Bool} (hq' : q.end_ id data = some (b, q')) : q'.CountsExact := by
  cases hit : q.itemTags id with
  | none =>
      have hsame : q' = q := by simpa [end_, hit, eq_comm] using congrArg (·.map (·.2)) hq'
      rw [hsame]
      exact h.countsExact_iff.mpr hex
  | some it =>
      obtain ⟨l, s, r, rfl, rfl, rfl⟩ := h.exists_split hit
      obtain ⟨q₁, hq₁, hrep⟩ := end_eq h hit data
      obtain rfl : q₁ = q' := by
        rw [hq₁, Option.some.injEq, Prod.mk.injEq] at hq'
        exact hq'.2
      exact hrep.countsExact_iff.mpr ((forall_replace hex).mpr (hex s (by simp)))

theorem call_setArg (h : q.Represents segs) (hex : ∀ s ∈ segs, SegmentExact s) {id : Int}
    {arg : Sp A} (hq' : q.setArg id arg = some q') : q'.CountsExact := by
  cases hit : q.itemTags id with
  | none =>
      have hsame : q' = q := by simpa [setArg, hit, eq_comm] using hq'
      rw [hsame]
      exact h.countsExact_iff.mpr hex
  | some it =>
      obtain ⟨l, s, r, rfl, rfl, rfl⟩ := h.exists_split hit
      obtain ⟨q₁, hq₁, hrep⟩ := setArg_eq h hit arg
      obtain rfl : q₁ = q' := by
        rw [hq₁, Option.some.injEq] at hq'
        exact hq'
      exact hrep.countsExact_iff.mpr ((forall_replace hex).mpr (hex s (by simp)))

theorem call_erase (h : q.Represents segs) (hex : ∀ s ∈ segs, SegmentExact s) {id : Int}
    {err : BitVec 32} {b : Bool} (hq' : q.erase id err = some (b, q')) :
    q.NoWrap (.erase id err) ∧ q'.CountsExact := by
  cases hit : q.itemTags id with
  | none =>
      have hsame : q' = q := by simpa [erase, hit, eq_comm] using congrArg (·.map (·.2)) hq'
      rw [hsame]
      exact ⟨by simp [NoWrap, decrements, hit], h.countsExact_iff.mpr hex⟩
  | some it =>
      obtain ⟨l, s, r, rfl, rfl, rfl⟩ := h.exists_split hit
      have hs : SegmentExact s := hex s (by simp)
      obtain ⟨q₁, hq₁, hrep⟩ := erase_eq h hit err
      obtain rfl : q₁ = q' := by
        rw [hq₁, Option.some.injEq, Prod.mk.injEq] at hq'
        exact hq'.2
      constructor
      · -- exactly what is counted is taken off
        simp only [NoWrap, decrements, hit, h.deref_tag, h.queued, hs.dataCount]
        split
        · simp
        · simp
      · exact hrep.countsExact_iff.mpr ((forall_replace hex).mpr (erasedSegment_exact hs))

theorem call_clear (h : q.Represents segs) (hex : ∀ s ∈ segs, SegmentExact s)
    {range : Int × Int} (hq' : q.clear = some (range, q')) :
    q.NoWrap .clear ∧ q'.CountsExact ↔ q.Countable (.clear : Call T A) := by
  obtain ⟨q₁, hq₁, hrep⟩ := clear_eq h
  obtain rfl : q₁ = q' := by
    rw [hq₁, Option.some.injEq, Prod.mk.injEq] at hq'
    exact hq'.2
  have hcond : q.Countable (.clear : Call T A) ↔ ∀ s ∈ segs.dropLast, s.data = [] := by
    simp only [Countable, countable, h.tags, ← List.map_dropLast, List.all_eq_true,
      List.forall_mem_map, decide_eq_true_iff]
    refine forall₂_congr fun s hs => ?_
    rw [h.queued_mem (List.dropLast_subset segs hs), List.length_eq_zero_iff]
  rw [hrep.countsExact_iff, clearSegments_exact_iff 0 segs hex, hcond]
  constructor
  · rintro ⟨-, rfl | ⟨-, hdata⟩⟩
    · simp
    · exact hdata
  · intro hdata
    refine ⟨?_, .inr ⟨rfl, hdata⟩⟩
    unfold NoWrap decrements
    rw [h.queue]
    exact clearDecrements_noWrap segs h.ok hex hdata

theorem call_pop (h : q.Represents segs) (hex : ∀ s ∈ segs, SegmentExact s) {out out' : PopArgs T}
    {t : PopType} (hq' : q.pop out = some (t, out', q')) :
    q.NoWrap (.pop out) ∧ q'.CountsExact := by
  cases segs with
  | nil =>
      have hsame : q' = q := by
        simpa [pop, h.tags, eq_comm] using congrArg (·.map (·.2.2)) hq'
      rw [hsame]
      exact ⟨by simp [NoWrap, decrements, h.tags], h.countsExact_iff.mpr hex⟩
  | cons s segs =>
      obtain ⟨hs, hrest⟩ := List.forall_mem_cons.mp hex
      obtain ⟨t₁, out₁, q₁, segs', hq₁, hrep, hleaves, -⟩ := pop_eq h out
      obtain rfl : q₁ = q' := by
        rw [hq₁, Option.some.injEq, Prod.mk.injEq, Prod.mk.injEq] at hq'
        exact hq'.2.2
      constructor
      · have htags : q.tagQueue = s.tag.pos :: segs.map (·.tag.pos) := h.tags
        simp only [NoWrap, decrements, htags, h.deref_tag (l := []), ne_eq, h.head_pos]
        split
        · rename_i hlive
          intro d hd
          obtain rfl := List.mem_singleton.mp hd
          have hpos := List.length_pos_iff.mpr hlive.2.2
          have hcount : s.tag.val.dataCount.toNat = s.data.length := hs
          have hone : (1 : BitVec 32).toNat = 1 := rfl
          rw [BitVec.le_def, hcount, hone]
          exact hpos
        · simp
      · rw [hrep.countsExact_iff]
        cases hleaves with
        | wait => exact hex
        | start => exact List.forall_mem_cons.mpr ⟨hs, hrest⟩
        | datum hdata => exact List.forall_mem_cons.mpr ⟨servedSegment_exact hdata hs, hrest⟩
        | gone => exact hrest

/-- **One call keeps the counts right exactly if it is countable.** -/
theorem call_exact_iff (hwf : q.Wf) (hex : q.CountsExact) {c : Call T A}
    (hcall : q.call c = some (ret, q')) : q.NoWrap c ∧ q'.CountsExact ↔ q.Countable c := by
  obtain ⟨segs, h⟩ := hwf
  have hsegs := h.countsExact_iff.mp hex
  cases c with
  | start id =>
      obtain rfl : (q.start id).2 = q' := by
        rw [call, Option.some.injEq, Prod.mk.injEq] at hcall
        exact hcall.2
      exact ⟨fun _ => rfl, fun _ => ⟨by simp [NoWrap, decrements], call_start h hsegs id⟩⟩
  | stream id data =>
      obtain ⟨r, hr, heq⟩ := Option.map_eq_some_iff.mp hcall
      cases heq
      rw [← call_stream h hsegs hr]
      exact ⟨fun hboth => hboth.2, fun hcounts => ⟨by simp [NoWrap, decrements], hcounts⟩⟩
  | end_ id data =>
      obtain ⟨r, hr, heq⟩ := Option.map_eq_some_iff.mp hcall
      cases heq
      exact ⟨fun _ => rfl, fun _ => ⟨by simp [NoWrap, decrements], call_end h hsegs hr⟩⟩
  | setArg id arg =>
      obtain ⟨r, hr, heq⟩ := Option.map_eq_some_iff.mp hcall
      cases heq
      exact ⟨fun _ => rfl, fun _ => ⟨by simp [NoWrap, decrements], call_setArg h hsegs hr⟩⟩
  | getArg id =>
      obtain ⟨r, hr, heq⟩ := Option.map_eq_some_iff.mp hcall
      cases heq
      exact ⟨fun _ => rfl, fun _ => ⟨by simp [NoWrap, decrements], hex⟩⟩
  | erase id err =>
      obtain ⟨r, hr, heq⟩ := Option.map_eq_some_iff.mp hcall
      cases heq
      exact ⟨fun _ => rfl, fun _ => call_erase h hsegs hr⟩
  | clear =>
      obtain ⟨r, hr, heq⟩ := Option.map_eq_some_iff.mp hcall
      cases heq
      exact call_clear h hsegs hr
  | close =>
      obtain rfl : q.close = q' := by
        rw [call, Option.some.injEq, Prod.mk.injEq] at hcall
        exact hcall.2
      refine ⟨fun _ => rfl, fun _ => ⟨by simp [NoWrap, decrements], ?_⟩⟩
      exact (represents_close q).countsExact_iff.mpr (by simp)
  | available =>
      obtain ⟨r, hr, heq⟩ := Option.map_eq_some_iff.mp hcall
      cases heq
      exact ⟨fun _ => rfl, fun _ => ⟨by simp [NoWrap, decrements], hex⟩⟩
  | pop out =>
      obtain ⟨r, hr, heq⟩ := Option.map_eq_some_iff.mp hcall
      cases heq
      exact ⟨fun _ => rfl, fun _ => call_pop h hsegs hr⟩

end Calls

/-- All the calls of a sequence, by induction on it. -/
theorem along_exact_iff {q : StreamQueue T A} (hwf : q.Wf) (hex : q.CountsExact)
    (cs : List (Call T A)) :
    Along CountsExact NoWrap q cs ↔ Along (fun _ => True) Countable q cs := by
  induction cs generalizing q with
  | nil => exact ⟨fun _ => trivial, fun _ => hex⟩
  | cons c cs ih =>
      obtain ⟨q', hcall, hwf', -⟩ := call_simulates hwf c
      have hone := call_exact_iff hwf hex hcall
      simp only [Along, hcall, true_and]
      constructor
      · rintro ⟨-, hwrap, hrest⟩
        have hex' : q'.CountsExact := by
          cases cs with
          | nil => exact hrest
          | cons c' cs => exact hrest.1
        exact ⟨hone.mp ⟨hwrap, hex'⟩, (ih hwf' hex').mp hrest⟩
      · rintro ⟨hcount, hrest⟩
        obtain ⟨hwrap, hex'⟩ := hone.mpr hcount
        exact ⟨hex, hwrap, (ih hwf' hex').mpr hrest⟩

/-- **`data_count` is exact** in every queue that a sequence of calls leads through, and no
    subtraction goes below zero, exactly if all the calls are countable. -/
theorem dataCount_exact_iff (cs : List (Call T A)) :
    Along CountsExact NoWrap (.empty : StreamQueue T A) cs ↔
      Along (fun _ => True) Countable (.empty : StreamQueue T A) cs := by
  have hrep : (StreamQueue.empty : StreamQueue T A).Represents [] := represents_empty
  exact along_exact_iff ⟨[], hrep⟩ (hrep.countsExact_iff.mpr (by simp)) cs

/-- A stream with one data item stands in front of an empty one when the queue is cleared. -/
theorem dataCount_cleared :
    ¬ ∀ cs : List (Call Unit Unit), Along CountsExact NoWrap StreamQueue.empty cs := by
  intro h
  obtain ⟨-, -, -, -, -, -, -, hwrap, -⟩ := h [.start 1, .stream 1 (some ()), .start 2, .clear]
  revert hwrap
  decide

end StreamQueue

end OpenVoice
