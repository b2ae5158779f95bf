import OpenVoice.StreamQueue.Removal

/-!
# Delivery of a stream

The data of all streams lives in one list, and the tags alone tell the streams apart.  A stream
nobody removes is served from its `START` to its `END` with everything `stream` accepted in
between (`Record.Delivers`), and the queue serves the streams one after the other in the order
they were started (`Fifo.servedBy_sorted`).
-/

namespace OpenVoice

variable {T A : Type}

/-! ### Reading a run -/

/-- A call with what it returned. -/
abbrev Step (T A : Type) := Call T A × Ret T A

/-- What a call returned for the stream `id`, if it is a `pop`: the type and `res`. -/
def popResult (id : Int) : Step T A → Option (PopType × Sp T)
  | (_, .popped t out) => if t ≠ .empty ∧ out.id = id then some (t, out.res) else none
  | _ => none

/-- The data of a `stream` call for `id` that returned true. -/
def acceptedData (id : Int) : Step T A → Option (Sp T)
  | (.stream i d, .flag true) => if i = id then some d else none
  | _ => none

/-- The content given to an `end` call for `id`. -/
def endContent (id : Int) : Step T A → Option T
  | (.end_ i d, _) => if i = id then d else none
  | _ => none

/-- The results of a stream that is served to its end: its start, its data, its content. -/
def servedToEnd (start : Sp T) (data : List (Sp T)) (content : Sp T) : List (PopType × Sp T) :=
  (.start, start) :: data.map (fun d => (.data, d)) ++ [(.end_, content)]

/-- The streams the pops of a run served, by the number of successful starts before theirs.
    `n` streams have been started so far and `last` are the latest for each id. -/
def servedBy : Nat → (Int → Nat) → List (Step T A) → List Nat
  | _, _, [] => []
  | n, last, (.start i, .flag true) :: rest => servedBy (n + 1) (Function.update last i n) rest
  | n, last, (_, .popped t out) :: rest =>
      if t ≠ .empty then last out.id :: servedBy n last rest else servedBy n last rest
  | n, last, _ :: rest => servedBy n last rest

/-! ### One stream -/

namespace Record

variable {id : Int} {r r' : Record T A}

/-- Neither removed nor failed. -/
def Served (r : Record T A) : Prop := r.state = .uncompleted ∨ r.state = .completed

/-- **What a call does to the record of the stream `id`**, with what it returned. -/
inductive Moves (id : Int) (r : Record T A) : Step T A → Record T A → Prop where
  | other {x : Step T A} {r' : Record T A} (heq : r' = { r with arg := r'.arg })
      (hpop : popResult id x = none) (hdata : acceptedData id x = none)
      (hcontent : endContent id x = none) : Moves id r x r'
  | push (d : Sp T) (hst : r.state = .uncompleted) :
      Moves id r (.stream id d, .flag true) (r.push d)
  | complete (d : Sp T) : Moves id r (.end_ id d, .flag true) (r.complete d)
  | start (out : PopArgs T) (hpoll : r.polling = false) :
      Moves id r (.pop out, .popped .start { out with id := id }) { r with polling := true }
  | data (out : PopArgs T) {d : Sp T} {ds : List (Sp T)} (hpoll : r.polling = true)
      (hpend : r.pending = d :: ds) :
      Moves id r (.pop out, .popped .data { out with id := id, res := d })
        { r with pending := ds }

theorem Moves.served {x : Step T A} (h : r.Moves id x r') (hst : r.Served) : r'.Served := by
  cases h with
  | other heq =>
      rw [heq]
      exact hst
  | push d hst' => exact .inl hst'
  | complete d => exact .inr rfl
  | start out hpoll => exact hst
  | data out hpoll hpend => exact hst

/-- What the record still owes when the calls `tr` follow and the stream ends with `content`: its
    start unless that has been served, the data that waits and what is accepted, the end. -/
def Delivers (id : Int) (r : Record T A) (tr : List (Step T A)) (out : PopArgs T)
    (results : List (PopType × Sp T)) : Prop :=
  ∃ head, results = head ++ (r.pending ++ tr.filterMap (acceptedData id)).map (fun d => (.data, d)) ++
      [(.end_, ((tr.filterMap (endContent id)).getLast?.or r.content).or out.res)] ∧
    (r.polling = true ∧ head = [] ∨ r.polling = false ∧ ∃ res, head = [(.start, res)])

/-- One call more in front. -/
theorem Moves.delivers {x : Step T A} {tr : List (Step T A)} {out : PopArgs T}
    {results : List (PopType × Sp T)} (h : r.Moves id x r')
    (hd : r'.Delivers id tr out results) :
    r.Delivers id (x :: tr) out ((popResult id x).toList ++ results) := by
  obtain ⟨head, rfl, hhead⟩ := hd
  cases h with
  | other heq hpop hdata hcontent =>
      refine ⟨head, ?_, ?_⟩
      · rw [hpop, List.filterMap_cons_none hdata, List.filterMap_cons_none hcontent, heq]
        rfl
      · rw [heq] at hhead
        exact hhead
  | push d hst =>
      have hdata : acceptedData (A := A) id (.stream id d, .flag true) = some d := if_pos rfl
      refine ⟨head, ?_, hhead⟩
      rw [List.filterMap_cons_some hdata, List.filterMap_cons_none rfl]
      simp [popResult, Record.push]
  | complete d =>
      have hcontent : endContent (A := A) id (.end_ id d, .flag true) = d := if_pos rfl
      refine ⟨head, ?_, hhead⟩
      rw [List.filterMap_cons_none rfl]
      cases d with
      | none =>
          rw [List.filterMap_cons_none hcontent]
          rfl
      | some d =>
          -- the content is that of the last call that gives one
          have hlast : ∀ l : List T, ((d :: l).getLast?).or r.content = l.getLast?.or (some d) := by
            intro l
            cases l <;> simp [List.getLast?_cons]
          rw [List.filterMap_cons_some hcontent, hlast]
          rfl
  | start out' hpoll =>
      have hpop : popResult (A := A) id (.pop out', .popped .start { out' with id := id }) =
          some (.start, out'.res) := if_pos ⟨by simp, rfl⟩
      refine ⟨[(.start, out'.res)], ?_, .inr ⟨hpoll, _, rfl⟩⟩
      rw [hpop, List.filterMap_cons_none rfl, List.filterMap_cons_none rfl]
      rcases hhead with ⟨-, rfl⟩ | ⟨hf, -⟩
      · rfl
      · cases hf
  | @data out' d ds hpoll hpend =>
      have hpop : popResult (A := A) id (.pop out', .popped .data { out' with id := id, res := d }) =
          some (.data, d) := if_pos ⟨by simp, rfl⟩
      refine ⟨[], ?_, .inl ⟨hpoll, rfl⟩⟩
      rw [hpop, List.filterMap_cons_none rfl, List.filterMap_cons_none rfl, hpend]
      rcases hhead with ⟨-, rfl⟩ | ⟨hf, -⟩
      · rfl
      · rw [hpoll] at hf
        cases hf

end Record

namespace Fifo

variable {rs : List (Record T A)} {id : Int} {r : Record T A}

theorem acceptedData_of_ne {i : Int} (hi : i ≠ id) (d : Sp T) (ret : Ret T A) :
    acceptedData id (.stream i d, ret) = none := by
  unfold acceptedData
  split
  · rename_i heq
    cases heq
    exact if_neg hi
  · rfl

/-- A call about another stream, or one that changes nothing. -/
theorem moves_other {c : Call T A} (hfind : find id (call rs c).2 = some r)
    (hpop : popResult id (c, (call rs c).1) = none)
    (hdata : acceptedData id (c, (call rs c).1) = none) (hcontent : endContent id (c, (call rs c).1) = none) :
    ∃ r', find id (call rs c).2 = some r' ∧ r.Moves id (c, (call rs c).1) r' :=
  ⟨r, hfind, .other rfl hpop hdata hcontent⟩

/-- A pop that serves the stream, which is the head of the queue then. -/
theorem pop_moves (hst : r.Served) (hnd : (ids (r :: rs)).Nodup) (out : PopArgs T)
    (hstay : r.id ∈ ids (pop out (r :: rs)).2.2) :
    ∃ r', find r.id (pop out (r :: rs)).2.2 = some r' ∧
      r.Moves r.id (.pop out, .popped (pop out (r :: rs)).1 (pop out (r :: rs)).2.1) r' := by
  have hhead : ∀ r' : Record T A, r'.id = r.id → find r.id (r' :: rs) = some r' := by
    intro r' hid
    simp [find, hid]
  cases hpoll : r.polling with
  | false =>
      refine ⟨{ r with polling := true }, ?_, ?_⟩
      · rw [pop_start out hst hpoll]
        exact hhead _ rfl
      · rw [pop_start out hst hpoll]
        exact .start out hpoll
  | true =>
      cases hpend : r.pending with
      | cons d ds =>
          refine ⟨{ r with pending := ds }, ?_, ?_⟩
          · rw [pop_data out hst hpoll hpend]
            exact hhead _ rfl
          · rw [pop_data out hst hpoll hpend]
            exact .data out hpoll hpend
      | nil =>
          rcases hst with hst | hst
          · refine ⟨r, ?_, .other rfl ?_ rfl rfl⟩
            · rw [pop_wait out hst hpoll hpend]
              exact hhead _ rfl
            · rw [pop_wait out hst hpoll hpend]
              simp [popResult]
          · -- its end would take it out of the queue
            rw [pop_end out hst hpoll hpend] at hstay
            exact absurd hstay (List.nodup_cons.mp hnd).1

/-- A pop that serves another stream, or none. -/
theorem popResult_of_ne {r₀ : Record T A} (hne : r₀.id ≠ id) (out : PopArgs T) :
    popResult (A := A) id
      (.pop out, .popped (pop out (r₀ :: rs)).1 (pop out (r₀ :: rs)).2.1) = none := by
  apply if_neg
  rintro ⟨ht, hid⟩
  rw [pop_id ht] at hid
  exact hne hid

theorem find_pop_of_ne {r₀ : Record T A} (hne : r₀.id ≠ id) (out : PopArgs T) :
    find id (pop out (r₀ :: rs)).2.2 = find id (r₀ :: rs) := by
  have htail : ∀ r' : Record T A, r'.id = r₀.id → find id (r' :: rs) = find id rs := by
    intro r' hid
    have hne' : r'.id ≠ id := by rwa [hid]
    simp [find, hne']
  rw [htail r₀ rfl]
  rcases pop_tail out r₀ rs with h | ⟨r', hid, h⟩
  · rw [h]
  · rw [h, htail r' hid]

/-- **One call.**  As long as nobody removes the stream and it stays in the queue, its record
    moves on. -/
theorem call_moves (hnd : (ids rs).Nodup) (hr : find id rs = some r) (hst : r.Served)
    {c : Call T A} (hno : ¬ c.Removes id) (hstay : id ∈ ids (call rs c).2) :
    ∃ r', find id (call rs c).2 = some r' ∧ r.Moves id (c, (call rs c).1) r' := by
  obtain ⟨hmem, hid⟩ := mem_of_find hr
  have hin : id ∈ ids rs := hid ▸ mem_ids_of_mem hmem
  cases c with
  | start i =>
      by_cases hi : i ∈ ids rs
      · refine moves_other ?_ rfl rfl rfl
        simp only [call, start_of_mem hi]
        exact hr
      · have hne : id ≠ i := fun heq => hi (heq ▸ hin)
        refine moves_other ?_ rfl rfl rfl
        rw [find_call_of_ne rs rfl hne]
        exact hr
  | stream i d =>
      by_cases hi : i = id
      · subst hi
        rcases hst with hst | hst
        · refine ⟨r.push d, ?_, ?_⟩
          · simp only [call, stream_of_uncompleted d hr hst]
            exact find_amend_self _ (Record.push_id d) hr
          · simp only [call, stream_of_uncompleted d hr hst]
            exact .push d hst
        · have hclosed : stream i d rs = (false, rs) := stream_of_closed d hr (by simp [hst])
          refine moves_other ?_ rfl ?_ rfl
          · simp only [call, hclosed]
            exact hr
          · simp only [call, hclosed]
            rfl
      · refine moves_other ?_ rfl ?_ rfl
        · rw [find_call_of_ne rs rfl (Ne.symm hi)]
          exact hr
        · exact acceptedData_of_ne hi d _
  | end_ i d =>
      by_cases hi : i = id
      · subst hi
        refine ⟨r.complete d, ?_, ?_⟩
        · simp only [call, end_of_mem d hin]
          exact find_amend_self _ (Record.complete_id d) hr
        · simp only [call, end_of_mem d hin]
          exact .complete d
      · refine moves_other ?_ rfl rfl ?_
        · rw [find_call_of_ne rs rfl (Ne.symm hi)]
          exact hr
        · simp [endContent, hi]
  | setArg i a =>
      by_cases hi : i = id
      · subst hi
        refine ⟨{ r with arg := a }, ?_, .other rfl rfl rfl rfl⟩
        exact find_amend_self _ (fun _ => rfl) hr
      · refine moves_other ?_ rfl rfl rfl
        rw [find_call_of_ne rs rfl (Ne.symm hi)]
        exact hr
  | getArg i => exact moves_other hr rfl rfl rfl
  | erase i err =>
      have hi : id ≠ i := by
        rintro rfl
        exact hno (.inl ⟨err, rfl⟩)
      refine moves_other ?_ rfl rfl rfl
      rw [find_call_of_ne rs rfl hi]
      exact hr
  | clear => exact absurd (.inr rfl) hno
  | close => simp [call] at hstay
  | available => exact moves_other hr rfl rfl rfl
  | pop out =>
      cases rs with
      | nil => cases hr
      | cons r₀ rs =>
          by_cases hid₀ : r₀.id = id
          · have heq : r₀ = r := by
              have hhead : find id (r₀ :: rs) = some r₀ := by simp [find, hid₀]
              exact Option.some.inj (hhead.symm.trans hr)
            subst heq
            subst hid₀
            exact pop_moves hst hnd out hstay
          · refine moves_other ?_ (popResult_of_ne hid₀ out) rfl rfl
            simp only [call]
            rw [find_pop_of_ne hid₀]
            exact hr

/-- The pop that takes the stream out of the queue returns its end. -/
theorem popResult_last (hnd : (ids rs).Nodup) (hr : find id rs = some r) (hst : r.Served)
    (out : PopArgs T) (hgone : id ∉ ids (pop out rs).2.2) :
    popResult (A := A) id (.pop out, .popped (pop out rs).1 (pop out rs).2.1) =
        some (.end_, r.content.or out.res) ∧ r.polling = true ∧ r.pending = [] := by
  obtain ⟨hmem, hid⟩ := mem_of_find hr
  cases rs with
  | nil => cases hr
  | cons r₀ rs =>
      by_cases hid₀ : r₀.id = id
      · have heq : r₀ = r := by
          have hhead : find id (r₀ :: rs) = some r₀ := by simp [find, hid₀]
          exact Option.some.inj (hhead.symm.trans hr)
        subst heq
        subst hid₀
        cases hpoll : r₀.polling with
        | false =>
            rw [pop_start out hst hpoll] at hgone
            exact absurd (by simp) hgone
        | true =>
            cases hpend : r₀.pending with
            | cons d ds =>
                rw [pop_data out hst hpoll hpend] at hgone
                exact absurd (by simp) hgone
            | nil =>
                rcases hst with hst | hst
                · rw [pop_wait out hst hpoll hpend] at hgone
                  exact absurd (by simp) hgone
                · rw [pop_end out hst hpoll hpend]
                  refine ⟨?_, rfl, rfl⟩
                  have hres : (if r₀.content.isSome then r₀.content else out.res) =
                      r₀.content.or out.res := by
                    cases r₀.content <;> rfl
                  rw [hres]
                  exact if_pos ⟨by simp, rfl⟩
      · -- another stream is the head, and this one stays
        have hfind : find id (pop out (r₀ :: rs)).2.2 = find id (r₀ :: rs) :=
          find_pop_of_ne hid₀ out
        rw [hr] at hfind
        obtain ⟨hmem', hid'⟩ := mem_of_find hfind
        exact absurd (hid' ▸ mem_ids_of_mem hmem') hgone

/-- A stream that is not in the queue does not come back without a successful `start`. -/
theorem notMem_ids_calls {cs : List (Call T A)} (h : id ∉ ids rs)
    (hcs : (.start id, .flag true) ∉ cs.zip (calls rs cs).1) : id ∉ ids (calls rs cs).2 := by
  induction cs generalizing rs with
  | nil => exact h
  | cons c cs ih =>
      rw [calls, List.zip_cons_cons, List.mem_cons, not_or] at hcs
      apply ih _ hcs.2
      apply notMem_ids_call h
      rintro ⟨rfl, hret⟩
      exact hcs.1 (by rw [hret])

/-- **A stream nobody removes is delivered**, by induction on the calls. -/
theorem calls_deliver (hnd : (ids rs).Nodup) (hr : find id rs = some r) (hst : r.Served)
    (mid : List (Call T A)) (out : PopArgs T) (hno : ∀ c ∈ mid, ¬ c.Removes id)
    (hstart : (.start id, .flag true) ∉ mid.zip (calls rs mid).1)
    (hin : id ∈ ids (calls rs mid).2) (hgone : id ∉ ids (pop out (calls rs mid).2).2.2) :
    r.Delivers id (mid.zip (calls rs mid).1) out
      ((mid.zip (calls rs mid).1).filterMap (popResult id) ++
        (popResult id (.pop out, (call (calls rs mid).2 (.pop out)).1)).toList) := by
  induction mid generalizing rs r with
  | nil =>
      obtain ⟨hres, hpoll, hpend⟩ := popResult_last hnd hr hst out hgone
      refine ⟨[], ?_, .inl ⟨hpoll, rfl⟩⟩
      simp only [calls, call, hres, hpend]
      rfl
  | cons c mid ih =>
      rw [calls, List.zip_cons_cons, List.mem_cons, not_or] at hstart
      have hstay : id ∈ ids (call rs c).2 := by
        by_contra habs
        exact notMem_ids_calls habs hstart.2 hin
      obtain ⟨r', hr', hmoves⟩ := call_moves hnd hr hst (hno c List.mem_cons_self) hstay
      have hrest := ih (ids_call_nodup hnd c) hr' (hmoves.served hst)
        (fun c' hc' => hno c' (List.mem_cons_of_mem _ hc')) hstart.2 hin hgone
      have hd := hmoves.delivers hrest
      rw [calls, List.zip_cons_cons, List.filterMap_cons]
      cases hx : popResult id (c, (call rs c).1) with
      | none =>
          rw [hx] at hd
          exact hd
      | some x =>
          rw [hx] at hd
          exact hd

/-! ### All streams -/

/-- The streams in the queue were started one after the other, all of them among the first `n`. -/
def InOrder (n : Nat) (last : Int → Nat) (rs : List (Record T A)) : Prop :=
  (ids rs).Pairwise (fun i j => last i < last j) ∧ ∀ i ∈ ids rs, last i < n

theorem InOrder.sublist {n : Nat} {last : Int → Nat} {rs' : List (Record T A)}
    (h : InOrder n last rs) (hsub : (ids rs').Sublist (ids rs)) : InOrder n last rs' :=
  ⟨h.1.sublist hsub, fun i hi => h.2 i (hsub.subset hi)⟩

theorem InOrder.start {n : Nat} {last : Int → Nat} {i : Int} (h : InOrder n last rs)
    (hi : i ∉ ids rs) : InOrder (n + 1) (Function.update last i n) (rs ++ [.opened i]) := by
  have hold : ∀ j ∈ ids rs, Function.update last i n j = last j := by
    intro j hj
    have hne : j ≠ i := fun heq => hi (heq ▸ hj)
    exact Function.update_of_ne hne _ _
  constructor
  · rw [ids_append, List.pairwise_append]
    refine ⟨?_, by simp, ?_⟩
    · apply h.1.imp_of_mem
      intro j k hj hk hlt
      rw [hold j hj, hold k hk]
      exact hlt
    · intro j hj k hk
      obtain rfl : k = i := by simpa using hk
      rw [hold j hj, Function.update_self]
      exact h.2 j hj
  · intro j hj
    rw [ids_append, List.mem_append] at hj
    rcases hj with hj | hj
    · rw [hold j hj]
      exact Nat.lt_succ_of_lt (h.2 j hj)
    · obtain rfl : j = i := by simpa using hj
      rw [Function.update_self]
      exact Nat.lt_succ_self n

/-- The streams served from here on: in the order they were started, and none of them before
    those that are waiting now. -/
def ServedInOrder (n : Nat) (last : Int → Nat) (rs : List (Record T A)) (ks : List Nat) : Prop :=
  ks.Pairwise (· ≤ ·) ∧ ∀ b, b ≤ n → (∀ i ∈ ids rs, b ≤ last i) → ∀ k ∈ ks, b ≤ k

/-- A call that starts no stream and serves none. -/
theorem ServedInOrder.of_sublist {n : Nat} {last : Int → Nat} {rs' : List (Record T A)}
    {ks : List Nat} (h : ServedInOrder n last rs' ks) (hsub : (ids rs').Sublist (ids rs)) :
    ServedInOrder n last rs ks :=
  ⟨h.1, fun b hb hids => h.2 b hb fun i hi => hids i (hsub.subset hi)⟩

theorem ServedInOrder.of_start {n : Nat} {last : Int → Nat} {i : Int} {ks : List Nat}
    (hi : i ∉ ids rs)
    (h : ServedInOrder (n + 1) (Function.update last i n) (rs ++ [.opened i]) ks) :
    ServedInOrder n last rs ks := by
  refine ⟨h.1, ?_⟩
  intro b hb hids
  apply h.2 b (Nat.le_succ_of_le hb)
  intro j hj
  rw [ids_append, List.mem_append] at hj
  rcases hj with hj | hj
  · have hne : j ≠ i := fun heq => hi (heq ▸ hj)
    rw [Function.update_of_ne hne]
    exact hids j hj
  · obtain rfl : j = i := by simpa using hj
    rw [Function.update_self]
    exact hb

/-- The head is served: whatever is served later was started later. -/
theorem ServedInOrder.of_pop {n : Nat} {last : Int → Nat} {rs' : List (Record T A)}
    {ks : List Nat} (hord : InOrder n last (r :: rs)) (h : ServedInOrder n last rs' ks)
    (hsub : (ids rs').Sublist (ids (r :: rs))) :
    ServedInOrder n last (r :: rs) (last r.id :: ks) := by
  have hhead : ∀ i ∈ ids (r :: rs), last r.id ≤ last i := by
    intro i hi
    rw [ids_cons, List.mem_cons] at hi
    rcases hi with rfl | hi
    · exact Nat.le_refl _
    · exact Nat.le_of_lt ((List.pairwise_cons.mp hord.1).1 i hi)
  constructor
  · rw [List.pairwise_cons]
    refine ⟨?_, h.1⟩
    apply h.2 _ (Nat.le_of_lt (hord.2 r.id (by simp)))
    exact fun i hi => hhead i (hsub.subset hi)
  · intro b hb hids k hk
    rcases List.mem_cons.mp hk with rfl | hk
    · exact hids r.id (by simp)
    · exact h.2 b hb (fun i hi => hids i (hsub.subset hi)) k hk

/-- **The streams are served in the order they were started**, by induction on the calls. -/
theorem servedBy_inOrder {n : Nat} {last : Int → Nat} (h : InOrder n last rs)
    (cs : List (Call T A)) :
    ServedInOrder n last rs (servedBy n last (cs.zip (calls rs cs).1)) := by
  induction cs generalizing rs n last with
  | nil =>
      refine ⟨.nil, ?_⟩
      intro b _ _ k hk
      cases hk
  | cons c cs ih =>
      rw [calls, List.zip_cons_cons]
      have hquiet : (ids (call rs c).2).Sublist (ids rs) →
          ServedInOrder n last rs (servedBy n last (cs.zip (calls (call rs c).2 cs).1)) :=
        fun hsub => (ih (h.sublist hsub)).of_sublist hsub
      cases c with
      | start i =>
          by_cases hi : i ∈ ids rs
          · simp only [call, start_of_mem hi] at hquiet ⊢
            exact hquiet (List.Sublist.refl _)
          · simp only [call, start_of_notMem hi]
            exact .of_start hi (ih (h.start hi))
      | stream i d => exact hquiet (by simp [call])
      | end_ i d => exact hquiet (by simp [call])
      | setArg i a => exact hquiet (by simp [call])
      | getArg i => exact hquiet (List.Sublist.refl _)
      | erase i err => exact hquiet (by simp [call])
      | clear => exact hquiet (by simp [call])
      | close => exact hquiet (by simp [call])
      | available => exact hquiet (List.Sublist.refl _)
      | pop out =>
          have hsub : (ids (pop out rs).2.2).Sublist (ids rs) := ids_pop_sublist out
          have hrest := ih (h.sublist hsub)
          simp only [call, servedBy]
          split
          · rename_i ht
            cases rs with
            | nil => exact absurd rfl ht
            | cons r rs =>
                rw [pop_id ht]
                exact .of_pop h hrest hsub
          · exact hquiet hsub

end Fifo

/-- A stream that has just been started has everything to come. -/
theorem Record.Delivers.opened {id : Int} {tr : List (Step T A)} {out : PopArgs T}
    {results : List (PopType × Sp T)} (h : (Record.opened id).Delivers id tr out results) :
    ∃ res, results = servedToEnd res (tr.filterMap (acceptedData id))
      ((tr.filterMap (endContent id)).getLast?.or out.res) := by
  obtain ⟨head, hresults, ⟨hf, -⟩ | ⟨-, res, rfl⟩⟩ := h
  · cases hf
  · refine ⟨res, ?_⟩
    rw [hresults, show (Record.opened id : Record T A).content = none from rfl, Option.or_none]
    rfl

/-- **Delivery.**  In every run of calls from the empty queue the streams are served in the order
    of their start calls, none of them before the one in front is done.  And a stream on which no
    `erase` or `clear` has an effect, from the `start` that opens it to the pop that removes its
    tag, yields its start, the data of the accepted `stream` calls in their order, and its end with
    the last content given to `end`, if there is one. -/
theorem stream_delivery :
    (∀ (cs : List (Call T A)) rets q, StreamQueue.empty.calls cs = some (rets, q) →
      (servedBy 0 (fun _ => 0) (cs.zip rets)).Pairwise (· ≤ ·)) ∧
    ∀ (pre mid : List (Call T A)) id out rets₀ rets ret q₀ q₁ q₂ q₃,
      StreamQueue.empty.calls pre = some (rets₀, q₀) →
      q₀.call (.start id) = some (.flag true, q₁) →
      q₁.calls mid = some (rets, q₂) →
      q₂.call (.pop out) = some (ret, q₃) →
      (Call.start id, Ret.flag true) ∉ mid.zip rets →
      id ∈ Fifo.ids q₂.records → id ∉ Fifo.ids q₃.records →
      (∀ c ∈ mid, ¬ c.Removes id) →
      ∃ res, (mid.zip rets ++ [(Call.pop out, ret)]).filterMap (popResult id) =
        servedToEnd res ((mid.zip rets).filterMap (acceptedData id))
          (((mid.zip rets).filterMap (endContent id)).getLast?.or out.res) := by
  have hempty : (StreamQueue.empty : StreamQueue T A).Wf := ⟨[], StreamQueue.represents_empty⟩
  have hnil : (StreamQueue.empty : StreamQueue T A).records = [] :=
    StreamQueue.represents_empty.records_eq
  constructor
  · intro cs rets q hq
    obtain ⟨q', hq', -, -⟩ := StreamQueue.calls_simulates hempty cs
    rw [hq', hnil] at hq
    obtain ⟨rfl, -⟩ : (Fifo.calls [] cs).1 = rets ∧ q' = q := by simpa using hq
    exact (Fifo.servedBy_inOrder ⟨.nil, by simp⟩ cs).1
  · intro pre mid id out rets₀ rets ret q₀ q₁ q₂ q₃ h₀ hstart hmid hpop hno hin hgone hremoves
    -- the concrete queue and the FIFO of streams, call by call
    obtain ⟨q₀', hq₀, hwf₀, -⟩ := StreamQueue.calls_simulates hempty pre
    rw [h₀] at hq₀
    obtain ⟨-, rfl⟩ : _ ∧ q₀ = q₀' := by simpa using hq₀
    obtain ⟨q₁', hq₁, hwf₁, hrec₁⟩ := StreamQueue.call_simulates hwf₀ (.start id)
    rw [hstart] at hq₁
    obtain ⟨hflag, rfl⟩ : Ret.flag true = (Fifo.call q₀.records (.start id)).1 ∧ q₁ = q₁' := by
      simpa using hq₁
    obtain ⟨q₂', hq₂, hwf₂, hrec₂⟩ := StreamQueue.calls_simulates hwf₁ mid
    rw [hmid] at hq₂
    obtain ⟨rfl, rfl⟩ : rets = (Fifo.calls q₁.records mid).1 ∧ q₂ = q₂' := by simpa using hq₂
    obtain ⟨q₃', hq₃, -, hrec₃⟩ := StreamQueue.call_simulates hwf₂ (.pop out)
    rw [hpop] at hq₃
    obtain ⟨rfl, rfl⟩ : ret = (Fifo.call q₂.records (.pop out)).1 ∧ q₃ = q₃' := by simpa using hq₃
    have hnd : (Fifo.ids q₁.records).Nodup := by
      obtain ⟨segs, hrep⟩ := hwf₁
      rw [hrep.records_eq]
      exact hrep.ids
    -- the stream starts at the end of the queue
    have hnew : id ∉ Fifo.ids q₀.records := by
      intro hmem
      simp [Fifo.call, Fifo.start_of_mem hmem] at hflag
    rw [Fifo.call, Fifo.start_of_notMem hnew] at hrec₁
    have hmem : Record.opened id ∈ q₁.records := by simp [hrec₁]
    have hfind : Fifo.find id q₁.records = some (.opened id) := Fifo.find_of_mem hnd hmem
    rw [hrec₂] at hin hrec₃
    rw [hrec₃] at hgone
    have hdel := Fifo.calls_deliver hnd hfind (.inl rfl) mid out hremoves hno hin hgone
    obtain ⟨res, hres⟩ := hdel.opened
    refine ⟨res, ?_⟩
    rw [List.filterMap_append, ← hres, hrec₂]
    congr 1

/-- Two streams produced at the same time, the second one before the first is consumed. -/
def interleaved : List (Call Nat Nat) :=
  [.stream 1 (some 10), .stream 2 (some 20), .pop ⟨0, none, 0⟩, .end_ 2 none, .pop ⟨0, none, 0⟩,
    .pop ⟨0, none, 0⟩, .stream 1 (some 11), .end_ 1 (some 12), .pop ⟨0, none, 0⟩,
    .pop ⟨0, none, 0⟩, .pop ⟨0, none, 0⟩]

def bothStarted : List (Call Nat Nat) := [.start 2, .start 1]

theorem stream_delivery_interleaved :
    (∃ rets q, StreamQueue.empty.calls (bothStarted ++ interleaved) = some (rets, q) ∧
      servedBy 0 (fun _ => 0) ((bothStarted ++ interleaved).zip rets) = [0, 0, 0, 1, 1, 1] ∧
      (servedBy 0 (fun _ => 0) ((bothStarted ++ interleaved).zip rets)).Pairwise (· ≤ ·)) ∧
    ∃ (q₁ q₂ : StreamQueue Nat Nat) (rets : List (Ret Nat Nat)) (ret : Ret Nat Nat),
      (∃ q₀, StreamQueue.empty.calls [.start 2] = some ([.flag true], q₀) ∧
        q₀.call (.start 1) = some (.flag true, q₁)) ∧
      q₁.calls interleaved = some (rets, q₂) ∧
      (interleaved.zip rets).filterMap (acceptedData 1) = [some 10, some 11] ∧
      (interleaved.zip rets).filterMap (endContent 1) = [12] ∧
      ∃ res, (interleaved.zip rets ++ [(Call.pop ⟨0, none, 0⟩, ret)]).filterMap (popResult 1) =
        servedToEnd res ((interleaved.zip rets).filterMap (acceptedData 1))
          (((interleaved.zip rets).filterMap (endContent 1)).getLast?.or none) :=
  ⟨⟨_, _, rfl, by decide, stream_delivery.1 _ _ _ rfl⟩,
    _, _, _, _, ⟨_, rfl, rfl⟩, rfl, by decide, by decide,
    stream_delivery.2 [.start 2] interleaved 1 ⟨0, none, 0⟩ _ _ _ _ _ _ _ rfl rfl rfl rfl
      (by decide) (by decide) (by decide) (by simp [interleaved, Call.Removes])⟩

end OpenVoice
