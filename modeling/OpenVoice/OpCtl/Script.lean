import OpenVoice.OpCtl.Dues

/-!
# What is polled of an operation, told by its responses

A `Script` says what each response adds to the stream of its operation.  `Told` relates what has
been polled of every operation, and what it is still owed, to the responses it has received; the
lemmas of this file carry that through everything the owners of a controller do with it.
-/

namespace OpenVoice

open OpCtl

variable {E T A Resp Res : Type}

/-- The entries of a history that belong to the operation at `a`. -/
def entries {β : Type} (l : List (Nat × β)) (a : Nat) : List β :=
  (l.filter (·.1 = a)).map (·.2)

@[simp] theorem entries_append {β : Type} (l l' : List (Nat × β)) (a : Nat) :
    entries (l ++ l') a = entries l a ++ entries l' a := by
  simp [entries]

theorem entries_singleton {β : Type} (a b : Nat) (x : β) :
    entries [(a, x)] b = if b = a then [x] else [] := by
  by_cases h : b = a
  · simp [entries, h]
  · simp [entries, h, Ne.symm h]

theorem entries_snoc {β : Type} (l : List (Nat × β)) (a b : Nat) (x : β) :
    entries (l ++ [(a, x)]) b = if b = a then entries l b ++ [x] else entries l b := by
  rw [entries_append, entries_singleton]
  split
  · rfl
  · exact List.append_nil _

/-- How responses are turned into the pieces of a stream. -/
structure Script (Resp T : Type) where
  /-- the pieces a response adds -/
  pieces : Resp → List (Piece T)
  /-- the error with which a response closes the stream -/
  failure : Resp → Option (BitVec 16)
  /-- no response comes after it -/
  final : Resp → Prop
  final_of_failure : ∀ r e, failure r = some e → final r

namespace Script

variable (W : Script Resp T) {l : List Resp} {r : Resp}

/-- The start that comes with the first response. -/
def opening (l : List Resp) : List (Piece T) := if l.isEmpty then [.start] else []

/-- The stream of an operation with these responses, none of them an error. -/
def expected (l : List Resp) : List (Piece T) :=
  if l.isEmpty then [] else .start :: l.flatMap W.pieces

@[simp] theorem expected_nil : W.expected [] = [] := rfl

theorem expected_snoc (l : List Resp) (r : Resp) :
    W.expected (l ++ [r]) = W.expected l ++ opening l ++ W.pieces r := by
  cases l with
  | nil => simp [expected, opening]
  | cons x l => simp [expected, opening]

/-- What is owed after one more response. -/
def after (l : List Resp) (dues : List (Piece T)) (r : Resp) : List (Piece T) :=
  match W.failure r with
  | none => dues ++ opening l ++ W.pieces r
  | some e => [.error e]

/-- The pieces an operation with these responses is served: all that is expected, or the error
    after whatever has been polled before it came. -/
inductive Tells : List Resp → List (Piece T) → Prop where
  | served {l : List Resp} (h : ∀ r ∈ l, W.failure r = none) : Tells l (W.expected l)
  | failed {l : List Resp} {r : Resp} {e : BitVec 16} {p : List (Piece T)}
      (hr : W.failure r = some e) (hp : p <+: W.expected l) : Tells (l ++ [r]) (p ++ [.error e])

variable {W}

theorem Tells.nil : W.Tells [] [] := .served (by simp)

/-- One more response. -/
theorem Tells.snoc {p rest : List (Piece T)} (h : W.Tells l (p ++ rest))
    (hopen : ∀ x ∈ l, ¬ W.final x) (r : Resp) : W.Tells (l ++ [r]) (p ++ W.after l rest r) := by
  generalize hall : p ++ rest = all at h
  cases h with
  | @failed l₀ x e p₀ hx hp =>
      exact absurd (W.final_of_failure x e hx) (hopen x (by simp))
  | served hok =>
      unfold after
      cases hr : W.failure r with
      | some e => exact .failed hr ⟨rest, hall⟩
      | none =>
          have heq : p ++ (rest ++ opening l ++ W.pieces r) = W.expected (l ++ [r]) := by
            rw [expected_snoc, ← hall]
            simp
          simp only [heq]
          refine .served ?_
          intro x hx
          rcases List.mem_append.mp hx with hx | hx
          · exact hok x hx
          · rw [List.mem_singleton.mp hx]
            exact hr

/-- Without an error everything is served. -/
theorem Tells.expected {all : List (Piece T)} (h : W.Tells l all)
    (hok : ∀ r ∈ l, W.failure r = none) : all = W.expected l := by
  cases h with
  | served => rfl
  | @failed l₀ x e p hx hp =>
      have hnone := hok x (by simp)
      rw [hx] at hnone
      cases hnone

/-- After an error there is nothing but the error. -/
theorem Tells.error {all : List (Piece T)} (h : W.Tells l all) {e : BitVec 16} (hr : r ∈ l)
    (he : W.failure r = some e) (hone : ∀ x ∈ l.dropLast, ¬ W.final x) :
    ∃ p, all = p ++ [.error e] := by
  cases h with
  | served hok =>
      rw [hok r hr] at he
      cases he
  | @failed l₀ x e' p hx hp =>
      rcases List.mem_append.mp hr with hr | hr
      · rw [List.dropLast_concat] at hone
        exact absurd (W.final_of_failure r e he) (hone r hr)
      · rw [List.mem_singleton.mp hr, hx] at he
        obtain rfl := Option.some.inj he
        exact ⟨p, rfl⟩

end Script

/-! ### Polling -/

/-- **What one iteration of `poll` does**, in terms of what is owed.  `result` makes a result of what
    is popped, and `dropped` one of an operation that is cancelled or has failed. -/
inductive PollMove (result : Int → Piece T → Res) (dropped : Operation E → Res) (c : OpCtl E)
    (q : Streams T A) : Option (Nat × Res) → OpCtl E → Streams T A → Prop where
  | idle {q' : Streams T A} (hq : q'.records = q.records)
      (hnone : ∀ a, c.frontOp = some a → c.Intact a ∧ c.dues q a = []) :
      PollMove result dropped c q none c q'
  | drop {a : Nat} {q' : Streams T A} (ha : c.frontOp = some a) (hint : ¬ c.Intact a)
      (hothers : Spares a c q c.removeFrontOp q') :
      PollMove result dropped c q (some (a, dropped (c.heap a))) c.removeFrontOp q'
  | take {a : Nat} {p : Piece T} {q' : Streams T A} (ha : c.frontOp = some a)
      (hint : c.Intact a)
      (htakes : Takes p a c q (if p.isLast then c.removeFrontOp else c) q') :
      PollMove result dropped c q (some (a, result (c.heap a).id p))
        (if p.isLast then c.removeFrontOp else c) q'

namespace PollMove

variable {result : Int → Piece T → Res} {dropped : Operation E → Res} {c c' : OpCtl E}
  {q q' : Streams T A} {o : Option (Nat × Res)} {a : Nat}

/-- An intact operation in front is given what it is owed first. -/
theorem next (h : PollMove result dropped c q o c' q') (ha : c.frontOp = some a)
    (hint : c.Intact a) :
    o = ((c.dues q a).map (result (c.heap a).id)).head?.map (a, ·) := by
  cases h with
  | idle hq hnone =>
      rw [(hnone a ha).2]
      rfl
  | @drop b _ hb hlost hothers =>
      rw [ha] at hb
      obtain rfl := Option.some.inj hb
      exact absurd hint hlost
  | @take b p _ hb hint' htakes =>
      rw [ha] at hb
      obtain rfl := Option.some.inj hb
      rw [htakes.front]
      rfl

/-- An operation in front that is not intact is dropped. -/
theorem lost (h : PollMove result dropped c q o c' q') (ha : c.frontOp = some a)
    (hlost : ¬ c.Intact a) : o = some (a, dropped (c.heap a)) ∧ c' = c.removeFrontOp := by
  cases h with
  | idle hq hnone => exact absurd (hnone a ha).1 hlost
  | @drop b _ hb hlost' hothers =>
      rw [ha] at hb
      obtain rfl := Option.some.inj hb
      exact ⟨rfl, rfl⟩
  | @take b p _ hb hint htakes =>
      rw [ha] at hb
      obtain rfl := Option.some.inj hb
      exact absurd hint hlost

/-- An intact operation in front is removed with the last piece it is owed. -/
theorem last (h : PollMove result dropped c q o c' q') (ha : c.frontOp = some a)
    (hint : c.Intact a) {p : Piece T} (hdues : c.dues q a = [p]) (hp : p.isLast = true) :
    o = some (a, result (c.heap a).id p) ∧ c' = c.removeFrontOp := by
  have ho := h.next ha hint
  rw [hdues] at ho
  refine ⟨ho, ?_⟩
  cases h with
  | idle hq hnone => cases ho
  | drop hb hlost hothers => rfl
  | @take b x _ hb hint' htakes =>
      rw [ha] at hb
      obtain rfl := Option.some.inj hb
      have hfirst := htakes.front
      rw [hdues] at hfirst
      obtain ⟨rfl, -⟩ := List.cons.inj hfirst
      exact if_pos hp

end PollMove

/-! ### All operations -/

/-- Every intact operation of the session has been told, or is owed, what its responses say.
    `live` says that the streams are in use. -/
structure Told (W : Script Resp T) (result : Int → Piece T → Res) (c : OpCtl E)
    (q : Streams T A) (live : Prop) (epoch : Nat) (handled : Nat → List Resp)
    (polled : Nat → List Res) : Prop where
  unborn : ∀ a, c.fresh ≤ a → handled a = [] ∧ polled a = []
  begun : ∀ a, c.currentOp = some a → ((c.heap a).status = .start ↔ handled a = [])
  final : ∀ a, ∀ r ∈ handled a, W.final r → c.currentOp ≠ some a
  failed : ∀ a, (c.heap a).status = .error → ∀ r ∈ handled a, ¬ W.final r
  order : ∀ a, ∀ r ∈ (handled a).dropLast, ¬ W.final r
  told : ∀ a, epoch ≤ a → c.Intact a → ∃ p rest, polled a = p.map (result (c.heap a).id) ∧
    W.Tells (handled a) (p ++ rest) ∧ (live → rest = c.dues q a)

namespace Told

variable {W : Script Resp T} {result : Int → Piece T → Res} {c c' : OpCtl E}
  {q q' : Streams T A} {live live' : Prop} {epoch : Nat} {handled handled' : Nat → List Resp}
  {polled polled' : Nat → List Res} {a : Nat} {v : List (Int × Bool)}

theorem init [Inhabited E] (q : Streams T A) :
    Told W result (.init : OpCtl E) q live epoch (fun _ => []) fun _ => [] where
  unborn _ _ := ⟨rfl, rfl⟩
  begun _ h := by cases h
  final _ _ h := by cases h
  failed _ _ _ h := by cases h
  order _ _ h := by cases h
  told _ _ _ := ⟨[], [], rfl, .nil, fun _ => rfl⟩

/-- Nothing is created, removed, polled or received. -/
theorem steady (h : Told W result c q live epoch handled polled) (hs : Steady c c')
    (hlive : live' → live ∧ q'.records = q.records) :
    Told W result c' q' live' epoch handled polled where
  unborn a ha := h.unborn a (hs.fresh ▸ ha)
  begun a ha := by
    obtain ⟨hcur, hst⟩ := hs.current a ha
    rw [hst]
    exact h.begun a hcur
  final a r hr hfin ha := h.final a r hr hfin (hs.current a ha).1
  failed a ha r hr hfin := by
    rcases hs.failed a ha with herr | hcur
    · exact h.failed a herr r hr hfin
    · exact h.final a r hr hfin hcur
  order := h.order
  told a ha hint := by
    obtain ⟨p, rest, hpol, htells, hrest⟩ := h.told a ha (hs.intact a hint)
    refine ⟨p, rest, ?_, htells, ?_⟩
    · rw [hs.heap_id]
      exact hpol
    · intro hl
      obtain ⟨hl, hq⟩ := hlive hl
      rw [hs.dues_eq hq]
      exact hrest hl

/-- A new session, with nothing left over. -/
theorem reopen (h : Told W result c q live epoch handled polled) (hops : c.operations = []) :
    Told W result c q live' c.fresh handled fun _ => [] where
  unborn a ha := ⟨(h.unborn a ha).1, rfl⟩
  begun := h.begun
  final := h.final
  failed := h.failed
  order := h.order
  told a ha _ := by
    refine ⟨[], [], rfl, ?_, fun _ => ?_⟩
    · rw [(h.unborn a ha).1]
      exact .nil
    · rw [dues_of_notMem (by simp [hops])]

/-- An operation is created while none is current. -/
theorem newOp [Inhabited E] (h : Told W result c q live epoch handled polled)
    (hcur : c.currentOp = none) {now id : Int} {st : OpStatus}
    (hst : st = .cancelled ∨ st = .start ∧ ∃ v, Lined (c.newOp now id st) q v) :
    Told W result (c.newOp now id st) q live epoch handled polled where
  unborn a ha := h.unborn a (Nat.le_of_succ_le ha)
  begun a ha := by
    rcases hst with rfl | ⟨rfl, -⟩
    · rw [newOp_currentOp_cancelled, hcur] at ha
      cases ha
    · obtain rfl : c.fresh = a := by simpa using ha
      simp [(h.unborn c.fresh (Nat.le_refl _)).1]
  final a r hr hfin ha := by
    rcases hst with rfl | ⟨rfl, -⟩
    · rw [newOp_currentOp_cancelled, hcur] at ha
      cases ha
    · obtain rfl : c.fresh = a := by simpa using ha
      rw [(h.unborn c.fresh (Nat.le_refl _)).1] at hr
      cases hr
  failed a ha r hr := by
    by_cases hnew : a = c.fresh
    · subst hnew
      rw [(h.unborn c.fresh (Nat.le_refl _)).1] at hr
      cases hr
    · rw [newOp_heap_ne c st now id hnew] at ha
      exact h.failed a ha r hr
  order := h.order
  told a ha hint := by
    by_cases hnew : a = c.fresh
    · subst hnew
      obtain ⟨hhandled, hpolled⟩ := h.unborn c.fresh (Nat.le_refl _)
      rw [hhandled, hpolled]
      refine ⟨[], [], rfl, .nil, fun _ => ?_⟩
      rcases hst with rfl | ⟨rfl, v, hl⟩
      · exact absurd (newOp_heap_status c .cancelled now id) hint.1
      · exact hl.newOp_dues.symm
    · rw [Intact, newOp_heap_ne c st now id hnew] at hint
      obtain ⟨p, rest, hpol, htells, hrest⟩ := h.told a ha hint
      rw [newOp_heap_ne c st now id hnew]
      refine ⟨p, rest, hpol, htells, fun hl => ?_⟩
      have hmem : a ∈ (c.newOp now id st).operations ↔ a ∈ c.operations := by simp [hnew]
      rw [hrest hl]
      simp only [dues, hmem, newOp_heap_ne c st now id hnew]

/-- `poll` returns a result for the operation in front. -/
theorem poll (h : Told W result c q live epoch handled polled) (hl : Lined c q v)
    (ha : c.frontOp = some a) {r : Res} (hlive : live)
    (hheap : c'.heap = c.heap) (hfresh : c'.fresh = c.fresh)
    (hcur : c'.currentOp = c.currentOp)
    (hserved : c.Intact a → ∃ p, r = result (c.heap a).id p ∧ Takes p a c q c' q')
    (hothers : Spares a c q c' q')
    (hpolled : ∀ b, polled' b = if b = a then polled b ++ [r] else polled b) :
    Told W result c' q' live epoch handled polled' where
  unborn b hb := by
    rw [hfresh] at hb
    have hne : b ≠ a := by
      rintro rfl
      have hlt := hl.lt_fresh (List.mem_of_mem_head? ha)
      omega
    rw [hpolled, if_neg hne]
    exact h.unborn b hb
  begun b hb := by
    rw [hheap]
    exact h.begun b (hcur ▸ hb)
  final b x hx hfin hb := h.final b x hx hfin (hcur ▸ hb)
  failed b hb := h.failed b (hheap ▸ hb)
  order := h.order
  told b hb hint := by
    rw [Intact, hheap] at hint
    obtain ⟨p, rest, hpol, htells, hrest⟩ := h.told b hb hint
    rw [hheap, hpolled]
    by_cases hba : b = a
    · subst hba
      obtain ⟨x, rfl, htakes⟩ := hserved hint
      refine ⟨p ++ [x], c'.dues q' b, ?_, ?_, fun _ => rfl⟩
      · rw [if_pos rfl, hpol, List.map_append, List.map_singleton]
      · rw [hrest hlive, htakes.front] at htells
        rwa [List.append_assoc, List.singleton_append]
    · refine ⟨p, rest, ?_, htells, fun _ => ?_⟩
      · rw [if_neg hba]
        exact hpol
      · rw [hothers b hba hint]
        exact hrest hlive

/-- One iteration of `poll`. -/
theorem pollMove (h : Told W result c q live epoch handled polled) (hl : Lined c q v)
    (hlive : live) {dropped : Operation E → Res} {o : Option (Nat × Res)}
    (hmove : PollMove result dropped c q o c' q')
    (hpolled : ∀ b, polled' b = polled b ++ entries o.toList b) :
    Told W result c' q' live epoch handled polled' := by
  have hone : ∀ a r, o = some (a, r) →
      ∀ b, polled' b = if b = a then polled b ++ [r] else polled b := by
    rintro a r rfl b
    rw [hpolled, Option.toList_some, entries_singleton]
    split
    · rfl
    · exact List.append_nil _
  cases hmove with
  | idle hq hnone =>
      have hsame : polled' = polled := by
        funext b
        rw [hpolled]
        exact List.append_nil _
      rw [hsame]
      exact h.steady (.refl _) fun hl => ⟨hl, hq⟩
  | @drop a _ ha hint hothers =>
      exact h.poll hl ha hlive rfl rfl rfl (fun hint' => absurd hint' hint) hothers
        (hone a _ rfl)
  | @take a p _ ha hint htakes =>
      have hcontroller : ∀ b : Bool, (if b then c.removeFrontOp else c).heap = c.heap ∧
          (if b then c.removeFrontOp else c).fresh = c.fresh ∧
          (if b then c.removeFrontOp else c).currentOp = c.currentOp := by
        intro b
        cases b <;> exact ⟨rfl, rfl, rfl⟩
      obtain ⟨hheap, hfresh, hcur⟩ := hcontroller p.isLast
      exact h.poll hl ha hlive hheap hfresh hcur (fun _ => ⟨p, rfl, htakes⟩) htakes.others
        (hone a _ rfl)

/-- What an intact operation has been served, when no error is among its responses, and what it is
    still owed are all that its responses say. -/
theorem served (h : Told W result c q live epoch handled polled) (ha : epoch ≤ a)
    (hint : c.Intact a) (hok : ∀ r ∈ handled a, W.failure r = none) :
    ∃ rest, (W.expected (handled a)).map (result (c.heap a).id) =
        polled a ++ rest.map (result (c.heap a).id) ∧ (live → rest = c.dues q a) := by
  obtain ⟨p, rest, hpol, htells, hrest⟩ := h.told a ha hint
  refine ⟨rest, ?_, hrest⟩
  rw [← htells.expected hok, List.map_append, hpol]

/-- An intact operation one of whose responses is an error is owed the error and nothing else; it
    has been told the error when it is gone. -/
theorem failure (h : Told W result c q live epoch handled polled) (hl : Lined c q v) (hlive : live)
    (ha : epoch ≤ a) (hint : c.Intact a) {r : Resp} (hr : r ∈ handled a) {e : BitVec 16}
    (he : W.failure r = some e) :
    (a ∈ c.operations → c.dues q a = [.error e]) ∧
      (a ∉ c.operations → (polled a).getLast? = some (result (c.heap a).id (.error e))) := by
  obtain ⟨p, rest, hpol, htells, hrest⟩ := h.told a ha hint
  obtain ⟨before, hall⟩ := htells.error hr he (h.order a)
  rw [hrest hlive] at hall
  constructor
  · intro hmem
    have hcur := h.final a r hr (W.final_of_failure r e he)
    obtain ⟨hne, hone⟩ := hl.closed_dues hmem hcur hint
    apply hone
    -- the last piece of all is among those that are left
    have hlast := congrArg List.getLast? hall
    rw [List.getLast?_append_of_ne_nil _ hne, List.getLast?_concat] at hlast
    exact List.mem_of_getLast? hlast
  · intro hgone
    rw [dues_of_notMem hgone, List.append_nil] at hall
    rw [hpol, hall, List.map_append, List.map_singleton, List.getLast?_concat]

/-- The current operation receives a response. -/
theorem receive (h : Told W result c q live epoch handled polled) (hl : Lined c q v)
    (ha : c.currentOp = some a) {r : Resp} (hconf : Confined a (c.heap a).id c q c' q')
    (hst : (c'.heap a).status ≠ .error)
    (hcur : ∀ b, c'.currentOp = some b →
      b = a ∧ (c'.heap a).status ≠ .start ∧ ¬ W.final r)
    (hdues : c'.dues q' a = W.after (handled a) (c.dues q a) r)
    (hhandled : ∀ b, handled' b = if b = a then handled b ++ [r] else handled b) :
    Told W result c' q' live epoch handled' polled where
  unborn b hb := by
    rw [hconf.fresh] at hb
    have hne : b ≠ a := by
      rintro rfl
      have hlt := hl.lt_fresh (hl.mem_of_current ha)
      omega
    rw [hhandled, if_neg hne]
    exact h.unborn b hb
  begun b hb := by
    obtain ⟨rfl, hst, -⟩ := hcur b hb
    rw [hhandled, if_pos rfl]
    simp [hst]
  final b x hx hfin hb := by
    obtain ⟨rfl, -, hopen⟩ := hcur b hb
    rw [hhandled, if_pos rfl, List.mem_append, List.mem_singleton] at hx
    rcases hx with hx | rfl
    · exact h.final b x hx hfin ha
    · exact hopen hfin
  failed b hb x hx hfin := by
    by_cases hba : b = a
    · rw [hba] at hb
      exact hst hb
    · rw [hconf.heap b hba] at hb
      rw [hhandled, if_neg hba] at hx
      exact h.failed b hb x hx hfin
  order b x hx := by
    rw [hhandled] at hx
    split at hx
    · rename_i hba
      subst hba
      rw [List.dropLast_concat] at hx
      exact fun hfin => h.final b x hx hfin ha
    · exact h.order b x hx
  told b hb hint := by
    have hint' : c.Intact b := by
      by_cases hba : b = a
      · rw [hba]
        rcases hl.current_status ha with hst' | hst'
        · simp [Intact, hst']
        · simp [Intact, hst']
      · rw [Intact, hconf.heap b hba] at hint
        exact hint
    obtain ⟨p, rest, hpol, htells, hrest⟩ := h.told b hb hint'
    rw [hconf.id_eq, hhandled]
    by_cases hba : b = a
    · subst hba
      refine ⟨p, W.after (handled b) rest r, hpol, ?_, fun hlive => ?_⟩
      · rw [if_pos rfl]
        exact htells.snoc (fun x hx hfin => h.final b x hx hfin ha) r
      · rw [hrest hlive, hdues]
    · refine ⟨p, rest, hpol, ?_, fun hlive => ?_⟩
      · rw [if_neg hba]
        exact htells
      · rw [hrest hlive, hl.confined_others hconf ha hba]

end Told

end OpenVoice
