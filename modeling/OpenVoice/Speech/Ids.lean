import OpenVoice.Speech.Moves
import Mathlib.Data.List.Perm.Subperm

/-!
# The ids of `SpeechImpl`

`put_text` takes its id before it locks `req_mutex_`, `start_voice` while it holds it; from then on
the id is held by the client, by a queue or by the send thread, until `new_op` is called with it.
`Ids` says that no id is in two of these places and that ids are not used again.
-/

namespace OpenVoice

namespace SpeechImpl

/-- The id of the request in hand, if its first operation has still to be created. -/
def SendPc.taken (created : List Int) : SendPc → List Int
  | .doCtl info | .changeOp info _ =>
      if opens info.type ∨ info.type = .cancelled ∧ info.id ∉ created then [info.id] else []
  | _ => []

/-- The request `send_reqs` holds until `do_ctl_change_op` has done its work. -/
def SendPc.hand : SendPc → Option SpeechReqInfo
  | .doCtl info | .changeOp info _ => some info
  | _ => none

theorem SendPc.taken_of_opens {pc : SendPc} {info : SpeechReqInfo} {created : List Int}
    (h : pc.hand = some info) (hopens : opens info.type = true) :
    pc.taken created = [info.id] := by
  cases pc with
  | doCtl info' =>
      obtain rfl : info' = info := by simpa [hand] using h
      simp [taken, hopens]
  | changeOp info' op =>
      obtain rfl : info' = info := by simpa [hand] using h
      simp [taken, hopens]
  | _ => cases h

/-- The id of the voice stream whose start is in hand. -/
def SendPc.starting : SendPc → List Int
  | .doCtl info | .changeOp info _ => if info.type = .voiceStart then [info.id] else []
  | _ => []

/-- The ids of the requests that have no operation yet. -/
def waiting (taken : List Int) (texts : List SpeechReqInfo) (ks : List (Int × Bool)) :
    List Int :=
  taken ++ texts.map (·.id) ++ unstarted ks

def queuedIds (s : SpeechImpl) : List Int :=
  waiting (s.send.taken s.created) s.textReqs s.voiceReqs.keys

/-- No id is used twice. -/
structure Ids (nextId : Int) (created queued : List Int) (clients : Nat → ClientPc) : Prop where
  nodup : queued.Nodup
  queued_new : ∀ id ∈ queued, id ∉ created
  queued_le : ∀ id ∈ queued, id ≤ nextId
  created_le : ∀ id ∈ created, id ≤ nextId
  held : ∀ n id, (clients n).held = some id → id ≤ nextId ∧ id ∉ created ∧ id ∉ queued
  held_inj : ∀ n m id, (clients n).held = some id → (clients m).held = some id → n = m

namespace Ids

variable {nextId : Int} {created queued queued' : List Int} {clients : Nat → ClientPc}

theorem sublist (h : Ids nextId created queued clients) (hsub : queued'.Subperm queued) :
    Ids nextId created queued' clients where
  nodup := by
    obtain ⟨l, hperm, hl⟩ := hsub
    exact hperm.nodup (h.nodup.sublist hl)
  queued_new id hid := h.queued_new id (hsub.subset hid)
  queued_le id hid := h.queued_le id (hsub.subset hid)
  created_le := h.created_le
  held n id hn := by
    obtain ⟨hle, hc, hq⟩ := h.held n id hn
    exact ⟨hle, hc, fun hmem => hq (hsub.subset hmem)⟩
  held_inj := h.held_inj

/-- A client that holds no id goes somewhere else without taking one. -/
theorem client (h : Ids nextId created queued clients) (n : Nat) {pc : ClientPc}
    (hpc : pc.held = none) : Ids nextId created queued (Function.update clients n pc) where
  nodup := h.nodup
  queued_new := h.queued_new
  queued_le := h.queued_le
  created_le := h.created_le
  held m id hm := by
    by_cases hmn : m = n
    · subst hmn
      rw [Function.update_self, hpc] at hm
      cases hm
    · rw [Function.update_of_ne hmn] at hm
      exact h.held m id hm
  held_inj m k id hm hk := by
    by_cases hmn : m = n
    · subst hmn
      rw [Function.update_self, hpc] at hm
      cases hm
    · by_cases hkn : k = n
      · subst hkn
        rw [Function.update_self, hpc] at hk
        cases hk
      · rw [Function.update_of_ne hmn] at hm
        rw [Function.update_of_ne hkn] at hk
        exact h.held_inj m k id hm hk

/-- `++next_id_` in `put_text`. -/
theorem take (h : Ids nextId created queued clients) (n : Nat) {pc : ClientPc}
    (hpc : pc.held = some (nextId + 1)) :
    Ids (nextId + 1) created queued (Function.update clients n pc) where
  nodup := h.nodup
  queued_new := h.queued_new
  queued_le id hid := Int.le_trans (h.queued_le id hid) (Int.le_of_lt (Int.lt_succ _))
  created_le id hid := Int.le_trans (h.created_le id hid) (Int.le_of_lt (Int.lt_succ _))
  held m id hm := by
    by_cases hmn : m = n
    · subst hmn
      rw [Function.update_self, hpc] at hm
      obtain rfl : nextId + 1 = id := by simpa using hm
      refine ⟨Int.le_refl _, ?_, ?_⟩
      · intro hmem
        exact Int.lt_irrefl _ (Int.lt_of_lt_of_le (Int.lt_succ _) (h.created_le _ hmem))
      · intro hmem
        exact Int.lt_irrefl _ (Int.lt_of_lt_of_le (Int.lt_succ _) (h.queued_le _ hmem))
    · rw [Function.update_of_ne hmn] at hm
      obtain ⟨hle, hrest⟩ := h.held m id hm
      exact ⟨Int.le_trans hle (Int.le_of_lt (Int.lt_succ _)), hrest⟩
  held_inj m k id hm hk := by
    by_cases hmn : m = n
    · by_cases hkn : k = n
      · rw [hmn, hkn]
      · subst hmn
        rw [Function.update_self, hpc] at hm
        rw [Function.update_of_ne hkn] at hk
        obtain rfl : nextId + 1 = id := by simpa using hm
        exact absurd (h.held k _ hk).1 (by omega)
    · by_cases hkn : k = n
      · subst hkn
        rw [Function.update_self, hpc] at hk
        rw [Function.update_of_ne hmn] at hm
        obtain rfl : nextId + 1 = id := by simpa using hk
        exact absurd (h.held m _ hm).1 (by omega)
      · rw [Function.update_of_ne hmn] at hm
        rw [Function.update_of_ne hkn] at hk
        exact h.held_inj m k id hm hk

/-- A new id is queued at once. -/
theorem start (h : Ids nextId created queued clients)
    (hperm : queued'.Perm ((nextId + 1) :: queued)) :
    Ids (nextId + 1) created queued' clients where
  nodup := by
    rw [hperm.nodup_iff, List.nodup_cons]
    refine ⟨?_, h.nodup⟩
    intro hmem
    exact Int.lt_irrefl _ (Int.lt_of_lt_of_le (Int.lt_succ _) (h.queued_le _ hmem))
  queued_new id hid hc := by
    rcases List.mem_cons.mp (hperm.subset hid) with rfl | hid
    · exact Int.lt_irrefl _ (Int.lt_of_lt_of_le (Int.lt_succ _) (h.created_le _ hc))
    · exact h.queued_new id hid hc
  queued_le id hid := by
    rcases List.mem_cons.mp (hperm.subset hid) with rfl | hid
    · exact Int.le_refl _
    · exact Int.le_trans (h.queued_le id hid) (Int.le_of_lt (Int.lt_succ _))
  created_le id hid := Int.le_trans (h.created_le id hid) (Int.le_of_lt (Int.lt_succ _))
  held n id hn := by
    obtain ⟨hle, hc, hq⟩ := h.held n id hn
    refine ⟨Int.le_trans hle (Int.le_of_lt (Int.lt_succ _)), hc, ?_⟩
    intro hmem
    rcases List.mem_cons.mp (hperm.subset hmem) with rfl | hmem
    · exact absurd hle (by omega)
    · exact hq hmem
  held_inj := h.held_inj

/-- An id that was taken for nothing. -/
theorem skip (h : Ids nextId created queued clients) :
    Ids (nextId + 1) created queued clients where
  nodup := h.nodup
  queued_new := h.queued_new
  queued_le id hid := Int.le_trans (h.queued_le id hid) (Int.le_of_lt (Int.lt_succ _))
  created_le id hid := Int.le_trans (h.created_le id hid) (Int.le_of_lt (Int.lt_succ _))
  held n id hn := by
    obtain ⟨hle, hrest⟩ := h.held n id hn
    exact ⟨Int.le_trans hle (Int.le_of_lt (Int.lt_succ _)), hrest⟩
  held_inj := h.held_inj

/-- The id a client holds is queued. -/
theorem push (h : Ids nextId created queued clients) {n : Nat} {id : Int} {pc : ClientPc}
    (hn : (clients n).held = some id) (hpc : pc.held = none)
    (hperm : queued'.Perm (id :: queued)) :
    Ids nextId created queued' (Function.update clients n pc) := by
  obtain ⟨hle, hc, hq⟩ := h.held n id hn
  have hcl := h.client n hpc
  exact
    { nodup := by
        rw [hperm.nodup_iff, List.nodup_cons]
        exact ⟨hq, h.nodup⟩
      queued_new := by
        intro x hx
        rcases List.mem_cons.mp (hperm.subset hx) with rfl | hx
        · exact hc
        · exact h.queued_new x hx
      queued_le := by
        intro x hx
        rcases List.mem_cons.mp (hperm.subset hx) with rfl | hx
        · exact hle
        · exact h.queued_le x hx
      created_le := h.created_le
      held := by
        intro m x hm
        obtain ⟨hle', hc', hq'⟩ := hcl.held m x hm
        refine ⟨hle', hc', ?_⟩
        intro hmem
        rcases List.mem_cons.mp (hperm.subset hmem) with rfl | hmem
        · by_cases hmn : m = n
          · subst hmn
            rw [Function.update_self, hpc] at hm
            cases hm
          · rw [Function.update_of_ne hmn] at hm
            exact hmn (h.held_inj m n x hm hn)
        · exact hq' hmem
      held_inj := hcl.held_inj }

/-- The operation of a request is created. -/
theorem create {id : Int} (h : Ids nextId created (id :: queued) clients) :
    Ids nextId (created ++ [id]) queued clients where
  nodup := (List.nodup_cons.mp h.nodup).2
  queued_new x hx hc := by
    rw [List.mem_append, List.mem_singleton] at hc
    rcases hc with hc | rfl
    · exact h.queued_new x (List.mem_cons_of_mem _ hx) hc
    · exact (List.nodup_cons.mp h.nodup).1 hx
  queued_le x hx := h.queued_le x (List.mem_cons_of_mem _ hx)
  created_le x hx := by
    rw [List.mem_append, List.mem_singleton] at hx
    rcases hx with hx | rfl
    · exact h.created_le x hx
    · exact h.queued_le x List.mem_cons_self
  held n x hn := by
    obtain ⟨hle, hc, hq⟩ := h.held n x hn
    rw [List.mem_cons, not_or] at hq
    rw [List.mem_append, List.mem_singleton, not_or]
    exact ⟨hle, ⟨hc, hq.1⟩, hq.2⟩
  held_inj := h.held_inj

/-- A second operation for an id. -/
theorem recreate {id : Int} (h : Ids nextId created queued clients) (hid : id ∈ created) :
    Ids nextId (created ++ [id]) queued clients := by
  have hmem : ∀ x, x ∈ created ++ [id] ↔ x ∈ created := by
    intro x
    rw [List.mem_append, List.mem_singleton]
    constructor
    · rintro (hx | rfl)
      · exact hx
      · exact hid
    · exact .inl
  exact
    { nodup := h.nodup
      queued_new := by
        intro x hx
        rw [hmem]
        exact h.queued_new x hx
      queued_le := h.queued_le
      created_le := by
        intro x hx
        exact h.created_le x ((hmem x).mp hx)
      held := by
        intro n x hn
        rw [hmem]
        exact h.held n x hn
      held_inj := h.held_inj }

end Ids

end SpeechImpl

end OpenVoice
