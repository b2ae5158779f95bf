import OpenVoice.Speech.Ids

/-!
# The log of a session

What the clients have been given: the ids returned by `put_text` and `start_voice`, and the
results returned by `poll`.  `Labels` says that the requests in the queues and in the hand of the
send thread are those the log tells of, and that no id is both of a text and of a voice request.
-/

namespace OpenVoice

namespace SpeechImpl

/-- The results `poll` has returned. -/
def results (l : List SpeechEvent) : List SpeechResult :=
  l.filterMap fun e =>
    match e with
    | .result _ r => some r
    | _ => none

/-- The ids `put_text` has returned. -/
def puts (l : List SpeechEvent) : List Int :=
  l.filterMap fun e =>
    match e with
    | .putText id => some id
    | _ => none

/-- The ids `start_voice` has returned. -/
def starts (l : List SpeechEvent) : List Int :=
  l.filterMap fun e =>
    match e with
    | .startVoice id => some id
    | _ => none

@[simp] theorem results_append (l l' : List SpeechEvent) :
    results (l ++ l') = results l ++ results l' := List.filterMap_append

@[simp] theorem puts_append (l l' : List SpeechEvent) : puts (l ++ l') = puts l ++ puts l' :=
  List.filterMap_append

@[simp] theorem starts_append (l l' : List SpeechEvent) :
    starts (l ++ l') = starts l ++ starts l' := List.filterMap_append

@[simp] theorem results_result (a : Nat) (r : SpeechResult) : results [.result a r] = [r] := rfl
@[simp] theorem results_putText (id : Int) : results [.putText id] = [] := rfl
@[simp] theorem results_startVoice (id : Int) : results [.startVoice id] = [] := rfl
@[simp] theorem results_cancelCall (t : Nat) (id : Int) : results [.cancelCall t id] = [] := rfl
@[simp] theorem results_cancelRet (t : Nat) (id : Int) : results [.cancelRet t id] = [] := rfl

@[simp] theorem puts_result (a : Nat) (r : SpeechResult) : puts [.result a r] = [] := rfl
@[simp] theorem puts_putText (id : Int) : puts [.putText id] = [id] := rfl
@[simp] theorem puts_startVoice (id : Int) : puts [.startVoice id] = [] := rfl
@[simp] theorem puts_cancelCall (t : Nat) (id : Int) : puts [.cancelCall t id] = [] := rfl
@[simp] theorem puts_cancelRet (t : Nat) (id : Int) : puts [.cancelRet t id] = [] := rfl

@[simp] theorem starts_result (a : Nat) (r : SpeechResult) : starts [.result a r] = [] := rfl
@[simp] theorem starts_putText (id : Int) : starts [.putText id] = [] := rfl
@[simp] theorem starts_startVoice (id : Int) : starts [.startVoice id] = [id] := rfl
@[simp] theorem starts_cancelCall (t : Nat) (id : Int) : starts [.cancelCall t id] = [] := rfl
@[simp] theorem starts_cancelRet (t : Nat) (id : Int) : starts [.cancelRet t id] = [] := rfl

theorem mem_puts {l : List SpeechEvent} {id : Int} : id ∈ puts l ↔ .putText id ∈ l := by
  rw [puts, List.mem_filterMap]
  constructor
  · rintro ⟨e, he, hid⟩
    cases e with
    | putText id' =>
        obtain rfl : id' = id := by simpa using hid
        exact he
    | startVoice id' => cases hid
    | cancelCall t id' => cases hid
    | cancelRet t id' => cases hid
    | result a r => cases hid
  · intro h
    exact ⟨_, h, rfl⟩

/-- A request of the log. -/
def Labelled (puts starts : List Int) (info : SpeechReqInfo) : Prop :=
  info.id ∈ puts ∧ (info.type = .text ∨ info.type = .cancelled) ∨
    info.id ∈ starts ∧ info.type ≠ .text

/-- The ids of the log, and what they are the ids of. -/
structure Labels (nextId : Int) (clients : Nat → ClientPc) (puts starts texts keys : List Int)
    (hand : Option SpeechReqInfo) : Prop where
  nonneg : 0 ≤ nextId
  puts_pos : ∀ id ∈ puts, 0 < id ∧ id ≤ nextId
  starts_le : ∀ id ∈ starts, id ≤ nextId
  apart : ∀ id ∈ puts, id ∉ starts
  held : ∀ n id, (clients n).held = some id → 0 < id ∧ id ≤ nextId ∧ id ∉ puts ∧ id ∉ starts
  texts : ∀ id ∈ texts, id ∈ puts
  keys : ∀ id ∈ keys, id ∈ starts
  hand : ∀ info, hand = some info → Labelled puts starts info

namespace Labels

variable {nextId : Int} {clients : Nat → ClientPc} {puts starts texts texts' keys keys' : List Int}
  {hand hand' : Option SpeechReqInfo}

theorem opened : Labels 0 (fun _ => .idle) [] [] [] [] none where
  nonneg := Int.le_refl _
  puts_pos := by simp
  starts_le := by simp
  apart := by simp
  held := by simp [ClientPc.held]
  texts := by simp
  keys := by simp
  hand := by simp

/-- Requests leave the queues. -/
theorem less (h : Labels nextId clients puts starts texts keys hand)
    (htext : ∀ id ∈ texts', id ∈ texts) (hkeys : ∀ id ∈ keys', id ∈ keys)
    (hhand : ∀ info, hand' = some info → Labelled puts starts info) :
    Labels nextId clients puts starts texts' keys' hand' :=
  { h with
    texts := fun id hid => h.texts id (htext id hid)
    keys := fun id hid => h.keys id (hkeys id hid)
    hand := hhand }

/-- A client that holds no id goes somewhere else without taking one. -/
theorem client (h : Labels nextId clients puts starts texts keys hand) (n : Nat) {pc : ClientPc}
    (hpc : pc.held = none) :
    Labels nextId (Function.update clients n pc) puts starts texts keys hand :=
  { h with
    held := by
      intro m id hm
      by_cases hmn : m = n
      · subst hmn
        rw [Function.update_self, hpc] at hm
        cases hm
      · rw [Function.update_of_ne hmn] at hm
        exact h.held m id hm }

/-- `++next_id_`. -/
theorem skip (h : Labels nextId clients puts starts texts keys hand) :
    Labels (nextId + 1) clients puts starts texts keys hand :=
  { h with
    nonneg := Int.le_trans h.nonneg (Int.le_of_lt (Int.lt_succ _))
    puts_pos := by
      intro id hid
      obtain ⟨hpos, hle⟩ := h.puts_pos id hid
      exact ⟨hpos, by omega⟩
    starts_le := by
      intro id hid
      exact Int.le_trans (h.starts_le id hid) (Int.le_of_lt (Int.lt_succ _))
    held := by
      intro n id hn
      obtain ⟨hpos, hle, hrest⟩ := h.held n id hn
      exact ⟨hpos, by omega, hrest⟩ }

/-- `++next_id_` in `put_text`. -/
theorem take (h : Labels nextId clients puts starts texts keys hand) (n : Nat) {pc : ClientPc}
    (hpc : pc.held = some (nextId + 1)) :
    Labels (nextId + 1) (Function.update clients n pc) puts starts texts keys hand :=
  { h.skip with
    held := by
      intro m id hm
      by_cases hmn : m = n
      · subst hmn
        rw [Function.update_self, hpc] at hm
        obtain rfl : nextId + 1 = id := by simpa using hm
        have hnonneg := h.nonneg
        refine ⟨by omega, Int.le_refl _, ?_, ?_⟩
        · intro hmem
          have hle := (h.puts_pos _ hmem).2
          omega
        · intro hmem
          have hle := h.starts_le _ hmem
          omega
      · rw [Function.update_of_ne hmn] at hm
        exact h.skip.held m id hm }

/-- `put_text` queues its request and returns; no other client holds the id. -/
theorem put (h : Labels nextId clients puts starts texts keys hand) {n : Nat} {id : Int}
    {pc : ClientPc} (hn : (clients n).held = some id) (hpc : pc.held = none)
    (hinj : ∀ m, (clients m).held = some id → m = n) :
    Labels nextId (Function.update clients n pc) (puts ++ [id]) starts (texts ++ [id]) keys
      hand := by
  obtain ⟨hpos, hle, hput, hstart⟩ := h.held n id hn
  have hcl := h.client n hpc
  exact
    { nonneg := h.nonneg
      puts_pos := by
        intro x hx
        rw [List.mem_append, List.mem_singleton] at hx
        rcases hx with hx | rfl
        · exact h.puts_pos x hx
        · exact ⟨hpos, hle⟩
      starts_le := h.starts_le
      apart := by
        intro x hx
        rw [List.mem_append, List.mem_singleton] at hx
        rcases hx with hx | rfl
        · exact h.apart x hx
        · exact hstart
      held := by
        intro m x hm
        obtain ⟨hpos', hle', hput', hstart'⟩ := hcl.held m x hm
        refine ⟨hpos', hle', ?_, hstart'⟩
        rw [List.mem_append, List.mem_singleton, not_or]
        refine ⟨hput', ?_⟩
        rintro rfl
        by_cases hmn : m = n
        · subst hmn
          rw [Function.update_self, hpc] at hm
          cases hm
        · rw [Function.update_of_ne hmn] at hm
          exact hmn (hinj m hm)
      texts := by
        intro x hx
        rw [List.mem_append] at hx ⊢
        exact hx.imp_left (h.texts x)
      keys := h.keys
      hand := by
        intro info hinfo
        rcases h.hand info hinfo with ⟨hmem, htype⟩ | hvoice
        · exact .inl ⟨List.mem_append_left _ hmem, htype⟩
        · exact .inr hvoice }

/-- `start_voice` takes a new id, queues its request and returns. -/
theorem start (h : Labels nextId clients puts starts texts keys hand) :
    Labels (nextId + 1) clients puts (starts ++ [nextId + 1]) texts (keys ++ [nextId + 1])
      hand :=
  { h.skip with
    starts_le := by
      intro x hx
      rw [List.mem_append, List.mem_singleton] at hx
      rcases hx with hx | rfl
      · exact h.skip.starts_le x hx
      · exact Int.le_refl _
    apart := by
      intro x hx
      rw [List.mem_append, List.mem_singleton, not_or]
      refine ⟨h.apart x hx, ?_⟩
      rintro rfl
      have hle := (h.puts_pos _ hx).2
      omega
    held := by
      intro n x hn
      obtain ⟨hpos, hle, hput, hstart⟩ := h.held n x hn
      rw [List.mem_append, List.mem_singleton, not_or]
      exact ⟨hpos, by omega, hput, hstart, by omega⟩
    keys := by
      intro x hx
      rw [List.mem_append] at hx ⊢
      exact hx.imp_left (h.keys x)
    hand := by
      intro info hinfo
      rcases h.hand info hinfo with htext | ⟨hmem, htype⟩
      · exact .inl htext
      · exact .inr ⟨List.mem_append_left _ hmem, htype⟩ }

/-- The request of a text in the hand of the send thread. -/
theorem text_hand (h : Labels nextId clients puts starts texts keys hand) {info : SpeechReqInfo}
    (hhand : hand = some info) (hput : info.id ∈ puts) :
    info.type = .text ∨ info.type = .cancelled := by
  rcases h.hand info hhand with ⟨-, htype⟩ | ⟨hstart, -⟩
  · exact htype
  · exact absurd hstart (h.apart _ hput)

/-- It is not among the voice requests. -/
theorem text_notMem (h : Labels nextId clients puts starts texts keys hand) {id : Int}
    (hput : id ∈ puts) : id ∉ keys := fun hmem => h.apart id hput (h.keys id hmem)

end Labels

end SpeechImpl

end OpenVoice
