import OpenVoice.Speech.SendThread

/-!
# `operations_` and `responses_` within one session

`poll` takes the id of a result from the stream in front of `responses_` and everything else it
decides from the operation in front of `operations_`.  In every state of a session the two belong
together (`speech_alignment`).
-/

namespace OpenVoice

open OpenVoice.Lib

namespace SpeechImpl

/-- The object after `prepare`. -/
def opened : SpeechImpl := ({} : SpeechImpl).prepare

/-- No second session is started, and `++next_id_` is one atomic step. -/
def OneSession (s : SpeechImpl) (a : SpeechAct) : Prop := a ≠ .prepare ∧ AtomicIncr s a

instance (s : SpeechImpl) (a : SpeechAct) : Decidable (OneSession s a) :=
  inferInstanceAs (Decidable (_ ∧ _))

theorem OneSession.orderly {s : SpeechImpl} {a : SpeechAct} (h : OneSession s a) :
    Orderly s a := ⟨fun ha => absurd ha h.1, h.2⟩

theorem inv_opened : Inv opened :=
  inv_init.prepare rfl fun _ => ⟨rfl, rfl, rfl, fun _ => rfl⟩

theorem Inv.session {s : SpeechImpl} (hrun : Run Steps OneSession opened s) : Inv s :=
  Inv.run (hrun.mono fun _ _ hok => hok.orderly) inv_opened

/-- The order of `operations_`, `current_op_` and `responses_`.  `release` closes `responses_` when
    the session is over; the streams are gone then. -/
structure Alignment (s : SpeechImpl) : Prop where
  /-- `current_op_` is null or the operation created last -/
  current : s.controller.currentOp = none ∨
    ∃ l a, s.controller.operations = l ++ [a] ∧ s.controller.currentOp = some a ∧
      ((s.controller.heap a).status = .start ∨ (s.controller.heap a).status = .streaming)
  finished : ∀ a ∈ s.controller.operations, s.controller.currentOp ≠ some a →
    (s.controller.heap a).status.Terminal
  order : (Fifo.ids s.responses.records).Sublist s.controller.opIds
  has_stream : s.Streaming → ∀ a ∈ s.controller.operations,
    (s.controller.heap a).status = .streaming ∨ (s.controller.heap a).status = .end_ →
    (s.controller.heap a).id ∈ Fifo.ids s.responses.records
  no_stream : ∀ a ∈ s.controller.operations, (s.controller.heap a).status = .start →
    (s.controller.heap a).id ∉ Fifo.ids s.responses.records

/-- Whatever `poll` pops while the operation `a` is in front is for that operation: both after
    `erase`, for a cancelled or failed operation, and otherwise. -/
structure PopsAgree (s : SpeechImpl) (a : Nat) : Prop where
  erased : (s.controller.heap a).status = .cancelled ∨ (s.controller.heap a).status = .error →
    (s.responses.erase (s.controller.heap a).id 0#32).1 = true →
    ((s.responses.erase (s.controller.heap a).id 0#32).2.pop popArgs).1.2.id =
      (s.controller.heap a).id
  served : (s.controller.heap a).status ≠ .cancelled → (s.controller.heap a).status ≠ .error →
    (s.responses.pop popArgs).1.1 ≠ .empty →
    (s.responses.pop popArgs).1.2.id = (s.controller.heap a).id

theorem Inv.alignment {s : SpeechImpl} (h : Inv s) : Alignment s := by
  by_cases hstr : s.Streaming
  · obtain ⟨v, hv⟩ := h.lined hstr
    exact
      { current := by
          cases hcur : s.controller.currentOp with
          | none => exact .inl rfl
          | some a =>
              obtain ⟨l, hl⟩ := hv.current_last hcur
              exact .inr ⟨l, a, hl, rfl, hv.current_status hcur⟩
        finished := fun a ha hcur => hv.terminal ha hcur
        order := hv.ids_sublist
        has_stream := fun _ a ha hst => hv.has_stream ha hst
        no_stream := fun a ha hst => hv.no_stream ha hst }
  · -- the session is over
    obtain ⟨hcur, hrec, hterm⟩ := h.closed hstr
    exact
      { current := .inl hcur
        finished := fun a ha _ => hterm a ha
        order := by
          rw [hrec]
          exact List.nil_sublist _
        has_stream := fun hs => absurd hs hstr
        no_stream := by
          intro a _ _
          rw [hrec]
          exact List.not_mem_nil }

theorem Inv.pops_agree {s : SpeechImpl} (h : Inv s) (hstr : s.Streaming) {a : Nat}
    (hfront : s.controller.frontOp = some a) : PopsAgree s a := by
  obtain ⟨v, hv⟩ := h.lined hstr
  constructor
  · intro hst herase
    obtain ⟨q', b, v', hdrop, -⟩ := hv.dropStream_front hfront hst popArgs
    unfold dropStream at hdrop
    simp only [herase, if_true] at hdrop
    split at hdrop
    · rename_i hid
      exact hid
    · cases hdrop
  · intro hcan herr hne
    obtain ⟨t, out', q', hpop, -, hcase, -⟩ := hv.pop_front hfront hcan herr popArgs
    rw [hpop] at hne ⊢
    rcases hcase with ⟨rfl, -⟩ | ⟨-, hid, -⟩
    · exact absurd rfl hne
    · exact hid

/-- **Alignment.**  In every state of a session in which `++next_id_` is not interrupted, whatever
    the clients, the threads, the server and the network do: `operations_`, `current_op_` and
    `responses_` are in order, a pop of `responses_` is for the operation in front, and no assertion
    has failed. -/
theorem speech_alignment {s : SpeechImpl} (hrun : Run Steps OneSession opened s) :
    Alignment s ∧ (s.Streaming → ∀ a, s.controller.frontOp = some a → PopsAgree s a) ∧
      (s.initialized = true → s.poll ≠ none) ∧ s.aborted = false := by
  have h := Inv.session hrun
  refine ⟨h.alignment, fun hstr a hfront => h.pops_agree hstr hfront, ?_, h.running⟩
  intro hi
  obtain ⟨o, c, q, hpoll, -⟩ := h.poll hi
  rw [hpoll]
  simp

/-- A voice request that the server answers while it is still being spoken. -/
def answeredVoice : List SpeechAct :=
  let resp : SpeechResponse := { id := 1, type := respIntermediate, result := 0, asr := "hi" }
  [.call 0 (.startVoice none), .client 0, .client 0, .send .success, .send .success, .send .success,
    .send .success, .send .success, .send .success, .send .success, .gen .success resp,
    .gen .success resp, .gen .success resp, .poll]

/-- `put_text` runs `++next_id_` between the load and the store of `start_voice`: both requests get
    the id 1. -/
def overlapped : List SpeechAct :=
  [.call 0 (.startVoice none), .client 0, .call 1 (.putText (some [104]) none), .client 1,
    .client 1, .client 0, .client 1]

/-- `release`, the send thread being about to look for a request. -/
def closed : List SpeechAct :=
  let resp : SpeechResponse := { id := 0, type := respFinish, result := 0 }
  [.release, .release, .release, .send .success, .release, .release, .gen .notReady resp,
    .gen .notReady resp, .release]

theorem speech_alignment_answeredVoice :
    ∃ s, exec step opened answeredVoice = some s ∧
      s.controller.operations = [0] ∧ Fifo.ids s.responses.records = [1] ∧ Alignment s := by
  have hok : allOk step OneSession opened answeredVoice = true := by decide +kernel
  refine ⟨_, rfl, rfl, by decide +kernel, ?_⟩
  exact (speech_alignment (Run.of_exec hok rfl)).1

end SpeechImpl

end OpenVoice
