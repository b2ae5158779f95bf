import OpenVoice.Tts.Delivery
import OpenVoice.Tts.Responses
import Mathlib.Algebra.Order.BigOperators.Group.List
import Mathlib.Algebra.Order.Group.Nat

/-!
# What the server says and what a client of `TtsImpl` gets

A response may carry an error code, voice data, a text, and the end.  `poll` hands on the voice
data, with the text next to it, and the end.  A code other than `SUCCESS` and a text without voice
data are lost; without these the client gets everything, in order.
-/

namespace OpenVoice

open OpenVoice.Lib

namespace TtsImpl

/-- A result with nothing but an id and a type. -/
def bareResult (id : Int) (type : TtsResultType) : TtsResult :=
  { type := type, id := id, err := .success, voice := none, text := none }

/-- The results a response is worth. -/
def answers (id : Int) (resp : TtsResponse) : List TtsResult :=
  (if resp.voice.isSome ∨ resp.text.isSome then
    [{ bareResult id .voice with voice := resp.voice, text := resp.text }] else []) ++
    if resp.finish then [bareResult id .end_] else []

/-- The results of an operation with these responses. -/
def expected (id : Int) : List TtsResponse → List TtsResult
  | [] => []
  | l@(_ :: _) => bareResult id .start :: l.flatMap (answers id)

/-- `got` tells the client what the responses `l` say: an error code, if there is one, with the
    terminal result, and otherwise all voice data and texts. -/
def Informs (id : Int) (l : List TtsResponse) (got : List TtsResult) : Prop :=
  if ∀ resp ∈ l, resp.result = 0 then got = expected id l
  else ∃ resp ∈ l, resp.result ≠ 0 ∧ ∃ res ∈ got.getLast?,
    ¬ (res.type = .end_ ∧ res.err = .success) ∧ res.err = integerToReserr resp.result

instance (id : Int) (l : List TtsResponse) (got : List TtsResult) :
    Decidable (Informs id l got) := by unfold Informs; infer_instance

/-- No response has an error code, and none has a text without voice data. -/
def Voiced (l : List TtsResponse) : Prop :=
  ∀ resp ∈ l, resp.result = 0 ∧ (resp.text.isSome → resp.voice.isSome)

instance (l : List TtsResponse) : Decidable (Voiced l) :=
  inferInstanceAs (Decidable (∀ resp ∈ l, _ ∧ (_ → _)))

/-! ### What is handed on -/

section Handed

variable {id : Int} {l : List TtsResponse}

/-- The results of the pieces a response adds. -/
theorem pieces_results (id : Int) (resp : TtsResponse) :
    (script.pieces resp).map (pieceResult id) =
      (if resp.voice.isSome then
        [{ bareResult id .voice with voice := resp.voice, text := resp.text }] else []) ++
        if resp.finish then [bareResult id .end_] else [] := by
  have hdata : pieceResult id (.data (some { voice := resp.voice, text := resp.text })) =
      { bareResult id .voice with voice := resp.voice, text := resp.text } := rfl
  have hend : pieceResult id (.end_ none) = bareResult id .end_ := rfl
  unfold script
  simp only [List.map_append, apply_ite (List.map (pieceResult id)), List.map_singleton,
    List.map_nil, hdata, hend]

/-- What is handed on of a response is at most what it is worth, and it is that if a text does not
    come alone. -/
theorem pieces_length (id : Int) (resp : TtsResponse) :
    ((script.pieces resp).map (pieceResult id)).length ≤ (answers id resp).length ∧
      (((script.pieces resp).map (pieceResult id)).length = (answers id resp).length ↔
        (resp.text.isSome → resp.voice.isSome)) := by
  rw [pieces_results, answers]
  cases resp.voice <;> cases resp.text <;> cases resp.finish <;> simp

theorem pieces_answers {resp : TtsResponse} (h : resp.text.isSome → resp.voice.isSome) :
    (script.pieces resp).map (pieceResult id) = answers id resp := by
  have hor : resp.voice.isSome ∨ resp.text.isSome ↔ resp.voice.isSome :=
    ⟨fun hor => hor.elim (fun hv => hv) h, .inl⟩
  rw [pieces_results, answers]
  simp only [hor]

/-- Lists that are never longer than others, and as long taken together, are as long each. -/
theorem length_flatMap_eq {α β : Type} {f g : α → List β} {l : List α}
    (hle : ∀ x ∈ l, (f x).length ≤ (g x).length)
    (heq : (l.flatMap f).length = (l.flatMap g).length) :
    ∀ x ∈ l, (f x).length = (g x).length := by
  intro x hx
  by_contra hne
  have hlt : (f x).length < (g x).length := Nat.lt_of_le_of_ne (hle x hx) hne
  have hsum := List.sum_lt_sum (fun x => (f x).length) (fun x => (g x).length) hle ⟨x, hx, hlt⟩
  rw [List.length_flatMap, List.length_flatMap] at heq
  omega

/-- All that is handed on is a success. -/
theorem script_success {res : TtsResult}
    (h : res ∈ (script.expected l).map (pieceResult id)) : res.err = .success := by
  obtain ⟨p, hp, rfl⟩ := List.mem_map.mp h
  cases p with
  | error e =>
      exfalso
      cases l with
      | nil => simp at hp
      | cons resp l =>
          simp only [Script.expected, List.isEmpty_cons, Bool.false_eq_true, if_false,
            List.mem_cons, reduceCtorEq, false_or, List.mem_flatMap] at hp
          obtain ⟨x, -, hx⟩ := hp
          simp [script] at hx
  | _ => rfl

theorem integerToReserr_success {err : BitVec 32} (h : integerToReserr err = .success) :
    err = 0 := by
  unfold integerToReserr at h
  split at h
  · rename_i hzero
    exact BitVec.eq_of_toNat_eq hzero
  all_goals cases h

/-- What the client gets of a finished operation informs it exactly if no response has an error
    code or a lonely text. -/
theorem informs_iff :
    Informs id l ((script.expected l).map (pieceResult id)) ↔ Voiced l := by
  unfold Informs
  split
  · rename_i hsucc
    have hvoiced : Voiced l ↔ ∀ resp ∈ l, (resp.text.isSome → resp.voice.isSome) :=
      ⟨fun h resp hresp => (h resp hresp).2, fun h resp hresp => ⟨hsucc resp hresp, h resp hresp⟩⟩
    rw [hvoiced]
    cases l with
    | nil => simp [expected]
    | cons x l =>
        have hstart : pieceResult id .start = bareResult id .start := rfl
        simp only [Script.expected, List.isEmpty_cons, Bool.false_eq_true, if_false, List.map_cons,
          List.map_flatMap, hstart, expected, List.cons.injEq, true_and]
        constructor
        · intro heq resp hresp
          refine (pieces_length id resp).2.mp ?_
          exact length_flatMap_eq (fun y _ => (pieces_length id y).1) (congrArg List.length heq)
            resp hresp
        · intro h
          exact List.flatMap_congr fun resp hresp => pieces_answers (h resp hresp)
  · rename_i hfail
    constructor
    · rintro ⟨resp, hresp, hne, res, hres, -, herr⟩
      have hok : res.err = .success := script_success (List.mem_of_getLast? hres)
      rw [hok] at herr
      exact absurd (integerToReserr_success herr.symm) hne
    · intro h
      exact absurd (fun resp hresp => (h resp hresp).1) hfail

theorem expected_eq (h : Voiced l) :
    (script.expected l).map (pieceResult id) = expected id l := by
  have hinforms : Informs id l _ := informs_iff.mpr h
  rwa [Informs, if_pos fun resp hresp => (h resp hresp).1] at hinforms

end Handed

/-- **Nothing the server says is lost**, as long as it does not report an error and sends no text
    without voice data.  In every run that opens its sessions on clean objects, for an operation
    that is neither cancelled nor failed: what `poll` has returned is a part, from the front, of what
    its responses say, and when the operation is in front `poll` returns the next result, or nothing
    if there is none.  Once the operation has left `operations_` the client has been informed exactly
    if no response had an error code or a text without voice data. -/
theorem tts_informs {u : Traced TtsImpl (Nat × TtsResponse)}
    (hrun : Run AnswerSteps (Traced.Lift CleanPrepare) ⟨{}, []⟩ u) {a : Nat}
    (hsession : u.state.epoch ≤ a) (hint : u.state.controller.Intact a) :
    let id := (u.state.controller.heap a).id
    let l := handled u.trace a
    let got := polledFor u.state a
    (Voiced l → got <+: expected id l ∧
      (u.state.initialized = true → u.state.controller.frontOp = some a →
        ∃ t, u.state.poll = some ((((expected id l).drop got.length).head?).map (a, ·), t))) ∧
    (u.state.initialized = true → a ∉ u.state.controller.operations →
      (Informs id l got ↔ Voiced l)) := by
  have h : Answered u.state u.trace := .run hrun
  obtain ⟨rest, hsaid, hrest⟩ := h.told.served hsession hint fun _ _ => rfl
  refine ⟨?_, ?_⟩
  · intro hvoiced
    rw [expected_eq hvoiced] at hsaid
    rw [hsaid]
    refine ⟨List.prefix_append _ _, ?_⟩
    intro hi hfront
    rw [List.drop_left, hrest hi]
    obtain ⟨v, hv, -⟩ := h.inv.lined (.inl hi)
    obtain ⟨o, c, q, hpoll, -, hmove⟩ := poll_move hv h.inv.noError
    rw [hpoll, hmove.next hfront hint]
    exact ⟨_, rfl⟩
  · intro hi hgone
    rw [hrest hi, OpCtl.dues_of_notMem hgone, List.map_nil, List.append_nil] at hsaid
    rw [← hsaid]
    exact informs_iff

/-- A request that the server answers with these responses, polled four times in the end. -/
def answeredSpeak (l : List TtsResponse) : List TtsAct :=
  [.prepare, .call 0 (.speak "a"), .client 0, .send .success, .send .success, .send .success,
    .send .success] ++ l.flatMap (fun resp => List.replicate 3 (.gen .success resp)) ++
    List.replicate 4 .poll

/-- Voice data with a text, and an end. -/
def voicedAnswer : List TtsResponse :=
  [{ id := 1, voice := some [7], text := some "a", finish := false }, finished 1]

theorem tts_informs_voicedAnswer :
    ∃ u, exec (Traced.step step received) ⟨{}, []⟩ (answeredSpeak voicedAnswer) = some u ∧
      handled u.trace 0 = voicedAnswer ∧ Informs 1 (handled u.trace 0) (polledFor u.state 0) := by
  have hok : allOk (Traced.step step received) (Traced.Lift CleanPrepare) ⟨{}, []⟩
      (answeredSpeak voicedAnswer) = true := by decide +kernel
  refine ⟨_, rfl, by decide +kernel, ?_⟩
  exact ((tts_informs (a := 0) (Run.of_exec hok rfl) (by decide +kernel) (by decide +kernel)).2
    (by decide +kernel) (by decide +kernel)).mpr (by decide +kernel)

/-- The server is busy. -/
def busyAnswer : List TtsResponse :=
  [{ id := 1, result := 5, voice := none, text := none, finish := true }]

/-- A text alone, and an end. -/
def textAnswer : List TtsResponse :=
  [{ id := 1, voice := none, text := some "a", finish := false }, finished 1]

/-- In both cases the client gets a start, and an end that says that all is well. -/
theorem tts_uninformed :
    (∃ u, exec (Traced.step step received) ⟨{}, []⟩ (answeredSpeak busyAnswer) = some u ∧
      handled u.trace 0 = busyAnswer ∧ u.state.controller.Intact 0 ∧
      polledFor u.state 0 = [bareResult 1 .start, bareResult 1 .end_] ∧
      ¬ Informs 1 busyAnswer (polledFor u.state 0)) ∧
    ∃ u, exec (Traced.step step received) ⟨{}, []⟩ (answeredSpeak textAnswer) = some u ∧
      handled u.trace 0 = textAnswer ∧ u.state.controller.Intact 0 ∧
      polledFor u.state 0 = [bareResult 1 .start, bareResult 1 .end_] ∧
      ¬ Informs 1 textAnswer (polledFor u.state 0) := by
  constructor
  · exact ⟨_, rfl, by decide +kernel, by decide +kernel, by decide +kernel, by decide +kernel⟩
  · exact ⟨_, rfl, by decide +kernel, by decide +kernel, by decide +kernel, by decide +kernel⟩

end TtsImpl

end OpenVoice
