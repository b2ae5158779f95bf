import OpenVoice.Lib.Registry
import OpenVoice.Tts.Delivery

/-!
# The Java class `Tts` (`Tts.java`, `com_rokid_speech_Tts.cc`)

`speak` calls the native function and registers the callback in `synchronized (_callbacks)`; the
poll thread that `_sdk_prepare` starts hands every result to `handle_callback`.  This is a
`Registry` of callbacks in front of a `TtsImpl`.  `_callbacks.put` with a null callback leaves
`get` as it was, null.

The callbacks are a parameter.  What they do is up to them: they may throw, and they may call
the functions of the class.
-/

namespace OpenVoice.Android

open OpenVoice.Lib

/-- `NewStringUTF` of `c_str()` -/
def newStringUTF (s : String) : String :=
  String.ofList (s.toList.takeWhile (· ≠ Char.ofNat 0))

namespace Tts

/-- `TtsResult` of `Tts.java`. -/
structure Result where
  id : Int := 0
  type : Int := 0
  err : Int := 0
  voice : Sp Bytes := none
  text : Sp String := none
deriving DecidableEq, Repr

/-- A call of a method of `TtsCallback`. -/
inductive Call where
  | onStart (id : Int)
  | onVoice (id : Int) (data : Sp Bytes) (text : Sp String)
  | onCancel (id : Int)
  | onComplete (id : Int)
  | onError (id : Int) (err : Int)
deriving DecidableEq, Repr

/-- The values of `TtsResultType` in `tts.h`. -/
def resultType : TtsResultType → Int
  | .voice => 0
  | .start => 1
  | .end_ => 2
  | .cancelled => 3
  | .error => 4

/-- The values of `TtsError` in `tts.h`. -/
def resultError : TtsError → Int
  | .success => 0
  | .unauthenticated => 2
  | .connectionExceed => 3
  | .serverResourceExhasted => 4
  | .serverBusy => 5
  | .serverInternal => 6
  | .serviceUnavailable => 101
  | .sdkClosed => 102
  | .timeout => 103
  | .unknown => 104

/-- `generate_result_object` -/
def generateResultObject (result : TtsResult) : Result :=
  { id := result.id
    type := resultType result.type
    err := resultError result.err
    voice := result.voice.filter fun voice => 0 < voice.length
    text := (result.text.filter fun text => 0 < text.length).map newStringUTF }

/-- The `switch` of `handle_callback`: the method that is called, and `del_cb`. -/
def handleCallback (res : Result) : Option Call × Bool :=
  match res.type with
  | 0 => (some (.onVoice res.id res.voice res.text), false)
  | 1 => (some (.onStart res.id), false)
  | 2 => (some (.onComplete res.id), true)
  | 3 => (some (.onCancel res.id), true)
  | 4 => (some (.onError res.id res.err), true)
  | _ => (none, false)

def inside (s : TtsImpl) (n : Nat) : Bool :=
  match s.clients n with
  | .speak _ => true
  | _ => false

/-- What `poll` returns. -/
def polls (s : TtsImpl) : Option Result :=
  match s.poll with
  | some (some r, _) => some (generateResultObject r.2)
  | _ => none

/-- The `TtsImpl` behind the class. -/
def native : Issuer TtsImpl TtsAct String Result where
  step := TtsImpl.step
  prepare := .prepare
  poll := .poll
  enter n content := .call n (.speak content)
  next n := .client n
  enters
    | .call _ (.speak _) => true
    | _ => false
  thread
    | .call n _ | .client n => some n
    | _ => none
  live s := s.initialized
  polls := polls
  inside := inside
  returns s n := if inside s n then some (s.nextId + 1) else none
  id res := res.id
  ends res := (handleCallback res).2

end Tts

/-- The object, its threads, and its callbacks. -/
abbrev Tts (κ : Type) := Registry TtsImpl String κ Tts.Result

namespace Tts

variable {κ : Type}

/-- `speak`, from one blocking point to the next. -/
def speak (u : Tts κ) : Option (Tts κ) := u.request native

/-- The poll thread, `do_poll` and `handle_callback`, from one blocking point to the next. -/
def doPoll (threw : Bool) (u : Tts κ) : Option (Tts κ) := u.pollerStep native threw

def step (u : Tts κ) (a : RegistryAct TtsAct String κ) : Option (Tts κ) := Registry.step native u a

def Steps (u : Tts κ) (a : RegistryAct TtsAct String κ) (v : Tts κ) : Prop := u.step a = some v

/-! ### What the steps of `TtsImpl` do to the requests and the results -/

variable {s t : TtsImpl} {n : Nat}

/-- A step that gives out no id and reports nothing. -/
structure Unheard (s t : TtsImpl) : Prop where
  spoken : t.spoken = s.spoken
  polled : t.polled = s.polled
  nextId : t.nextId = s.nextId
  inside : inside t = inside s
  live : s.initialized = false → t.initialized = false

theorem Unheard.results (h : Unheard s t) : t.results = s.results := by
  rw [TtsImpl.results, TtsImpl.results, h.polled]

theorem inside_update {pc : TtsImpl.ClientPc} {clients : Nat → TtsImpl.ClientPc}
    (ht : t.clients = Function.update clients n pc) (m : Nat) (hm : m ≠ n) :
    inside t m = inside { s with clients := clients } m := by
  unfold inside
  rw [ht, Function.update_of_ne hm]

/-- A client that neither was in `speak` nor is. -/
theorem inside_of_out (hout : inside s n = false) {pc : TtsImpl.ClientPc}
    (ht : t.clients = Function.update s.clients n pc) (hpc : ∀ text, pc ≠ .speak text) :
    inside t = inside s := by
  funext m
  by_cases hm : m = n
  · subst hm
    rw [hout, inside, ht, Function.update_self]
    cases pc with
    | speak text => exact absurd rfl (hpc text)
    | idle => rfl
    | cancel id => rfl
  · exact inside_update ht m hm

theorem unheard_step {a : TtsAct} (hprep : a ≠ .prepare) (hpoll : a ≠ .poll)
    (henter : native.enters a = false)
    (hout : ∀ n, native.thread a = some n → inside s n = false) (hst : s.step a = some t) :
    Unheard s t := by
  unfold TtsImpl.step at hst
  split at hst
  · cases hst
  · cases a with
    | prepare => exact absurd rfl hprep
    | poll => exact absurd rfl hpoll
    | release => cases TtsImpl.release_move hst <;> exact ⟨rfl, rfl, rfl, rfl, by simp [*]⟩
    | call n pc =>
        have hidle := hout n rfl
        simp only [TtsImpl.call] at hst
        split at hst
        · cases henter
        · cases hst
          exact ⟨rfl, rfl, rfl, inside_of_out hidle rfl (by simp), fun hi => hi⟩
        · cases hst
    | client n =>
        have hidle := hout n rfl
        simp only [TtsImpl.client] at hst
        split at hst
        · split at hst
          · cases hst
          · rename_i text hpc
            simp [inside, hpc] at hidle
          · rename_i id hpc
            cases hst
            obtain ⟨reqs, c, k, heq, -, -, -⟩ := TtsImpl.cancel_spec id
              { s with clients := Function.update s.clients n .idle }
            rw [heq]
            exact ⟨rfl, rfl, rfl, inside_of_out hidle rfl (by simp), fun hi => hi⟩
        · cases hst
    | config mod =>
        cases hst
        cases mod <;> exact ⟨rfl, rfl, rfl, rfl, fun hi => hi⟩
    | send r =>
        cases TtsImpl.sendStep_move hst <;> exact ⟨rfl, rfl, rfl, rfl, fun hi => hi⟩
    | gen r resp =>
        obtain ⟨c, q, k, pc, -, rfl⟩ := TtsImpl.genStep_spec hst
        exact ⟨rfl, rfl, rfl, rfl, fun hi => hi⟩
    | tick ns =>
        cases hst
        exact ⟨rfl, rfl, rfl, rfl, fun hi => hi⟩

/-- A call is made by a client that is in none. -/
theorem inside_of_call {pc : TtsImpl.ClientPc} (hst : s.step (.call n pc) = some t) :
    inside s n = false := by
  unfold TtsImpl.step at hst
  split at hst
  · cases hst
  · cases hc : s.clients n with
    | idle => rw [inside, hc]
    | speak text => simp [TtsImpl.call, hc] at hst
    | cancel id => rw [inside, hc]

/-- A step gives out no id and reports nothing, or it is of a thread in `speak`. -/
theorem speak_cases {a : TtsAct} (hprep : a ≠ .prepare) (hpoll : a ≠ .poll)
    (hst : s.step a = some t) :
    Unheard s t ∨ (∃ n content, a = .call n (.speak content)) ∨
      ∃ n, a = .client n ∧ inside s n = true := by
  cases a with
  | prepare => exact absurd rfl hprep
  | poll => exact absurd rfl hpoll
  | client n =>
      cases hin : inside s n with
      | true => exact .inr (.inr ⟨n, rfl, hin⟩)
      | false =>
          refine .inl (unheard_step hprep hpoll rfl ?_ hst)
          intro m hm
          cases hm
          exact hin
  | call n pc =>
      have hidle := inside_of_call hst
      have hout : ∀ m, native.thread (.call n pc) = some m → inside s m = false := by
        intro m hm
        cases hm
        exact hidle
      cases pc with
      | speak content => exact .inr (.inl ⟨n, content, rfl⟩)
      | _ => exact .inl (unheard_step hprep hpoll rfl hout hst)
  | _ => exact .inl (unheard_step hprep hpoll rfl (by simp [native]) hst)

/-- `speak` is entered, or fails at once. -/
theorem enter_step {content : String} (hst : s.step (.call n (.speak content)) = some t) :
    t = s ∨ t = { s with clients := Function.update s.clients n (.speak content) } := by
  unfold TtsImpl.step at hst
  split at hst
  · cases hst
  · simp only [TtsImpl.call] at hst
    split at hst
    · rename_i heq
      split at hst
      · cases hst
        cases heq
        exact .inr rfl
      · cases hst
        exact .inl rfl
    · rename_i heq
      cases heq
    · cases hst

/-- The locked part of `speak`. -/
theorem speak_step (hin : inside s n = true) (hst : s.step (.client n) = some t) :
    ∃ text, t = { s with clients := Function.update s.clients n .idle }.speak text := by
  unfold TtsImpl.step at hst
  split at hst
  · cases hst
  · simp only [TtsImpl.client] at hst
    split at hst
    · split at hst
      · cases hst
      · rename_i text hpc
        cases hst
        exact ⟨text, rfl⟩
      · rename_i id hpc
        simp [inside, hpc] at hin
    · cases hst

/-- `poll` reports what it returns. -/
theorem poll_step (hst : s.step .poll = some t) :
    t.spoken = s.spoken ∧ t.nextId = s.nextId ∧ inside t = inside s ∧
      t.initialized = s.initialized ∧
      (s.initialized = true →
        t.results.map generateResultObject =
          s.results.map generateResultObject ++ (polls s).toList) := by
  unfold TtsImpl.step at hst
  split at hst
  · cases hst
  · cases hst
    unfold TtsImpl.pollStep polls
    split
    · cases hpoll : s.poll with
      | none => exact ⟨rfl, rfl, rfl, rfl, fun _ => (List.append_nil _).symm⟩
      | some p =>
          obtain ⟨o, u⟩ := p
          obtain ⟨c, q, rfl, -⟩ := TtsImpl.poll_eq hpoll
          cases o with
          | none => exact ⟨rfl, rfl, rfl, rfl, fun _ => (List.append_nil _).symm⟩
          | some r =>
              refine ⟨rfl, rfl, rfl, rfl, fun _ => ?_⟩
              simp [TtsImpl.results]
    · rename_i hinit
      exact ⟨rfl, rfl, rfl, rfl, fun hlive => absurd hlive hinit⟩

/-! ### The callbacks -/

/-- The results are for ids that have been given out. -/
structure Heard (s : TtsImpl) : Prop where
  session : TtsImpl.SessionInv s
  nonneg : 0 ≤ s.nextId
  known : ∀ r ∈ s.results, r.id ∈ s.spoken

/-- `prepare` finds nothing of the session before. -/
def Clean (s : TtsImpl) : Prop := s.requests = [] ∧ s.controller.operations = []

instance (s : TtsImpl) : Decidable (Clean s) := inferInstanceAs (Decidable (_ ∧ _))

/-- What is reported is for the operation in front or for a request that has ended. -/
theorem known_of_delivering {v : List (Int × Bool)} {requests : List TtsReqInfo}
    {spoken : List Int} {l : List TtsResult}
    (h : TtsImpl.Delivering v requests spoken l) : ∀ r ∈ l, r.id ∈ spoken := by
  intro r hr
  rw [← h.order]
  by_cases hterm : r.id ∈ TtsImpl.terminals l
  · exact List.mem_append_left _ hterm
  · apply List.mem_append_right
    by_contra hpend
    have hnil := h.others r.id hterm fun rest hv => hpend (by simp [hv, TtsImpl.pendingIds])
    exact TtsImpl.notMem_of_typesOf hnil (List.mem_map_of_mem hr)

namespace Heard

theorem init : Heard ({} : TtsImpl) where
  session :=
    { inv := TtsImpl.inv_init
      spoken := ⟨.nil, by simp⟩
      contract := TtsImpl.Delivering.init.contract
      delivering := by
        intro hinit
        cases hinit }
  nonneg := Int.le_refl _
  known := by
    intro r hr
    cases hr

theorem prepare (h : Heard s) (hclean : Clean s) (hlive : s.initialized = false)
    (hst : s.step .prepare = some t) :
    Heard t ∧ t.spoken = [] ∧ t.results = [] ∧ inside t = inside s := by
  have hsession := h.session.step (fun _ _ => hclean) hst
  unfold TtsImpl.step at hst
  split at hst
  · cases hst
  · simp only at hst
    split at hst
    · cases hst
      have heq : s.prepare.spoken = [] ∧ s.prepare.results = [] ∧ inside s.prepare = inside s ∧
          s.prepare.nextId = 0 := by
        simp [TtsImpl.prepare, hlive, TtsImpl.results, inside, funext_iff]
      obtain ⟨hspoken, hresults, hinside, hnext⟩ := heq
      refine ⟨⟨hsession, Int.le_of_eq hnext.symm, ?_⟩, hspoken, hresults, hinside⟩
      rw [hresults]
      intro r hr
      cases hr
    · cases hst

theorem unheard (h : Heard s) (ht : TtsImpl.SessionInv t) (hq : Unheard s t) : Heard t where
  session := ht
  nonneg := by
    rw [hq.nextId]
    exact h.nonneg
  known := by
    rw [hq.results, hq.spoken]
    exact h.known

/-- **One step.** -/
theorem step (h : Heard s) {a : TtsAct} (hprep : a ≠ .prepare) (hst : s.step a = some t) :
    Heard t ∧ (s.initialized = false → t.initialized = false) := by
  have hsession := h.session.step (fun ha => absurd ha hprep) hst
  by_cases hpoll : a = .poll
  · subst hpoll
    obtain ⟨hspoken, hnext, -, hlive, hresults⟩ := poll_step hst
    refine ⟨⟨hsession, hnext ▸ h.nonneg, ?_⟩, fun hi => hlive.trans hi⟩
    by_cases hi : t.initialized = true
    · obtain ⟨v, -, hv⟩ := hsession.delivering hi
      exact known_of_delivering hv
    · -- nothing is reported once the object has been released
      have hsame : t = s := by
        unfold TtsImpl.step at hst
        split at hst
        · cases hst
        · cases hst
          rw [hlive] at hi
          rw [TtsImpl.pollStep, if_neg hi]
      rw [hsame]
      exact h.known
  · rcases speak_cases hprep hpoll hst with hq | ⟨n, content, rfl⟩ | ⟨n, rfl, hin⟩
    · exact ⟨h.unheard hsession hq, hq.live⟩
    · rcases enter_step hst with rfl | rfl
      · exact ⟨h, fun hi => hi⟩
      · exact ⟨⟨hsession, h.nonneg, h.known⟩, fun hi => hi⟩
    · obtain ⟨text, rfl⟩ := speak_step hin hst
      refine ⟨⟨hsession, ?_, ?_⟩, fun hi => hi⟩
      · have hnonneg := h.nonneg
        simp only [TtsImpl.speak]
        omega
      · intro r hr
        exact List.mem_append_left _ (h.known r hr)

end Heard

end Tts

end OpenVoice.Android
