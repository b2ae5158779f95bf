import OpenVoice.Android.Tts
import OpenVoice.Speech.Requests

/-!
# The Java class `Speech` (`Speech.java`, `com_rokid_speech_Speech.cc`)

As `Tts`, with two functions that return an id: `putText` and `startVoice` call the native function
and register the callback in `synchronized (_callbacks)`.  So no two threads are in `put_text` or
`start_voice` at a time, and `++next_id_` needs no lock of its own.
-/

namespace OpenVoice.Android

open OpenVoice.Lib

namespace Speech

/-- `SpeechResult` of `Speech.java`. -/
structure Result where
  id : Int := 0
  type : Int := 0
  err : Int := 0
  asr : Sp String := none
  nlp : Sp String := none
  action : Sp String := none
  extra : Sp String := none
deriving DecidableEq, Repr

/-- A call of a method of `SpeechCallback`. -/
inductive Call where
  | onStart (id : Int)
  | onIntermediateResult (id : Int) (asr extra : Sp String)
  | onAsrComplete (id : Int) (asr : Sp String)
  | onComplete (id : Int) (nlp action : Sp String)
  | onCancel (id : Int)
  | onError (id : Int) (err : Int)
deriving DecidableEq, Repr

/-- A string that is set if it is not empty. -/
def stringField (s : String) : Sp String :=
  if 0 < s.length then some (newStringUTF s) else none

/-- `generate_result_object` -/
def generateResultObject (result : SpeechResult) : Result :=
  { id := result.id
    type := result.type.toNat
    err := result.err.toInt
    asr := stringField result.asr
    nlp := stringField result.nlp
    action := stringField result.action
    extra := stringField result.extra }

/-- The `switch` of `handle_callback`: the method that is called, and `del_cb`. -/
def handleCallback (res : Result) : Option Call × Bool :=
  match res.type with
  | 0 => (some (.onIntermediateResult res.id res.asr res.extra), false)
  | 1 => (some (.onStart res.id), false)
  | 2 => (some (.onAsrComplete res.id res.asr), false)
  | 3 => (some (.onComplete res.id res.nlp res.action), true)
  | 4 => (some (.onCancel res.id), true)
  | 5 => (some (.onError res.id res.err), true)
  | _ => (none, false)

/-- A call that returns an id. -/
inductive Request where
  | putText (content : Bytes) (opt : Sp VoiceOptions)
  | startVoice (opt : Sp VoiceOptions)
deriving DecidableEq, Repr

def Request.call : Request → SpeechCall
  | .putText content opt => .putText (some content) opt
  | .startVoice opt => .startVoice opt

/-- A client in `put_text` or `start_voice`. -/
def requesting : SpeechImpl.ClientPc → Bool
  | .loadId _ _ | .storeId _ _ _ | .pushText _ _ _ | .startVoice _ | .storeVoice _ _ => true
  | .idle | .putVoice _ _ | .endVoice _ | .cancel _ | .cancelOp _ => false

theorem requesting_of_loaded {pc : SpeechImpl.ClientPc} {loaded : Int}
    (h : pc.loaded = some loaded) : requesting pc = true := by
  cases pc <;> first | rfl | cases h

def inside (s : SpeechImpl) (n : Nat) : Bool := requesting (s.clients n)

/-- What the call of a client returns with its next step. -/
def returns (s : SpeechImpl) (n : Nat) : Option Int :=
  match s.clients n with
  | .pushText _ _ id => some id
  | .storeVoice options loaded =>
      some ((((s.setClient n .idle).setHolder none).startVoice options loaded).1.getD (-1))
  | _ => none

/-- What `poll` returns. -/
def polls (s : SpeechImpl) : Option Result :=
  match s.poll with
  | some (some r, _) => some (generateResultObject r.2)
  | _ => none

/-- The `SpeechImpl` behind the class. -/
def native : Issuer SpeechImpl SpeechAct Request Result where
  step := SpeechImpl.step
  prepare := .prepare
  poll := .poll
  enter n c := .call n c.call
  next n := .client n
  enters
    | .call _ (.putText (some _) _) | .call _ (.startVoice _) => true
    | _ => false
  thread
    | .call n _ | .client n => some n
    | _ => none
  live s := s.initialized
  polls := polls
  inside := inside
  returns := returns
  id res := res.id
  ends res := (handleCallback res).2

end Speech

/-- The object, its threads, and its callbacks. -/
abbrev Speech (κ : Type) := Registry SpeechImpl Speech.Request κ Speech.Result

namespace Speech

variable {κ : Type}

/-- `putText` and `startVoice`, from one blocking point to the next. -/
def request (u : Speech κ) : Option (Speech κ) := Registry.request native u

/-- The poll thread, `do_poll` and `handle_callback`, from one blocking point to the next. -/
def doPoll (threw : Bool) (u : Speech κ) : Option (Speech κ) := u.pollerStep native threw

def step (u : Speech κ) (a : RegistryAct SpeechAct Request κ) : Option (Speech κ) :=
  Registry.step native u a

def Steps (u : Speech κ) (a : RegistryAct SpeechAct Request κ) (v : Speech κ) : Prop :=
  u.step a = some v

/-! ### What the steps of `SpeechImpl` do to the requests and the results -/

variable {s t : SpeechImpl} {n : Nat}

/-- The ids that `put_text` and `start_voice` have returned. -/
def issued (l : List SpeechEvent) : List Int :=
  l.filterMap fun e =>
    match e with
    | .putText id | .startVoice id => some id
    | .cancelCall _ _ | .cancelRet _ _ | .result _ _ => none

@[simp] theorem issued_append (l l' : List SpeechEvent) :
    issued (l ++ l') = issued l ++ issued l' := List.filterMap_append

theorem mem_issued {l : List SpeechEvent} {id : Int} :
    id ∈ issued l ↔ id ∈ SpeechImpl.puts l ∨ id ∈ SpeechImpl.starts l := by
  simp only [issued, SpeechImpl.puts, SpeechImpl.starts, List.mem_filterMap]
  constructor
  · rintro ⟨e, he, hid⟩
    cases e with
    | putText id' => exact .inl ⟨_, he, hid⟩
    | startVoice id' => exact .inr ⟨_, he, hid⟩
    | cancelCall t id' => cases hid
    | cancelRet t id' => cases hid
    | result a r => cases hid
  · rintro (⟨e, he, hid⟩ | ⟨e, he, hid⟩)
    · cases e with
      | putText id' => exact ⟨_, he, hid⟩
      | _ => cases hid
    · cases e with
      | startVoice id' => exact ⟨_, he, hid⟩
      | _ => cases hid

/-- A step that gives out no id and reports nothing. -/
structure Unheard (s t : SpeechImpl) : Prop where
  issued : issued t.log = issued s.log
  results : SpeechImpl.results t.log = SpeechImpl.results s.log
  nextId : t.nextId = s.nextId
  requesting : ∀ m, Speech.requesting (t.clients m) = true → t.clients m = s.clients m
  inside : Speech.inside t = Speech.inside s
  created : t.created = s.created ∨
    ∃ info, s.send.hand = some info ∧ t.created = s.created ++ [info.id]
  live : s.initialized = false → t.initialized = false

/-- A client that neither was in a request nor is. -/
theorem Unheard.of_client (hout : Speech.inside s n = false) {pc : SpeechImpl.ClientPc}
    (hpc : Speech.requesting pc = false) (ht : t.clients = Function.update s.clients n pc)
    (hissued : Speech.issued t.log = Speech.issued s.log)
    (hresults : SpeechImpl.results t.log = SpeechImpl.results s.log) (hnext : t.nextId = s.nextId)
    (hcreated : t.created = s.created) (hlive : t.initialized = s.initialized) : Unheard s t where
  issued := hissued
  results := hresults
  nextId := hnext
  requesting := by
    intro m hm
    rw [ht] at hm ⊢
    by_cases hmn : m = n
    · subst hmn
      rw [Function.update_self, hpc] at hm
      cases hm
    · exact Function.update_of_ne hmn _ _
  inside := by
    funext m
    unfold Speech.inside at hout ⊢
    rw [ht]
    by_cases hmn : m = n
    · subst hmn
      rw [Function.update_self, hpc, hout]
    · rw [Function.update_of_ne hmn]
  created := .inl hcreated
  live hi := hlive.trans hi

/-- A step of another thread. -/
theorem Unheard.of_log (hlog : t.log = s.log) (hclients : t.clients = s.clients)
    (hnext : t.nextId = s.nextId)
    (hcreated : t.created = s.created ∨
      ∃ info, s.send.hand = some info ∧ t.created = s.created ++ [info.id])
    (hlive : s.initialized = false → t.initialized = false) : Unheard s t where
  issued := by rw [hlog]
  results := by rw [hlog]
  nextId := hnext
  requesting m _ := by rw [hclients]
  inside := by
    funext m
    unfold Speech.inside
    rw [hclients]
  created := hcreated
  live := hlive

theorem unheard_step {a : SpeechAct} (hprep : a ≠ .prepare) (hpoll : a ≠ .poll)
    (henter : native.enters a = false)
    (hout : ∀ n, native.thread a = some n → inside s n = false) (hst : s.step a = some t) :
    Unheard s t := by
  unfold SpeechImpl.step at hst
  split at hst
  · cases hst
  · cases a with
    | prepare => exact absurd rfl hprep
    | poll => exact absurd rfl hpoll
    | release =>
        cases SpeechImpl.release_move hst <;>
          exact .of_log rfl rfl rfl (.inl rfl) (by simp [*])
    | call n c =>
        have hidle := hout n rfl
        have hstay : Unheard s s := .of_log rfl rfl rfl (.inl rfl) fun hi => hi
        simp only [SpeechImpl.call] at hst
        split at hst
        · cases hst
        · cases c with
          | putText text options =>
              cases text with
              | none =>
                  cases hst
                  exact hstay
              | some text => cases henter
          | startVoice options => cases henter
          | putVoice id voice =>
              cases voice with
              | none =>
                  cases hst
                  exact hstay
              | some voice =>
                  simp only at hst
                  split at hst
                  · cases hst
                    exact .of_client hidle rfl rfl rfl rfl rfl rfl rfl
                  · cases hst
                    exact hstay
          | endVoice id =>
              simp only at hst
              split at hst
              · cases hst
                exact .of_client hidle rfl rfl rfl rfl rfl rfl rfl
              · cases hst
                exact hstay
          | cancel id =>
              cases hst
              refine .of_client hidle rfl rfl ?_ ?_ rfl rfl rfl
              · simp [SpeechImpl.record, SpeechImpl.setClient, issued]
              · simp [SpeechImpl.record, SpeechImpl.setClient]
    | client n =>
        have hidle := hout n rfl
        cases SpeechImpl.client_move hst with
        | load hpc => simp [inside, hpc, requesting] at hidle
        | store hpc => simp [inside, hpc, requesting] at hidle
        | lock hpc => simp [inside, hpc, requesting] at hidle
        | push hpc hp htype => simp [inside, hpc, requesting] at hidle
        | start hpc hq => simp [inside, hpc, requesting] at hidle
        | startFailed hpc hq => simp [inside, hpc, requesting] at hidle
        | voice hpc hq => exact .of_client hidle rfl rfl rfl rfl rfl rfl rfl
        | cancelReq hpc hreq hq htext htype hmore =>
            rcases hmore with ⟨-, rfl, rfl⟩ | ⟨-, rfl, rfl⟩
            · exact .of_client hidle rfl rfl (by simp) (by simp) rfl rfl rfl
            · exact .of_client hidle rfl rfl (by simp [issued]) (by simp) rfl rfl rfl
        | cancelOp hpc =>
            exact .of_client hidle rfl rfl (by simp [issued]) (by simp) rfl rfl rfl
    | config mod =>
        cases hst
        cases mod <;> exact .of_log rfl rfl rfl (.inl rfl) fun hi => hi
    | send r =>
        cases SpeechImpl.sendStep_move hst with
        | create hpc htype =>
            exact .of_log rfl rfl rfl (.inr ⟨_, by rw [hpc]; rfl, rfl⟩) fun hi => hi
        | createCancelled hpc htype =>
            exact .of_log rfl rfl rfl (.inr ⟨_, by rw [hpc]; rfl, rfl⟩) fun hi => hi
        | _ => exact .of_log rfl rfl rfl (.inl rfl) fun hi => hi
    | gen r resp =>
        obtain ⟨c, q, v, k, pc, -, -, rfl⟩ := SpeechImpl.genStep_spec hst
        exact .of_log rfl rfl rfl (.inl rfl) fun hi => hi
    | tick ns =>
        cases hst
        exact .of_log rfl rfl rfl (.inl rfl) fun hi => hi

/-- A call is made by a client that is in none. -/
theorem inside_of_call {c : SpeechCall} (hst : s.step (.call n c) = some t) :
    inside s n = false := by
  unfold SpeechImpl.step at hst
  split at hst
  · cases hst
  · simp only [SpeechImpl.call] at hst
    split at hst
    · cases hst
    · rename_i hidle
      have hpc : s.clients n = .idle := by simpa using hidle
      rw [inside, hpc]
      rfl

/-- A step gives out no id and reports nothing, or it is the start or the next step of a
    request. -/
theorem request_cases {a : SpeechAct} (hprep : a ≠ .prepare) (hpoll : a ≠ .poll)
    (hst : s.step a = some t) :
    Unheard s t ∨ (∃ n c, a = .call n (Request.call c)) ∨
      ∃ n, a = .client n ∧ inside s n = true := by
  cases a with
  | prepare => exact absurd rfl hprep
  | poll => exact absurd rfl hpoll
  | client n =>
      cases hin : inside s n with
      | true => exact .inr (.inr ⟨n, rfl, hin⟩)
      | false =>
          refine .inl (unheard_step hprep hpoll rfl ?_ hst)
          intro m hm
          cases hm
          exact hin
  | call n c =>
      have hidle := inside_of_call hst
      have hout : ∀ m, native.thread (.call n c) = some m → inside s m = false := by
        intro m hm
        cases hm
        exact hidle
      cases c with
      | startVoice options => exact .inr (.inl ⟨n, .startVoice options, rfl⟩)
      | putText text options =>
          cases text with
          | some text => exact .inr (.inl ⟨n, .putText text options, rfl⟩)
          | none => exact .inl (unheard_step hprep hpoll rfl hout hst)
      | _ => exact .inl (unheard_step hprep hpoll rfl hout hst)
  | _ => exact .inl (unheard_step hprep hpoll rfl (by simp [native]) hst)

/-- A request is entered, or fails at once. -/
theorem enter_step {c : Request} (hst : s.step (.call n c.call) = some t) :
    t = s ∨ ∃ pc, t = s.setClient n pc ∧ requesting pc = true ∧ pc.loaded = none := by
  unfold SpeechImpl.step at hst
  split at hst
  · cases hst
  · simp only [SpeechImpl.call] at hst
    split at hst
    · cases hst
    · cases c with
      | putText content opt =>
          simp only [Request.call] at hst
          split at hst
          · cases hst
            exact .inr ⟨_, rfl, rfl, rfl⟩
          · cases hst
            exact .inl rfl
      | startVoice opt =>
          simp only [Request.call] at hst
          split at hst
          · cases hst
            exact .inr ⟨_, rfl, rfl, rfl⟩
          · cases hst
            exact .inl rfl

/-- **The next step of a request.** -/
inductive RequestMove (s : SpeechImpl) (n : Nat) : SpeechImpl → Prop where
  | load {text : Bytes} {options : Sp VoiceOptions} (hpc : s.clients n = .loadId text options) :
      RequestMove s n (s.setClient n (.storeId text options s.nextId))
  | store {text : Bytes} {options : Sp VoiceOptions} {loaded : Int}
      (hpc : s.clients n = .storeId text options loaded) :
      RequestMove s n
        { s.setClient n (.pushText text options (loaded + 1)) with nextId := loaded + 1 }
  | push {text : Bytes} {options : Sp VoiceOptions} {id : Int} {texts : List SpeechReqInfo}
      (hpc : s.clients n = .pushText text options id) :
      RequestMove s n { s.setClient n .idle with
        textReqs := texts, log := s.log ++ [.putText id] }
  | lock {options : Sp VoiceOptions} (hpc : s.clients n = .startVoice options) :
      RequestMove s n { s.setClient n (.storeVoice options s.nextId) with holder := some n }
  | start {options : Sp VoiceOptions} {loaded : Int} {q : Streams Bytes VoiceOptions}
      (hpc : s.clients n = .storeVoice options loaded) (hret : returns s n = some (loaded + 1)) :
      RequestMove s n { s.setClient n .idle with
        holder := none
        nextId := loaded + 1
        voiceReqs := q
        log := s.log ++ [.startVoice (loaded + 1)] }
  | startFailed {options : Sp VoiceOptions} {loaded : Int} {q : Streams Bytes VoiceOptions}
      (hpc : s.clients n = .storeVoice options loaded) (hret : returns s n = some (-1)) :
      RequestMove s n { s.setClient n .idle with
        holder := none, nextId := loaded + 1, voiceReqs := q }

theorem request_move (hin : inside s n = true) (hst : s.step (.client n) = some t) :
    RequestMove s n t := by
  unfold SpeechImpl.step at hst
  split at hst
  · cases hst
  · cases hpc : s.clients n with
    | loadId text options =>
        simp only [SpeechImpl.client, hpc] at hst
        cases hst
        exact .load hpc
    | storeId text options loaded =>
        simp only [SpeechImpl.client, hpc] at hst
        cases hst
        exact .store hpc
    | pushText text options id =>
        simp only [SpeechImpl.client, hpc] at hst
        split at hst
        · cases hst
          exact .push hpc
        · cases hst
    | startVoice options =>
        simp only [SpeechImpl.client, hpc] at hst
        split at hst
        · cases hst
          exact .lock hpc
        · cases hst
    | storeVoice options loaded =>
        simp only [SpeechImpl.client, hpc] at hst
        obtain ⟨o, q, heq, hcase⟩ :=
          SpeechImpl.startVoice_spec options loaded ((s.setClient n .idle).setHolder none)
        have hret : returns s n = some (o.getD (-1)) := by simp only [returns, hpc, heq]
        rw [heq] at hst
        rcases hcase with ⟨rfl, -⟩ | ⟨rfl, -⟩
        · cases hst
          exact .startFailed hpc hret
        · cases hst
          exact .start hpc hret
    | idle => simp [inside, hpc, requesting] at hin
    | putVoice id voice => simp [inside, hpc, requesting] at hin
    | endVoice id => simp [inside, hpc, requesting] at hin
    | cancel id => simp [inside, hpc, requesting] at hin
    | cancelOp id => simp [inside, hpc, requesting] at hin

/-- `poll` reports what it returns. -/
theorem poll_step (hst : s.step .poll = some t) :
    t.clients = s.clients ∧ t.nextId = s.nextId ∧ issued t.log = issued s.log ∧
      t.created = s.created ∧ t.initialized = s.initialized ∧
      (s.initialized = true →
        (SpeechImpl.results t.log).map generateResultObject =
          (SpeechImpl.results s.log).map generateResultObject ++ (polls s).toList) := by
  unfold SpeechImpl.step at hst
  split at hst
  · cases hst
  · simp only [SpeechImpl.pollStep] at hst
    split at hst
    · split at hst
      · unfold polls
        cases hpoll : s.poll with
        | none =>
            rw [hpoll] at hst
            cases hst
            exact ⟨rfl, rfl, rfl, rfl, rfl, fun _ => (List.append_nil _).symm⟩
        | some p =>
            obtain ⟨o, u⟩ := p
            obtain ⟨c, q, rfl, -⟩ := SpeechImpl.poll_eq hpoll
            rw [hpoll] at hst
            cases o with
            | none =>
                cases hst
                exact ⟨rfl, rfl, rfl, rfl, rfl, fun _ => (List.append_nil _).symm⟩
            | some r =>
                cases hst
                refine ⟨rfl, rfl, ?_, rfl, rfl, fun _ => ?_⟩
                · simp [SpeechImpl.record, issued]
                · simp [SpeechImpl.record]
      · rename_i hinit
        cases hst
        exact ⟨rfl, rfl, rfl, rfl, rfl, fun hlive => absurd hlive hinit⟩
    · cases hst

/-! ### The callbacks -/

/-- The results are for ids that have been given out, and ids are given out once. -/
structure Heard (s : SpeechImpl) : Prop where
  requests : SpeechImpl.Requests s
  nodup : (issued s.log).Nodup
  created : ∀ id ∈ s.created, id ∈ issued s.log
  known : ∀ r ∈ SpeechImpl.results s.log, r.id ∈ s.created
  /-- the load of `++next_id_` is up to date -/
  loaded : ∀ n loaded, (s.clients n).loaded = some loaded → s.nextId = loaded

/-- `prepare` finds nothing of the session before. -/
def Clean (s : SpeechImpl) : Prop :=
  s.textReqs = [] ∧ s.voiceReqs.records = [] ∧ s.controller.operations = []

instance (s : SpeechImpl) : Decidable (Clean s) := inferInstanceAs (Decidable (_ ∧ _ ∧ _))

namespace Heard

theorem init : Heard ({} : SpeechImpl) where
  requests :=
    { inv := SpeechImpl.inv_init
      labels := .opened
      worked := by
        intro id hid
        cases hid
      served := by
        intro info hinfo
        cases hinfo
      found := by
        intro info a hpc
        cases hpc
      erasing := by
        intro id hid
        cases hid
      failed := by
        rintro id ⟨r, hr, -⟩
        cases hr }
  nodup := .nil
  created := by
    intro id hid
    cases hid
  known := by
    intro r hr
    cases hr
  loaded := by
    intro n loaded hn
    cases hn

theorem prepare (h : Heard s) (hclean : Clean s) (hout : ∀ n, inside s n = false)
    (hlive : s.initialized = false) (hst : s.step .prepare = some t) :
    Heard t ∧ issued t.log = [] ∧ SpeechImpl.results t.log = [] ∧ inside t = inside s := by
  obtain ⟨htext, hvoice, hops⟩ := hclean
  have hheld : ∀ n, (s.clients n).held = none := by
    intro n
    have hn := hout n
    unfold inside at hn
    cases hpc : s.clients n <;> simp [hpc, requesting, SpeechImpl.ClientPc.held] at hn ⊢
  have hkeys : s.voiceReqs.keys = [] := by
    rw [Streams.keys, hvoice]
    rfl
  unfold SpeechImpl.step at hst
  split at hst
  · cases hst
  · simp only at hst
    split at hst
    · rename_i hidle
      cases hst
      have hinv := h.requests.inv.prepare hidle.1 fun _ => ⟨htext, hvoice, hops, hheld⟩
      have heq : s.prepare = { s with
          nextId := 0, connClosed := false, initialized := true, send := .loop, gen := .loop,
          respNotifies := 0, sent := [], created := [], log := [], epoch := s.controller.fresh } := by
        simp [SpeechImpl.prepare, hlive]
      rw [heq] at hinv ⊢
      refine ⟨⟨⟨hinv, ?_, ?_, ?_, ?_, ?_, ?_⟩, .nil, ?_, ?_, ?_⟩, rfl, rfl, rfl⟩
      · simp only [htext, hkeys]
        exact
          { nonneg := Int.le_refl _
            puts_pos := by simp [SpeechImpl.puts]
            starts_le := by simp [SpeechImpl.starts]
            apart := by simp [SpeechImpl.puts]
            held := by simp [hheld]
            texts := by simp
            keys := by simp
            hand := by simp [SpeechImpl.SendPc.hand] }
      · intro id hid
        cases hid
      · intro info hinfo
        cases hinfo
      · intro info a hpc
        cases hpc
      · intro id hid
        cases hid
      · rintro id ⟨r, hr, -⟩
        rw [hvoice] at hr
        cases hr
      · intro id hid
        cases hid
      · intro r hr
        cases hr
      · intro n loaded hn
        have hcl := hout n
        simp only at hn
        unfold inside at hcl
        cases hpc : s.clients n <;> simp [hpc, requesting, SpeechImpl.ClientPc.loaded] at hcl hn
    · cases hst

/-- `++next_id_` is not interrupted. -/
theorem atomicIncr (h : Heard s) (a : SpeechAct) : SpeechImpl.AtomicIncr s a := by
  cases a with
  | client n =>
      unfold SpeechImpl.AtomicIncr SpeechImpl.atomicIncr
      cases hpc : (s.clients n).loaded with
      | none => simp only [hpc, Option.all_none]
      | some loaded =>
          simp only [hpc, Option.all_some]
          exact decide_eq_true (h.loaded n loaded hpc)
  | _ => rfl

theorem unheard (h : Heard s) (ht : SpeechImpl.Requests t) (hq : Unheard s t) : Heard t where
  requests := ht
  nodup := by
    rw [hq.issued]
    exact h.nodup
  created := by
    intro id hid
    rw [hq.issued]
    rcases hq.created with heq | ⟨info, hinfo, heq⟩
    · rw [heq] at hid
      exact h.created id hid
    · rw [heq, List.mem_append, List.mem_singleton] at hid
      rcases hid with hid | rfl
      · exact h.created id hid
      · rcases h.requests.labels.hand info hinfo with ⟨hput, -⟩ | ⟨hstart, -⟩
        · exact mem_issued.mpr (.inl hput)
        · exact mem_issued.mpr (.inr hstart)
  known := by
    intro r hr
    rw [hq.results] at hr
    have hmem := h.known r hr
    rcases hq.created with heq | ⟨info, -, heq⟩
    · rwa [heq]
    · rw [heq]
      exact List.mem_append_left _ hmem
  loaded := by
    intro n loaded hn
    rw [hq.nextId]
    have hsame := hq.requesting n (requesting_of_loaded hn)
    exact h.loaded n loaded (hsame ▸ hn)

/-- A result is for the operation in front. -/
theorem polled (h : Heard s) (hst : s.step .poll = some t) :
    ∀ r ∈ SpeechImpl.results t.log, r.id ∈ t.created := by
  unfold SpeechImpl.step at hst
  split at hst
  · cases hst
  · simp only [SpeechImpl.pollStep] at hst
    split at hst
    · split at hst
      · rename_i hlive
        obtain ⟨o, c, q, hpoll, -, -, hcase⟩ := h.requests.inv.poll hlive
        rw [hpoll] at hst
        rcases hcase with ⟨rfl, -⟩ | ⟨a, r, rfl, hrep, -⟩
        · cases hst
          exact h.known
        · cases hst
          intro x hx
          simp only [SpeechImpl.record, SpeechImpl.results_append, SpeechImpl.results_result,
            List.mem_append, List.mem_singleton] at hx
          rcases hx with hx | rfl
          · exact h.known x hx
          · apply h.requests.inv.opIds.subset
            rw [hrep.id_eq, OpCtl.opIds_of_front hrep.front]
            exact List.mem_cons_self
      · cases hst
        exact h.known
    · cases hst

/-- A request is entered. -/
theorem enter (h : Heard s) {c : Request} (ht : SpeechImpl.Requests t)
    (hst : s.step (.call n c.call) = some t) :
    Heard t ∧ (s.initialized = false → t.initialized = false) := by
  rcases enter_step hst with rfl | ⟨pc, rfl, -, hpc⟩
  · exact ⟨h, fun hi => hi⟩
  · refine ⟨⟨ht, h.nodup, h.created, h.known, ?_⟩, fun hi => hi⟩
    intro m loaded hm
    simp only [SpeechImpl.setClient] at hm
    by_cases hmn : m = n
    · subst hmn
      rw [Function.update_self, hpc] at hm
      cases hm
    · rw [Function.update_of_ne hmn] at hm
      exact h.loaded m loaded hm

/-- A request goes on; no other client is in one. -/
theorem request (h : Heard s) (halone : ∀ m k, inside s m = true → inside s k = true → m = k)
    (ht : SpeechImpl.Requests t) (hin : inside s n = true) (hst : s.step (.client n) = some t) :
    Heard t ∧ (s.initialized = false → t.initialized = false) := by
  have hlabels := h.requests.labels
  -- no other client has loaded `next_id_`
  have hloaded : ∀ (pc : SpeechImpl.ClientPc) (nextId : Int),
      (∀ loaded, pc.loaded = some loaded → nextId = loaded) →
      ∀ m loaded, (Function.update s.clients n pc m).loaded = some loaded → nextId = loaded := by
    intro pc nextId hpc m loaded hm
    by_cases hmn : m = n
    · subst hmn
      rw [Function.update_self] at hm
      exact hpc _ hm
    · rw [Function.update_of_ne hmn] at hm
      exact absurd (halone m n (requesting_of_loaded hm) hin) hmn
  have hnone : ∀ (pc : SpeechImpl.ClientPc) (nextId : Int), pc.loaded = none →
      ∀ loaded, pc.loaded = some loaded → nextId = loaded := by
    intro pc nextId hpc loaded heq
    rw [hpc] at heq
    cases heq
  have hnodup : ∀ id e, issued [e] = [id] → id ∉ issued s.log →
      (issued (s.log ++ [e])).Nodup := by
    intro id e he hnew
    rw [issued_append, he]
    exact h.nodup.append (List.nodup_singleton id) (List.disjoint_singleton.mpr hnew)
  have hissued : ∀ e, ∀ id ∈ s.created, id ∈ issued (s.log ++ [e]) := by
    intro e id hid
    rw [issued_append]
    exact List.mem_append_left _ (h.created id hid)
  cases request_move hin hst with
  | @load text options hpc =>
      refine ⟨⟨ht, h.nodup, h.created, h.known, hloaded _ _ ?_⟩, fun hi => hi⟩
      intro loaded heq
      cases heq
      rfl
  | @store text options loaded hpc =>
      exact ⟨⟨ht, h.nodup, h.created, h.known, hloaded _ _ (hnone _ _ rfl)⟩, fun hi => hi⟩
  | @lock options hpc =>
      refine ⟨⟨ht, h.nodup, h.created, h.known, hloaded _ _ ?_⟩, fun hi => hi⟩
      intro loaded heq
      cases heq
      rfl
  | @push text options id texts hpc =>
      obtain ⟨-, -, hput, hstart⟩ := hlabels.held n id (by rw [hpc]; rfl)
      have hnew : id ∉ issued s.log := fun hmem => (mem_issued.mp hmem).elim hput hstart
      refine ⟨⟨ht, hnodup id _ rfl hnew, hissued _, ?_, hloaded _ _ (hnone _ _ rfl)⟩, fun hi => hi⟩
      intro r hr
      exact h.known r (by simpa using hr)
  | @start options loaded q hpc hret =>
      obtain rfl := h.loaded n loaded (by rw [hpc]; rfl)
      have hnew : s.nextId + 1 ∉ issued s.log := by
        intro hmem
        rcases mem_issued.mp hmem with hput | hstart
        · have hle := (hlabels.puts_pos _ hput).2
          omega
        · have hle := hlabels.starts_le _ hstart
          omega
      refine ⟨⟨ht, hnodup _ _ rfl hnew, hissued _, ?_, hloaded _ _ (hnone _ _ rfl)⟩, fun hi => hi⟩
      intro r hr
      exact h.known r (by simpa using hr)
  | @startFailed options loaded q hpc hret =>
      exact ⟨⟨ht, h.nodup, h.created, h.known, hloaded _ _ (hnone _ _ rfl)⟩, fun hi => hi⟩

/-- **One step.** -/
theorem step (h : Heard s) (halone : ∀ m k, inside s m = true → inside s k = true → m = k)
    {a : SpeechAct} (hprep : a ≠ .prepare) (hst : s.step a = some t) :
    Heard t ∧ (s.initialized = false → t.initialized = false) := by
  have ht := h.requests.step ⟨hprep, h.atomicIncr a⟩ hst
  by_cases hpoll : a = .poll
  · subst hpoll
    obtain ⟨hclients, hnext, hissued, hcreated, hlive, -⟩ := poll_step hst
    refine ⟨⟨ht, ?_, ?_, h.polled hst, ?_⟩, fun hi => hlive.trans hi⟩
    · rw [hissued]
      exact h.nodup
    · rw [hissued, hcreated]
      exact h.created
    · rw [hclients, hnext]
      exact h.loaded
  · rcases request_cases hprep hpoll hst with hq | ⟨n, c, rfl⟩ | ⟨n, rfl, hin⟩
    · exact ⟨h.unheard ht hq, hq.live⟩
    · exact h.enter ht hst
    · exact h.request halone ht hin hst

end Heard

/-- A voice request is cancelled together with everything else after its start has been sent:
    `poll` returns `SPEECH_RES_CANCELLED` twice, and the callback is called once. -/
def cancelledVoice : List (RegistryAct SpeechAct Request Nat) :=
  [.prepare, .call 0 (.startVoice none) (some 7), .request, .request, .request, .request] ++
    List.replicate 7 (.object (.send .success)) ++
    [.object (.call 1 (.cancel 0)), .object (.client 1), .object (.client 1)] ++
    List.replicate 3 (.object (.send .success)) ++ List.replicate 6 (.poller false)

end Speech

end OpenVoice.Android
