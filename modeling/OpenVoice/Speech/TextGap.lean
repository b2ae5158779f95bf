import OpenVoice.Speech.SendThread

/-!
# The gap in the text branch of `send_reqs`

`send_reqs` tests `initialized_` and `text_reqs_.empty()`, lets go of `req_mutex_` to look at
`current_op_`, and takes the front of `text_reqs_` when it has the lock again.  Nothing is tested a
second time.  Of all that can run in between only `release` does harm: it clears the list.
-/

namespace OpenVoice

open OpenVoice.Lib

namespace SpeechImpl

/-- In the text branch, with the tests behind it. -/
def SendPc.inText : SendPc → Bool
  | .textCheck | .textTake _ => true
  | _ => false

/-- A step takes a request out of the queues only in a session, and the front of a list only if
    there is one. -/
structure TakesPresent (s : SpeechImpl) (a : SpeechAct) (t : SpeechImpl) : Prop where
  front : t.crashed = false
  session : ∀ r info, a = .send r → t.send = .doCtl info → s.initialized = true

/-- `release` has not begun when the text branch goes on to the front of the list. -/
def takesInTime (s : SpeechImpl) : SpeechAct → Bool
  | .send _ => s.send ≠ .textTake none || s.initialized
  | _ => true

def TakesInTime (s : SpeechImpl) (a : SpeechAct) : Prop := s.takesInTime a = true

instance (s : SpeechImpl) (a : SpeechAct) : Decidable (TakesInTime s a) :=
  inferInstanceAs (Decidable (s.takesInTime a = true))

/-- During a session, what the text branch has seen is still there. -/
structure KeepsText (s : SpeechImpl) : Prop where
  releasing : s.releasing ≠ .idle → s.initialized = false
  text : s.initialized = true → s.send.inText = true → s.textReqs ≠ []

namespace KeepsText

variable {s t : SpeechImpl}

theorem opened : KeepsText {} where
  releasing := fun _ => rfl
  text := by
    intro hinit
    cases hinit

/-- A step of a thread that leaves the send thread where it is and takes no text request. -/
theorem grow (h : KeepsText s) (hinit : t.initialized = s.initialized)
    (hrel : t.releasing = s.releasing) (hsend : t.send = s.send)
    (htext : s.textReqs.length ≤ t.textReqs.length) : KeepsText t where
  releasing := by
    rw [hinit, hrel]
    exact h.releasing
  text := by
    intro hi hpc
    rw [hinit] at hi
    rw [hsend] at hpc
    have hpos := List.length_pos_iff.mpr (h.text hi hpc)
    exact List.length_pos_iff.mp (Nat.lt_of_lt_of_le hpos htext)

/-- The send thread goes on outside its text branch. -/
theorem leave (h : KeepsText s) (hinit : t.initialized = s.initialized)
    (hrel : t.releasing = s.releasing) (hpc : t.send.inText = false) : KeepsText t where
  releasing := by
    rw [hinit, hrel]
    exact h.releasing
  text := by
    intro _ hin
    rw [hpc] at hin
    cases hin

/-- From the moment `release` has locked `req_mutex_` nothing is promised. -/
theorem release (h : KeepsText s) (hst : s.release = some t) : KeepsText t := by
  have hover : ∀ {u : SpeechImpl}, u.initialized = false → KeepsText u := by
    intro u hu
    refine ⟨fun _ => hu, ?_⟩
    intro hinit
    rw [hu] at hinit
    cases hinit
  cases release_move hst with
  | absent => exact h
  | enter => exact hover rfl
  | close hrel => exact hover (h.releasing (by simp [hrel]))
  | setError hrel => exact hover (h.releasing (by simp [hrel]))
  | joinReq hrel => exact hover (h.releasing (by simp [hrel]))
  | closeResp hrel => exact hover (h.releasing (by simp [hrel]))
  | joinResp hrel => exact hover (h.releasing (by simp [hrel]))

/-- The send thread enters its text branch after it has tested `text_reqs_.empty()`. -/
theorem takeReq (h : KeepsText s) : KeepsText s.takeReq := by
  unfold SpeechImpl.takeReq
  split
  · exact h.leave rfl rfl rfl
  · simp only
    split
    · split
      · exact h.grow rfl rfl rfl (Nat.le_refl _)
      · exact h.leave rfl rfl rfl
    · split
      · exact h.leave rfl rfl rfl
      · rename_i htext
        exact ⟨h.releasing, fun _ _ => htext⟩

theorem send (h : KeepsText s) {r : ConnectionOpResult} (hst : s.sendStep r = some t) :
    KeepsText t := by
  by_cases hloop : s.send = .loop
  · unfold sendStep at hst
    simp only [hloop] at hst
    split at hst
    · cases hst
      exact h.takeReq
    · cases hst
  · cases sendStep_move hst with
    | exit hpc => exact absurd hpc hloop
    | takeVoice hpc => exact absurd hpc hloop
    | sleep hpc => exact absurd hpc hloop
    | seeText hpc => exact absurd hpc hloop
    | look hpc => exact ⟨h.releasing, fun hinit _ => h.text hinit (by rw [hpc]; rfl)⟩
    | crash hpc htext => exact h.grow rfl rfl rfl (Nat.le_refl _)
    | abort hpc => exact h.grow rfl rfl rfl (Nat.le_refl _)
    | refresh hpc =>
        refine h.leave rfl rfl ?_
        simp only
        split
        · rfl
        · rfl
    | wake | busy | takeText | enter | create | proceed | cancelCurrent | createCancelled | drop
    | build | fail | available | write | setError | erase | test | skip | park | awake =>
        exact h.leave rfl rfl rfl

/-- Clients put text requests behind the others, and cancelling marks them where they are. -/
theorem client (h : KeepsText s) {n : Nat} (hst : s.client n = some t) : KeepsText t := by
  cases client_move hst with
  | push => exact h.grow rfl rfl rfl (by simp)
  | cancelReq _ _ _ htext _ _ =>
      refine h.grow rfl rfl rfl (Nat.le_of_eq ?_)
      simpa using (congrArg List.length htext).symm
  | load | store | lock | start | startFailed | voice | cancelOp =>
      exact h.grow rfl rfl rfl (Nat.le_refl _)

theorem pollStep (h : KeepsText s) (hst : s.pollStep = some t) : KeepsText t := by
  unfold SpeechImpl.pollStep at hst
  split at hst
  · split at hst
    · split at hst
      · cases hst
        exact h.grow rfl rfl rfl (Nat.le_refl _)
      · rename_i u hpoll
        obtain ⟨c, q, rfl, -⟩ := poll_eq hpoll
        cases hst
        exact h.grow rfl rfl rfl (Nat.le_refl _)
      · rename_i r u hpoll
        obtain ⟨c, q, rfl, -⟩ := poll_eq hpoll
        cases hst
        exact h.grow rfl rfl rfl (Nat.le_refl _)
    · cases hst
      exact h
  · cases hst

/-- **A step of any thread.** -/
theorem step (h : KeepsText s) {a : SpeechAct} (hst : s.step a = some t) : KeepsText t := by
  unfold SpeechImpl.step at hst
  split at hst
  · cases hst
  · cases a with
    | prepare =>
        simp only at hst
        split at hst
        · rename_i hidle
          cases hst
          unfold SpeechImpl.prepare
          split
          · exact h
          · refine ⟨fun hrel => absurd hidle.1 hrel, ?_⟩
            intro _ hin
            cases hin
        · cases hst
    | release => exact h.release hst
    | call n c =>
        cases call_move hst with
        | stay => exact h
        | enter | cancel => exact h.grow rfl rfl rfl (Nat.le_refl _)
    | client n => exact h.client hst
    | poll => exact h.pollStep hst
    | config mod =>
        cases hst
        cases mod with
        | none => exact h
        | some mod => exact h.grow rfl rfl rfl (Nat.le_refl _)
    | send r => exact h.send hst
    | gen r resp =>
        obtain ⟨c, q, v, k, pc, -, -, rfl⟩ := genStep_spec hst
        exact h.grow rfl rfl rfl (Nat.le_refl _)
    | tick ns =>
        cases hst
        exact h.grow rfl rfl rfl (Nat.le_refl _)

end KeepsText

/-! ### Taking a request -/

section Takes

variable {s t : SpeechImpl} {a : SpeechAct}

/-- Nothing but the text branch takes the front of an empty list. -/
theorem step_crashed (hst : s.step a = some t) (hcrash : t.crashed = true) :
    ∃ r, a = .send r ∧ s.send = .textTake none ∧ s.textReqs = [] := by
  have hrunning : s.crashed = false := by
    unfold step at hst
    split at hst
    · cases hst
    · rename_i hok
      simpa using fun h => hok (.inr h)
  have hsame : s.crashed ≠ true := by simp [hrunning]
  cases step_move hst with
  | prepared => exact absurd hcrash hsame
  | prepare => exact absurd hcrash hsame
  | release hmove => cases hmove <;> exact absurd hcrash hsame
  | @send _ r hmove =>
      cases hmove with
      | crash hpc htext => exact ⟨r, rfl, hpc, htext⟩
      | _ => exact absurd hcrash hsame
  | gen hgen =>
      obtain ⟨c, q, v, k, pc, -, -, rfl⟩ := genStep_spec hgen
      exact absurd hcrash hsame
  | client => exact absurd hcrash hsame

/-- A request is taken by the pop at the top of the loop, during a session, or by the text
    branch. -/
theorem sendStep_takes {r : ConnectionOpResult} {info : SpeechReqInfo}
    (hst : s.sendStep r = some t) (hpc : t.send = .doCtl info) :
    s.initialized = true ∨ s.send = .textTake none := by
  cases sendStep_move hst with
  | takeVoice _ hinit => exact .inl hinit
  | takeText hold => exact .inr hold
  | crash hold => exact .inr hold
  | abort hold => rw [show s.send = _ from hpc] at hold; cases hold
  | refresh hold =>
      simp only at hpc
      split at hpc
      · cases hpc
      · cases hpc
  | exit | sleep | seeText | wake | look | busy | enter | create | proceed | cancelCurrent
  | createCancelled | drop | build | fail | available | write | setError | erase | test | skip
  | park | awake => cases hpc

theorem sendStep_of_step {r : ConnectionOpResult} (hst : s.step (.send r) = some t) :
    s.sendStep r = some t := by
  unfold step at hst
  split at hst
  · cases hst
  · exact hst

/-- The text branch that goes on after `release` has begun takes a request of the session before,
    or the front of an empty list. -/
theorem takeText_late {r : ConnectionOpResult} (hst : s.sendStep r = some t)
    (hpc : s.send = .textTake none) : t.crashed = true ∨ ∃ info, t.send = .doCtl info := by
  unfold sendStep at hst
  simp only [hpc] at hst
  split at hst
  · cases hst
    unfold takeText
    simp only [Option.isSome_none, Bool.false_eq_true, if_false]
    split
    · exact .inl rfl
    · exact .inr ⟨_, rfl⟩
  · cases hst

theorem KeepsText.takes_iff (h : KeepsText s) (hst : s.step a = some t) :
    TakesPresent s a t ↔ TakesInTime s a := by
  constructor
  · intro htakes
    cases a with
    | send r =>
        by_cases hpc : s.send = .textTake none
        · rcases takeText_late (sendStep_of_step hst) hpc with hcrash | ⟨info, hinfo⟩
          · rw [htakes.front] at hcrash
            cases hcrash
          · simp [TakesInTime, takesInTime, htakes.session r info rfl hinfo]
        · simp [TakesInTime, takesInTime, hpc]
    | prepare | release | call | client | poll | config | gen | tick => rfl
  · intro hok
    -- in the text branch the session goes on
    have hinit : ∀ r, a = .send r → s.send = .textTake none → s.initialized = true := by
      intro r ha hpc
      subst ha
      simpa [TakesInTime, takesInTime, hpc] using hok
    constructor
    · by_contra hcrash
      obtain ⟨r, ha, hpc, htext⟩ := step_crashed hst (by simpa using hcrash)
      exact h.text (hinit r ha hpc) (by rw [hpc]; rfl) htext
    · intro r info ha hinfo
      subst ha
      rcases sendStep_takes (sendStep_of_step hst) hinfo with hsession | hpc
      · exact hsession
      · exact hinit r rfl hpc

/-- **`send_reqs` takes requests that are there, of the session that goes on**: in every run in
    which it does not go on in its text branch after `release` has begun, the next step does so if
    and only if this holds of it too. -/
theorem send_takes_iff (hrun : Run Steps TakesInTime {} s) (hst : Steps s a t) :
    TakesPresent s a t ↔ TakesInTime s a := by
  have hkeeps : KeepsText s :=
    hrun.invariant (fun _ _ _ h _ hstep => h.step hstep) KeepsText.opened
  exact hkeeps.takes_iff hst

end Takes

/-- A text request is queued, and the send thread has seen it. -/
def seesText : List SpeechAct :=
  [.prepare, .call 0 (.putText (some [0x61]) none), .client 0, .client 0, .client 0,
    .send .success]

/-- It finds no operation, and takes the request. -/
theorem send_takes_text :
    ∃ s t, exec step ({} : SpeechImpl) (seesText ++ [.send .success]) = some s ∧
      Steps s (.send .success) t ∧ TakesPresent s (.send .success) t := by
  have hok : allOk step TakesInTime ({} : SpeechImpl) (seesText ++ [.send .success]) = true := by
    decide +kernel
  have hnext : ((exec step ({} : SpeechImpl) (seesText ++ [.send .success])).map fun s =>
      (s.initialized, (s.step (.send .success)).isSome)) = some (true, true) := by
    decide +kernel
  obtain ⟨s, hs, hfacts⟩ := Option.map_eq_some_iff.mp hnext
  obtain ⟨hinit, hsome⟩ := Prod.mk.inj hfacts
  obtain ⟨t, ht⟩ := Option.isSome_iff_exists.mp hsome
  refine ⟨s, t, hs, ht, ?_⟩
  exact (send_takes_iff (Run.of_exec hok hs) ht).mpr (by simp [TakesInTime, takesInTime, hinit])

/-- `release` clears the list before it is taken. -/
theorem send_takes_nothing :
    ¬ ∀ s a t, Run Steps Always ({} : SpeechImpl) s → Steps s a t → TakesPresent s a t := by
  intro h
  have hnext : ((exec step ({} : SpeechImpl)
      (seesText ++ [.release, .release, .send .success])).map fun s =>
        (s.step (.send .success)).map (·.crashed)) = some (some true) := by
    decide +kernel
  obtain ⟨s, hs, hstep⟩ := Option.map_eq_some_iff.mp hnext
  obtain ⟨t, ht, hcrash⟩ := Option.map_eq_some_iff.mp hstep
  have hfront := (h s _ t (Run.of_exec (allOk_always _ _) hs) ht).front
  rw [hfront] at hcrash
  cases hcrash

end SpeechImpl

end OpenVoice
