import OpenVoice.Lib.Run
import OpenVoice.Speech.Moves
import OpenVoice.Speech.OpusVoice
import OpenVoice.StreamQueue.Ledger

/-!
# Whose audio is encoded

All requests share one encoder, which keeps a partial frame and the state of the opus library
between two calls, and nothing resets it between two requests.  A run in which `put_voice` is
called for an id only while nothing of another id is kept, with whole samples before, and in which
`opus_encode` does not fail, encodes for each id what was put for it.
-/

namespace OpenVoice

open OpenVoice.Lib
open OpenVoice.Lib.Framing (framed)
open OpenVoice.Lib.LittleEndian (words octets)

namespace SpeechImpl

/-- A thread in `put_voice` stays there until it locks `req_mutex_`. -/
theorem step_putVoice {s t : SpeechImpl} {a : SpeechAct} {n : Nat} {id : Int} {voice : Bytes}
    (h : s.step a = some t) (hne : a ≠ .client n) (hpc : s.clients n = .putVoice id voice) :
    t.clients n = .putVoice id voice := by
  unfold step at h
  split at h
  · cases h
  · cases a with
    | prepare =>
        simp only at h
        split at h
        · cases h
          unfold prepare
          split
          · exact hpc
          · exact hpc
        · cases h
    | release =>
        cases release_move h with
        | absent => exact hpc
        | enter => exact hpc
        | close => exact hpc
        | setError => exact hpc
        | joinReq => exact hpc
        | closeResp => exact hpc
        | joinResp => exact hpc
    | call m c =>
        cases call_move h with
        | stay => exact hpc
        | enter hidle =>
            have hmn : n ≠ m := by
              rintro rfl
              rw [hpc] at hidle
              cases hidle
            exact (Function.update_of_ne hmn _ _).trans hpc
        | cancel id hidle =>
            have hmn : n ≠ m := by
              rintro rfl
              rw [hpc] at hidle
              cases hidle
            exact (Function.update_of_ne hmn _ _).trans hpc
    | client m =>
        have hmn : n ≠ m := fun heq => hne (heq ▸ rfl)
        cases client_move h with
        | load => exact (Function.update_of_ne hmn _ _).trans hpc
        | store => exact (Function.update_of_ne hmn _ _).trans hpc
        | lock => exact (Function.update_of_ne hmn _ _).trans hpc
        | push => exact (Function.update_of_ne hmn _ _).trans hpc
        | start => exact (Function.update_of_ne hmn _ _).trans hpc
        | startFailed => exact (Function.update_of_ne hmn _ _).trans hpc
        | voice => exact (Function.update_of_ne hmn _ _).trans hpc
        | cancelReq => exact (Function.update_of_ne hmn _ _).trans hpc
        | cancelOp => exact (Function.update_of_ne hmn _ _).trans hpc
    | poll =>
        simp only at h
        unfold pollStep at h
        split at h
        · split at h
          · split at h
            · cases h
              exact hpc
            · rename_i u hpoll
              obtain ⟨c, q, rfl, -⟩ := poll_eq hpoll
              cases h
              exact hpc
            · rename_i r u hpoll
              obtain ⟨c, q, rfl, -⟩ := poll_eq hpoll
              cases h
              exact hpc
          · cases h
            exact hpc
        · cases h
    | config mod =>
        cases h
        cases mod with
        | none => exact hpc
        | some mod => exact hpc
    | send r =>
        cases sendStep_move h <;> exact hpc
    | gen r resp =>
        obtain ⟨_, _, _, _, _, -, -, rfl⟩ := genStep_spec h
        exact hpc
    | tick ns =>
        cases h
        exact hpc

end SpeechImpl

variable {σ : Type} {opus : Opus σ} {st₀ : σ} {n : Nat}

namespace OpusSpeech

variable {s s' : OpusSpeech σ}

/-- **What a step can do** that is not a call of `prepare`, `release` or `config`. -/
inductive Moves (opus : Opus σ) (s : OpusSpeech σ) : SpeechAct → OpusSpeech σ → Prop where
  | encode {t : Nat} {v : Int} {voice : Bytes} (hargs : s.Encodes t v voice) :
      Moves opus s (.call t (.putVoice v (some voice))) (s.encodeVoice opus t v voice)
  | put {t : Nat} {isData : Bool} {encSize : BitVec 32} {s' : OpusSpeech σ}
      (hget : s.encoded t = some (isData, encSize))
      (h : s.putEncoded t isData encSize = some s') : Moves opus s (.client t) s'
  | other {a : SpeechAct} {impl : SpeechImpl}
      (hkeep : ∀ t v voice, s.encoded t ≠ none → s.impl.clients t = .putVoice v voice →
        impl.clients t = .putVoice v voice) :
      Moves opus s a { s with impl := impl }

/-- A step of `SpeechImpl` on its own. -/
theorem Moves.of_impl {a : SpeechAct} {impl : SpeechImpl} (h : s.impl.step a = some impl)
    (hclient : ∀ t, a = .client t → s.encoded t = none) :
    Moves opus s a { s with impl := impl } := by
  apply Moves.other
  intro t v voice hpending hpc
  refine SpeechImpl.step_putVoice h (fun ha => ?_) hpc
  exact hpending (hclient t ha)

theorem step_moves {a : SpeechAct} (h : s.step opus a = some s') (hprepare : a ≠ .prepare)
    (hrelease : a ≠ .release) (hconfig : ∀ mod, a ≠ .config mod) : Moves opus s a s' := by
  unfold step at h
  split at h
  · cases h
  · rename_i halive
    rw [not_or, not_or] at halive
    have hdead : ¬ (s.impl.aborted ∨ s.impl.crashed) := fun hdead => hdead.elim halive.1 halive.2.1
    have hcalls : ∀ t c, s.impl.step (.call t c) = s.impl.call t c := fun _ _ => if_neg hdead
    have hclient : ∀ t, s.impl.step (.client t) = s.impl.client t := fun _ => if_neg hdead
    cases a with
    | prepare => exact absurd rfl hprepare
    | release => exact absurd rfl hrelease
    | config mod => exact absurd rfl (hconfig mod)
    | call t c =>
        have hcall : ∀ c', (s.impl.call t c').map (fun impl => { s with impl := impl }) = some s' →
            Moves opus s (.call t c') s' := by
          intro c' hmap
          obtain ⟨impl, hstep, rfl⟩ := Option.map_eq_some_iff.mp hmap
          exact .of_impl ((hcalls _ _).trans hstep) (fun u hu => by cases hu)
        cases c with
        | putVoice v voice =>
            cases voice with
            | none => exact hcall _ h
            | some voice =>
                unfold call at h
                dsimp only at h
                split at h
                · rename_i hargs
                  cases h
                  exact .encode hargs
                · exact hcall _ h
        | putText text options => exact hcall _ h
        | startVoice options => exact hcall _ h
        | endVoice id => exact hcall _ h
        | cancel id => exact hcall _ h
    | client t =>
        dsimp only at h
        unfold client at h
        cases hget : s.encoded t with
        | none =>
            rw [hget] at h
            obtain ⟨impl, hstep, rfl⟩ := Option.map_eq_some_iff.mp h
            refine .of_impl ((hclient _).trans hstep) (fun u hu => ?_)
            cases hu
            exact hget
        | some p =>
            rw [hget] at h
            exact .put hget h
    | poll =>
        obtain ⟨impl, hstep, rfl⟩ := Option.map_eq_some_iff.mp h
        exact .of_impl hstep (fun u hu => by cases hu)
    | send r =>
        obtain ⟨impl, hstep, rfl⟩ := Option.map_eq_some_iff.mp h
        exact .of_impl hstep (fun u hu => by cases hu)
    | gen r resp =>
        obtain ⟨impl, hstep, rfl⟩ := Option.map_eq_some_iff.mp h
        exact .of_impl hstep (fun u hu => by cases hu)
    | tick ns =>
        obtain ⟨impl, hstep, rfl⟩ := Option.map_eq_some_iff.mp h
        exact .of_impl hstep (fun u hu => by cases hu)

/-! ### The accounts of the ids -/

/-- The samples of a frame that is not complete, for the id they were put for last. -/
def kept (s : OpusSpeech σ) (v : Int) : List (BitVec 16) :=
  if s.last = v then s.opusEncoder.carried else []

/-- The encoder has just been initialized, and nobody is in `put_voice`. -/
structure Fresh (s : OpusSpeech σ) (st : σ) : Prop where
  ready : s.opusEncoder.Ready st
  carried : s.opusEncoder.carried = []
  put : ∀ v, s.put v = []
  passed : ∀ v, s.passed v = []
  queued : ∀ v, s.queued v = []
  encoded : ∀ t, s.encoded t = none

/-- `prepare` initializes it. -/
theorem prepare_fresh (hinit : s.impl.initialized = false)
    (hnone : s.opusEncoder.opusEncoder = none) (hcreate : opus.create 16000 27800 = some st₀)
    (hencoded : ∀ t, s.encoded t = none) : (s.prepare opus).Fresh st₀ := by
  obtain ⟨hready, -, hcarried⟩ :=
    @RKOpusEncoder.init_ready σ opus 16000 27800 20 st₀ s.opusEncoder hnone hcreate (by decide)
  unfold prepare
  rw [if_neg (by rw [hinit]; exact Bool.false_ne_true)]
  exact ⟨hready, hcarried, fun _ => rfl, fun _ => rfl, fun _ => rfl, hencoded⟩

/-- Each id's samples have been passed or are kept, and its data has been queued or is `owed`. -/
structure Account (opus : Opus σ) (st₀ : σ) (n : Nat) (owed : Int → Bytes) (s : OpusSpeech σ) :
    Prop where
  ready : ∃ st, s.opusEncoder.Ready st
  size : s.opusEncoder.pcmFrameSize = n
  samples : ∀ v, words (s.put v) = (s.passed v).flatten ++ s.kept v
  frames : ∀ v, ∀ frame ∈ s.passed v, frame.length = n
  /-- As long as `opus_encode` has only been called for `v`, the data is that of `v` alone. -/
  coded : ∀ f, opus.Follows f → ∀ v, (∀ w, w ≠ v → s.passed w = []) →
    s.opusEncoder.opusEncoder = some (packets f st₀ (s.passed v)).2 ∧
      s.queued v ++ owed v = framed (packets f st₀ (s.passed v)).1

/-- What is owed: the data of the thread that is in `put_voice`, if there is one. -/
inductive Owed (s : OpusSpeech σ) : (Int → Bytes) → Prop where
  | nothing (hidle : ∀ t, s.encoded t = none) : Owed s fun _ => []
  | data {t : Nat} {v : Int} {voice : Bytes} {encSize : BitVec 32}
      (hget : s.encoded t = some (true, encSize)) (hothers : ∀ u, u ≠ t → s.encoded u = none)
      (hpc : s.impl.clients t = .putVoice v voice)
      (hfit : encSize.toNat ≤ s.opusEncoder.opusBuffer.length) :
      Owed s (Function.update (fun _ => []) v (s.opusEncoder.opusBuffer.take encSize.toNat))

/-- Nothing of another id is kept when `put_voice` is called, what was put for the id before are
    whole samples, `opus_encode` succeeds, and no other thread is in `put_voice`. -/
def Separate (opus : Opus σ) (s : OpusSpeech σ) : SpeechAct → Prop
  | .prepare | .release | .config _ => False
  | .call t (.putVoice v (some voice)) => s.Encodes t v voice →
      (∀ w, w ≠ v → s.kept w = []) ∧ (s.put v).length % 2 = 0 ∧
        (∀ st, s.opusEncoder.opusEncoder = some st →
          (s.opusEncoder.answers opus st voice).2.1 = true) ∧
        ∀ u, s.encoded u = none
  | _ => True

theorem Fresh.account (h : s.Fresh st₀) :
    Account opus st₀ s.opusEncoder.pcmFrameSize (fun _ => []) s where
  ready := ⟨st₀, h.ready⟩
  size := rfl
  samples := by
    intro v
    unfold kept
    rw [h.put, h.passed, h.carried, ite_self]
    rfl
  frames := by
    intro v frame hframe
    rw [h.passed] at hframe
    cases hframe
  coded := by
    intro f hf v hv
    rw [h.passed, h.queued]
    exact ⟨h.ready.encoder, rfl⟩

/-- What a call of `encode` adds to the records. -/
theorem encodeVoice_records {t : Nat} {v : Int} {voice : Bytes} {opu : Sp Bytes}
    {encSize : BitVec 32} {e' : RKOpusEncoder σ}
    (hencode : s.opusEncoder.encode opus (some (words voice)) = some ((opu, encSize), e')) :
    (s.encodeVoice opus t v voice).put = Function.update s.put v (s.put v ++ voice) ∧
      (s.encodeVoice opus t v voice).passed = Function.update s.passed v
        (s.passed v ++ e'.passed.drop s.opusEncoder.passed.length) ∧
      (s.encodeVoice opus t v voice).queued = s.queued ∧
      (s.encodeVoice opus t v voice).last = v := by
  unfold encodeVoice
  simp only [hencode]
  split
  · exact ⟨rfl, rfl, rfl, rfl⟩
  · exact ⟨rfl, rfl, rfl, rfl⟩

/-- The data of a call, as the locked part of `put_voice` will read it. -/
theorem encodeVoice_owed {t : Nat} {v : Int} {voice : Bytes} {opu : Sp Bytes}
    {encSize : BitVec 32} {e' : RKOpusEncoder σ} {frames : List (List (BitVec 16))}
    {left : List (BitVec 16)} {r : List Bytes × Bool × σ} (hidle : ∀ u, s.encoded u = none)
    (hencode : s.opusEncoder.encode opus (some (words voice)) = some ((opu, encSize), e'))
    (hends : RKOpusEncoder.Ends frames left [] r s.opusEncoder opu encSize e')
    (hok : r.2.1 = true) :
    ∃ owed, Owed (s.encodeVoice opus t v voice) owed ∧ owed v = framed r.1 ∧
      ∀ w, w ≠ v → owed w = [] := by
  obtain ⟨henc, -, himpl, hencoded⟩ := @encodeVoice_eq σ opus s t v voice opu encSize e' hencode
  generalize s.encodeVoice opus t v voice = s' at *
  obtain ⟨hout, -, hnull⟩ := hends.encoded hok
  by_cases hsize : encSize = 0
  · rw [if_pos hsize] at hencoded
    have hidle' : ∀ u, s'.encoded u = none := fun u => (congrFun hencoded u).trans (hidle u)
    refine ⟨_, .nothing hidle', ?_, fun _ _ => rfl⟩
    rw [hends.encSize_eq_zero.mp hsize, Framing.framed_nil]
  · rw [if_neg hsize] at hencoded himpl
    obtain ⟨buffer, hbuffer⟩ := Option.ne_none_iff_exists'.mp fun hnone => hsize (hnull hnone)
    have hdata : s'.opusEncoder.opusBuffer.take encSize.toNat = framed r.1 := by
      rw [henc, ← hends.buffer buffer hbuffer]
      rw [hbuffer] at hout
      exact hout
    have howed : Owed s' (Function.update (fun _ => []) v
        (s'.opusEncoder.opusBuffer.take encSize.toNat)) := by
      refine @Owed.data σ s' t v voice encSize ?_ ?_ ?_ ?_
      · rw [hencoded, Function.update_self, hbuffer]
        rfl
      · intro u hu
        rw [hencoded, Function.update_of_ne hu, hidle]
      · rw [himpl]
        exact Function.update_self _ _ _
      · rw [henc, hends.ready.buffer]
        exact hends.fits
    refine ⟨_, howed, ?_, fun w hw => Function.update_of_ne hw _ _⟩
    rw [Function.update_self, hdata]

/-- **A call of `encode`.** -/
theorem Account.encode {t : Nat} {v : Int} {voice : Bytes}
    (h : Account opus st₀ n (fun _ => []) s) (hidle : ∀ u, s.encoded u = none)
    (hkept : ∀ w, w ≠ v → s.kept w = []) (heven : (s.put v).length % 2 = 0)
    (hok : ∀ st, s.opusEncoder.opusEncoder = some st →
      (s.opusEncoder.answers opus st voice).2.1 = true) :
    ∃ owed, Account opus st₀ n owed (s.encodeVoice opus t v voice) ∧
      Owed (s.encodeVoice opus t v voice) owed := by
  obtain ⟨st, hready⟩ := h.ready
  obtain ⟨opu, encSize, e', hencode, hends⟩ := RKOpusEncoder.encode_ends opus hready (words voice)
  have hok' := hok st hready.encoder
  unfold RKOpusEncoder.answers at hok'
  obtain ⟨owed, howed, hdata, hnothing⟩ :=
    @encodeVoice_owed σ opus s t v voice _ _ _ _ _ _ hidle hencode hends hok'
  obtain ⟨henc, -⟩ := @encodeVoice_eq σ opus s t v voice opu encSize e' hencode
  obtain ⟨hput, hpassed, hqueued, hlast⟩ := @encodeVoice_records σ opus s t v voice _ _ _ hencode
  refine ⟨owed, ?_, howed⟩
  generalize s.encodeVoice opus t v voice = s' at *
  have hcarried := (hends.encoded hok').2.1
  have hnew : e'.passed.drop s.opusEncoder.passed.length =
      Chunks.whole s.opusEncoder.pcmFrameSize (s.opusEncoder.carried ++ words voice) := by
    rw [hends.passed, if_pos hok', List.take_length, List.drop_left]
  have hcut := Chunks.whole_flatten_append_rest hready.frame_pos
    (s.opusEncoder.carried ++ words voice)
  have hlength := @Chunks.length_of_mem_whole _ _ (s.opusEncoder.carried ++ words voice)
    hready.frame_pos
  have hfollows := fun f (hf : opus.Follows f) => hf.answers_eq hok'
  rw [hnew] at hpassed
  generalize Chunks.whole s.opusEncoder.pcmFrameSize (s.opusEncoder.carried ++ words voice) =
    frames at *
  -- what is kept is of `v`, so that the samples of `v` go on with it
  have hmine : s.kept v = s.opusEncoder.carried := by
    unfold kept
    split
    · rfl
    · rename_i hne
      have hnil := hkept s.last hne
      rw [kept, if_pos rfl] at hnil
      exact hnil.symm
  exact
    { ready := ⟨_, henc ▸ hends.ready⟩
      size := by rw [henc, hends.size, h.size]
      samples := by
        intro w
        unfold kept
        rw [hput, hpassed, hlast, henc]
        by_cases hw : w = v
        · subst hw
          rw [Function.update_self, Function.update_self, if_pos rfl,
            LittleEndian.words_append heven, h.samples w, hmine, List.flatten_append,
            List.append_assoc, List.append_assoc, ← hcut, hcarried]
        · have hnil := hkept w hw
          have hsamples := h.samples w
          rw [hnil] at hsamples
          rw [Function.update_of_ne hw, Function.update_of_ne hw, if_neg (Ne.symm hw)]
          exact hsamples
      frames := by
        intro w frame hframe
        rw [hpassed] at hframe
        by_cases hw : w = v
        · subst hw
          rw [Function.update_self] at hframe
          rcases List.mem_append.mp hframe with hold | hold
          · exact h.frames w frame hold
          · exact (hlength hold).trans h.size
        · rw [Function.update_of_ne hw] at hframe
          exact h.frames w frame hframe
      coded := by
        intro f hf w hw
        have hanswers := hfollows f hf
        rw [hqueued, hpassed, henc, hends.ready.encoder]
        by_cases hwv : w = v
        · subst hwv
          have hothers : ∀ w', w' ≠ w → s.passed w' = [] := by
            intro w' hne
            have hnil := hw w' hne
            rwa [hpassed, Function.update_of_ne hne] at hnil
          obtain ⟨hst, hold⟩ := h.coded f hf w hothers
          rw [hready.encoder, Option.some.injEq] at hst
          rw [List.append_nil] at hold
          rw [Function.update_self, hdata, hold, packets_append, hanswers, ← hst,
            Framing.framed_append]
          exact ⟨rfl, rfl⟩
        · -- no frame of `v` has been passed, not even in this call
          have hnil := hw v (Ne.symm hwv)
          rw [hpassed, Function.update_self, List.append_eq_nil_iff] at hnil
          obtain ⟨hv, rfl⟩ := hnil
          have hothers : ∀ w', w' ≠ w → s.passed w' = [] := by
            intro w' hne
            by_cases hv' : w' = v
            · rw [hv', hv]
            · have hnil := hw w' hne
              rwa [hpassed, Function.update_of_ne hv'] at hnil
          obtain ⟨hst, hold⟩ := h.coded f hf w hothers
          rw [Function.update_of_ne hwv, hnothing w hwv, Opus.answers_nil]
          rw [hready.encoder] at hst
          exact ⟨hst, hold⟩ }

/-- **The locked part of `put_voice`.**  What was owed is queued. -/
theorem Account.put {t : Nat} {isData : Bool} {encSize : BitVec 32} {owed : Int → Bytes}
    (h : Account opus st₀ n owed s) (howed : Owed s owed)
    (hget : s.encoded t = some (isData, encSize)) (hput : s.putEncoded t isData encSize = some s') :
    Account opus st₀ n (fun _ => []) s' ∧ Owed s' (fun _ => []) := by
  cases howed with
  | nothing hidle =>
      rw [hidle t] at hget
      cases hget
  | @data u v voice encSize' hdata hothers hpc hfit =>
      have hut : t = u := by
        by_contra hne
        rw [hothers t hne] at hget
        cases hget
      subst hut
      rw [hdata] at hget
      cases hget
      obtain ⟨v', voice', impl, hpc', rfl⟩ := putEncoded_eq hfit hput
      rw [hpc] at hpc'
      cases hpc'
      refine ⟨?_, .nothing fun w => ?_⟩
      · exact
          { ready := h.ready
            size := h.size
            samples := h.samples
            frames := h.frames
            coded := by
              intro f hf w hw
              obtain ⟨hst, hold⟩ := h.coded f hf w hw
              refine ⟨hst, ?_⟩
              dsimp only
              rw [List.append_nil, ← hold]
              by_cases hwv : w = v
              · subst hwv
                rw [Function.update_self, Function.update_self]
              · rw [Function.update_of_ne hwv, Function.update_of_ne hwv, List.append_nil] }
      · by_cases hw : w = t
        · subst hw
          exact Function.update_self _ _ _
        · exact (Function.update_of_ne hw _ _).trans (hothers w hw)

/-- The steps that leave the encoder alone. -/
theorem Account.other {impl : SpeechImpl} {owed : Int → Bytes} (h : Account opus st₀ n owed s)
    (howed : Owed s owed)
    (hkeep : ∀ t v voice, s.encoded t ≠ none → s.impl.clients t = .putVoice v voice →
      impl.clients t = .putVoice v voice) :
    Account opus st₀ n owed { s with impl := impl } ∧ Owed { s with impl := impl } owed := by
  refine ⟨⟨h.ready, h.size, h.samples, h.frames, h.coded⟩, ?_⟩
  cases howed with
  | nothing hidle => exact .nothing hidle
  | @data t v voice encSize hget hothers hpc hfit =>
      have hpending : s.encoded t ≠ none := by
        rw [hget]
        exact Option.some_ne_none _
      exact @Owed.data σ { s with impl := impl } t v voice encSize hget hothers
        (hkeep t v voice hpending hpc) hfit

/-- **One step.** -/
theorem Account.step {a : SpeechAct} {owed : Int → Bytes} (h : Account opus st₀ n owed s)
    (howed : Owed s owed) (hsep : s.Separate opus a) (hstep : s.step opus a = some s') :
    ∃ owed', Account opus st₀ n owed' s' ∧ Owed s' owed' := by
  have hmoves : Moves opus s a s' := by
    apply step_moves hstep
    · rintro rfl
      exact hsep
    · rintro rfl
      exact hsep
    · rintro mod rfl
      exact hsep
  cases hmoves with
  | encode hargs =>
      obtain ⟨hkept, heven, hok, hidle⟩ := hsep hargs
      cases howed with
      | nothing _ => exact h.encode hidle hkept heven hok
      | data hget _ _ _ =>
          rw [hidle] at hget
          cases hget
  | put hget hput => exact ⟨_, h.put howed hget hput⟩
  | other hkeep => exact ⟨_, h.other howed hkeep⟩

/-- **Every run.** -/
theorem Account.run {s₀ : OpusSpeech σ} (h₀ : s₀.Fresh st₀)
    (hrun : Run (fun s a s' => s.step opus a = some s') (Separate opus) s₀ s) :
    ∃ owed, Account opus st₀ s₀.opusEncoder.pcmFrameSize owed s ∧ Owed s owed := by
  apply Run.invariant ?_ hrun
  · exact ⟨_, h₀.account, .nothing h₀.encoded⟩
  · rintro t a u ⟨owed, h, howed⟩ hsep hstep
    exact h.step howed hsep hstep

/-- **Audio fidelity.**  In every run after `prepare` whose calls of `put_voice` are separate, the
    frames passed to `opus_encode` for an id are the bytes put for it, up to less than a frame;
    and the data queued for an id is a function of the bytes put for it, as long as no frame of
    another id has been passed to `opus_encode`. -/
theorem audio_separate {s₀ : OpusSpeech σ} (h₀ : s₀.Fresh st₀)
    (hrun : Run (fun s a s' => s.step opus a = some s') (Separate opus) s₀ s) :
    (∀ v, ∃ rest, s.put v = octets (s.passed v).flatten ++ rest ∧
      rest.length < 2 * s₀.opusEncoder.pcmFrameSize) ∧
    ∀ f, opus.Follows f → ∀ v, (∀ w, w ≠ v → s.passed w = []) → (∀ t, s.encoded t = none) →
      s.queued v = framed (packets f st₀
        (Chunks.whole s₀.opusEncoder.pcmFrameSize (words (s.put v)))).1 := by
  obtain ⟨owed, h, howed⟩ := Account.run h₀ hrun
  obtain ⟨st, hready⟩ := h.ready
  have hpos := hready.frame_pos
  have hused := hready.used
  rw [h.size] at hpos hused
  have hkept : ∀ v, (s.kept v).length < s₀.opusEncoder.pcmFrameSize := by
    intro v
    unfold kept
    split
    · rw [hready.length_carried]
      exact hused
    · exact hpos
  constructor
  · intro v
    refine ⟨octets (s.kept v) ++ LittleEndian.odd (s.put v), ?_, ?_⟩
    · have hput := LittleEndian.octets_words (s.put v)
      rw [h.samples v, LittleEndian.octets_append, List.append_assoc] at hput
      exact hput.symm
    · have hlt := hkept v
      rw [List.length_append, LittleEndian.length_octets, LittleEndian.length_odd]
      omega
  · intro f hf v hv hidle
    have hframes : Chunks.whole s₀.opusEncoder.pcmFrameSize (words (s.put v)) = s.passed v := by
      rw [h.samples v]
      exact Chunks.whole_flatten_append hpos (h.frames v) (hkept v)
    have hnothing : owed v = [] := by
      cases howed with
      | nothing _ => rfl
      | data hget _ _ _ =>
          rw [hidle] at hget
          cases hget
    obtain ⟨-, hdata⟩ := h.coded f hf v hv
    rw [hnothing, List.append_nil] at hdata
    rw [hframes, hdata]

/-- A library whose packets show how their frames begin. -/
def showsBegin : Opus Unit :=
  Opus.ofFrame (fun frame => [0x48, (frame.headD 0).setWidth 8]) (fun _ => Nat.succ_pos _)

/-- What can be computed of the conditions of a call; the rest is about the other threads. -/
def Admits (opus : Opus σ) (t : Nat) (v : Int) (voice : Bytes) (s : OpusSpeech σ) : Prop :=
  ¬ (s.impl.aborted ∨ s.impl.crashed ∨ s.crashed) ∧ s.Encodes t v voice ∧ s.encoded t = none ∧
    (s.last = v ∨ s.opusEncoder.carried = []) ∧ (s.put v).length % 2 = 0 ∧
    ∀ st ∈ s.opusEncoder.opusEncoder, (s.opusEncoder.answers opus st voice).2.1 = true

instance (t : Nat) (v : Int) (voice : Bytes) : Decidable (s.Admits opus t v voice) :=
  inferInstanceAs (Decidable (_ ∧ _))

/-- Such a call, when no other thread is in `put_voice`. -/
theorem Admits.run {s₀ : OpusSpeech σ} {t : Nat} {v : Int} {voice : Bytes}
    (h : s.Admits opus t v voice) (hothers : ∀ u, u ≠ t → s.encoded u = none)
    (hrun : Run (fun s a s' => s.step opus a = some s') (Separate opus) s₀ s) :
    Run (fun s a s' => s.step opus a = some s') (Separate opus) s₀
      (s.encodeVoice opus t v voice) := by
  obtain ⟨halive, hargs, ht, hlast, heven, hok⟩ := h
  have hsep : s.Separate opus (.call t (.putVoice v (some voice))) := by
    intro _
    refine ⟨fun w hw => ?_, heven, hok, fun u => ?_⟩
    · unfold kept
      rcases hlast with rfl | hnil
      · exact if_neg (Ne.symm hw)
      · rw [hnil, ite_self]
    · by_cases hu : u = t
      · rw [hu, ht]
      · exact hothers u hu
  apply hrun.snoc hsep
  unfold step
  rw [if_neg halive]
  exact if_pos hargs

/-- A call leaves what the other threads have encoded, and the frames of the other ids. -/
theorem encodeVoice_ne (t : Nat) (v : Int) (voice : Bytes) :
    (∀ u, u ≠ t → (s.encodeVoice opus t v voice).encoded u = s.encoded u) ∧
      ∀ w, w ≠ v → (s.encodeVoice opus t v voice).passed w = s.passed w := by
  unfold encodeVoice
  split
  · exact ⟨fun _ _ => rfl, fun _ _ => rfl⟩
  · dsimp only
    split
    · exact ⟨fun _ _ => rfl, fun w hw => Function.update_of_ne hw _ _⟩
    · exact ⟨fun u hu => Function.update_of_ne hu _ _, fun w hw => Function.update_of_ne hw _ _⟩

/-- Nor does the locked part, which passes no frames. -/
theorem client_ne {t : Nat} (h : s.client t = some s') :
    (∀ u, u ≠ t → s'.encoded u = s.encoded u) ∧ s'.passed = s.passed := by
  unfold client at h
  split at h
  · obtain ⟨impl, -, rfl⟩ := Option.map_eq_some_iff.mp h
    exact ⟨fun _ _ => rfl, rfl⟩
  · unfold putEncoded at h
    split at h
    · split at h
      · split at h
        · dsimp only at h
          split at h
          · cases h
          · cases h
            exact ⟨fun u hu => Function.update_of_ne hu _ _, rfl⟩
        · cases h
          exact ⟨fun _ _ => rfl, rfl⟩
      · cases h
    · cases h

/-- Two voice requests that have been started. -/
def twoVoices : OpusSpeech Unit :=
  (exec (fun s a => s.step showsBegin a) {}
    [.prepare, .call 0 (.startVoice none), .client 0, .client 0, .call 0 (.startVoice none),
      .client 0, .client 0]).getD {}

theorem twoVoices_fresh : twoVoices.Fresh () := by
  have h : (prepare showsBegin ({} : OpusSpeech Unit)).Fresh () :=
    prepare_fresh rfl rfl rfl (fun _ => rfl)
  exact ⟨h.ready, h.carried, h.put, h.passed, h.queued, h.encoded⟩

/-- A part of a frame for the first one, and then the rest and another frame. -/
def calledTwice : OpusSpeech Unit :=
  (twoVoices.encodeVoice showsBegin 0 1 (List.replicate 400 1)).encodeVoice showsBegin 0 1
    (List.replicate 880 1)

/-- The data has been queued. -/
def lockedOnce : OpusSpeech Unit := (calledTwice.step showsBegin (.client 0)).getD calledTwice

/-- A part of a frame for the second one. -/
def calledOther : OpusSpeech Unit := lockedOnce.encodeVoice showsBegin 0 2 (List.replicate 100 2)

theorem calledOther_run :
    Run (fun s a s' => s.step showsBegin a = some s') (Separate showsBegin) twoVoices calledOther ∧
      (∀ u, calledOther.encoded u = none) ∧ ∀ w, w ≠ 1 → calledOther.passed w = [] := by
  have hfirst : twoVoices.Admits showsBegin 0 1 (List.replicate 400 1) := by decide +kernel
  have hsecond : (twoVoices.encodeVoice showsBegin 0 1 (List.replicate 400 1)).Admits showsBegin 0 1
      (List.replicate 880 1) := by decide +kernel
  have hother : lockedOnce.Admits showsBegin 0 2 (List.replicate 100 2) := by decide +kernel
  have hlock : calledTwice.step showsBegin (.client 0) = some lockedOnce :=
    (Option.getD_of_ne_none (by decide +kernel) _).symm
  obtain ⟨hencoded₁, hpassed₁⟩ := @encodeVoice_ne Unit showsBegin twoVoices 0 1 (List.replicate 400 1)
  obtain ⟨hencoded₂, hpassed₂⟩ := @encodeVoice_ne Unit showsBegin
    (twoVoices.encodeVoice showsBegin 0 1 (List.replicate 400 1)) 0 1 (List.replicate 880 1)
  obtain ⟨hencoded₃, hpassed₃⟩ := client_ne (client_of_step hlock)
  obtain ⟨hencoded₄, hpassed₄⟩ := @encodeVoice_ne Unit showsBegin lockedOnce 0 2
    (List.replicate 100 2)
  have hidle₁ : ∀ u, u ≠ 0 → (twoVoices.encodeVoice showsBegin 0 1
      (List.replicate 400 1)).encoded u = none :=
    fun u hu => (hencoded₁ u hu).trans (twoVoices_fresh.encoded u)
  have hidle₃ : ∀ u, u ≠ 0 → lockedOnce.encoded u = none := by
    intro u hu
    rw [hencoded₃ u hu, calledTwice, hencoded₂ u hu, hidle₁ u hu]
  have hcalled := hsecond.run hidle₁ (hfirst.run (fun u _ => twoVoices_fresh.encoded u) (.refl _))
  have hsep : calledTwice.Separate showsBegin (.client 0) := trivial
  refine ⟨hother.run hidle₃ (hcalled.snoc hsep hlock), ?_, ?_⟩
  · intro u
    by_cases hu : u = 0
    · rw [hu]
      decide +kernel
    · rw [calledOther, hencoded₄ u hu, hidle₃ u hu]
  · intro w hw
    by_cases hw₂ : w = 2
    · rw [hw₂]
      decide +kernel
    · rw [calledOther, hpassed₄ w hw₂, hpassed₃, calledTwice, hpassed₂ w hw, hpassed₁ w hw]
      exact twoVoices_fresh.passed w

/-- Two frames have been passed and queued for the first request. -/
theorem audio_separate_two :
    (∀ v, ∃ rest, calledOther.put v = octets (calledOther.passed v).flatten ++ rest ∧
        rest.length < 2 * 320) ∧
      (calledOther.passed 1).length = 2 ∧ (calledOther.put 2).length = 100 ∧
      calledOther.queued 1 =
        framed (packets (fun st frame => ([0x48, (frame.headD 0).setWidth 8], st)) ()
          (Chunks.whole 320 (words (calledOther.put 1)))).1 := by
  obtain ⟨hrun, hidle, hothers⟩ := calledOther_run
  have hsize : twoVoices.opusEncoder.pcmFrameSize = 320 := by decide +kernel
  obtain ⟨hsamples, hdata⟩ := audio_separate twoVoices_fresh hrun
  rw [hsize] at hsamples hdata
  exact ⟨hsamples, by decide +kernel, by decide +kernel,
    hdata _ (Opus.follows_ofFrame _) 1 hothers hidle⟩

/-- One sample is put for the first id and a frame for the second one.  The frame that is encoded
    for the second id begins with the sample of the first one. -/
theorem audio_mixed :
    (exec (fun s a => s.step showsBegin a) ({} : OpusSpeech Unit)
      [.prepare, .call 0 (.startVoice none), .client 0, .client 0, .call 0 (.putVoice 1 (some [1, 0])),
        .call 0 (.endVoice 1), .client 0, .call 0 (.startVoice none), .client 0, .client 0,
        .call 0 (.putVoice 2 (some (List.replicate 640 2))), .client 0]).map
      (fun s => ((octets (s.passed 2).flatten).take 4, (s.put 2).take 4, s.queued 2,
        Fifo.pending 2 s.impl.voiceReqs.records)) =
      some ([1, 0, 2, 2], [2, 2, 2, 2], [2, 0x48, 1], [some [2, 0x48, 1]]) := by
  decide +kernel

end OpusSpeech

end OpenVoice
