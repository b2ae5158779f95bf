import OpenVoice.Codec.Chunking
import OpenVoice.Speech.Fragments
import OpenVoice.Speech.Opus

/-!
# A call of `put_voice` with the opus encoder

What `put_voice` makes of the two values `encode` returns: whether it reads through a null
pointer, and whether it cuts packets.
-/

namespace OpenVoice

open OpenVoice.Lib
open OpenVoice.Lib.Framing (framed)
open OpenVoice.Lib.LittleEndian (words)

variable {σ : Type} {opus : Opus σ} {st : σ}

namespace RKOpusEncoder

/-- What the opus library makes of the frames that a call of `put_voice` completes. -/
def answers (opus : Opus σ) (st : σ) (voice : Bytes) (e : RKOpusEncoder σ) :
    List Bytes × Bool × σ :=
  opus.answers st 0 (Chunks.whole e.pcmFrameSize (e.carried ++ words voice))

variable {e e' : RKOpusEncoder σ} {frames : List (List (BitVec 16))} {left : List (BitVec 16)}
  {r : List Bytes × Bool × σ} {opu : Sp Bytes} {encSize : BitVec 32}

theorem Ends.encSize_eq_zero (h : Ends frames left [] r e opu encSize e') :
    encSize = 0 ↔ r.1 = [] := by
  have hbytes := h.bytes
  rw [List.nil_append] at hbytes
  constructor
  · intro hzero
    rw [hzero] at hbytes
    cases hr : r.1 with
    | nil => rfl
    | cons p ps =>
        rw [hr, Framing.framed_cons, List.length_append, Framing.length_frame] at hbytes
        have hlit : (0 : BitVec 32).toNat = 0 := rfl
        omega
  · intro hnil
    rw [hnil] at hbytes
    exact BitVec.eq_of_toNat_eq hbytes

/-- A null pointer comes with `enc_size` being `0` exactly if `opus_encode` does not fail behind
    the first frame. -/
theorem Ends.null_iff (h : Ends frames left [] r e opu encSize e') :
    (opu = none → encSize = 0) ↔ r.2.1 = true ∨ r.1 = [] := by
  cases hok : r.2.1 with
  | true => exact iff_of_true (h.encoded hok).2.2 (.inl rfl)
  | false =>
      rw [h.failed hok, h.encSize_eq_zero]
      constructor
      · intro hnil
        exact .inr (hnil rfl)
      · rintro (hcontra | hnil) _
        · cases hcontra
        · exact hnil

end RKOpusEncoder

namespace OpusSpeech

variable {s s₁ s₂ : OpusSpeech σ} {t : Nat} {id : Int} {voice : Bytes}

/-- A thread that is not in `put_voice` does not read through the pointer. -/
theorem client_crashed (h : s.encoded t = none) (hstep : s.client t = some s₁) :
    s₁.crashed = s.crashed := by
  unfold client at hstep
  rw [h] at hstep
  cases himpl : s.impl.client t with
  | none =>
      rw [himpl] at hstep
      cases hstep
  | some impl =>
      rw [himpl] at hstep
      cases hstep
      rfl

/-- The locked part of `put_voice`, when there is data in the buffer. -/
theorem putEncoded_eq {encSize : BitVec 32}
    (hfit : encSize.toNat ≤ s.opusEncoder.opusBuffer.length)
    (hstep : s.putEncoded t true encSize = some s₁) :
    ∃ v voice impl, s.impl.clients t = .putVoice v voice ∧ s₁ = { s with
      impl := impl
      encoded := Function.update s.encoded t none
      queued := Function.update s.queued v
        (s.queued v ++ s.opusEncoder.opusBuffer.take encSize.toNat) } := by
  unfold putEncoded at hstep
  split at hstep
  · rename_i v voice hpc
    split at hstep
    · rw [if_pos ⟨rfl, hfit⟩] at hstep
      dsimp only at hstep
      split at hstep
      · cases hstep
      · rename_i impl himpl
        exact ⟨v, voice, impl, hpc, (Option.some.inj hstep).symm⟩
    · cases hstep
  · cases hstep

theorem step_crashed {a : SpeechAct} (hstep : s.step opus a = some s₁) : s.crashed = false := by
  unfold step at hstep
  split at hstep
  · cases hstep
  · rename_i halive
    rw [not_or, not_or] at halive
    exact Bool.eq_false_iff.mpr halive.2.2

theorem call_of_step {c : SpeechCall} (hstep : s.step opus (.call t c) = some s₁) :
    s.call opus t c = some s₁ := by
  unfold step at hstep
  split at hstep
  · cases hstep
  · exact hstep

theorem client_of_step (hstep : s.step opus (.client t) = some s₁) : s.client t = some s₁ := by
  unfold step at hstep
  split at hstep
  · cases hstep
  · exact hstep

/-- `put_voice` after `encode` has returned. -/
theorem encodeVoice_eq {opu : Sp Bytes} {encSize : BitVec 32} {e' : RKOpusEncoder σ}
    (hencode : s.opusEncoder.encode opus (some (words voice)) = some ((opu, encSize), e')) :
    (s.encodeVoice opus t id voice).opusEncoder = e' ∧
      (s.encodeVoice opus t id voice).crashed = s.crashed ∧
      (s.encodeVoice opus t id voice).impl =
        (if encSize = 0 then s.impl else s.impl.setClient t (.putVoice id voice)) ∧
      (s.encodeVoice opus t id voice).encoded =
        if encSize = 0 then s.encoded
        else Function.update s.encoded t (some (opu.isSome, encSize)) := by
  unfold encodeVoice
  simp only [hencode]
  split
  · exact ⟨rfl, rfl, rfl, rfl⟩
  · exact ⟨rfl, rfl, rfl, rfl⟩

/-- A call of `put_voice` goes through the encoder or leaves it alone. -/
theorem call_putVoice (hcall : s.call opus t (.putVoice id (some voice)) = some s₁) :
    s₁ = s.encodeVoice opus t id voice ∨ ∃ impl, s₁ = { s with impl := impl } := by
  unfold call at hcall
  dsimp only at hcall
  split at hcall
  · exact .inl (Option.some.inj hcall).symm
  · obtain ⟨impl, -, rfl⟩ := Option.map_eq_some_iff.mp hcall
    exact .inr ⟨impl, rfl⟩

/-- `put_voice` gets past its checks, and encodes. -/
def Encodes (t : Nat) (id : Int) (voice : Bytes) (s : OpusSpeech σ) : Prop :=
  s.impl.clients t = .idle ∧ s.impl.initialized ∧ 0 < id ∧ voice ≠ [] ∧
    s.impl.options.codec = .pcm

instance : Decidable (s.Encodes t id voice) := inferInstanceAs (Decidable (_ ∧ _))

/-- What happens otherwise: the data is read through a null pointer. -/
theorem putVoice_crashes (h : s.opusEncoder.Ready st) (hargs : s.Encodes t id voice)
    (hfail : (s.opusEncoder.answers opus st voice).2.1 = false)
    (hsome : (s.opusEncoder.answers opus st voice).1 ≠ []) (hfree : s.impl.reqFree = true) :
    ∃ s₁ s₂, s.call opus t (.putVoice id (some voice)) = some s₁ ∧ s₁.client t = some s₂ ∧
      s₂.crashed = true := by
  obtain ⟨opu, encSize, e', hencode, hends⟩ :=
    RKOpusEncoder.encode_ends opus h (words voice)
  have hsize : encSize ≠ 0 := fun hzero => hsome (hends.encSize_eq_zero.mp hzero)
  have hnull : opu = none := hends.failed hfail
  obtain ⟨-, -, himpl, hpending⟩ := @encodeVoice_eq σ opus s t id voice opu encSize e' hencode
  rw [if_neg hsize] at himpl hpending
  have hget : (s.encodeVoice opus t id voice).encoded t = some (false, encSize) := by
    rw [hpending, Function.update_self, hnull]
    rfl
  have hclient : (s.encodeVoice opus t id voice).impl.clients t = .putVoice id voice := by
    rw [himpl]
    exact Function.update_self _ _ _
  have hreq : (s.encodeVoice opus t id voice).impl.reqFree = true := by
    rw [himpl]
    exact hfree
  refine ⟨s.encodeVoice opus t id voice,
    { s.encodeVoice opus t id voice with crashed := true }, ?_, ?_, rfl⟩
  · unfold call
    exact if_pos hargs
  · unfold client
    rw [hget]
    dsimp only
    unfold putEncoded
    rw [hclient]
    dsimp only
    rw [if_pos hreq, if_neg (fun hdata => by cases hdata.1)]

/-- **The failure contract.**  For every encoder, whatever it has carried over, and every answer
    of the opus library: `encode` returns and writes inside its arrays; a null pointer comes with
    `enc_size` being `0`, and `put_voice` does not read through it, exactly if `opus_encode` does
    not fail behind the first frame of the call. -/
theorem putVoice_null_iff (h : s.opusEncoder.Ready st) (ht : s.encoded t = none) :
    ((∃ opu encSize e', s.opusEncoder.encode opus (some (words voice)) =
          some ((opu, encSize), e') ∧ (opu = none → encSize = 0)) ∧
      ∀ s₁, s.step opus (.call t (.putVoice id (some voice))) = some s₁ →
        (∀ encSize, s₁.encoded t ≠ some (false, encSize)) ∧
        ∀ s₂, s₁.step opus (.client t) = some s₂ → s₂.crashed = false) ↔
    (s.opusEncoder.answers opus st voice).2.1 = true ∨ (s.opusEncoder.answers opus st voice).1 = [] := by
  obtain ⟨opu, encSize, e', hencode, hends⟩ :=
    RKOpusEncoder.encode_ends opus h (words voice)
  have hnull := hends.null_iff
  constructor
  · rintro ⟨⟨opu', encSize', e'', hencode', hzero⟩, -⟩
    rw [hencode] at hencode'
    cases hencode'
    exact hnull.mp hzero
  · intro hok
    have hzero := hnull.mpr hok
    refine ⟨⟨opu, encSize, e', hencode, hzero⟩, ?_⟩
    intro s₁ hstep
    have hcrashed := step_crashed hstep
    rcases call_putVoice (call_of_step hstep) with rfl | ⟨impl, rfl⟩
    · obtain ⟨henc, hcr, -, hpending⟩ := @encodeVoice_eq σ opus s t id voice opu encSize e' hencode
      by_cases hsize : encSize = 0
      · rw [if_pos hsize] at hpending
        have hidle : (s.encodeVoice opus t id voice).encoded t = none := by rw [hpending, ht]
        refine ⟨fun n hn => ?_, fun s₂ hclient => ?_⟩
        · rw [hidle] at hn
          cases hn
        · rw [client_crashed hidle (client_of_step hclient), hcr, hcrashed]
      · -- there is data, and it stands in the buffer
        have hdata : opu.isSome = true := by
          rw [Option.isSome_iff_ne_none]
          exact fun hnone => hsize (hzero hnone)
        rw [if_neg hsize, hdata] at hpending
        have hget : (s.encodeVoice opus t id voice).encoded t = some (true, encSize) := by
          rw [hpending, Function.update_self]
        refine ⟨fun n hn => ?_, fun s₂ hclient => ?_⟩
        · rw [hget] at hn
          cases hn
        · have hput := client_of_step hclient
          unfold client at hput
          rw [hget] at hput
          have hfit : encSize.toNat ≤
              (s.encodeVoice opus t id voice).opusEncoder.opusBuffer.length := by
            rw [henc, hends.ready.buffer]
            exact hends.fits
          obtain ⟨_, _, _, -, rfl⟩ := putEncoded_eq hfit hput
          rw [hcr, hcrashed]
    · have hidle : ({ s with impl := impl } : OpusSpeech σ).encoded t = none := ht
      refine ⟨fun n hn => ?_, fun s₂ hclient => ?_⟩
      · rw [hidle] at hn
        cases hn
      · exact (client_crashed hidle (client_of_step hclient)).trans hcrashed

/-- An encoder that has carried a part of a frame over from the call before. -/
def carriedOver (opus : Opus Unit) : OpusSpeech Unit :=
  (prepare opus {}).encodeVoice opus 0 1 (List.replicate 400 0)

theorem carriedOver_ready (opus : Opus Unit) (hcreate : opus.create 16000 27800 = some ()) :
    (carriedOver opus).opusEncoder.Ready () := by
  obtain ⟨hready, -⟩ :=
    @RKOpusEncoder.init_ready Unit opus 16000 27800 20 () {} rfl hcreate (by decide)
  obtain ⟨opu, encSize, e', hencode, hends⟩ :=
    RKOpusEncoder.encode_ends opus hready (words (List.replicate 400 0))
  obtain ⟨henc, -⟩ := @encodeVoice_eq Unit opus (prepare opus {}) 0 1 (List.replicate 400 0) _ _ _
    hencode
  rw [carriedOver, henc]
  exact hends.ready

/-- The rest of that frame, and another one. -/
theorem putVoice_null_iff_two :
    let opus := Opus.ofFrame (fun _ => [0x48, 0xff, 0xfe]) (fun _ => by decide)
    let s := carriedOver opus
    let voice := List.replicate 880 0
    (s.opusEncoder.answers opus () voice).1.length = 2 ∧
      (∃ opu encSize e', s.opusEncoder.encode opus (some (words voice)) =
          some ((opu, encSize), e') ∧ (opu = none → encSize = 0)) ∧
      ∀ s₁, s.step opus (.call 0 (.putVoice 1 (some voice))) = some s₁ →
        (∀ encSize, s₁.encoded 0 ≠ some (false, encSize)) ∧
        ∀ s₂, s₁.step opus (.client 0) = some s₂ → s₂.crashed = false := by
  intro opus s voice
  refine ⟨by decide +kernel, ?_⟩
  exact (putVoice_null_iff (carriedOver_ready opus rfl) (by decide +kernel)).mpr
    (.inl (by decide +kernel))

end OpusSpeech

namespace RKOpusEncoder

/-- Each packet takes two bytes of the buffer or more, so that a call with more than 8192 frames
    fails, whatever the opus library answers. -/
theorem answers_failed_of_long {e : RKOpusEncoder σ} {voice : Bytes} (h : e.Ready st)
    (hlong : 8192 < (e.carried ++ words voice).length / e.pcmFrameSize) :
    (e.answers opus st voice).2.1 = false := by
  obtain ⟨opu, encSize, e', -, hends⟩ := encode_ends opus h (words voice)
  refine Bool.eq_false_iff.mpr fun hok => ?_
  have hcount : (e.answers opus st voice).1.length =
      (e.carried ++ words voice).length / e.pcmFrameSize := by
    unfold answers
    rw [Opus.length_answers hok, Chunks.length_whole]
  have htwo : 2 * (e.answers opus st voice).1.length ≤
      (framed (e.answers opus st voice).1).length := Opus.length_framed_answers
  have hbytes : encSize.toNat = (framed (e.answers opus st voice).1).length := hends.bytes
  have hfits := hends.fits
  rw [opusBufferSize_toNat] at hfits
  omega

/-- A call that encodes its first frame has data. -/
theorem answers_ne_nil {e : RKOpusEncoder σ} {voice : Bytes} {p : Bytes} (h : e.Ready st)
    (hframe : e.pcmFrameSize ≤ (e.carried ++ words voice).length)
    (hp : (opus.encode st ((e.carried ++ words voice).take e.pcmFrameSize)
      (maxDataBytes 0)).1 = some p) :
    (e.answers opus st voice).1 ≠ [] := by
  unfold answers
  rw [Chunks.whole_of_le h.frame_pos hframe, Opus.answers_ok hp]
  exact List.cons_ne_nil _ _

end RKOpusEncoder

namespace OpusSpeech

/-- Silence, in one call that is too long for the buffer. -/
theorem putVoice_null_long :
    let opus := Opus.ofFrame (fun _ => [0x48, 0xff, 0xfe]) (fun _ => by decide)
    let s : OpusSpeech Unit := prepare opus {}
    let voice := List.replicate (640 * 8193) 0
    ∃ s₁ s₂, s.call opus 0 (.putVoice 1 (some voice)) = some s₁ ∧ s₁.client 0 = some s₂ ∧
      s₂.crashed = true := by
  intro opus s voice
  obtain ⟨hready, hsize, hcarried⟩ :=
    @RKOpusEncoder.init_ready Unit opus 16000 27800 20 () {} rfl rfl (by decide)
  change s.opusEncoder.Ready () at hready
  have hsize' : s.opusEncoder.pcmFrameSize = 320 := hsize
  have hlen : (s.opusEncoder.carried ++ words voice).length = 320 * 8193 := by
    have hnil : s.opusEncoder.carried = [] := hcarried
    rw [hnil, List.nil_append, LittleEndian.length_words, List.length_replicate]
  have hvoice : voice ≠ [] := by
    rw [Ne, List.replicate_eq_nil_iff]
    decide
  apply @putVoice_crashes Unit opus () s 0 1 voice hready ⟨rfl, rfl, by decide, hvoice, rfl⟩
  · apply RKOpusEncoder.answers_failed_of_long hready
    rw [hlen, hsize']
    decide
  · apply RKOpusEncoder.answers_ne_nil hready (p := [0x48, 0xff, 0xfe])
    · rw [hlen, hsize']
      decide
    · rfl
  · rfl

/-! ### The chunks -/

/-- The chunks the loop of `put_voice` makes of its data. -/
def chunks (impl : SpeechImpl) (data : Bytes) : List Bytes :=
  SpeechImpl.cut (impl.fragmentSize data) data.length data

/-- They are what the locked part of `put_voice` puts into `voice_reqs_`. -/
theorem putVoice_chunks {impl impl' : SpeechImpl} {id : Int} {data : Bytes}
    (h : impl.putVoice id data = some impl') :
    impl'.voiceReqs =
      (SpeechImpl.streamPieces id (chunks impl data) false impl.voiceReqs).2 := by
  unfold SpeechImpl.putVoice at h
  dsimp only at h
  split at h
  · cases h
  · cases h
    rw [SpeechImpl.streamPieces_snd]
    rfl

/-- Each chunk of a call consists of packets of the call with their lengths, and there is more
    than one only if the declared codec is a stream codec. -/
def Uncut (opus : Opus σ) (impl : SpeechImpl) (voice : Bytes) (e : RKOpusEncoder σ) : Prop :=
  ∀ st opu encSize e', e.opusEncoder = some st →
    e.encode opus (some (words voice)) = some ((opu, encSize), e') →
    (∀ chunk ∈ chunks impl (RKOpusEncoder.output opu encSize),
      ∃ ps, ps <:+: (e.answers opus st voice).1 ∧ chunk = framed ps) ∧
    ((chunks impl (RKOpusEncoder.output opu encSize)).length ≤ 1 ∨
      SpeechImpl.isStreamCodec (declaredCodec impl.options) = true)

/-- What a call encodes is not longer than the fragment size, or its encoding fails. -/
def Short (opus : Opus σ) (impl : SpeechImpl) (voice : Bytes) (e : RKOpusEncoder σ) : Prop :=
  ∀ st, e.opusEncoder = some st → (e.answers opus st voice).2.1 = true →
    (framed (e.answers opus st voice).1).length ≤ impl.options.voiceFragment.toNat

/-- The calls of `put_voice` with `voices`, and the encoder each of them finds. -/
def visits (opus : Opus σ) : List Bytes → RKOpusEncoder σ → List (Bytes × RKOpusEncoder σ)
  | [], _ => []
  | voice :: voices, e =>
      (voice, e) ::
        match e.encode opus (some (words voice)) with
        | none => []
        | some (_, e') => visits opus voices e'

variable {impl : SpeechImpl} {e : RKOpusEncoder σ} {data : Bytes}

theorem fragmentSize_pcm (hcodec : impl.options.codec = .pcm) (data : Bytes) :
    impl.fragmentSize data = min data.length impl.options.voiceFragment.toNat := by
  unfold SpeechImpl.fragmentSize SpeechImpl.isStreamCodec
  rw [hcodec]
  rfl

/-- Data that is not longer than the fragment size is a chunk. -/
theorem chunks_of_le (hcodec : impl.options.codec = .pcm)
    (hle : data.length ≤ impl.options.voiceFragment.toNat) :
    (chunks impl data).length ≤ 1 ∧ ∀ chunk ∈ chunks impl data, chunk = data := by
  have hsize : impl.fragmentSize data = data.length := by
    rw [fragmentSize_pcm hcodec]
    exact Nat.min_eq_left hle
  cases data with
  | nil =>
      refine ⟨Nat.zero_le 1, fun chunk hchunk => ?_⟩
      cases hchunk
  | cons b data =>
      have hone : chunks impl (b :: data) = [b :: data] := by
        unfold chunks
        rw [hsize]
        exact SpeechImpl.cut_of_le (List.cons_ne_nil b data) (Nat.le_refl _)
      rw [hone]
      exact ⟨Nat.le_refl 1, fun chunk hchunk => List.mem_singleton.mp hchunk⟩

/-- Longer data is cut. -/
theorem le_of_length_chunks (hcodec : impl.options.codec = .pcm)
    (hfrag : 0 < impl.options.voiceFragment.toNat) (hone : (chunks impl data).length ≤ 1) :
    data.length ≤ impl.options.voiceFragment.toNat := by
  by_cases hnil : data = []
  · rw [hnil]
    exact Nat.zero_le _
  · have hsz : 0 < impl.fragmentSize data := by
      rw [fragmentSize_pcm hcodec]
      have hlen := List.length_pos_of_ne_nil hnil
      omega
    have hflat : (chunks impl data).flatten = data :=
      SpeechImpl.flatten_cut hsz (Nat.le_refl data.length)
    have hle : ∀ piece ∈ chunks impl data,
        piece.length ≤ impl.options.voiceFragment.toNat := by
      intro piece hp
      have hpiece := (SpeechImpl.mem_cut hsz hp).2
      rw [fragmentSize_pcm hcodec] at hpiece
      omega
    rw [← hflat]
    match hchunks : chunks impl data with
    | [] => exact Nat.zero_le _
    | [piece] =>
        rw [List.flatten_cons, List.flatten_nil, List.append_nil]
        exact hle piece (by rw [hchunks]; exact List.mem_singleton_self _)
    | _ :: _ :: _ =>
        rw [hchunks, List.length_cons, List.length_cons] at hone
        omega

/-- One call. -/
theorem uncut_iff_short (hcodec : impl.options.codec = .pcm)
    (hfrag : impl.options.voiceFragment ≠ 0) (h : e.Ready st) :
    Uncut opus impl voice e ↔ Short opus impl voice e := by
  obtain ⟨opu, encSize, e', hencode, hends⟩ := RKOpusEncoder.encode_ends opus h (words voice)
  have hdata : (e.answers opus st voice).2.1 = true →
      RKOpusEncoder.output opu encSize = framed (e.answers opus st voice).1 :=
    fun hok => (hends.encoded hok).1
  constructor
  · intro huncut st' hst hok
    rw [h.encoder] at hst
    cases hst
    obtain ⟨-, hone | hstream⟩ := huncut st opu encSize e' h.encoder hencode
    · rw [hdata hok] at hone
      exact le_of_length_chunks hcodec (by bv_omega) hone
    · -- what is declared is OPU
      rw [declaredCodec, if_pos hcodec] at hstream
      cases hstream
  · intro hshort st' opu' encSize' e'' hst hencode'
    rw [h.encoder] at hst
    cases hst
    rw [hencode] at hencode'
    cases hencode'
    cases hok : (e.answers opus st voice).2.1 with
    | false =>
        -- a null pointer: no chunk is made
        have hnone : chunks impl (RKOpusEncoder.output opu encSize) = [] := by
          rw [hends.failed hok]
          simp [chunks, RKOpusEncoder.output, SpeechImpl.cut]
        rw [hnone]
        refine ⟨fun chunk hchunk => ?_, .inl (Nat.zero_le 1)⟩
        cases hchunk
    | true =>
        rw [hdata hok]
        obtain ⟨hone, hall⟩ := chunks_of_le hcodec (hshort st h.encoder hok)
        exact ⟨fun chunk hchunk => ⟨_, List.infix_refl _, hall chunk hchunk⟩, .inl hone⟩

/-- The encoder of every call is ready. -/
theorem ready_of_mem_visits {voices : List Bytes} (h : e.Ready st) {c : Bytes × RKOpusEncoder σ}
    (hc : c ∈ visits opus voices e) : ∃ st', c.2.Ready st' := by
  induction voices generalizing e st with
  | nil => cases hc
  | cons voice voices ih =>
      obtain ⟨opu, encSize, e', hencode, hends⟩ :=
        RKOpusEncoder.encode_ends opus h (words voice)
      unfold visits at hc
      rw [hencode] at hc
      rcases List.mem_cons.mp hc with rfl | hc
      · exact ⟨st, h⟩
      · exact ih hends.ready hc

/-- **Packets are not cut.**  In every sequence of calls of `put_voice`, with any fragment size
    but `0`, every chunk consists of whole packets, and data declared as OPU is not split, exactly
    if no call encodes more than the fragment size. -/
theorem putVoice_uncut_iff (hcodec : impl.options.codec = .pcm)
    (hfrag : impl.options.voiceFragment ≠ 0) (h : e.Ready st) (voices : List Bytes) :
    (∀ c ∈ visits opus voices e, Uncut opus impl c.1 c.2) ↔
      ∀ c ∈ visits opus voices e, Short opus impl c.1 c.2 := by
  apply forall₂_congr
  intro c hc
  obtain ⟨st', hready⟩ := ready_of_mem_visits h hc
  exact uncut_iff_short hcodec hfrag hready

/-- Two frames of silence in two calls, the first of which does not complete one, and a fragment
    size that is just what they are encoded to. -/
theorem putVoice_uncut_iff_exact :
    let opus := Opus.ofFrame (fun _ => [0x48, 0xff, 0xfe]) (fun _ => by decide)
    let e : RKOpusEncoder Unit := (RKOpusEncoder.init opus 16000 27800 20 {}).2
    let mod : SpeechOptionsModifier := SpeechOptionsModifier.setVoiceFragment 8 {}
    let impl : SpeechImpl := SpeechImpl.config (some mod) {}
    let calls := visits opus [List.replicate 400 0, List.replicate 880 0] e
    calls.map (fun c => (c.2.carried.length, (framed (c.2.answers opus () c.1).1).length)) =
        [(0, 0), (200, 8)] ∧
      ∀ c ∈ calls, Uncut opus impl c.1 c.2 := by
  intro opus e mod impl calls
  have hshort : ∀ c ∈ calls, ∀ st ∈ c.2.opusEncoder,
      (framed (c.2.answers opus st c.1).1).length ≤ impl.options.voiceFragment.toNat := by
    decide +kernel
  refine ⟨by decide +kernel, ?_⟩
  apply (putVoice_uncut_iff (by decide) (by decide)
    (RKOpusEncoder.init_ready rfl rfl (by decide)).1 _).mpr
  exact fun c hc st hst _ => hshort c hc st hst

/-- One frame of silence is cut in the middle of its packet with `set_voice_fragment(3)`, although
    its codec is declared as OPU. -/
theorem putVoice_cut :
    let opus := Opus.ofFrame (fun _ => [0x48, 0xff, 0xfe]) (fun _ => by decide)
    let e : RKOpusEncoder Unit := (RKOpusEncoder.init opus 16000 27800 20 {}).2
    let mod : SpeechOptionsModifier := SpeechOptionsModifier.setVoiceFragment 3 {}
    let impl : SpeechImpl := SpeechImpl.config (some mod) {}
    declaredCodec impl.options = .opu ∧
      (e.encode opus (some (words (List.replicate 640 0)))).map
        (fun r => chunks impl (RKOpusEncoder.output r.1.1 r.1.2)) =
        some [[3, 0x48, 0xff], [0xfe]] ∧
      Framing.unframe ([3, 0x48, 0xff] : Bytes) = none := by
  decide +kernel

end OpusSpeech

end OpenVoice
