import OpenVoice.Codec.Frames

/-!
# How the samples are cut into calls does not matter

When `opus_encode` is a function of the state and the frame, the packets of successive calls of
`encode` are those of the frames of all samples.  An utterance may be put in pieces of any size.
-/

namespace OpenVoice

open OpenVoice.Lib
open OpenVoice.Lib.Framing (framed unframe)

variable {σ : Type}

namespace Opus

/-- `opus_encode` makes a packet of 1 to 255 bytes, `f`, of every frame, whatever else is in the
    buffer, as long as the packet may be that long. -/
structure Deterministic (opus : Opus σ) (f : σ → List (BitVec 16) → Bytes × σ) : Prop where
  small : ∀ st frame, 1 ≤ (f st frame).1.length ∧ (f st frame).1.length ≤ 255
  encode : ∀ st frame max, ((f st frame).1.length : Int) ≤ max →
    opus.encode st frame max = (some (f st frame).1, (f st frame).2)

/-- The packets are those of `f`, as far as `opus_encode` does not fail. -/
def Follows (opus : Opus σ) (f : σ → List (BitVec 16) → Bytes × σ) : Prop :=
  ∀ st frame max p, (opus.encode st frame max).1 = some p →
    opus.encode st frame max = (some (f st frame).1, (f st frame).2)

/-- A library without state. -/
def ofFrame (g : List (BitVec 16) → Bytes) (hg : ∀ frame, 0 < (g frame).length) : Opus Unit where
  create _ _ := some ()
  encode st frame max := (if ((g frame).length : Int) ≤ max then some (g frame) else none, st)
  encode_pos := by
    intro st frame max p h
    dsimp only at h
    split at h
    · exact Option.some.inj h ▸ hg frame
    · cases h
  encode_le := by
    intro st frame max p h
    dsimp only at h
    split at h
    · rename_i hle
      exact Option.some.inj h ▸ hle
    · cases h

theorem deterministic_ofFrame {g : List (BitVec 16) → Bytes} (hg : ∀ frame, 0 < (g frame).length)
    (hle : ∀ frame, (g frame).length ≤ 255) :
    (ofFrame g hg).Deterministic (fun st frame => (g frame, st)) where
  small := fun _ frame => ⟨hg frame, hle frame⟩
  encode := fun _ _ _ h => Prod.ext (if_pos h) rfl

theorem follows_ofFrame {g : List (BitVec 16) → Bytes} (hg : ∀ frame, 0 < (g frame).length) :
    (ofFrame g hg).Follows (fun st frame => (g frame, st)) := by
  intro st frame max p hp
  unfold ofFrame at hp
  dsimp only at hp
  split at hp
  · rename_i hle
    exact Prod.ext (if_pos hle) rfl
  · cases hp

end Opus

/-- The packets of the frames, one after another, and the state afterwards. -/
def packets (f : σ → List (BitVec 16) → Bytes × σ) :
    σ → List (List (BitVec 16)) → List Bytes × σ
  | st, [] => ([], st)
  | st, frame :: frames =>
      let r := packets f (f st frame).2 frames
      ((f st frame).1 :: r.1, r.2)

section Packets

variable {f : σ → List (BitVec 16) → Bytes × σ} {st : σ} {opus : Opus σ}

theorem packets_append (frames frames' : List (List (BitVec 16))) :
    packets f st (frames ++ frames') =
      ((packets f st frames).1 ++ (packets f (packets f st frames).2 frames').1,
        (packets f (packets f st frames).2 frames').2) := by
  induction frames generalizing st with
  | nil => rfl
  | cons frame frames ih => simp only [List.cons_append, packets, ih]

theorem Opus.Deterministic.length_packets_lt (h : opus.Deterministic f)
    (frames : List (List (BitVec 16))) : ∀ p ∈ (packets f st frames).1, p.length < 2 ^ 8 := by
  induction frames generalizing st with
  | nil =>
      intro p hp
      cases hp
  | cons frame frames ih =>
      intro p hp
      rcases List.mem_cons.mp hp with rfl | hp
      · have hle := (h.small st frame).2
        omega
      · exact ih p hp

/-- What is encoded. -/
theorem Opus.Follows.answers_eq (h : opus.Follows f) {encSize : BitVec 32}
    {frames : List (List (BitVec 16))} (hok : (opus.answers st encSize frames).2.1 = true) :
    opus.answers st encSize frames =
      ((packets f st frames).1, true, (packets f st frames).2) := by
  induction frames generalizing st encSize with
  | nil => rfl
  | cons frame frames ih =>
      cases hp : (opus.encode st frame (RKOpusEncoder.maxDataBytes encSize)).1 with
      | none =>
          rw [Opus.answers_failed hp] at hok
          cases hok
      | some p =>
          have henc := h _ _ _ _ hp
          rw [Opus.answers_ok hp] at hok ⊢
          rw [ih hok, henc]
          rw [henc] at hp
          cases hp
          rfl

/-- What fits is encoded. -/
theorem Opus.Deterministic.answers_eq (h : opus.Deterministic f) {encSize : BitVec 32}
    {frames : List (List (BitVec 16))}
    (hfit : encSize.toNat + (framed (packets f st frames).1).length ≤
      RKOpusEncoder.opusBufferSize.toNat) :
    opus.answers st encSize frames =
      ((packets f st frames).1, true, (packets f st frames).2) := by
  induction frames generalizing st encSize with
  | nil => rfl
  | cons frame frames ih =>
      rw [packets, Framing.framed_cons, List.length_append, Framing.length_frame] at hfit
      have hmax : ((f st frame).1.length : Int) ≤ RKOpusEncoder.maxDataBytes encSize := by
        rw [RKOpusEncoder.maxDataBytes_eq (by omega)]
        omega
      have henc := h.encode st frame _ hmax
      have hsize : (encSize + BitVec.ofNat 32 ((f st frame).1.length + 1)).toNat =
          encSize.toNat + ((f st frame).1.length + 1) := by
        rw [RKOpusEncoder.opusBufferSize_toNat] at hfit
        rw [BitVec.toNat_add, BitVec.toNat_ofNat]
        omega
      have hrest : opus.answers (f st frame).2
          (encSize + BitVec.ofNat 32 ((f st frame).1.length + 1)) frames =
          ((packets f (f st frame).2 frames).1, true, (packets f (f st frame).2 frames).2) := by
        apply ih
        rw [hsize]
        omega
      rw [Opus.answers_ok (by rw [henc]), henc, hrest]
      rfl

end Packets

namespace RKOpusEncoder

variable {opus : Opus σ} {f : σ → List (BitVec 16) → Bytes × σ} {st : σ} {e : RKOpusEncoder σ}

/-- Successive calls of `encode`, and the data of each of them. -/
def encodes (opus : Opus σ) :
    List (List (BitVec 16)) → RKOpusEncoder σ → Option (List Bytes × RKOpusEncoder σ)
  | [], e => some ([], e)
  | pcm :: pcms, e =>
      match e.encode opus (some pcm) with
      | none => none
      | some ((opu, encSize), e') =>
          match encodes opus pcms e' with
          | none => none
          | some (outs, e'') => some (output opu encSize :: outs, e'')

/-- The packets of each call fit in `_opus_buffer`; frames have `n` samples. -/
def CallsFit (f : σ → List (BitVec 16) → Bytes × σ) (n : Nat) :
    σ → List (BitVec 16) → List (List (BitVec 16)) → Prop
  | _, _, [] => True
  | st, carried, pcm :: pcms =>
      (framed (packets f st (Chunks.whole n (carried ++ pcm))).1).length ≤ opusBufferSize.toNat ∧
        CallsFit f n (packets f st (Chunks.whole n (carried ++ pcm))).2
          (Chunks.rest n (carried ++ pcm)) pcms

/-- One call, when everything fits. -/
theorem encode_fits (hdet : opus.Deterministic f) (h : e.Ready st) {pcm : List (BitVec 16)}
    (hpcm : pcm ≠ [])
    (hfit : (framed (packets f st (Chunks.whole e.pcmFrameSize (e.carried ++ pcm))).1).length ≤
      opusBufferSize.toNat) :
    ∃ opu encSize e', e.encode opus (some pcm) = some ((opu, encSize), e') ∧
      output opu encSize =
        framed (packets f st (Chunks.whole e.pcmFrameSize (e.carried ++ pcm))).1 ∧
      e'.Ready (packets f st (Chunks.whole e.pcmFrameSize (e.carried ++ pcm))).2 ∧
      e'.pcmFrameSize = e.pcmFrameSize ∧
      e'.carried = Chunks.rest e.pcmFrameSize (e.carried ++ pcm) := by
  obtain ⟨opu, encSize, e', hencode, hends⟩ := @encode_spec _ opus _ _ _ h hpcm
  have hall : (0 : BitVec 32).toNat +
      (framed (packets f st (Chunks.whole e.pcmFrameSize (e.carried ++ pcm))).1).length ≤
        opusBufferSize.toNat := by
    rw [show (0 : BitVec 32).toNat = 0 from rfl, Nat.zero_add]
    exact hfit
  rw [hdet.answers_eq hall] at hends
  obtain ⟨hout, hcarried, -⟩ := hends.encoded rfl
  refine ⟨opu, encSize, e', hencode, ?_, hends.ready, hends.size, hcarried⟩
  rw [hout, List.nil_append]

/-- **Successive calls.**  By induction on the calls; what is carried from one to the next is
    `Chunks.rest`. -/
theorem encodes_spec (hdet : opus.Deterministic f) (h : e.Ready st)
    {pcms : List (List (BitVec 16))} (hpcms : ∀ pcm ∈ pcms, pcm ≠ [])
    (hfit : CallsFit f e.pcmFrameSize st e.carried pcms) :
    ∃ outs e', e.encodes opus pcms = some (outs, e') ∧
      outs.flatten =
        framed (packets f st (Chunks.whole e.pcmFrameSize (e.carried ++ pcms.flatten))).1 ∧
      e'.Ready (packets f st (Chunks.whole e.pcmFrameSize (e.carried ++ pcms.flatten))).2 ∧
      e'.pcmFrameSize = e.pcmFrameSize ∧
      e'.carried = Chunks.rest e.pcmFrameSize (e.carried ++ pcms.flatten) := by
  induction pcms generalizing e st with
  | nil =>
      have hlt : e.carried.length < e.pcmFrameSize := by
        rw [h.length_carried]
        exact h.used
      rw [List.flatten_nil, List.append_nil, Chunks.whole_of_lt hlt, Chunks.rest_of_lt hlt]
      exact ⟨[], e, rfl, rfl, h, rfl, rfl⟩
  | cons pcm pcms ih =>
      obtain ⟨hthis, hothers⟩ := hfit
      obtain ⟨opu, encSize, e', hencode, hout, hready, hsize, hcarried⟩ :=
        encode_fits hdet h (hpcms pcm List.mem_cons_self) hthis
      rw [← hcarried] at hothers
      obtain ⟨outs, e'', hencodes, houts, hready', hsize', hcarried'⟩ :=
        ih hready (fun q hq => hpcms q (List.mem_cons_of_mem _ hq)) (by rw [hsize]; exact hothers)
      rw [hsize, hcarried] at houts hready' hcarried'
      have hpos := h.frame_pos
      rw [List.flatten_cons, ← List.append_assoc, Chunks.whole_append hpos (e.carried ++ pcm),
        Chunks.rest_append hpos (e.carried ++ pcm), packets_append]
      refine ⟨output opu encSize :: outs, e'', ?_, ?_, hready', hsize'.trans hsize, hcarried'⟩
      · simp only [encodes, hencode, hencodes]
      · rw [List.flatten_cons, hout, houts, Framing.framed_append]

/-- **Chunking-invariance.**  However the samples are cut into calls, together the calls return
    the packets of the consecutive frames of all samples, each behind its length; and what does
    not fill a frame is what is kept. -/
theorem encodes_eq_framed (hdet : opus.Deterministic f) {sampleRate bitrate duration : BitVec 32}
    {n : Nat} (hn : (sampleRate * duration / 1000).toNat = n) (hpos : 0 < n)
    (hnone : e.opusEncoder = none) (hcreate : opus.create sampleRate bitrate = some st)
    {pcms : List (List (BitVec 16))} (hpcms : ∀ pcm ∈ pcms, pcm ≠ [])
    (hfit : CallsFit f n st [] pcms) :
    ∃ outs e', (e.init opus sampleRate bitrate duration).2.encodes opus pcms = some (outs, e') ∧
      outs.flatten = framed (packets f st (Chunks.whole n pcms.flatten)).1 ∧
      unframe outs.flatten = some (packets f st (Chunks.whole n pcms.flatten)).1 ∧
      e'.pcmFrameUsedBytes = pcms.flatten.length % n ∧ e'.pcmFrameUsedBytes < n ∧
      e'.aPcmFrame.take e'.pcmFrameUsedBytes =
        pcms.flatten.drop (pcms.flatten.length - pcms.flatten.length % n) := by
  subst hn
  obtain ⟨hready, hsize, hcarried⟩ := init_ready hnone hcreate hpos
  obtain ⟨outs, e', hencodes, houts, hready', hsize', hcarried'⟩ :=
    encodes_spec hdet hready hpcms (by rw [hsize, hcarried]; exact hfit)
  rw [hsize, hcarried, List.nil_append] at houts hcarried'
  have hused : e'.pcmFrameUsedBytes =
      pcms.flatten.length % (sampleRate * duration / 1000).toNat := by
    rw [← hready'.length_carried, hcarried', Chunks.length_rest]
  refine ⟨outs, e', hencodes, houts, ?_, hused, ?_, ?_⟩
  · rw [houts]
    exact Framing.unframe_framed_iff.mpr (hdet.length_packets_lt _)
  · rw [hused]
    exact Nat.mod_lt _ hpos
  · have hmul : (sampleRate * duration / 1000).toNat *
        (pcms.flatten.length / (sampleRate * duration / 1000).toNat) =
        pcms.flatten.length - pcms.flatten.length % (sampleRate * duration / 1000).toNat := by
      have hdiv := Nat.div_add_mod pcms.flatten.length (sampleRate * duration / 1000).toNat
      omega
    rw [← hmul]
    exact hcarried'

/-- Silence, as the client encodes it, in two calls: the first frame ends in the first call, the
    second one begins there. -/
theorem encodes_silence_eq_framed :
    let opus := Opus.ofFrame (fun _ => [0x48, 0xff, 0xfe]) (fun _ => by decide)
    let pcms := [List.replicate 400 0, List.replicate 250 0]
    ∃ outs e', (init opus 16000 27800 20 {}).2.encodes opus pcms = some (outs, e') ∧
      outs.flatten = framed (packets (fun st _ => ([0x48, 0xff, 0xfe], st)) ()
        (Chunks.whole 320 pcms.flatten)).1 ∧
      unframe outs.flatten = some (packets (fun st _ => ([0x48, 0xff, 0xfe], st)) ()
        (Chunks.whole 320 pcms.flatten)).1 ∧
      e'.pcmFrameUsedBytes = pcms.flatten.length % 320 ∧ e'.pcmFrameUsedBytes < 320 ∧
      e'.aPcmFrame.take e'.pcmFrameUsedBytes =
        pcms.flatten.drop (pcms.flatten.length - pcms.flatten.length % 320) :=
  encodes_eq_framed (Opus.deterministic_ofFrame _ (fun _ => by decide)) (by decide) (by decide)
    rfl rfl (by decide +kernel) ⟨by decide +kernel, by decide +kernel, trivial⟩

end RKOpusEncoder

end OpenVoice
