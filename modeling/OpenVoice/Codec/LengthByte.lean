import OpenVoice.Codec.Chunking

/-!
# Reading the packets back

In front of each packet stands one byte with its length.  A reader that takes a byte and that
many bytes gets the packets back exactly if none of them is longer than 255 bytes.
-/

namespace OpenVoice

open OpenVoice.Lib
open OpenVoice.Lib.Framing (framed unframe)

variable {σ : Type}

namespace RKOpusEncoder

variable {opus : Opus σ} {e : RKOpusEncoder σ} {st st' : σ} {pcm : List (BitVec 16)}
  {ps : List Bytes}

/-- A call whose frames are all encoded returns their packets, framed. -/
theorem encode_output (h : e.Ready st) (hpcm : pcm ≠ [])
    (hps : opus.answers st 0 (Chunks.whole e.pcmFrameSize (e.carried ++ pcm)) = (ps, true, st')) :
    ∃ opu encSize e', e.encode opus (some pcm) = some ((opu, encSize), e') ∧
      output opu encSize = framed ps := by
  obtain ⟨opu, encSize, e', hencode, hends⟩ := @encode_spec _ opus _ _ _ h hpcm
  rw [hps] at hends
  obtain ⟨hout, -⟩ := hends.encoded rfl
  rw [List.nil_append] at hout
  exact ⟨opu, encSize, e', hencode, hout⟩

/-- **The length byte.**  Whatever the encoder is and has carried over, what a call returns for
    the packets `ps` is read back as `ps` exactly if their lengths fit in a byte. -/
theorem encode_readable_iff (h : e.Ready st) (hpcm : pcm ≠ [])
    (hps : opus.answers st 0 (Chunks.whole e.pcmFrameSize (e.carried ++ pcm)) = (ps, true, st')) :
    (∃ opu encSize e', e.encode opus (some pcm) = some ((opu, encSize), e') ∧
      unframe (output opu encSize) = some ps) ↔ ∀ p ∈ ps, p.length ≤ 255 := by
  obtain ⟨opu, encSize, e', hencode, hout⟩ := encode_output h hpcm hps
  have hread : unframe (output opu encSize) = some ps ↔ ∀ p ∈ ps, p.length ≤ 255 := by
    rw [hout, Framing.unframe_framed_iff]
    exact forall₂_congr fun p _ => Nat.lt_succ_iff
  constructor
  · rintro ⟨opu', encSize', e'', hencode', hsome⟩
    rw [hencode] at hencode'
    cases hencode'
    exact hread.mp hsome
  · intro hle
    exact ⟨opu, encSize, e', hencode, hread.mpr hle⟩

/-- Two frames of silence. -/
theorem encode_silence_readable :
    let opus := Opus.ofFrame (fun _ => [0x48, 0xff, 0xfe]) (fun _ => by decide)
    (∃ opu encSize e',
      (init opus 16000 27800 20 {}).2.encode opus (some (List.replicate 640 0)) =
        some ((opu, encSize), e') ∧
      unframe (output opu encSize) = some [[0x48, 0xff, 0xfe], [0x48, 0xff, 0xfe]]) ↔
      ∀ p ∈ [([0x48, 0xff, 0xfe] : Bytes), [0x48, 0xff, 0xfe]], p.length ≤ 255 :=
  @encode_readable_iff Unit _ _ () () _ _ (init_ready rfl rfl (by decide)).1
    (by decide +kernel) (by decide +kernel)

/-- At 128 kbit/s a packet has 320 bytes, of which its length byte says 64. -/
theorem encode_unreadable :
    let packet : Bytes := 0x48 :: List.replicate 319 0
    let opus := Opus.ofFrame (fun _ => packet)
      (fun _ => List.length_pos_iff.mpr (List.cons_ne_nil _ _))
    let e := (init opus 16000 128000 20 {}).2
    let pcm := List.replicate 320 0
    opus.answers () 0 (Chunks.whole 320 pcm) = ([packet], true, ()) ∧
      (e.encode opus (some pcm)).map (fun r => output r.1.1 r.1.2) = some (64 :: packet) ∧
      unframe (64 :: packet) ≠ some [packet] := by
  decide +kernel

end RKOpusEncoder

end OpenVoice
