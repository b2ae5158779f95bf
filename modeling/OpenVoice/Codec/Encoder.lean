import OpenVoice.Lib.Memory
import OpenVoice.StreamQueue.Fifo
import OpenVoice.Types

/-!
# `RKOpusEncoder` (`rkcodec.cc`)

PCM samples come in pieces of any size and are encoded in frames; what does not fill a frame is
kept in `a_pcm_frame` for the next call.  The packets of one call stand in `_opus_buffer`, each
behind a byte with its length.

The opus library is a parameter.  A write outside `a_pcm_frame` or `_opus_buffer` has no result.
-/

namespace OpenVoice

open OpenVoice.Lib

/-- What is used of the opus library.  `encode` is `opus_encode` with its `frame_size` samples and
    `max_data_bytes`: it returns the encoder state afterwards and the packet, or no packet for a
    negative result. -/
structure Opus (σ : Type) where
  /-- `opus_encoder_create` and the calls of `opus_encoder_ctl` -/
  create : BitVec 32 → BitVec 32 → Option σ
  encode : σ → List (BitVec 16) → Int → Option Bytes × σ
  /-- A packet is not empty, -/
  encode_pos : ∀ st frame max p, (encode st frame max).1 = some p → 0 < p.length
  /-- and not longer than it may be. -/
  encode_le : ∀ st frame max p, (encode st frame max).1 = some p → (p.length : Int) ≤ max

/-- The members of `RKOpusEncoder`; `opusEncoder` is null before `init` and after `close`. -/
structure RKOpusEncoder (σ : Type) where
  pcmFrameSize : Nat := 0
  opusEncoder : Option σ := none
  opusBuffer : Bytes := []
  aPcmFrame : List (BitVec 16) := []
  pcmFrameUsedBytes : Nat := 0
  /-- the frames `opus_encode` was called with; no function reads them -/
  passed : List (List (BitVec 16)) := []
deriving DecidableEq, Repr

namespace RKOpusEncoder

variable {σ : Type}

def opusBufferSize : BitVec 32 := 16 * 1024

def init (opus : Opus σ) (sampleRate bitrate duration : BitVec 32) (e : RKOpusEncoder σ) :
    Bool × RKOpusEncoder σ :=
  match e.opusEncoder with
  | some _ => (true, e)
  | none =>
      match opus.create sampleRate bitrate with
      | none => (false, e)
      | some st =>
          let size := (sampleRate * duration / 1000).toNat
          (true, { e with
            pcmFrameSize := size
            opusEncoder := some st
            opusBuffer := List.replicate opusBufferSize.toNat 0
            aPcmFrame := List.replicate size 0
            pcmFrameUsedBytes := 0 })

def close (e : RKOpusEncoder σ) : RKOpusEncoder σ :=
  match e.opusEncoder with
  | none => e
  | some _ =>
      { e with
        pcmFrameSize := 0, opusEncoder := none, opusBuffer := [], aPcmFrame := []
        pcmFrameUsedBytes := 0 }

/-- The last argument of `opus_encode`, a difference of `uint32_t`s that is passed as an
    `opus_int32`. -/
def maxDataBytes (encSize : BitVec 32) : Int := (opusBufferSize - encSize - 1).toInt

/-- One call of `opus_encode`, and the length byte in front of the packet; the value is the new
    `enc_size`, or none if `opus_encode` failed. -/
def encodeFrame (opus : Opus σ) (st : σ) (frame : List (BitVec 16)) (encSize : BitVec 32)
    (e : RKOpusEncoder σ) : Option (Option (BitVec 32) × RKOpusEncoder σ) :=
  let r := opus.encode st frame (maxDataBytes encSize)
  let e := { e with opusEncoder := some r.2, passed := e.passed ++ [frame] }
  match r.1 with
  | none => some (none, e)
  | some p => do
      let buffer ← Memory.store (encSize.toNat + 1) p e.opusBuffer
      let buffer ← Memory.store encSize.toNat [BitVec.ofNat 8 p.length] buffer
      return (some (encSize + BitVec.ofNat 32 (p.length + 1)), { e with opusBuffer := buffer })

/-- The loop of `encode`; the first argument bounds the number of iterations.  The values are what
    `encode` returns, null or `_opus_buffer`, and `enc_size`. -/
def encodeLoop (opus : Opus σ) :
    Nat → List (BitVec 16) → BitVec 32 → RKOpusEncoder σ →
      Option ((Sp Bytes × BitVec 32) × RKOpusEncoder σ)
  | 0, _, _, _ => none
  | n + 1, pcm, encSize, e =>
      if e.pcmFrameSize ≤ pcm.length then
        match e.opusEncoder with
        | none => none
        | some st =>
            match encodeFrame opus st (pcm.take e.pcmFrameSize) encSize e with
            | none => none
            | some (none, e') => some ((none, encSize), e')
            | some (some encSize', e') =>
                encodeLoop opus n (pcm.drop e.pcmFrameSize) encSize' e'
      else if pcm ≠ [] then do
        let aPcmFrame ← Memory.store 0 pcm e.aPcmFrame
        return ((some e.opusBuffer, encSize),
          { e with aPcmFrame := aPcmFrame, pcmFrameUsedBytes := pcm.length })
      else some ((some e.opusBuffer, encSize), e)

/-- `encode`: what it returns, null or `_opus_buffer`, and `enc_size`. -/
def encode (opus : Opus σ) (pcm : Sp (List (BitVec 16))) (e : RKOpusEncoder σ) :
    Option ((Sp Bytes × BitVec 32) × RKOpusEncoder σ) :=
  match e.opusEncoder, pcm with
  | none, _ => some ((none, 0), e)
  | some _, none => some ((none, 0), e)
  | some st, some pcm =>
      if pcm = [] then some ((none, 0), e)
      else if e.pcmFrameUsedBytes ≠ 0 then
        let need := e.pcmFrameSize - e.pcmFrameUsedBytes
        if pcm.length < need then do
          let aPcmFrame ← Memory.store e.pcmFrameUsedBytes pcm e.aPcmFrame
          return ((none, 0),
            { e with
              aPcmFrame := aPcmFrame
              pcmFrameUsedBytes := e.pcmFrameUsedBytes + pcm.length })
        else
          match Memory.store e.pcmFrameUsedBytes (pcm.take need) e.aPcmFrame with
          | none => none
          | some aPcmFrame =>
              match encodeFrame opus st aPcmFrame 0 { e with aPcmFrame := aPcmFrame } with
              | none => none
              | some (none, e') => some ((none, 0), e')
              | some (some encSize, e') =>
                  encodeLoop opus (pcm.length + 1) (pcm.drop need) encSize
                    { e' with pcmFrameUsedBytes := 0 }
      else encodeLoop opus (pcm.length + 1) pcm 0 e

/-! ### The state between two calls -/

/-- The samples of the frame that is not complete. -/
def carried (e : RKOpusEncoder σ) : List (BitVec 16) := e.aPcmFrame.take e.pcmFrameUsedBytes

/-- An encoder that has been initialized, with frames of at least one sample. -/
structure Ready (e : RKOpusEncoder σ) (st : σ) : Prop where
  encoder : e.opusEncoder = some st
  frame_pos : 0 < e.pcmFrameSize
  frame : e.aPcmFrame.length = e.pcmFrameSize
  used : e.pcmFrameUsedBytes < e.pcmFrameSize
  buffer : e.opusBuffer.length = opusBufferSize.toNat

theorem Ready.length_carried {e : RKOpusEncoder σ} {st : σ} (h : e.Ready st) :
    e.carried.length = e.pcmFrameUsedBytes := by
  rw [carried, List.length_take, h.frame]
  exact Nat.min_eq_left (Nat.le_of_lt h.used)

/-- `init(16000, 27800, 20)` makes frames of 320 samples, and whatever its arguments are the
    encoder is ready if a frame is not empty. -/
theorem init_ready {opus : Opus σ} {sampleRate bitrate duration : BitVec 32} {st : σ}
    {e : RKOpusEncoder σ} (hnone : e.opusEncoder = none)
    (hcreate : opus.create sampleRate bitrate = some st)
    (hpos : 0 < (sampleRate * duration / 1000).toNat) :
    (e.init opus sampleRate bitrate duration).2.Ready st ∧
      (e.init opus sampleRate bitrate duration).2.pcmFrameSize =
        (sampleRate * duration / 1000).toNat ∧
      (e.init opus sampleRate bitrate duration).2.carried = [] := by
  have heq : (e.init opus sampleRate bitrate duration).2 = { e with
      pcmFrameSize := (sampleRate * duration / 1000).toNat
      opusEncoder := some st
      opusBuffer := List.replicate opusBufferSize.toNat 0
      aPcmFrame := List.replicate (sampleRate * duration / 1000).toNat 0
      pcmFrameUsedBytes := 0 } := by
    unfold init
    rw [hnone]
    simp only [hcreate]
  rw [heq]
  refine ⟨⟨rfl, hpos, ?_, hpos, ?_⟩, rfl, rfl⟩
  · rw [List.length_replicate]
  · rw [List.length_replicate]

example : ((16000 : BitVec 32) * 20 / 1000).toNat = 320 := by decide

end RKOpusEncoder

end OpenVoice
