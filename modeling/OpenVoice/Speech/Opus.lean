import OpenVoice.Codec.Frames
import OpenVoice.Lib.LittleEndian
import OpenVoice.Speech.Model

/-!
# `SpeechImpl` with `HAS_OPUS_CODEC` (`speech_impl.cc`)

In this build `SpeechImpl` has one more member, `opus_encoder_`.  When the codec is PCM,
`put_voice` encodes its argument before it locks `req_mutex_`, and `req_config` declares the data
as OPU.

`put_voice` is two steps here: the call of `encode`, and the loop under `req_mutex_`, which reads
the data through the pointer `encode` returned.
-/

namespace OpenVoice

open OpenVoice.Lib
open OpenVoice.Lib.LittleEndian (words)

/-- `SpeechImpl` with an encoder.  The members below `crashed` record what happened since
    `prepare`; no function reads them. -/
structure OpusSpeech (σ : Type) where
  impl : SpeechImpl := {}
  opusEncoder : RKOpusEncoder σ := {}
  /-- what `encode` returned to a client that has not locked `req_mutex_` yet: whether there is
      data, and `enc_size` -/
  encoded : Nat → Option (Bool × BitVec 32) := fun _ => none
  /-- memory was accessed that is not there -/
  crashed : Bool := false
  /-- the bytes put for each id -/
  put : Int → Bytes := fun _ => []
  /-- the frames `opus_encode` was called with for each id -/
  passed : Int → List (List (BitVec 16)) := fun _ => []
  /-- the data the loop of `put_voice` was entered with for each id -/
  queued : Int → Bytes := fun _ => []
  /-- the id of the last call of `encode` -/
  last : Int := 0

namespace OpusSpeech

variable {σ : Type}

/-- `req_config`: the codec it declares. -/
def declaredCodec (options : SpeechOptionsHolder) : Codec :=
  if options.codec = .pcm then .opu else options.codec

def prepare (opus : Opus σ) (s : OpusSpeech σ) : OpusSpeech σ :=
  if s.impl.initialized then s
  else
    { s with
      impl := s.impl.prepare
      opusEncoder := (s.opusEncoder.init opus 16000 27800 20).2
      put := fun _ => []
      passed := fun _ => []
      queued := fun _ => []
      last := 0 }

/-- `release`; the encoder is closed at its end. -/
def release (s : OpusSpeech σ) : Option (OpusSpeech σ) :=
  match s.impl.release with
  | none => none
  | some impl =>
      some { s with
        impl := impl
        opusEncoder :=
          if s.impl.releasing = .joinResp then s.opusEncoder.close else s.opusEncoder }

def config (opus : Opus σ) (mod : Sp SpeechOptionsModifier) (s : OpusSpeech σ) : OpusSpeech σ :=
  match mod with
  | none => s
  | some mod =>
      let impl := s.impl.config (some mod)
      { s with
        impl := impl
        opusEncoder :=
          if impl.options.codec = .pcm then (s.opusEncoder.init opus 16000 27800 20).2
          else s.opusEncoder.close }

/-- `put_voice` up to the lock, when the codec is PCM and the arguments have been checked. -/
def encodeVoice (opus : Opus σ) (t : Nat) (id : Int) (voice : Bytes) (s : OpusSpeech σ) :
    OpusSpeech σ :=
  match s.opusEncoder.encode opus (some (words voice)) with
  | none => { s with crashed := true }
  | some ((opu, encSize), e) =>
      let s' := { s with
        opusEncoder := e
        put := Function.update s.put id (s.put id ++ voice)
        passed := Function.update s.passed id
          (s.passed id ++ e.passed.drop s.opusEncoder.passed.length)
        last := id }
      if encSize = 0 then s'
      else
        { s' with
          impl := s.impl.setClient t (.putVoice id voice)
          encoded := Function.update s.encoded t (some (opu.isSome, encSize)) }

/-- The locked part of `put_voice`: the data is what stands in `_opus_buffer`.  Reading at a null
    pointer, or behind the buffer, ends the process. -/
def putEncoded (t : Nat) (isData : Bool) (encSize : BitVec 32) (s : OpusSpeech σ) :
    Option (OpusSpeech σ) :=
  match s.impl.clients t with
  | .putVoice id _ =>
      if s.impl.reqFree then
        if isData ∧ encSize.toNat ≤ s.opusEncoder.opusBuffer.length then
          let data := s.opusEncoder.opusBuffer.take encSize.toNat
          match (s.impl.setClient t (.putVoice id data)).client t with
          | none => none
          | some impl =>
              some { s with
                impl := impl
                encoded := Function.update s.encoded t none
                queued := Function.update s.queued id (s.queued id ++ data) }
        else some { s with crashed := true }
      else none
  | _ => none

def call (opus : Opus σ) (t : Nat) (c : SpeechCall) (s : OpusSpeech σ) : Option (OpusSpeech σ) :=
  match c with
  | .putVoice id (some voice) =>
      if s.impl.clients t = .idle ∧ s.impl.initialized ∧ 0 < id ∧ voice ≠ [] ∧
          s.impl.options.codec = .pcm then
        some (s.encodeVoice opus t id voice)
      else (s.impl.call t c).map fun impl => { s with impl := impl }
  | _ => (s.impl.call t c).map fun impl => { s with impl := impl }

def client (t : Nat) (s : OpusSpeech σ) : Option (OpusSpeech σ) :=
  match s.encoded t with
  | none => (s.impl.client t).map fun impl => { s with impl := impl }
  | some (isData, encSize) => s.putEncoded t isData encSize

/-- One step; what is not mentioned is as without the codec. -/
def step (opus : Opus σ) (s : OpusSpeech σ) (a : SpeechAct) : Option (OpusSpeech σ) :=
  if s.impl.aborted ∨ s.impl.crashed ∨ s.crashed then none
  else
    match a with
    | .prepare =>
        if s.impl.releasing = .idle ∧ s.impl.reqFree then some (s.prepare opus) else none
    | .release => s.release
    | .call t c => s.call opus t c
    | .client t => s.client t
    | .config mod => some (s.config opus mod)
    | a => (s.impl.step a).map fun impl => { s with impl := impl }

end OpusSpeech

end OpenVoice
