import OpenVoice.Lib.Protobuf
import OpenVoice.Types

/-!
# The messages of the protocol (`auth.proto`, `tts.proto`, `speech.proto`, `speech_types.proto`)

The requests, as the descriptors have them.  An enumeration is the 32 bits of its number, and
so is a `float`.
-/

namespace OpenVoice.Proto

open Lib Lib.Protobuf

structure AuthRequest where
  key : Bytes
  deviceTypeId : Bytes
  deviceId : Bytes
  service : Bytes
  version : Bytes
  timestamp : Bytes
  sign : Bytes
deriving DecidableEq, Repr

structure TtsRequest where
  id : BitVec 32
  text : Bytes
  declaimer : Option Bytes
  codec : Option Bytes
  sampleRate : Option (BitVec 32)
deriving DecidableEq, Repr

structure SpeechOptions where
  lang : BitVec 32
  codec : BitVec 32
  vadMode : BitVec 32
  vendTimeout : Option (BitVec 32)
  noNlp : Bool
  noIntermediateAsr : Bool
  stack : Option Bytes
  voiceTrigger : Option Bytes
  voicePower : Option (BitVec 32)
  triggerStart : Option (BitVec 32)
  triggerLength : Option (BitVec 32)
  skillOptions : Option Bytes
  voiceExtra : Option Bytes
  vadBegin : Option (BitVec 32)
  noTriggerConfirm : Option Bool
deriving DecidableEq, Repr

structure SpeechRequest where
  id : BitVec 32
  type : BitVec 32
  voice : Option Bytes
  asr : Option Bytes
  options : Option SpeechOptions
deriving DecidableEq, Repr

structure PingPayload where
  reqId : BitVec 32
  nowTp : BitVec 64
  reqTp : BitVec 64
  respTp : BitVec 64
deriving DecidableEq, Repr

namespace AuthRequest

def fields (m : AuthRequest) : List (Nat × Option Payload) :=
  [ (1, some (.len m.key)),
    (2, some (.len m.deviceTypeId)),
    (3, some (.len m.deviceId)),
    (4, some (.len m.service)),
    (5, some (.len m.version)),
    (6, some (.len m.timestamp)),
    (7, some (.len m.sign)) ]

def encode (m : AuthRequest) : Bytes := Protobuf.encode (records m.fields)

def decode (l : Bytes) : Option AuthRequest := do
  let rs ← Protobuf.decode l
  return {
    key := ← requiredField Payload.bytes 1 rs
    deviceTypeId := ← requiredField Payload.bytes 2 rs
    deviceId := ← requiredField Payload.bytes 3 rs
    service := ← requiredField Payload.bytes 4 rs
    version := ← requiredField Payload.bytes 5 rs
    timestamp := ← requiredField Payload.bytes 6 rs
    sign := ← requiredField Payload.bytes 7 rs }

theorem nodup_fields (m : AuthRequest) : (m.fields.map Prod.fst).Nodup := by
  simp [fields]

theorem decode_encode (m : AuthRequest) : decode m.encode = some m := by
  have hn := m.nodup_fields
  rw [decode, encode, decode_encode_records (by simp [fields])]
  simp only [Option.bind_eq_bind, Option.bind_some, requiredField_records hn 0 rfl,
    requiredField_records hn 1 rfl, requiredField_records hn 2 rfl, requiredField_records hn 3 rfl,
    requiredField_records hn 4 rfl, requiredField_records hn 5 rfl, requiredField_records hn 6 rfl,
    Payload.bytes_len]
  rfl

end AuthRequest

namespace TtsRequest

def fields (m : TtsRequest) : List (Nat × Option Payload) :=
  [ (1, some (.ofInt32 m.id)),
    (2, some (.len m.text)),
    (3, m.declaimer.map .len),
    (4, m.codec.map .len),
    (5, m.sampleRate.map .ofUInt32) ]

def encode (m : TtsRequest) : Bytes := Protobuf.encode (records m.fields)

def decode (l : Bytes) : Option TtsRequest := do
  let rs ← Protobuf.decode l
  return {
    id := ← requiredField Payload.int32 1 rs
    text := ← requiredField Payload.bytes 2 rs
    declaimer := ← optionalField Payload.bytes 3 rs
    codec := ← optionalField Payload.bytes 4 rs
    sampleRate := ← optionalField Payload.int32 5 rs }

theorem nodup_fields (m : TtsRequest) : (m.fields.map Prod.fst).Nodup := by
  simp [fields]

theorem decode_encode (m : TtsRequest) : decode m.encode = some m := by
  have hn := m.nodup_fields
  rw [decode, encode, decode_encode_records (by simp [fields])]
  simp only [Option.bind_eq_bind, Option.bind_some, requiredField_records hn 0 rfl,
    requiredField_records hn 1 rfl, optionalField_records hn 2 rfl Payload.bytes_len,
    optionalField_records hn 3 rfl Payload.bytes_len,
    optionalField_records hn 4 rfl fun _ => Payload.int32_ofUInt32, Payload.int32_ofInt32,
    Payload.bytes_len]
  rfl

end TtsRequest

namespace SpeechOptions

def fields (m : SpeechOptions) : List (Nat × Option Payload) :=
  [ (1, some (.ofUInt32 m.lang)),
    (2, some (.ofUInt32 m.codec)),
    (3, some (.ofUInt32 m.vadMode)),
    (4, m.vendTimeout.map .ofUInt32),
    (5, some (.ofBool m.noNlp)),
    (6, some (.ofBool m.noIntermediateAsr)),
    (7, m.stack.map .len),
    (8, m.voiceTrigger.map .len),
    (9, m.voicePower.map .ofFloat),
    (10, m.triggerStart.map .ofUInt32),
    (11, m.triggerLength.map .ofUInt32),
    (12, m.skillOptions.map .len),
    (13, m.voiceExtra.map .len),
    (14, m.vadBegin.map .ofUInt32),
    (15, m.noTriggerConfirm.map .ofBool) ]

def encode (m : SpeechOptions) : Bytes := Protobuf.encode (records m.fields)

def decode (l : Bytes) : Option SpeechOptions := do
  let rs ← Protobuf.decode l
  return {
    lang := ← requiredField Payload.int32 1 rs
    codec := ← requiredField Payload.int32 2 rs
    vadMode := ← requiredField Payload.int32 3 rs
    vendTimeout := ← optionalField Payload.int32 4 rs
    noNlp := ← requiredField Payload.bool 5 rs
    noIntermediateAsr := ← requiredField Payload.bool 6 rs
    stack := ← optionalField Payload.bytes 7 rs
    voiceTrigger := ← optionalField Payload.bytes 8 rs
    voicePower := ← optionalField Payload.float 9 rs
    triggerStart := ← optionalField Payload.int32 10 rs
    triggerLength := ← optionalField Payload.int32 11 rs
    skillOptions := ← optionalField Payload.bytes 12 rs
    voiceExtra := ← optionalField Payload.bytes 13 rs
    vadBegin := ← optionalField Payload.int32 14 rs
    noTriggerConfirm := ← optionalField Payload.bool 15 rs }

theorem nodup_fields (m : SpeechOptions) : (m.fields.map Prod.fst).Nodup := by
  simp [fields]

theorem decode_encode (m : SpeechOptions) : decode m.encode = some m := by
  have hn := m.nodup_fields
  have huint : ∀ w, Payload.int32 (.ofUInt32 w) = some w := fun _ => Payload.int32_ofUInt32
  have hbool : ∀ b, Payload.bool (.ofBool b) = some b := fun _ => Payload.bool_ofBool _
  have hbytes : ∀ l, Payload.bytes (.len l) = some l := fun _ => Payload.bytes_len _
  have hfloat : ∀ w, Payload.float (.ofFloat w) = some w := fun _ => Payload.float_ofFloat
  have hfits : ∀ f ∈ m.fields, 0 < f.1 ∧ ∀ q ∈ f.2, Payload.Fits q := by
    simp [fields, -Bool.exists_bool, -Bool.forall_bool]
  refine Option.bind_eq_some_iff.mpr ⟨_, decode_encode_records hfits, ?_⟩
  refine Option.bind_eq_some_iff.mpr ⟨_, (requiredField_records hn 0 rfl).trans (huint _), ?_⟩
  refine Option.bind_eq_some_iff.mpr ⟨_, (requiredField_records hn 1 rfl).trans (huint _), ?_⟩
  refine Option.bind_eq_some_iff.mpr ⟨_, (requiredField_records hn 2 rfl).trans (huint _), ?_⟩
  refine Option.bind_eq_some_iff.mpr ⟨_, optionalField_records hn 3 rfl huint, ?_⟩
  refine Option.bind_eq_some_iff.mpr ⟨_, (requiredField_records hn 4 rfl).trans (hbool _), ?_⟩
  refine Option.bind_eq_some_iff.mpr ⟨_, (requiredField_records hn 5 rfl).trans (hbool _), ?_⟩
  refine Option.bind_eq_some_iff.mpr ⟨_, optionalField_records hn 6 rfl hbytes, ?_⟩
  refine Option.bind_eq_some_iff.mpr ⟨_, optionalField_records hn 7 rfl hbytes, ?_⟩
  refine Option.bind_eq_some_iff.mpr ⟨_, optionalField_records hn 8 rfl hfloat, ?_⟩
  refine Option.bind_eq_some_iff.mpr ⟨_, optionalField_records hn 9 rfl huint, ?_⟩
  refine Option.bind_eq_some_iff.mpr ⟨_, optionalField_records hn 10 rfl huint, ?_⟩
  refine Option.bind_eq_some_iff.mpr ⟨_, optionalField_records hn 11 rfl hbytes, ?_⟩
  refine Option.bind_eq_some_iff.mpr ⟨_, optionalField_records hn 12 rfl hbytes, ?_⟩
  refine Option.bind_eq_some_iff.mpr ⟨_, optionalField_records hn 13 rfl huint, ?_⟩
  refine Option.bind_eq_some_iff.mpr ⟨_, optionalField_records hn 14 rfl hbool, ?_⟩
  rfl

/-- As a field of another message. -/
def read (p : Payload) : Option SpeechOptions := p.bytes.bind decode

theorem read_len_encode (m : SpeechOptions) : read (.len m.encode) = some m := decode_encode m

end SpeechOptions

namespace SpeechRequest

def fields (m : SpeechRequest) : List (Nat × Option Payload) :=
  [ (1, some (.ofInt32 m.id)),
    (2, some (.ofUInt32 m.type)),
    (3, m.voice.map .len),
    (4, m.asr.map .len),
    (5, m.options.map fun o => .len o.encode) ]

def encode (m : SpeechRequest) : Bytes := Protobuf.encode (records m.fields)

def decode (l : Bytes) : Option SpeechRequest := do
  let rs ← Protobuf.decode l
  return {
    id := ← requiredField Payload.int32 1 rs
    type := ← requiredField Payload.int32 2 rs
    voice := ← optionalField Payload.bytes 3 rs
    asr := ← optionalField Payload.bytes 4 rs
    options := ← optionalField SpeechOptions.read 5 rs }

theorem nodup_fields (m : SpeechRequest) : (m.fields.map Prod.fst).Nodup := by
  simp [fields]

theorem decode_encode (m : SpeechRequest) : decode m.encode = some m := by
  have hn := m.nodup_fields
  rw [decode, encode, decode_encode_records (by simp [fields])]
  simp only [Option.bind_eq_bind, Option.bind_some, requiredField_records hn 0 rfl,
    requiredField_records hn 1 rfl, optionalField_records hn 2 rfl Payload.bytes_len,
    optionalField_records hn 3 rfl Payload.bytes_len,
    optionalField_records hn 4 rfl SpeechOptions.read_len_encode,
    Payload.int32_ofInt32, Payload.int32_ofUInt32]
  rfl

end SpeechRequest

namespace PingPayload

def fields (m : PingPayload) : List (Nat × Option Payload) :=
  [ (1, some (.ofInt32 m.reqId)),
    (2, some (.ofUInt64 m.nowTp)),
    (3, some (.ofUInt64 m.reqTp)),
    (4, some (.ofUInt64 m.respTp)) ]

def encode (m : PingPayload) : Bytes := Protobuf.encode (records m.fields)

def decode (l : Bytes) : Option PingPayload := do
  let rs ← Protobuf.decode l
  return {
    reqId := ← requiredField Payload.int32 1 rs
    nowTp := ← requiredField Payload.uint64 2 rs
    reqTp := ← requiredField Payload.uint64 3 rs
    respTp := ← requiredField Payload.uint64 4 rs }

theorem nodup_fields (m : PingPayload) : (m.fields.map Prod.fst).Nodup := by
  simp [fields]

theorem decode_encode (m : PingPayload) : decode m.encode = some m := by
  have hn := m.nodup_fields
  rw [decode, encode, decode_encode_records (by simp [fields])]
  simp only [Option.bind_eq_bind, Option.bind_some, requiredField_records hn 0 rfl,
    requiredField_records hn 1 rfl, requiredField_records hn 2 rfl, requiredField_records hn 3 rfl,
    Payload.int32_ofInt32, Payload.uint64_ofUInt64]
  rfl

end PingPayload

end OpenVoice.Proto
