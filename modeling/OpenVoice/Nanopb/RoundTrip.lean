import Mathlib.Data.List.Induction
import OpenVoice.Nanopb.Messages
import OpenVoice.Nanopb.Requests

/-!
# What was set is what is sent

After any calls of its setters a request holds the last value of every field, and its encoding
is the one of the message of these values.
-/

namespace OpenVoice.Nanopb

open Lib Lib.Protobuf

/-- The value of the last call that sets it. -/
def lastSet {κ β : Type} (f : κ → Option β) (calls : List κ) : Option β :=
  calls.reverse.findSome? f

theorem lastSet_concat {κ β : Type} (f : κ → Option β) (calls : List κ) (c : κ) :
    lastSet f (calls ++ [c]) = (f c).or (lastSet f calls) := by
  rw [lastSet, List.reverse_concat, List.findSome?_cons]
  cases f c <;> rfl

/-- A callback that leads to the value, at an address of its own if anywhere. -/
structure Points {α : Type} (own : α → Prop) (strings : α → Bytes) (arg : Option α)
    (last : Option Bytes) : Prop where
  map : arg.map strings = last
  own : ∀ a ∈ arg, own a

/-- A member with a `has_` member. -/
def Flagged {β : Type} (has : Bool) (value : β) (last : Option β) : Prop :=
  (if has then some value else none) = last

section held

variable {α σ : Type} {own : α → Prop} {strings : α → Bytes} {src : σ} {last : Option Bytes}

theorem Points.assigned [DecidableEq α] (own : α → Prop) (a : α) (ha : own a) (str : Bytes) :
    Points own (Function.update strings a str) (some a) (some str) where
  map := by rw [Option.map_some, Function.update_self]
  own b hb := Option.some_inj.mp hb ▸ ha

/-- Another string is assigned to. -/
theorem Points.other [DecidableEq α] {arg : Option α} (h : Points own strings arg last) (b : α)
    (hb : ¬ own b) (str : Bytes) : Points own (Function.update strings b str) arg last where
  map := by
    rw [← h.map]
    cases harg : arg with
    | none => rfl
    | some a =>
        have hne : a ≠ b := fun hab => hb (hab ▸ h.own a harg)
        rw [Option.map_some, Option.map_some, Function.update_of_ne hne]
  own := h.own

theorem Points.writes {arg : σ → Option α} (h : Points own strings (arg src) last) (tag : Nat) :
    (PbField.callback tag arg).Writes strings src (tag, last.map .len) := by
  rw [← h.map, Option.map_map]
  exact PbField.writes_callback arg

theorem Flagged.writes {β : Type} {has : σ → Bool} {data : σ → β} {last : Option β}
    (h : Flagged (has src) (data src) last) {member : Member α σ} {write : β → Payload}
    (hm : member.Writes strings src (write (data src))) (tag : Nat) :
    (PbField.optional tag has member).Writes strings src (tag, last.map write) := by
  rw [← h, apply_ite (Option.map write)]
  exact PbField.writes_optional has hm

end held

/-- `SerializeToString` sends the message or leaves the string alone. -/
structure Serializes {μ : Type} (serialize : Bytes → Bool × Bytes) (encode : μ → Bytes)
    (decode : Bytes → Option μ) (m : μ) : Prop where
  succeeds_iff : ∀ str, (serialize str).1 = true ↔ (encode m).length ≤ 1048576
  decode_eq : ∀ str, (serialize str).1 = true → decode (serialize str).2 = some m
  unchanged : ∀ str, (serialize str).1 = false → (serialize str).2 = str

theorem serializes_of_pbEncode {α σ μ : Type} {fields : List (PbField α σ)}
    {e : NanoPBEncoder α σ} {encode : μ → Bytes} {decode : Bytes → Option μ} {m : μ}
    (h : pbEncode e.strings e.nanopbStruct fields = pbWrite (encode m))
    (hdecode : decode (encode m) = some m) :
    Serializes (e.serializeToString fields) encode decode m := by
  have heq := fun str => NanoPBEncoder.serializeToString_eq h str
  by_cases hw : (encode m).length ≤ encodeBufferSize
  · have hserialize : ∀ str, e.serializeToString fields str = (true, encode m) := fun str => by
      rw [heq str, if_pos hw]
    refine ⟨fun str => ?_, fun str _ => ?_, fun str hfalse => ?_⟩
    · rw [hserialize]
      exact ⟨fun _ => hw, fun _ => rfl⟩
    · rw [hserialize]
      exact hdecode
    · rw [hserialize] at hfalse
      cases hfalse
  · have hserialize : ∀ str, e.serializeToString fields str = (false, str) := fun str => by
      rw [heq str, if_neg hw]
    refine ⟨fun str => ?_, fun str htrue => ?_, fun str _ => ?_⟩
    · rw [hserialize]
      exact ⟨nofun, fun hle => absurd hle hw⟩
    · rw [hserialize] at htrue
      cases htrue
    · rw [hserialize]

/-! ### `AuthRequest` -/

namespace AuthRequest

/-- The member a setter is for. -/
def Call.str : Call → Str
  | .setKey _ => .key
  | .setDeviceTypeId _ => .deviceTypeId
  | .setDeviceId _ => .deviceId
  | .setService _ => .service
  | .setVersion _ => .version
  | .setTimestamp _ => .timestamp
  | .setSign _ => .sign

def Call.value : Call → Bytes
  | .setKey str | .setDeviceTypeId str | .setDeviceId str | .setService str | .setVersion str
  | .setTimestamp str | .setSign str => str

/-- The last value, none if there is none. -/
def values (calls : List Call) (a : Str) : Option Bytes :=
  lastSet (fun c => if c.str = a then some c.value else none) calls

/-- The message of the last values, if every field has been set. -/
def message (calls : List Call) : Option Proto.AuthRequest := do
  let v := values calls
  return {
    key := ← v .key
    deviceTypeId := ← v .deviceTypeId
    deviceId := ← v .deviceId
    service := ← v .service
    version := ← v .version
    timestamp := ← v .timestamp
    sign := ← v .sign }

def Struct.arg (s : Struct) : Str → Option Str
  | .key => s.key
  | .deviceTypeId => s.deviceTypeId
  | .deviceId => s.deviceId
  | .service => s.service
  | .version => s.version
  | .timestamp => s.timestamp
  | .sign => s.sign

def Holds (r : AuthRequest) (v : Str → Option Bytes) : Prop :=
  ∀ a, Points (· = a) r.strings (r.nanopbStruct.arg a) (v a)

theorem strings_call (r : AuthRequest) (c : Call) :
    (r.call c).strings = Function.update r.strings c.str c.value := by
  cases c <;> rfl

theorem arg_call (r : AuthRequest) (c : Call) (a : Str) :
    (r.call c).nanopbStruct.arg a = if c.str = a then some a else r.nanopbStruct.arg a := by
  cases c <;> cases a <;> rfl

theorem holds_call {r : AuthRequest} {calls : List Call} (h : Holds r (values calls)) (c : Call) :
    Holds (r.call c) (values (calls ++ [c])) := by
  intro a
  rw [strings_call, arg_call, values, lastSet_concat]
  by_cases ha : c.str = a
  · subst ha
    rw [if_pos rfl, if_pos rfl, Option.some_or]
    exact .assigned (· = c.str) c.str rfl c.value
  · rw [if_neg ha, if_neg ha, Option.none_or]
    exact (h a).other c.str ha c.value

theorem holds_calls (calls : List Call) : Holds (calls.foldl call new) (values calls) := by
  induction calls using List.reverseRecOn with
  | nil => exact fun a => by cases a <;> exact ⟨rfl, nofun⟩
  | append_singleton calls c ih =>
      rw [List.foldl_concat]
      exact holds_call ih c

theorem pbEncode_eq {r : AuthRequest} {calls : List Call} (h : Holds r (values calls))
    {m : Proto.AuthRequest} (hm : message calls = some m) :
    pbEncode r.strings r.nanopbStruct fields = pbWrite m.encode := by
  have hfields : m.fields = [(1, (values calls .key).map .len),
      (2, (values calls .deviceTypeId).map .len), (3, (values calls .deviceId).map .len),
      (4, (values calls .service).map .len), (5, (values calls .version).map .len),
      (6, (values calls .timestamp).map .len), (7, (values calls .sign).map .len)] := by
    simp only [message, Option.bind_eq_bind, Option.bind_eq_some_iff] at hm
    obtain ⟨_, hkey, _, hdeviceTypeId, _, hdeviceId, _, hservice, _, hversion, _, htimestamp, _,
      hsign, hm⟩ := hm
    cases hm
    rw [hkey, hdeviceTypeId, hdeviceId, hservice, hversion, htimestamp, hsign]
    rfl
  rw [Proto.AuthRequest.encode, hfields]
  exact Nanopb.pbEncode_eq (.cons ((h .key).writes 1) <| .cons ((h .deviceTypeId).writes 2) <|
    .cons ((h .deviceId).writes 3) <| .cons ((h .service).writes 4) <|
    .cons ((h .version).writes 5) <| .cons ((h .timestamp).writes 6) <|
    .cons ((h .sign).writes 7) .nil)

end AuthRequest

/-! ### `TtsRequest` -/

namespace TtsRequest

structure Values where
  id : Option (BitVec 32)
  text : Option Bytes
  declaimer : Option Bytes
  codec : Option Bytes
  sampleRate : Option (BitVec 32)

def values (calls : List Call) : Values where
  id := lastSet (fun | .setId i => some i | _ => none) calls
  text := lastSet (fun | .setText str => some str | _ => none) calls
  declaimer := lastSet (fun | .setDeclaimer str => some str | _ => none) calls
  codec := lastSet (fun | .setCodec str => some str | _ => none) calls
  sampleRate := lastSet (fun | .setSampleRate i => some i | _ => none) calls

/-- The message, if the text has been set. -/
def Values.message (v : Values) : Option Proto.TtsRequest := do
  return {
    id := v.id.getD 0
    text := ← v.text
    declaimer := v.declaimer
    codec := v.codec
    sampleRate := v.sampleRate }

structure Holds (r : TtsRequest) (v : Values) : Prop where
  id : r.nanopbStruct.id = v.id.getD 0
  text : Points (· = .text) r.strings r.nanopbStruct.text v.text
  declaimer : Points (· = .declaimer) r.strings r.nanopbStruct.declaimer v.declaimer
  codec : Points (· = .codec) r.strings r.nanopbStruct.codec v.codec
  sampleRate : Flagged r.nanopbStruct.hasSampleRate r.nanopbStruct.sampleRate v.sampleRate

theorem holds_new : Holds new (values []) where
  id := rfl
  text := ⟨rfl, nofun⟩
  declaimer := ⟨rfl, nofun⟩
  codec := ⟨rfl, nofun⟩
  sampleRate := rfl

/-- The values after one more call. -/
def Values.set (v : Values) : Call → Values
  | .setId i => { v with id := some i }
  | .setText str => { v with text := some str }
  | .setDeclaimer str => { v with declaimer := some str }
  | .setCodec str => { v with codec := some str }
  | .setSampleRate i => { v with sampleRate := some i }

theorem values_concat (calls : List Call) (c : Call) :
    values (calls ++ [c]) = (values calls).set c := by
  simp only [values, lastSet_concat]
  cases c <;> rfl

theorem holds_call {r : TtsRequest} {v : Values} (h : Holds r v) (c : Call) :
    Holds (r.call c) (v.set c) := by
  cases c with
  | setId i => exact { h with id := rfl }
  | setText str =>
      exact { h with
        text := .assigned (· = .text) Str.text rfl str
        declaimer := h.declaimer.other .text nofun str
        codec := h.codec.other .text nofun str }
  | setDeclaimer str =>
      exact { h with
        text := h.text.other .declaimer nofun str
        declaimer := .assigned (· = .declaimer) Str.declaimer rfl str
        codec := h.codec.other .declaimer nofun str }
  | setCodec str =>
      exact { h with
        text := h.text.other .codec nofun str
        declaimer := h.declaimer.other .codec nofun str
        codec := .assigned (· = .codec) Str.codec rfl str }
  | setSampleRate i => exact { h with sampleRate := rfl }

theorem holds_calls (calls : List Call) : Holds (calls.foldl call new) (values calls) := by
  induction calls using List.reverseRecOn with
  | nil => exact holds_new
  | append_singleton calls c ih =>
      rw [List.foldl_concat, values_concat]
      exact holds_call ih c

theorem pbEncode_eq {r : TtsRequest} {v : Values} (h : Holds r v) {m : Proto.TtsRequest}
    (hm : v.message = some m) : pbEncode r.strings r.nanopbStruct fields = pbWrite m.encode := by
  have hfields : m.fields = [(1, some (.ofInt32 r.nanopbStruct.id)), (2, v.text.map .len),
      (3, v.declaimer.map .len), (4, v.codec.map .len), (5, v.sampleRate.map .ofUInt32)] := by
    simp only [Values.message, Option.bind_eq_bind, Option.bind_eq_some_iff] at hm
    obtain ⟨_, htext, hm⟩ := hm
    cases hm
    rw [h.id, htext]
    rfl
  rw [Proto.TtsRequest.encode, hfields]
  exact Nanopb.pbEncode_eq (.cons (PbField.writes_required (Member.writes_int32 _)) <|
    .cons (h.text.writes 2) <| .cons (h.declaimer.writes 3) <| .cons (h.codec.writes 4) <|
    .cons (h.sampleRate.writes (Member.writes_uint32 _) 5) .nil)

end TtsRequest

/-! ### `SpeechOptionsEnc` and `SpeechRequest` -/

namespace SpeechOptionsEnc

structure Values where
  lang : Option (BitVec 32)
  codec : Option (BitVec 32)
  vadMode : Option (BitVec 32)
  vendTimeout : Option (BitVec 32)
  noNlp : Option Bool
  noIntermediateAsr : Option Bool
  stack : Option Bytes
  voiceTrigger : Option Bytes
  voicePower : Option (BitVec 32)
  triggerStart : Option (BitVec 32)
  triggerLength : Option (BitVec 32)
  skillOptions : Option Bytes
  voiceExtra : Option Bytes
  vadBegin : Option (BitVec 32)
  noTriggerConfirm : Option Bool

def values (calls : List Call) : Values where
  lang := lastSet (fun | .setLang i => some i | _ => none) calls
  codec := lastSet (fun | .setCodec i => some i | _ => none) calls
  vadMode := lastSet (fun | .setVadMode i => some i | _ => none) calls
  vendTimeout := lastSet (fun | .setVendTimeout i => some i | _ => none) calls
  noNlp := lastSet (fun | .setNoNlp b => some b | _ => none) calls
  noIntermediateAsr := lastSet (fun | .setNoIntermediateAsr b => some b | _ => none) calls
  stack := lastSet (fun | .setStack str => some str | _ => none) calls
  voiceTrigger := lastSet (fun | .setVoiceTrigger str => some str | _ => none) calls
  voicePower := lastSet (fun | .setVoicePower f => some f | _ => none) calls
  triggerStart := lastSet (fun | .setTriggerStart i => some i | _ => none) calls
  triggerLength := lastSet (fun | .setTriggerLength i => some i | _ => none) calls
  skillOptions := lastSet (fun | .setSkillOptions str => some str | _ => none) calls
  voiceExtra := lastSet (fun | .setVoiceExtra str => some str | _ => none) calls
  vadBegin := lastSet (fun | .setVadBegin i => some i | _ => none) calls
  noTriggerConfirm := lastSet (fun | .setNoTriggerConfirm b => some b | _ => none) calls

def Values.message (v : Values) : Proto.SpeechOptions where
  lang := v.lang.getD 0
  codec := v.codec.getD 0
  vadMode := v.vadMode.getD 0
  vendTimeout := v.vendTimeout
  noNlp := v.noNlp.getD false
  noIntermediateAsr := v.noIntermediateAsr.getD false
  stack := v.stack
  voiceTrigger := v.voiceTrigger
  voicePower := v.voicePower
  triggerStart := v.triggerStart
  triggerLength := v.triggerLength
  skillOptions := v.skillOptions
  voiceExtra := v.voiceExtra
  vadBegin := v.vadBegin
  noTriggerConfirm := v.noTriggerConfirm

/-- The string of one of the objects. -/
def Owns (str : Str) : SpeechRequest.Str → Prop
  | .options _ str' => str' = str
  | _ => False

structure Holds (strings : SpeechRequest.Str → Bytes) (s : Struct) (v : Values) : Prop where
  lang : s.lang = v.lang.getD 0
  codec : s.codec = v.codec.getD 0
  vadMode : s.vadMode = v.vadMode.getD 0
  vendTimeout : Flagged s.hasVendTimeout s.vendTimeout v.vendTimeout
  noNlp : s.noNlp = v.noNlp.getD false
  noIntermediateAsr : s.noIntermediateAsr = v.noIntermediateAsr.getD false
  stack : Points (Owns .stack) strings s.stack v.stack
  voiceTrigger : Points (Owns .voiceTrigger) strings s.voiceTrigger v.voiceTrigger
  voicePower : Flagged s.hasVoicePower s.voicePower v.voicePower
  triggerStart : Flagged s.hasTriggerStart s.triggerStart v.triggerStart
  triggerLength : Flagged s.hasTriggerLength s.triggerLength v.triggerLength
  skillOptions : Points (Owns .skillOptions) strings s.skillOptions v.skillOptions
  voiceExtra : Points (Owns .voiceExtra) strings s.voiceExtra v.voiceExtra
  vadBegin : Flagged s.hasVadBegin s.vadBegin v.vadBegin
  noTriggerConfirm : Flagged s.hasNoTriggerConfirm s.noTriggerConfirm v.noTriggerConfirm

theorem holds_new (strings : SpeechRequest.Str → Bytes) : Holds strings {} (values []) := by
  constructor <;> first | rfl | exact ⟨rfl, nofun⟩

/-- The values after one more call. -/
def Values.set (v : Values) : Call → Values
  | .setLang i => { v with lang := some i }
  | .setCodec i => { v with codec := some i }
  | .setVadMode i => { v with vadMode := some i }
  | .setVendTimeout i => { v with vendTimeout := some i }
  | .setNoNlp b => { v with noNlp := some b }
  | .setNoIntermediateAsr b => { v with noIntermediateAsr := some b }
  | .setStack str => { v with stack := some str }
  | .setVoiceTrigger str => { v with voiceTrigger := some str }
  | .setVoicePower f => { v with voicePower := some f }
  | .setTriggerStart i => { v with triggerStart := some i }
  | .setTriggerLength i => { v with triggerLength := some i }
  | .setSkillOptions str => { v with skillOptions := some str }
  | .setVoiceExtra str => { v with voiceExtra := some str }
  | .setVadBegin i => { v with vadBegin := some i }
  | .setNoTriggerConfirm b => { v with noTriggerConfirm := some b }

theorem values_concat (calls : List Call) (c : Call) :
    values (calls ++ [c]) = (values calls).set c := by
  simp only [values, lastSet_concat]
  cases c <;> rfl

theorem holds_call {r : SpeechRequest} {v : Values}
    (h : Holds r.strings r.nanopbStruct.options v) (enc : Nat) (c : Call) :
    Holds (call enc r c).strings (call enc r c).nanopbStruct.options (v.set c) := by
  cases c with
  | setLang i => exact { h with lang := rfl }
  | setCodec i => exact { h with codec := rfl }
  | setVadMode i => exact { h with vadMode := rfl }
  | setVendTimeout i => exact { h with vendTimeout := rfl }
  | setNoNlp b => exact { h with noNlp := rfl }
  | setNoIntermediateAsr b => exact { h with noIntermediateAsr := rfl }
  | setStack str =>
      exact { h with
        stack := .assigned (Owns .stack) (.options enc .stack) rfl str
        voiceTrigger := h.voiceTrigger.other (.options enc .stack) nofun str
        skillOptions := h.skillOptions.other (.options enc .stack) nofun str
        voiceExtra := h.voiceExtra.other (.options enc .stack) nofun str }
  | setVoiceTrigger str =>
      exact { h with
        stack := h.stack.other (.options enc .voiceTrigger) nofun str
        voiceTrigger := .assigned (Owns .voiceTrigger) (.options enc .voiceTrigger) rfl str
        skillOptions := h.skillOptions.other (.options enc .voiceTrigger) nofun str
        voiceExtra := h.voiceExtra.other (.options enc .voiceTrigger) nofun str }
  | setVoicePower f => exact { h with voicePower := rfl }
  | setTriggerStart i => exact { h with triggerStart := rfl }
  | setTriggerLength i => exact { h with triggerLength := rfl }
  | setSkillOptions str =>
      exact { h with
        stack := h.stack.other (.options enc .skillOptions) nofun str
        voiceTrigger := h.voiceTrigger.other (.options enc .skillOptions) nofun str
        skillOptions := .assigned (Owns .skillOptions) (.options enc .skillOptions) rfl str
        voiceExtra := h.voiceExtra.other (.options enc .skillOptions) nofun str }
  | setVoiceExtra str =>
      exact { h with
        stack := h.stack.other (.options enc .voiceExtra) nofun str
        voiceTrigger := h.voiceTrigger.other (.options enc .voiceExtra) nofun str
        skillOptions := h.skillOptions.other (.options enc .voiceExtra) nofun str
        voiceExtra := .assigned (Owns .voiceExtra) (.options enc .voiceExtra) rfl str }
  | setVadBegin i => exact { h with vadBegin := rfl }
  | setNoTriggerConfirm b => exact { h with noTriggerConfirm := rfl }

/-- A string of the request itself is assigned to. -/
theorem Holds.other {strings : SpeechRequest.Str → Bytes} {s : Struct} {v : Values}
    (h : Holds strings s v) (a : SpeechRequest.Str) (ha : ∀ str, ¬ Owns str a) (str : Bytes) :
    Holds (Function.update strings a str) s v :=
  { h with
    stack := h.stack.other a (ha _) str
    voiceTrigger := h.voiceTrigger.other a (ha _) str
    skillOptions := h.skillOptions.other a (ha _) str
    voiceExtra := h.voiceExtra.other a (ha _) str }

theorem pbEncode_eq {strings : SpeechRequest.Str → Bytes} {s : Struct} {v : Values}
    (h : Holds strings s v) : pbEncode strings s fields = pbWrite v.message.encode := by
  have hfields : v.message.fields = [(1, some (.ofUInt32 s.lang)), (2, some (.ofUInt32 s.codec)),
      (3, some (.ofUInt32 s.vadMode)), (4, v.vendTimeout.map .ofUInt32),
      (5, some (.ofBool s.noNlp)), (6, some (.ofBool s.noIntermediateAsr)),
      (7, v.stack.map .len), (8, v.voiceTrigger.map .len), (9, v.voicePower.map .ofFloat),
      (10, v.triggerStart.map .ofUInt32), (11, v.triggerLength.map .ofUInt32),
      (12, v.skillOptions.map .len), (13, v.voiceExtra.map .len),
      (14, v.vadBegin.map .ofUInt32), (15, v.noTriggerConfirm.map .ofBool)] := by
    rw [h.lang, h.codec, h.vadMode, h.noNlp, h.noIntermediateAsr]
    rfl
  rw [Proto.SpeechOptions.encode, hfields]
  exact Nanopb.pbEncode_eq (.cons (PbField.writes_required (Member.writes_uenum _)) <|
    .cons (PbField.writes_required (Member.writes_uenum _)) <|
    .cons (PbField.writes_required (Member.writes_uenum _)) <|
    .cons (h.vendTimeout.writes (Member.writes_uint32 _) 4) <|
    .cons (PbField.writes_required (Member.writes_bool _)) <|
    .cons (PbField.writes_required (Member.writes_bool _)) <|
    .cons (h.stack.writes 7) <| .cons (h.voiceTrigger.writes 8) <|
    .cons (h.voicePower.writes (Member.writes_float _) 9) <|
    .cons (h.triggerStart.writes (Member.writes_uint32 _) 10) <|
    .cons (h.triggerLength.writes (Member.writes_uint32 _) 11) <|
    .cons (h.skillOptions.writes 12) <| .cons (h.voiceExtra.writes 13) <|
    .cons (h.vadBegin.writes (Member.writes_uint32 _) 14) <|
    .cons (h.noTriggerConfirm.writes (Member.writes_bool _) 15) .nil)

end SpeechOptionsEnc

namespace SpeechRequest

/-- The call of a setter of the options. -/
def Call.option : Call → Option SpeechOptionsEnc.Call
  | .options _ c => some c
  | _ => none

structure Values where
  id : Option (BitVec 32)
  type : Option (BitVec 32)
  voice : Option Bytes
  asr : Option Bytes
  mutableOptions : Bool
  options : SpeechOptionsEnc.Values

def values (calls : List Call) : Values where
  id := lastSet (fun | .setId i => some i | _ => none) calls
  type := lastSet (fun | .setType i => some i | _ => none) calls
  voice := lastSet (fun | .setVoice str => some str | _ => none) calls
  asr := lastSet (fun | .setAsr str => some str | _ => none) calls
  mutableOptions := calls.contains .mutableOptions
  options := SpeechOptionsEnc.values (calls.filterMap Call.option)

/-- The options are there if `mutable_options` has been called. -/
def Values.message (v : Values) : Proto.SpeechRequest where
  id := v.id.getD 0
  type := v.type.getD 0
  voice := v.voice
  asr := v.asr
  options := if v.mutableOptions then some v.options.message else none

structure Holds (r : SpeechRequest) (v : Values) : Prop where
  id : r.nanopbStruct.id = v.id.getD 0
  type : r.nanopbStruct.type = v.type.getD 0
  voice : Points (· = .voice) r.strings r.nanopbStruct.voice v.voice
  asr : Points (· = .asr) r.strings r.nanopbStruct.asr v.asr
  mutableOptions : r.nanopbStruct.hasOptions = v.mutableOptions
  options : SpeechOptionsEnc.Holds r.strings r.nanopbStruct.options v.options

theorem holds_new : Holds new (values []) where
  id := rfl
  type := rfl
  voice := ⟨rfl, nofun⟩
  asr := ⟨rfl, nofun⟩
  mutableOptions := rfl
  options := SpeechOptionsEnc.holds_new _

/-- The values after one more call. -/
def Values.set (v : Values) : Call → Values
  | .setId i => { v with id := some i }
  | .setType i => { v with type := some i }
  | .setVoice str => { v with voice := some str }
  | .setAsr str => { v with asr := some str }
  | .mutableOptions => { v with mutableOptions := true }
  | .options _ c => { v with options := v.options.set c }

theorem options_concat (calls : List Call) (c : Call) :
    (values (calls ++ [c])).options = ((values calls).set c).options := by
  unfold values
  rw [List.filterMap_append]
  cases c with
  | options enc c => exact SpeechOptionsEnc.values_concat _ c
  | _ => exact congrArg SpeechOptionsEnc.values (List.append_nil _)

theorem values_concat (calls : List Call) (c : Call) :
    values (calls ++ [c]) = (values calls).set c := by
  have hoptions := options_concat calls c
  have hmutable : (calls ++ [c]).contains .mutableOptions
      = (calls.contains .mutableOptions || decide (.mutableOptions = c)) := by simp
  simp only [values, lastSet_concat] at hoptions ⊢
  rw [hoptions, hmutable]
  cases c <;> simp [Values.set]

/-- A setter of the options does not touch the other strings. -/
theorem other_call {r : SpeechRequest} {own : Str → Prop} {arg : Option Str}
    {last : Option Bytes} (h : Points own r.strings arg last)
    (hown : ∀ enc str, ¬ own (.options enc str)) (enc : Nat) (c : SpeechOptionsEnc.Call) :
    Points own (SpeechOptionsEnc.call enc r c).strings arg last := by
  cases c with
  | setStack str => exact h.other _ (hown enc .stack) str
  | setVoiceTrigger str => exact h.other _ (hown enc .voiceTrigger) str
  | setSkillOptions str => exact h.other _ (hown enc .skillOptions) str
  | setVoiceExtra str => exact h.other _ (hown enc .voiceExtra) str
  | _ => exact h

/-- A setter of the options only changes the options of the struct. -/
theorem nanopbStruct_call (r : SpeechRequest) (enc : Nat) (c : SpeechOptionsEnc.Call) :
    (SpeechOptionsEnc.call enc r c).nanopbStruct = { r.nanopbStruct with
      options := (SpeechOptionsEnc.call enc r c).nanopbStruct.options } := by
  cases c <;> rfl

theorem holds_call {r : SpeechRequest} {v : Values} (h : Holds r v) (c : Call) :
    Holds (r.call c) (v.set c) := by
  cases c with
  | setId i => exact { h with id := rfl }
  | setType i => exact { h with type := rfl }
  | setVoice str =>
      exact { h with
        voice := .assigned (· = .voice) Str.voice rfl str
        asr := h.asr.other .voice nofun str
        options := h.options.other .voice (fun _ => nofun) str }
  | setAsr str =>
      exact { h with
        voice := h.voice.other .asr nofun str
        asr := .assigned (· = .asr) Str.asr rfl str
        options := h.options.other .asr (fun _ => nofun) str }
  | mutableOptions => exact { h with mutableOptions := rfl }
  | options enc c =>
      have hstruct := nanopbStruct_call r enc c
      refine ⟨?_, ?_, ?_, ?_, ?_, SpeechOptionsEnc.holds_call h.options enc c⟩
      · rw [call, hstruct]
        exact h.id
      · rw [call, hstruct]
        exact h.type
      · rw [call, hstruct]
        exact other_call h.voice (fun _ _ => nofun) enc c
      · rw [call, hstruct]
        exact other_call h.asr (fun _ _ => nofun) enc c
      · rw [call, hstruct]
        exact h.mutableOptions

theorem holds_calls (calls : List Call) : Holds (calls.foldl call new) (values calls) := by
  induction calls using List.reverseRecOn with
  | nil => exact holds_new
  | append_singleton calls c ih =>
      rw [List.foldl_concat, values_concat]
      exact holds_call ih c

theorem pbEncode_eq {r : SpeechRequest} {v : Values} (h : Holds r v) :
    pbEncode r.strings r.nanopbStruct fields = pbWrite v.message.encode := by
  have hfields : v.message.fields = [(1, some (.ofInt32 r.nanopbStruct.id)),
      (2, some (.ofUInt32 r.nanopbStruct.type)), (3, v.voice.map .len), (4, v.asr.map .len),
      (5, if r.nanopbStruct.hasOptions then some (.len v.options.message.encode) else none)] := by
    rw [h.id, h.type, h.mutableOptions]
    cases hv : v.mutableOptions <;> simp [Proto.SpeechRequest.fields, Values.message, hv]
  rw [Proto.SpeechRequest.encode, hfields]
  exact Nanopb.pbEncode_eq (.cons (PbField.writes_required (Member.writes_int32 _)) <|
    .cons (PbField.writes_required (Member.writes_uenum _)) <|
    .cons (h.voice.writes 3) <| .cons (h.asr.writes 4) <|
    .cons (PbField.writes_optional _
      (Member.writes_message (SpeechOptionsEnc.pbEncode_eq h.options))) .nil)

end SpeechRequest

/-- Whatever is set in whatever order, the message of the last values is sent if it fits the
    buffer. -/
theorem serializeToString_roundTrip :
    (∀ (calls : List AuthRequest.Call) (m : Proto.AuthRequest),
      AuthRequest.message calls = some m →
      Serializes ((calls.foldl AuthRequest.call .new).serializeToString AuthRequest.fields)
        Proto.AuthRequest.encode Proto.AuthRequest.decode m) ∧
    (∀ (calls : List TtsRequest.Call) (m : Proto.TtsRequest),
      (TtsRequest.values calls).message = some m →
      Serializes ((calls.foldl TtsRequest.call .new).serializeToString TtsRequest.fields)
        Proto.TtsRequest.encode Proto.TtsRequest.decode m) ∧
    (∀ calls : List SpeechRequest.Call,
      Serializes ((calls.foldl SpeechRequest.call .new).serializeToString SpeechRequest.fields)
        Proto.SpeechRequest.encode Proto.SpeechRequest.decode
        (SpeechRequest.values calls).message) := by
  refine ⟨fun calls m hm => ?_, fun calls m hm => ?_, fun calls => ?_⟩
  · exact serializes_of_pbEncode (AuthRequest.pbEncode_eq (AuthRequest.holds_calls calls) hm)
      m.decode_encode
  · exact serializes_of_pbEncode (TtsRequest.pbEncode_eq (TtsRequest.holds_calls calls) hm)
      m.decode_encode
  · exact serializes_of_pbEncode (SpeechRequest.pbEncode_eq (SpeechRequest.holds_calls calls))
      (SpeechRequest.values calls).message.decode_encode

/-- An empty key, a text set twice, options with an empty stack and a negative id. -/
theorem serializeToString_roundTrip_set :
    Serializes ((List.foldl AuthRequest.call .new
        [.setSign [7], .setKey [], .setDeviceTypeId [1, 0], .setDeviceId [2], .setService [3],
          .setVersion [4], .setTimestamp [5]]).serializeToString AuthRequest.fields)
      Proto.AuthRequest.encode Proto.AuthRequest.decode
      ⟨[], [1, 0], [2], [3], [4], [5], [7]⟩ ∧
    Serializes ((List.foldl TtsRequest.call .new
        [.setText [1], .setSampleRate 0, .setText [0, 2]]).serializeToString TtsRequest.fields)
      Proto.TtsRequest.encode Proto.TtsRequest.decode ⟨0, [0, 2], none, none, some 0⟩ ∧
    Serializes ((List.foldl SpeechRequest.call .new
        [.setId (-1), .mutableOptions, .options 0 (.setStack []), .options 0 (.setLang 1)]
        ).serializeToString SpeechRequest.fields)
      Proto.SpeechRequest.encode Proto.SpeechRequest.decode
      ⟨-1, 0, none, none, some ⟨1, 0, 0, none, false, false, some [], none, none, none, none, none,
        none, none, none⟩⟩ :=
  ⟨serializeToString_roundTrip.1 _ _ rfl, serializeToString_roundTrip.2.1 _ _ rfl,
    serializeToString_roundTrip.2.2 _⟩

end OpenVoice.Nanopb
