import Mathlib.Logic.Function.Basic
import OpenVoice.Nanopb.Encode
import OpenVoice.Types

/-!
# The requests (`nanopb_encoder.cc`) and their descriptors (`auth.pb.c`, `tts.pb.c`, `speech.pb.c`)

The struct of a class stands for the C struct of the message, the inductive type `Str` for its
`std::string` members.  Enumerations and `float` are their 32 bits.
-/

namespace OpenVoice.Nanopb

variable {α σ : Type} [DecidableEq α]

/-- The assignment to a `std::string` member. -/
def NanoPBEncoder.assign (e : NanoPBEncoder α σ) (a : α) (str : Bytes) : NanoPBEncoder α σ :=
  { e with strings := Function.update e.strings a str }

/-! ### `AuthRequest` -/

namespace AuthRequest

inductive Str where
  | key | deviceTypeId | deviceId | service | version | timestamp | sign
deriving DecidableEq, Repr

structure Struct where
  key : Option Str := none
  deviceTypeId : Option Str := none
  deviceId : Option Str := none
  service : Option Str := none
  version : Option Str := none
  timestamp : Option Str := none
  sign : Option Str := none

end AuthRequest

abbrev AuthRequest := NanoPBEncoder AuthRequest.Str AuthRequest.Struct

namespace AuthRequest

def fields : List (PbField Str Struct) :=
  [ .callback 1 (·.key),
    .callback 2 (·.deviceTypeId),
    .callback 3 (·.deviceId),
    .callback 4 (·.service),
    .callback 5 (·.version),
    .callback 6 (·.timestamp),
    .callback 7 (·.sign) ]

def new : AuthRequest := { nanopbStruct := {} }

def setKey (str : Bytes) (r : AuthRequest) : AuthRequest :=
  { r.assign .key str with nanopbStruct := { r.nanopbStruct with key := some .key } }

def setDeviceTypeId (str : Bytes) (r : AuthRequest) : AuthRequest :=
  { r.assign .deviceTypeId str with
    nanopbStruct := { r.nanopbStruct with deviceTypeId := some .deviceTypeId } }

def setDeviceId (str : Bytes) (r : AuthRequest) : AuthRequest :=
  { r.assign .deviceId str with
    nanopbStruct := { r.nanopbStruct with deviceId := some .deviceId } }

def setService (str : Bytes) (r : AuthRequest) : AuthRequest :=
  { r.assign .service str with nanopbStruct := { r.nanopbStruct with service := some .service } }

def setVersion (str : Bytes) (r : AuthRequest) : AuthRequest :=
  { r.assign .version str with nanopbStruct := { r.nanopbStruct with version := some .version } }

def setTimestamp (str : Bytes) (r : AuthRequest) : AuthRequest :=
  { r.assign .timestamp str with
    nanopbStruct := { r.nanopbStruct with timestamp := some .timestamp } }

def setSign (str : Bytes) (r : AuthRequest) : AuthRequest :=
  { r.assign .sign str with nanopbStruct := { r.nanopbStruct with sign := some .sign } }

/-- A call of a setter. -/
inductive Call where
  | setKey (str : Bytes)
  | setDeviceTypeId (str : Bytes)
  | setDeviceId (str : Bytes)
  | setService (str : Bytes)
  | setVersion (str : Bytes)
  | setTimestamp (str : Bytes)
  | setSign (str : Bytes)
deriving DecidableEq, Repr

def call (r : AuthRequest) : Call → AuthRequest
  | .setKey str => setKey str r
  | .setDeviceTypeId str => setDeviceTypeId str r
  | .setDeviceId str => setDeviceId str r
  | .setService str => setService str r
  | .setVersion str => setVersion str r
  | .setTimestamp str => setTimestamp str r
  | .setSign str => setSign str r

end AuthRequest

/-! ### `TtsRequest` -/

namespace TtsRequest

inductive Str where
  | text | declaimer | codec
deriving DecidableEq, Repr

structure Struct where
  id : BitVec 32 := 0
  text : Option Str := none
  declaimer : Option Str := none
  codec : Option Str := none
  hasSampleRate : Bool := false
  sampleRate : BitVec 32 := 0

end TtsRequest

abbrev TtsRequest := NanoPBEncoder TtsRequest.Str TtsRequest.Struct

namespace TtsRequest

def fields : List (PbField Str Struct) :=
  [ .required 1 (.int32 (·.id)),
    .callback 2 (·.text),
    .callback 3 (·.declaimer),
    .callback 4 (·.codec),
    .optional 5 (·.hasSampleRate) (.uint32 (·.sampleRate)) ]

def new : TtsRequest := { nanopbStruct := {} }

def setId (i : BitVec 32) (r : TtsRequest) : TtsRequest :=
  { r with nanopbStruct := { r.nanopbStruct with id := i } }

def setText (str : Bytes) (r : TtsRequest) : TtsRequest :=
  { r.assign .text str with nanopbStruct := { r.nanopbStruct with text := some .text } }

def setDeclaimer (str : Bytes) (r : TtsRequest) : TtsRequest :=
  { r.assign .declaimer str with
    nanopbStruct := { r.nanopbStruct with declaimer := some .declaimer } }

def setCodec (str : Bytes) (r : TtsRequest) : TtsRequest :=
  { r.assign .codec str with nanopbStruct := { r.nanopbStruct with codec := some .codec } }

def setSampleRate (i : BitVec 32) (r : TtsRequest) : TtsRequest :=
  { r with nanopbStruct := { r.nanopbStruct with hasSampleRate := true, sampleRate := i } }

inductive Call where
  | setId (i : BitVec 32)
  | setText (str : Bytes)
  | setDeclaimer (str : Bytes)
  | setCodec (str : Bytes)
  | setSampleRate (i : BitVec 32)
deriving DecidableEq, Repr

def call (r : TtsRequest) : Call → TtsRequest
  | .setId i => setId i r
  | .setText str => setText str r
  | .setDeclaimer str => setDeclaimer str r
  | .setCodec str => setCodec str r
  | .setSampleRate i => setSampleRate i r

end TtsRequest

/-! ### `SpeechRequest` and `SpeechOptionsEnc`

`mutable_options` makes a new `SpeechOptionsEnc` on the same struct.  The old one is not deleted:
a callback that points to one of its strings still does. -/

inductive SpeechOptionsEnc.Str where
  | stack | voiceTrigger | skillOptions | voiceExtra
deriving DecidableEq, Repr

/-- The objects made by `mutable_options` are told apart by a number. -/
inductive SpeechRequest.Str where
  | voice | asr
  | options (enc : Nat) (str : SpeechOptionsEnc.Str)
deriving DecidableEq, Repr

structure SpeechOptionsEnc.Struct where
  lang : BitVec 32 := 0
  codec : BitVec 32 := 0
  vadMode : BitVec 32 := 0
  hasVendTimeout : Bool := false
  vendTimeout : BitVec 32 := 0
  noNlp : Bool := false
  noIntermediateAsr : Bool := false
  stack : Option SpeechRequest.Str := none
  voiceTrigger : Option SpeechRequest.Str := none
  hasVoicePower : Bool := false
  voicePower : BitVec 32 := 0
  hasTriggerStart : Bool := false
  triggerStart : BitVec 32 := 0
  hasTriggerLength : Bool := false
  triggerLength : BitVec 32 := 0
  skillOptions : Option SpeechRequest.Str := none
  voiceExtra : Option SpeechRequest.Str := none
  hasVadBegin : Bool := false
  vadBegin : BitVec 32 := 0
  hasNoTriggerConfirm : Bool := false
  noTriggerConfirm : Bool := false

structure SpeechRequest.Struct where
  id : BitVec 32 := 0
  type : BitVec 32 := 0
  voice : Option SpeechRequest.Str := none
  asr : Option SpeechRequest.Str := none
  hasOptions : Bool := false
  options : SpeechOptionsEnc.Struct := {}

abbrev SpeechRequest := NanoPBEncoder SpeechRequest.Str SpeechRequest.Struct

def SpeechOptionsEnc.fields : List (PbField SpeechRequest.Str SpeechOptionsEnc.Struct) :=
  [ .required 1 (.uenum (·.lang)),
    .required 2 (.uenum (·.codec)),
    .required 3 (.uenum (·.vadMode)),
    .optional 4 (·.hasVendTimeout) (.uint32 (·.vendTimeout)),
    .required 5 (.bool (·.noNlp)),
    .required 6 (.bool (·.noIntermediateAsr)),
    .callback 7 (·.stack),
    .callback 8 (·.voiceTrigger),
    .optional 9 (·.hasVoicePower) (.float (·.voicePower)),
    .optional 10 (·.hasTriggerStart) (.uint32 (·.triggerStart)),
    .optional 11 (·.hasTriggerLength) (.uint32 (·.triggerLength)),
    .callback 12 (·.skillOptions),
    .callback 13 (·.voiceExtra),
    .optional 14 (·.hasVadBegin) (.uint32 (·.vadBegin)),
    .optional 15 (·.hasNoTriggerConfirm) (.bool (·.noTriggerConfirm)) ]

namespace SpeechRequest

def fields : List (PbField Str Struct) :=
  [ .required 1 (.int32 (·.id)),
    .required 2 (.uenum (·.type)),
    .callback 3 (·.voice),
    .callback 4 (·.asr),
    .optional 5 (·.hasOptions)
      (.message fun strings src => pbEncode strings src.options SpeechOptionsEnc.fields) ]

def new : SpeechRequest := { nanopbStruct := {} }

def setId (i : BitVec 32) (r : SpeechRequest) : SpeechRequest :=
  { r with nanopbStruct := { r.nanopbStruct with id := i } }

def setType (i : BitVec 32) (r : SpeechRequest) : SpeechRequest :=
  { r with nanopbStruct := { r.nanopbStruct with type := i } }

def setVoice (str : Bytes) (r : SpeechRequest) : SpeechRequest :=
  { r.assign .voice str with nanopbStruct := { r.nanopbStruct with voice := some .voice } }

def setAsr (str : Bytes) (r : SpeechRequest) : SpeechRequest :=
  { r.assign .asr str with nanopbStruct := { r.nanopbStruct with asr := some .asr } }

/-- Nothing of the old object changes, so that the new one is just another number. -/
def mutableOptions (r : SpeechRequest) : SpeechRequest :=
  { r with nanopbStruct := { r.nanopbStruct with hasOptions := true } }

end SpeechRequest

namespace SpeechOptionsEnc

variable (enc : Nat)

/-- The struct of a `SpeechOptionsEnc` is the one of the request. -/
def update (r : SpeechRequest) (f : Struct → Struct) : SpeechRequest :=
  { r with nanopbStruct := { r.nanopbStruct with options := f r.nanopbStruct.options } }

def setLang (i : BitVec 32) (r : SpeechRequest) : SpeechRequest :=
  update r fun s => { s with lang := i }

def setCodec (i : BitVec 32) (r : SpeechRequest) : SpeechRequest :=
  update r fun s => { s with codec := i }

def setVadMode (i : BitVec 32) (r : SpeechRequest) : SpeechRequest :=
  update r fun s => { s with vadMode := i }

def setVendTimeout (i : BitVec 32) (r : SpeechRequest) : SpeechRequest :=
  update r fun s => { s with hasVendTimeout := true, vendTimeout := i }

def setNoNlp (b : Bool) (r : SpeechRequest) : SpeechRequest :=
  update r fun s => { s with noNlp := b }

def setNoIntermediateAsr (b : Bool) (r : SpeechRequest) : SpeechRequest :=
  update r fun s => { s with noIntermediateAsr := b }

def setStack (str : Bytes) (r : SpeechRequest) : SpeechRequest :=
  update (r.assign (.options enc .stack) str) fun s =>
    { s with stack := some (.options enc .stack) }

def setVoiceTrigger (str : Bytes) (r : SpeechRequest) : SpeechRequest :=
  update (r.assign (.options enc .voiceTrigger) str) fun s =>
    { s with voiceTrigger := some (.options enc .voiceTrigger) }

def setVoicePower (f : BitVec 32) (r : SpeechRequest) : SpeechRequest :=
  update r fun s => { s with hasVoicePower := true, voicePower := f }

def setTriggerStart (i : BitVec 32) (r : SpeechRequest) : SpeechRequest :=
  update r fun s => { s with hasTriggerStart := true, triggerStart := i }

def setTriggerLength (i : BitVec 32) (r : SpeechRequest) : SpeechRequest :=
  update r fun s => { s with hasTriggerLength := true, triggerLength := i }

def setSkillOptions (str : Bytes) (r : SpeechRequest) : SpeechRequest :=
  update (r.assign (.options enc .skillOptions) str) fun s =>
    { s with skillOptions := some (.options enc .skillOptions) }

def setVoiceExtra (str : Bytes) (r : SpeechRequest) : SpeechRequest :=
  update (r.assign (.options enc .voiceExtra) str) fun s =>
    { s with voiceExtra := some (.options enc .voiceExtra) }

def setVadBegin (i : BitVec 32) (r : SpeechRequest) : SpeechRequest :=
  update r fun s => { s with hasVadBegin := true, vadBegin := i }

def setNoTriggerConfirm (b : Bool) (r : SpeechRequest) : SpeechRequest :=
  update r fun s => { s with hasNoTriggerConfirm := true, noTriggerConfirm := b }

inductive Call where
  | setLang (i : BitVec 32)
  | setCodec (i : BitVec 32)
  | setVadMode (i : BitVec 32)
  | setVendTimeout (i : BitVec 32)
  | setNoNlp (b : Bool)
  | setNoIntermediateAsr (b : Bool)
  | setStack (str : Bytes)
  | setVoiceTrigger (str : Bytes)
  | setVoicePower (f : BitVec 32)
  | setTriggerStart (i : BitVec 32)
  | setTriggerLength (i : BitVec 32)
  | setSkillOptions (str : Bytes)
  | setVoiceExtra (str : Bytes)
  | setVadBegin (i : BitVec 32)
  | setNoTriggerConfirm (b : Bool)
deriving DecidableEq, Repr

/-- A setter of the object number `enc` is called. -/
def call (r : SpeechRequest) : Call → SpeechRequest
  | .setLang i => setLang i r
  | .setCodec i => setCodec i r
  | .setVadMode i => setVadMode i r
  | .setVendTimeout i => setVendTimeout i r
  | .setNoNlp b => setNoNlp b r
  | .setNoIntermediateAsr b => setNoIntermediateAsr b r
  | .setStack str => setStack enc str r
  | .setVoiceTrigger str => setVoiceTrigger enc str r
  | .setVoicePower f => setVoicePower f r
  | .setTriggerStart i => setTriggerStart i r
  | .setTriggerLength i => setTriggerLength i r
  | .setSkillOptions str => setSkillOptions enc str r
  | .setVoiceExtra str => setVoiceExtra enc str r
  | .setVadBegin i => setVadBegin i r
  | .setNoTriggerConfirm b => setNoTriggerConfirm b r

end SpeechOptionsEnc

namespace SpeechRequest

inductive Call where
  | setId (i : BitVec 32)
  | setType (i : BitVec 32)
  | setVoice (str : Bytes)
  | setAsr (str : Bytes)
  | mutableOptions
  | options (enc : Nat) (c : SpeechOptionsEnc.Call)
deriving DecidableEq, Repr

def call (r : SpeechRequest) : Call → SpeechRequest
  | .setId i => setId i r
  | .setType i => setType i r
  | .setVoice str => setVoice str r
  | .setAsr str => setAsr str r
  | .mutableOptions => mutableOptions r
  | .options enc c => SpeechOptionsEnc.call enc r c

end SpeechRequest

end OpenVoice.Nanopb
