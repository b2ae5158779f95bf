import OpenVoice.StreamQueue.Fifo
import OpenVoice.OpCtl.Model
import OpenVoice.Types

/-!
# Requests, responses and options of `SpeechImpl` (`speech.h`, `speech/types.h`)
-/

namespace OpenVoice

abbrev SpeechStatus := OpStatus

/-- `SpeechError`.  `poll` casts whatever number it has popped, so a value need not be one of the
    enumerators. -/
abbrev SpeechError := BitVec 32

namespace SpeechError

def success : SpeechError := 0
def serviceUnavailable : SpeechError := 101
def sdkClosed : SpeechError := 102
def timeout : SpeechError := 103
def unknown : SpeechError := 104

end SpeechError

inductive SpeechResultType where
  | inter | start | asrFinish | end_ | cancelled | error
deriving DecidableEq, Repr

/-- The value of the enumerator. -/
def SpeechResultType.toNat : SpeechResultType → Nat
  | .inter => 0
  | .start => 1
  | .asrFinish => 2
  | .end_ => 3
  | .cancelled => 4
  | .error => 5

/-- `type >= SPEECH_RES_END` -/
def SpeechResultType.isTerminal (type : SpeechResultType) : Bool :=
  SpeechResultType.end_.toNat ≤ type.toNat

structure SpeechResult where
  id : Int
  type : SpeechResultType
  err : SpeechError
  asr : String
  nlp : String
  action : String
  extra : String
  voiceTrigger : String
deriving DecidableEq, Repr

structure SpeechResultIn where
  asr : String := ""
  nlp : String := ""
  action : String := ""
  extra : String := ""
  voiceTrigger : String := ""
  asrFinish : Bool := false
deriving DecidableEq, Repr

/-- `voicePower` is the bit pattern of the `float`. -/
structure VoiceOptions where
  stack : String := ""
  voiceTrigger : String := ""
  triggerStart : BitVec 32 := 0
  triggerLength : BitVec 32 := 0
  triggerConfirmByCloud : BitVec 32 := 1
  voicePower : BitVec 32 := 0
  skillOptions : String := ""
  voiceExtra : String := ""
deriving DecidableEq, Repr

inductive SpeechReqType where
  | text | voiceStart | voiceEnd | cancelled | voiceData
deriving DecidableEq, Repr

structure SpeechReqInfo where
  id : Int
  type : SpeechReqType
  data : Sp Bytes
  options : Sp VoiceOptions
deriving DecidableEq, Repr

/-! ### On the wire -/

inductive ReqType where
  | start | voice | end_ | text
deriving DecidableEq, Repr

/-- `SpeechOptionsEnc`; the last fields are set only if the request came with options. -/
structure SpeechOptionsEnc where
  lang : Lang
  codec : Codec
  vadMode : VadMode
  vendTimeout : BitVec 32
  noNlp : Bool
  noIntermediateAsr : Bool
  vadBegin : BitVec 32
  stack : Option String := none
  voiceTrigger : Option String := none
  voicePower : Option (BitVec 32) := none
  triggerStart : Option (BitVec 32) := none
  triggerLength : Option (BitVec 32) := none
  noTriggerConfirm : Option Bool := none
  skillOptions : Option String := none
  voiceExtra : Option String := none
deriving DecidableEq, Repr

structure SpeechRequest where
  id : Int
  type : ReqType
  voice : Option Bytes := none
  asr : Option Bytes := none
  options : Option SpeechOptionsEnc := none
deriving DecidableEq, Repr

/-- `type` and `result` are what the server sent, not necessarily enumerators. -/
structure SpeechResponse where
  id : Int
  type : Int
  result : BitVec 32
  asr : String := ""
  nlp : String := ""
  action : String := ""
  extra : String := ""
  voiceTrigger : String := ""
deriving DecidableEq, Repr

def respIntermediate : Int := 0
def respAsrFinish : Int := 1
def respFinish : Int := 2

/-! ### Options -/

structure SpeechOptionsHolder where
  lang : Lang := .zh
  codec : Codec := .pcm
  vadMode : VadMode := .local
  vendTimeout : BitVec 32 := 0
  vadBegin : BitVec 32 := 0
  logHost : String := ""
  voiceFragment : BitVec 32 := 0xffffffff
  logPort : BitVec 32 := 0
  noNlp : Bool := false
  noIntermediateAsr : Bool := false
deriving DecidableEq, Repr

/-- `SpeechOptionsModifier`: `mask` says which options have been set. -/
structure SpeechOptionsModifier extends SpeechOptionsHolder where
  mask : BitVec 32 := 0
deriving DecidableEq, Repr

namespace SpeechOptionsModifier

def modifyLang : BitVec 32 := 1
def modifyCodec : BitVec 32 := 2
def modifyVadmode : BitVec 32 := 4
def modifyNoNlp : BitVec 32 := 8
def modifyNoIntermediateAsr : BitVec 32 := 0x10
def modifyVadBegin : BitVec 32 := 0x20
def modifyVoiceFragment : BitVec 32 := 0x40
def modifyLogServer : BitVec 32 := 0x80

def setLang (lang : Lang) (m : SpeechOptionsModifier) : SpeechOptionsModifier :=
  { m with lang := lang, mask := m.mask ||| modifyLang }

def setCodec (codec : Codec) (m : SpeechOptionsModifier) : SpeechOptionsModifier :=
  { m with codec := codec, mask := m.mask ||| modifyCodec }

def setVadMode (mode : VadMode) (timeout : BitVec 32) (m : SpeechOptionsModifier) :
    SpeechOptionsModifier :=
  { m with vadMode := mode, vendTimeout := timeout, mask := m.mask ||| modifyVadmode }

def setNoNlp (value : Bool) (m : SpeechOptionsModifier) : SpeechOptionsModifier :=
  { m with noNlp := value, mask := m.mask ||| modifyNoNlp }

def setNoIntermediateAsr (value : Bool) (m : SpeechOptionsModifier) : SpeechOptionsModifier :=
  { m with noIntermediateAsr := value, mask := m.mask ||| modifyNoIntermediateAsr }

def setVadBegin (value : BitVec 32) (m : SpeechOptionsModifier) : SpeechOptionsModifier :=
  { m with vadBegin := value, mask := m.mask ||| modifyVadBegin }

def setLogServer (host : String) (port : BitVec 32) (m : SpeechOptionsModifier) :
    SpeechOptionsModifier :=
  { m with logHost := host, logPort := port, mask := m.mask ||| modifyLogServer }

def setVoiceFragment (size : BitVec 32) (m : SpeechOptionsModifier) : SpeechOptionsModifier :=
  { m with voiceFragment := size, mask := m.mask ||| modifyVoiceFragment }

/-- Has an option been set? -/
def has (m : SpeechOptionsModifier) (bit : BitVec 32) : Bool := m.mask &&& bit ≠ 0

def modify (m : SpeechOptionsModifier) (options : SpeechOptionsHolder) : SpeechOptionsHolder :=
  { lang := if m.has modifyLang then m.lang else options.lang
    codec := if m.has modifyCodec then m.codec else options.codec
    vadMode := if m.has modifyVadmode then m.vadMode else options.vadMode
    vendTimeout := if m.has modifyVadmode then m.vendTimeout else options.vendTimeout
    vadBegin := if m.has modifyVadBegin then m.vadBegin else options.vadBegin
    logHost := if m.has modifyLogServer then m.logHost else options.logHost
    voiceFragment := if m.has modifyVoiceFragment then m.voiceFragment else options.voiceFragment
    logPort := if m.has modifyLogServer then m.logPort else options.logPort
    noNlp := if m.has modifyNoNlp then m.noNlp else options.noNlp
    noIntermediateAsr :=
      if m.has modifyNoIntermediateAsr then m.noIntermediateAsr else options.noIntermediateAsr }

end SpeechOptionsModifier

/-- `req_config` -/
def reqConfig (options_ : SpeechOptionsHolder) (options : Sp VoiceOptions) : SpeechOptionsEnc :=
  { lang := options_.lang
    codec := options_.codec
    vadMode := options_.vadMode
    vendTimeout := options_.vendTimeout
    noNlp := options_.noNlp
    noIntermediateAsr := options_.noIntermediateAsr
    vadBegin := options_.vadBegin
    stack := options.map (·.stack)
    voiceTrigger := options.map (·.voiceTrigger)
    voicePower := options.map (·.voicePower)
    triggerStart := options.map (·.triggerStart)
    triggerLength := options.map (·.triggerLength)
    noTriggerConfirm := options.map fun o => decide (o.triggerConfirmByCloud = 0)
    skillOptions := options.map (·.skillOptions)
    voiceExtra := options.map (·.voiceExtra) }

/-- The request `do_request` sends. -/
def SpeechReqInfo.treq (options_ : SpeechOptionsHolder) (req : SpeechReqInfo) : SpeechRequest :=
  match req.type with
  | .text =>
      { id := req.id, type := .text, asr := req.data,
        options := some (reqConfig options_ req.options) }
  | .voiceStart =>
      { id := req.id, type := .start, options := some (reqConfig options_ req.options) }
  | .voiceEnd | .cancelled => { id := req.id, type := .end_ }
  | .voiceData => { id := req.id, type := .voice, voice := req.data }

/-- `do_request` returns `0`: nothing more will be sent for this operation. -/
def SpeechReqType.isLast : SpeechReqType → Bool
  | .text | .voiceEnd => true
  | .voiceStart | .cancelled | .voiceData => false

end OpenVoice
