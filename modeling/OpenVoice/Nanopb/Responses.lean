import Mathlib.Data.List.Induction
import OpenVoice.Nanopb.Decode

/-!
# The responses (`nanopb_decoder.h`, `nanopb_decoder.cc`)

`gen_results` parses every frame into the same object.  What the object held before has no
influence on it: the string members are reset by `clear_super_data` and the others by the
defaults of `pb_decode`, and no parsing changes where the callbacks lead.
-/

namespace OpenVoice.Nanopb

variable {α σ : Type} [DecidableEq α]

/-- `_str.reset()`. -/
def NanoPBDecoder.reset (r : NanoPBDecoder α σ) (a : α) : NanoPBDecoder α σ :=
  { r with strings := Function.update r.strings a none }

/-! ### `TtsResponse` -/

namespace TtsResponse

inductive Str where
  | text | voice
deriving DecidableEq, Repr

structure Struct where
  id : BitVec 32 := 0
  result : BitVec 32 := 0
  text : Option Str := none
  voice : Option Str := none
  hasFinish : Bool := false
  finish : BitVec 8 := 0
deriving DecidableEq, Repr

def fields : List (InField Str Struct) :=
  [ .required 1 (.int32 fun i s => { s with id := i }),
    .required 2 (.uenum fun i s => { s with result := i }),
    .callback 3 (·.text),
    .callback 4 (·.voice),
    .optional 5 (fun b s => { s with hasFinish := b }) (.bool fun b s => { s with finish := b }) ]

end TtsResponse

abbrev TtsResponse := NanoPBDecoder TtsResponse.Str TtsResponse.Struct

namespace TtsResponse

/-- `init_string_field` is called for both strings. -/
def new : TtsResponse := { nanopbStruct := { text := some .text, voice := some .voice } }

def clearSuperData (r : TtsResponse) : TtsResponse := (r.reset .text).reset .voice

def parseFromArray (r : TtsResponse) (data : Bytes) : Bool × TtsResponse :=
  pbDecode fields data r.clearSuperData

def id (r : TtsResponse) : BitVec 32 := r.nanopbStruct.id

def result (r : TtsResponse) : BitVec 32 := r.nanopbStruct.result

def hasVoice (r : TtsResponse) : Bool := (r.strings .voice).isSome

def finish (r : TtsResponse) : Bool := r.nanopbStruct.finish != 0

def releaseVoice (r : TtsResponse) : Option Bytes × TtsResponse :=
  match r.strings .voice with
  | none => (none, r)
  | some str => (some str, r.reset .voice)

def releaseText (r : TtsResponse) : Option Bytes × TtsResponse :=
  match r.strings .text with
  | none => (none, r)
  | some str => (some str, r.reset .text)

structure Getters where
  id : BitVec 32
  result : BitVec 32
  hasVoice : Bool
  voice : Option Bytes
  text : Option Bytes
  finish : Bool
deriving DecidableEq, Repr

/-- The strings can only be got by their release. -/
def getters (r : TtsResponse) : Getters :=
  { id := r.id, result := r.result, hasVoice := r.hasVoice, voice := r.releaseVoice.1,
    text := r.releaseText.1, finish := r.finish }

/-- What changes the object. -/
inductive Call where
  | parseFromArray (data : Bytes)
  | releaseVoice
  | releaseText
deriving DecidableEq, Repr

def call (r : TtsResponse) : Call → TtsResponse
  | .parseFromArray data => (parseFromArray r data).2
  | .releaseVoice => (releaseVoice r).2
  | .releaseText => (releaseText r).2

end TtsResponse

/-! ### `SpeechResponse` -/

namespace SpeechResponse

inductive Str where
  | asr | nlp | action | extra | voiceTrigger
deriving DecidableEq, Repr

structure Struct where
  id : BitVec 32 := 0
  type : BitVec 32 := 0
  result : BitVec 32 := 0
  asr : Option Str := none
  nlp : Option Str := none
  action : Option Str := none
  extra : Option Str := none
  voiceTrigger : Option Str := none
deriving DecidableEq, Repr

def fields : List (InField Str Struct) :=
  [ .required 1 (.int32 fun i s => { s with id := i }),
    .required 2 (.uenum fun i s => { s with type := i }),
    .required 3 (.uenum fun i s => { s with result := i }),
    .callback 4 (·.asr),
    .callback 5 (·.nlp),
    .callback 6 (·.action),
    .callback 7 (·.extra),
    .callback 11 (·.voiceTrigger) ]

end SpeechResponse

abbrev SpeechResponse := NanoPBDecoder SpeechResponse.Str SpeechResponse.Struct

namespace SpeechResponse

def new : SpeechResponse :=
  { nanopbStruct := {
      asr := some .asr, nlp := some .nlp, action := some .action, extra := some .extra,
      voiceTrigger := some .voiceTrigger } }

def clearSuperData (r : SpeechResponse) : SpeechResponse :=
  ((((r.reset .asr).reset .nlp).reset .action).reset .extra).reset .voiceTrigger

def parseFromArray (r : SpeechResponse) (data : Bytes) : Bool × SpeechResponse :=
  pbDecode fields data r.clearSuperData

def id (r : SpeechResponse) : BitVec 32 := r.nanopbStruct.id

def type (r : SpeechResponse) : BitVec 32 := r.nanopbStruct.type

def result (r : SpeechResponse) : BitVec 32 := r.nanopbStruct.result

/-- A string that is not there is empty. -/
def text (r : SpeechResponse) (a : Str) : Bytes := (r.strings a).getD []

structure Getters where
  id : BitVec 32
  type : BitVec 32
  result : BitVec 32
  asr : Bytes
  nlp : Bytes
  action : Bytes
  extra : Bytes
  voiceTrigger : Bytes
deriving DecidableEq, Repr

def getters (r : SpeechResponse) : Getters :=
  { id := r.id, type := r.type, result := r.result, asr := r.text .asr, nlp := r.text .nlp,
    action := r.text .action, extra := r.text .extra, voiceTrigger := r.text .voiceTrigger }

end SpeechResponse

/-! ### What parsing keeps -/

def InMember.Keeps (P : σ → Prop) : InMember σ → Prop
  | .int32 data => ∀ i s, P s → P (data i s)
  | .bool data => ∀ b s, P s → P (data b s)
  | .uenum data => ∀ i s, P s → P (data i s)

/-- Whatever is written to the members of the field, the struct is still as it should be. -/
def InField.Keeps (P : σ → Prop) : InField α σ → Prop
  | .required _ member => member.Keeps P
  | .optional _ has member => (∀ b s, P s → P (has b s)) ∧ member.Keeps P
  | .callback _ _ => True

section keeps

variable {P : σ → Prop}

omit [DecidableEq α] in
theorem InMember.keeps_setToDefault {member : InMember σ} (hm : member.Keeps P) {s : σ}
    (h : P s) : P (member.setToDefault s) := by
  cases member with
  | int32 data => exact hm 0 s h
  | bool data => exact hm 0 s h
  | uenum data => exact hm 0 s h

omit [DecidableEq α] in
theorem InMember.keeps_decode {member : InMember σ} (hm : member.Keeps P) (stream : Bytes) {s : σ}
    (h : P s) : P (member.decode stream s).2 := by
  cases member with
  | int32 data =>
      rw [InMember.decode]
      split
      · exact h
      · exact hm _ s h
  | bool data =>
      rw [InMember.decode]
      split
      · exact h
      · exact hm _ s h
  | uenum data =>
      rw [InMember.decode]
      split
      · exact h
      · exact hm _ s h

theorem keeps_decodeField {field : InField α σ} (hf : field.Keeps P) (wireType : BitVec 32)
    (stream : Bytes) {r : NanoPBDecoder α σ} (h : P r.nanopbStruct) :
    P (decodeField field wireType stream r).2.nanopbStruct := by
  cases field with
  | required tag member => exact InMember.keeps_decode hf stream h
  | optional tag has member => exact InMember.keeps_decode hf.2 stream (hf.1 true _ h)
  | callback tag arg =>
      rw [decodeField]
      split
      · exact h
      · split
        · exact h
        · exact h

theorem keeps_decodeLoop {fields : List (InField α σ)} (hfs : ∀ field ∈ fields, field.Keeps P)
    (k : Nat) (seen : List (BitVec 32)) (stream : Bytes) {r : NanoPBDecoder α σ}
    (h : P r.nanopbStruct) : P (decodeLoop fields k seen stream r).2.nanopbStruct := by
  induction k generalizing seen stream r with
  | zero => cases stream <;> exact h
  | succ k ih =>
      cases stream with
      | nil => exact h
      | cons byte stream =>
          rw [decodeLoop]
          cases pbDecodeTag (byte :: stream) with
          | eof => exact h
          | error => exact h
          | field wireType tag stream =>
              dsimp only
              cases hfind : fields.find? fun field => field.tag = tag with
              | none =>
                  dsimp only
                  cases pbSkipField wireType stream with
                  | none => exact h
                  | some stream => exact ih seen stream h
              | some field =>
                  have hf := hfs field (List.mem_of_find?_eq_some hfind)
                  have hr := keeps_decodeField hf wireType stream h
                  dsimp only
                  generalize decodeField field wireType stream r = d at hr ⊢
                  obtain ⟨_ | stream, r⟩ := d
                  · exact hr
                  · exact ih (tag :: seen) stream hr

omit [DecidableEq α] in
theorem keeps_setToDefaults {fields : List (InField α σ)} (hfs : ∀ field ∈ fields, field.Keeps P)
    {s : σ} (h : P s) : P (pbMessageSetToDefaults fields s) := by
  unfold pbMessageSetToDefaults
  induction fields generalizing s with
  | nil => exact h
  | cons field fields ih =>
      have hf := hfs field (List.mem_cons_self ..)
      refine ih (fun field hmem => hfs field (List.mem_cons_of_mem _ hmem)) ?_
      cases field with
      | required tag member => exact InMember.keeps_setToDefault hf h
      | optional tag has member => exact InMember.keeps_setToDefault hf.2 (hf.1 false _ h)
      | callback tag arg => exact h

theorem keeps_pbDecode {fields : List (InField α σ)} (hfs : ∀ field ∈ fields, field.Keeps P)
    (stream : Bytes) {r : NanoPBDecoder α σ} (h : P r.nanopbStruct) :
    P (pbDecode fields stream r).2.nanopbStruct := by
  have hdefaults : P { r with
      nanopbStruct := pbMessageSetToDefaults fields r.nanopbStruct }.nanopbStruct :=
    keeps_setToDefaults hfs h
  have hloop := keeps_decodeLoop hfs stream.length [] stream hdefaults
  rw [pbDecode, pbDecodeNoinit]
  generalize decodeLoop fields stream.length [] stream
    { r with nanopbStruct := pbMessageSetToDefaults fields r.nanopbStruct } = d at hloop ⊢
  obtain ⟨_ | seen, r⟩ := d
  · exact hloop
  · exact hloop

end keeps

/-- The defaults make the struct the one of a new object. -/
def Fresh (fields : List (InField α σ)) (new s : σ) : Prop :=
  pbMessageSetToDefaults fields s = pbMessageSetToDefaults fields new

/-- With its strings reset, an object is parsed into like a new one. -/
theorem pbDecode_eq_of_fresh {fields : List (InField α σ)} {r new : NanoPBDecoder α σ}
    (h : Fresh fields new.nanopbStruct r.nanopbStruct) (hstrings : r.strings = new.strings)
    (stream : Bytes) : pbDecode fields stream r = pbDecode fields stream new := by
  rw [pbDecode, pbDecode, h, hstrings]

/-! ### The two responses -/

namespace TtsResponse

theorem keeps_fields : ∀ field ∈ fields, field.Keeps (Fresh fields new.nanopbStruct) := by
  intro field hfield
  simp only [fields, List.mem_cons, List.not_mem_nil, or_false] at hfield
  obtain rfl | rfl | rfl | rfl | rfl := hfield
  · exact fun _ _ h => h
  · exact fun _ _ h => h
  · exact trivial
  · exact trivial
  · exact ⟨fun _ _ h => h, fun _ _ h => h⟩

theorem strings_clearSuperData (r : TtsResponse) (a : Str) :
    (clearSuperData r).strings a = none := by
  cases a <;> rfl

theorem fresh_call {r : TtsResponse} (h : Fresh fields new.nanopbStruct r.nanopbStruct) (c : Call) :
    Fresh fields new.nanopbStruct (call r c).nanopbStruct := by
  cases c with
  | parseFromArray data => exact keeps_pbDecode keeps_fields data h
  | releaseVoice =>
      rw [call, releaseVoice]
      split
      · exact h
      · exact h
  | releaseText =>
      rw [call, releaseText]
      split
      · exact h
      · exact h

theorem fresh_calls (history : List Call) :
    Fresh fields new.nanopbStruct (history.foldl call new).nanopbStruct := by
  induction history using List.reverseRecOn with
  | nil => rfl
  | append_singleton history c ih =>
      rw [List.foldl_append, List.foldl_cons, List.foldl_nil]
      exact fresh_call ih c

theorem parseFromArray_eq (history : List Call) (data : Bytes) :
    parseFromArray (history.foldl call new) data = parseFromArray new data := by
  have hstrings : (clearSuperData (history.foldl call new)).strings
      = (clearSuperData new).strings := by
    funext a
    rw [strings_clearSuperData, strings_clearSuperData]
  have hfresh : Fresh fields (clearSuperData new).nanopbStruct
      (clearSuperData (history.foldl call new)).nanopbStruct := fresh_calls history
  exact pbDecode_eq_of_fresh hfresh hstrings data

end TtsResponse

namespace SpeechResponse

theorem keeps_fields : ∀ field ∈ fields, field.Keeps (Fresh fields new.nanopbStruct) := by
  intro field hfield
  simp only [fields, List.mem_cons, List.not_mem_nil, or_false] at hfield
  obtain rfl | rfl | rfl | rfl | rfl | rfl | rfl | rfl := hfield
  · exact fun _ _ h => h
  · exact fun _ _ h => h
  · exact fun _ _ h => h
  all_goals exact trivial

theorem strings_clearSuperData (r : SpeechResponse) (a : Str) :
    (clearSuperData r).strings a = none := by
  cases a <;> rfl

theorem fresh_calls (history : List Bytes) :
    Fresh fields new.nanopbStruct
      (history.foldl (fun r data => (parseFromArray r data).2) new).nanopbStruct := by
  induction history using List.reverseRecOn with
  | nil => rfl
  | append_singleton history data ih =>
      rw [List.foldl_append, List.foldl_cons, List.foldl_nil]
      exact keeps_pbDecode keeps_fields data ih

theorem parseFromArray_eq (history : List Bytes) (data : Bytes) :
    parseFromArray (history.foldl (fun r data => (parseFromArray r data).2) new) data
      = parseFromArray new data := by
  have hstrings : (clearSuperData
      (history.foldl (fun r data => (parseFromArray r data).2) new)).strings
      = (clearSuperData new).strings := by
    funext a
    rw [strings_clearSuperData, strings_clearSuperData]
  have hfresh : Fresh fields (clearSuperData new).nanopbStruct (clearSuperData
      (history.foldl (fun r data => (parseFromArray r data).2) new)).nanopbStruct :=
    fresh_calls history
  exact pbDecode_eq_of_fresh hfresh hstrings data

end SpeechResponse

/-- What is parsed does not depend on what the object has been used for. -/
theorem parseFromArray_memoryless :
    (∀ (history : List TtsResponse.Call) (data : Bytes),
      let used := (history.foldl TtsResponse.call .new).parseFromArray data
      let fresh := TtsResponse.new.parseFromArray data
      used.1 = fresh.1 ∧ (used.1 = true → used.2.getters = fresh.2.getters)) ∧
    (∀ (history : List Bytes) (data : Bytes),
      let used := (history.foldl (fun r data => (SpeechResponse.parseFromArray r data).2)
        .new).parseFromArray data
      let fresh := SpeechResponse.new.parseFromArray data
      used.1 = fresh.1 ∧ (used.1 = true → used.2.getters = fresh.2.getters)) := by
  refine ⟨fun history data => ?_, fun history data => ?_⟩
  · have h := TtsResponse.parseFromArray_eq history data
    exact ⟨congrArg Prod.fst h, fun _ => congrArg (fun p => p.2.getters) h⟩
  · have h := SpeechResponse.parseFromArray_eq history data
    exact ⟨congrArg Prod.fst h, fun _ => congrArg (fun p => p.2.getters) h⟩

/-- A frame with a text (and, for `TtsResponse`, a voice of which nobody takes possession and the
    end), one that breaks off behind a text, and one without a text. -/
theorem parseFromArray_memoryless_reused :
    (let used := ([.parseFromArray [8, 1, 16, 0, 26, 2, 65, 66, 34, 1, 67, 40, 1], .releaseText,
        .parseFromArray [8, 9, 26, 1, 69, 16]].foldl TtsResponse.call .new).parseFromArray
          [8, 2, 16, 0, 34, 1, 68];
      used.1 = true ∧ used.2.getters = ⟨2, 0, true, some [68], none, false⟩) ∧
    let used := SpeechResponse.parseFromArray
      ([[8, 1, 16, 0, 24, 0, 34, 2, 65, 66], [8, 9, 34, 1, 67, 16]].foldl
        (fun r data => (SpeechResponse.parseFromArray r data).2) .new) [8, 2, 16, 2, 24, 0]
    used.1 = true ∧ used.2.getters = ⟨2, 2, 0, [], [], [], [], []⟩ := by
  obtain ⟨htts, hspeech⟩ := parseFromArray_memoryless
  constructor
  · have h := htts [.parseFromArray [8, 1, 16, 0, 26, 2, 65, 66, 34, 1, 67, 40, 1], .releaseText,
      .parseFromArray [8, 9, 26, 1, 69, 16]] [8, 2, 16, 0, 34, 1, 68]
    have hfresh : (TtsResponse.new.parseFromArray [8, 2, 16, 0, 34, 1, 68]).1 = true ∧
        (TtsResponse.new.parseFromArray [8, 2, 16, 0, 34, 1, 68]).2.getters
          = ⟨2, 0, true, some [68], none, false⟩ := by decide +kernel
    have hsuccess := h.1.trans hfresh.1
    exact ⟨hsuccess, (h.2 hsuccess).trans hfresh.2⟩
  · have h := hspeech [[8, 1, 16, 0, 24, 0, 34, 2, 65, 66], [8, 9, 34, 1, 67, 16]]
      [8, 2, 16, 2, 24, 0]
    have hfresh : (SpeechResponse.new.parseFromArray [8, 2, 16, 2, 24, 0]).1 = true ∧
        (SpeechResponse.new.parseFromArray [8, 2, 16, 2, 24, 0]).2.getters
          = ⟨2, 2, 0, [], [], [], [], []⟩ := by decide +kernel
    have hsuccess := h.1.trans hfresh.1
    exact ⟨hsuccess, (h.2 hsuccess).trans hfresh.2⟩

end OpenVoice.Nanopb
