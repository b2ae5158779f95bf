import Mathlib.Data.List.Forall2
import OpenVoice.Lib.Protobuf

/-!
# The encoder of nanopb (`pb_encode.c`) and `NanoPBEncoder` (`nanopb_encoder.cc`)

A message is a struct of type `σ`; the text of a callback field is in a string at an address of
type `α`, which is read when the field is encoded.  `size_t` and `uint64_t` are natural numbers.
-/

namespace OpenVoice.Nanopb

open Lib

/-- `state` points behind what is written so far.  If `sizing`, the stream has no callback: it
    counts and does not write. -/
@[ext] structure PbOstream where
  sizing : Bool
  maxSize : Nat
  bytesWritten : Nat
  written : List (BitVec 8)
  le_maxSize : sizing = false → bytesWritten ≤ maxSize

namespace PbOstream

def fromBuffer (size : Nat) : PbOstream :=
  { sizing := false, maxSize := size, bytesWritten := 0, written := [],
    le_maxSize := fun _ => Nat.zero_le _ }

/-- `PB_OSTREAM_SIZING`. -/
def forSizing : PbOstream :=
  { sizing := true, maxSize := 0, bytesWritten := 0, written := [], le_maxSize := nofun }

/-- The stream that `pb_encode_submessage` makes of another one. -/
def sub (stream : PbOstream) (size : Nat) : PbOstream :=
  { sizing := stream.sizing, maxSize := size, bytesWritten := 0, written := stream.written,
    le_maxSize := fun _ => Nat.zero_le _ }

variable (stream : PbOstream)

def count (count : Nat) (hs : stream.sizing = true) : PbOstream :=
  { stream with bytesWritten := stream.bytesWritten + count, le_maxSize := by simp [hs] }

/-- `count` bytes more are written, and `written` is all that is written. -/
def advance (count : Nat) (written : List (BitVec 8))
    (h : ¬ stream.maxSize < stream.bytesWritten + count) : PbOstream :=
  { stream with
    bytesWritten := stream.bytesWritten + count
    written := written
    le_maxSize := fun _ => Nat.not_lt.mp h }

end PbOstream

/-- None is the return of false. -/
abbrev Encoder := PbOstream → Option PbOstream

/-! ### `pb_write`, `pb_encode_varint`, `pb_encode_string`, `pb_encode_fixed32` -/

def pbWrite (buf : List (BitVec 8)) : Encoder := fun stream =>
  if hs : stream.sizing = true then some (stream.count buf.length hs)
  else if h : stream.maxSize < stream.bytesWritten + buf.length then none
  else some (stream.advance buf.length (stream.written ++ buf) h)

/-- The bytes of a varint before the top bit of the last one is unset. -/
def varintLoop (value : Nat) (buffer : List (BitVec 8)) : List (BitVec 8) :=
  if value = 0 then buffer
  else varintLoop (value / 128) (buffer ++ [BitVec.ofNat 8 (value % 128) ||| 0x80])
termination_by value
decreasing_by omega

def pbEncodeVarint (value : Nat) : Encoder :=
  if value ≤ 0x7F then pbWrite [BitVec.ofNat 8 value]
  else
    let buffer := varintLoop value []
    pbWrite (buffer.modify (buffer.length - 1) (· &&& 0x7F))

def pbEncodeString (buffer : List (BitVec 8)) : Encoder := fun stream =>
  (pbEncodeVarint buffer.length stream).bind (pbWrite buffer)

def pbEncodeFixed32 (value : BitVec 32) : Encoder :=
  pbWrite [value.extractLsb' 0 8, value.extractLsb' 8 8, value.extractLsb' 16 8,
    value.extractLsb' 24 8]

/-- The substream has to take as many bytes as have been counted. -/
def pbEncodeSubmessage (encode : Encoder) : Encoder := fun stream => do
  let sized ← encode .forSizing
  let size := sized.bytesWritten
  let stream ← pbEncodeVarint size stream
  if hs : stream.sizing = true then some (stream.count size hs)
  else if h : stream.maxSize < stream.bytesWritten + size then none
  else
    let substream ← encode (stream.sub size)
    if substream.bytesWritten = size then some (stream.advance size substream.written h)
    else none

/-! ### Fields -/

/-- `PB_LTYPE`, and for numbers the size of the member. -/
inductive Member (α σ : Type) where
  | int32 (data : σ → BitVec 32)
  | bool (data : σ → Bool)
  | uint32 (data : σ → BitVec 32)
  | uenum (data : σ → BitVec 32)
  | uint64 (data : σ → BitVec 64)
  | float (data : σ → BitVec 32)
  | message (encode : (α → List (BitVec 8)) → σ → Encoder)

/-- `pb_field_t`, as the encoder reads it.  The callback of a field is `encode_string` with the
    address of the string, or null. -/
inductive PbField (α σ : Type) where
  | required (tag : Nat) (member : Member α σ)
  | optional (tag : Nat) (has : σ → Bool) (member : Member α σ)
  | callback (tag : Nat) (arg : σ → Option α)

variable {α σ : Type} (strings : α → List (BitVec 8)) (src : σ)

/-- `PB_ENCODERS`: `pb_enc_varint` widens a signed member, `pb_enc_uvarint` does not. -/
def Member.encode : Member α σ → Encoder
  | .int32 data => pbEncodeVarint ((data src).signExtend 64).toNat
  | .bool data => pbEncodeVarint (data src).toNat
  | .uint32 data => pbEncodeVarint (data src).toNat
  | .uenum data => pbEncodeVarint (data src).toNat
  | .uint64 data => pbEncodeVarint (data src).toNat
  | .float data => pbEncodeFixed32 (data src)
  | .message encode => pbEncodeSubmessage (encode strings src)

def Member.wireType : Member α σ → Nat
  | .float _ => 5
  | .message _ => 2
  | _ => 0

def pbEncodeTag (wiretype tag : Nat) : Encoder := pbEncodeVarint (tag * 8 ||| wiretype)

/-- `NanoPBEncoder::encode_string`. -/
def encodeString (tag : Nat) (arg : α) (stream : PbOstream) : Option PbOstream :=
  (pbEncodeTag 2 tag stream).bind (pbEncodeString (strings arg))

def encodeField (field : PbField α σ) (stream : PbOstream) : Option PbOstream :=
  match field with
  | .required tag member =>
      (pbEncodeTag member.wireType tag stream).bind (member.encode strings src)
  | .optional tag has member =>
      if has src then (pbEncodeTag member.wireType tag stream).bind (member.encode strings src)
      else some stream
  | .callback tag arg =>
      match arg src with
      | some a => encodeString strings tag a stream
      | none => some stream

def pbEncode : List (PbField α σ) → Encoder
  | [], stream => some stream
  | field :: fields, stream => (encodeField strings src field stream).bind (pbEncode fields)

/-! ### `NanoPBEncoder` -/

/-- An object of a class derived from `NanoPBEncoder`: its struct, and the `std::string` members
    the callbacks of the struct point to. -/
structure NanoPBEncoder (α σ : Type) where
  nanopbStruct : σ
  strings : α → List (BitVec 8) := fun _ => []

/-- `encodeBuffer`. -/
def encodeBufferSize : Nat := 1024 * 1024

/-- The result, and `*str`. -/
def NanoPBEncoder.serializeToString (fields : List (PbField α σ)) (e : NanoPBEncoder α σ)
    (str : List (BitVec 8)) : Bool × List (BitVec 8) :=
  match pbEncode e.strings e.nanopbStruct fields (.fromBuffer encodeBufferSize) with
  | some stream => (true, stream.written.take stream.bytesWritten)
  | none => (false, str)

/-! ### What the encoder writes

A part of the encoder that returns true writes bytes that do not depend on the stream, and
returns false if they do not fit: it is `pbWrite` of these bytes. -/

variable {α σ : Type} {strings : α → List (BitVec 8)} {src : σ}

theorem pbWrite_sizing {stream : PbOstream} (hs : stream.sizing = true) (w : List (BitVec 8)) :
    pbWrite w stream = some (stream.count w.length hs) := dif_pos hs

theorem pbWrite_full {stream : PbOstream} (hs : ¬ stream.sizing = true) {w : List (BitVec 8)}
    (h : stream.maxSize < stream.bytesWritten + w.length) : pbWrite w stream = none := by
  rw [pbWrite, dif_neg hs, dif_pos h]

theorem pbWrite_fits {stream : PbOstream} (hs : ¬ stream.sizing = true) {w : List (BitVec 8)}
    (h : ¬ stream.maxSize < stream.bytesWritten + w.length) :
    pbWrite w stream = some (stream.advance w.length (stream.written ++ w) h) := by
  rw [pbWrite, dif_neg hs, dif_neg h]

theorem pbWrite_nil (stream : PbOstream) : pbWrite [] stream = some stream := by
  by_cases hs : stream.sizing = true
  · rw [pbWrite_sizing hs]
    rfl
  · have hle := stream.le_maxSize (Bool.eq_false_iff.mpr hs)
    rw [pbWrite_fits (w := []) hs (Nat.not_lt.mpr hle), Option.some_inj]
    exact PbOstream.ext rfl rfl rfl (List.append_nil _)

theorem pbWrite_bind (u w : List (BitVec 8)) (stream : PbOstream) :
    (pbWrite u stream).bind (pbWrite w) = pbWrite (u ++ w) stream := by
  by_cases hs : stream.sizing = true
  · have hcount : (stream.count u.length hs).sizing = true := hs
    rw [pbWrite_sizing hs, Option.bind_some, pbWrite_sizing hcount, pbWrite_sizing hs,
      Option.some_inj]
    refine PbOstream.ext rfl rfl ?_ rfl
    simp only [PbOstream.count, List.length_append, Nat.add_assoc]
  · by_cases hu : stream.maxSize < stream.bytesWritten + u.length
    · have huw : stream.maxSize < stream.bytesWritten + (u ++ w).length := by
        rw [List.length_append]
        omega
      rw [pbWrite_full hs hu, pbWrite_full hs huw, Option.bind_none]
    · rw [pbWrite_fits hs hu, Option.bind_some]
      have hlen : stream.bytesWritten + (u ++ w).length
          = stream.bytesWritten + u.length + w.length := by
        rw [List.length_append, Nat.add_assoc]
      generalize hv : stream.advance u.length (stream.written ++ u) hu = stream'
      have hs' : ¬ stream'.sizing = true := hv ▸ hs
      have hmax : stream'.maxSize = stream.maxSize := hv ▸ rfl
      have hbytes : stream'.bytesWritten + w.length = stream.bytesWritten + (u ++ w).length := by
        rw [hlen, ← hv]
        rfl
      by_cases hw : stream.maxSize < stream.bytesWritten + (u ++ w).length
      · rw [pbWrite_full hs hw, pbWrite_full hs' (by rw [hmax, hbytes]; exact hw)]
      · rw [pbWrite_fits hs hw, pbWrite_fits hs' (by rw [hmax, hbytes]; exact hw), Option.some_inj]
        subst hv
        exact PbOstream.ext rfl rfl hlen.symm (List.append_assoc ..)

/-- The loop leaves the bytes of the varint, the last one with its top bit set. -/
theorem varintLoop_eq {value : Nat} (h : value ≠ 0) (buffer : List (BitVec 8)) :
    ∃ first, ∃ b : BitVec 8, varintLoop value buffer = buffer ++ first ++ [b] ∧
      Varint.encode value = first ++ [b &&& 0x7F] := by
  have hbit : ∀ m < 128, BitVec.ofNat 8 m ||| 0x80 = BitVec.ofNat 8 (m + 128) ∧
      (BitVec.ofNat 8 m ||| 0x80) &&& 0x7F = BitVec.ofNat 8 m := by decide
  induction value using Nat.strongRecOn generalizing buffer with
  | ind value ih =>
      have hmod := hbit (value % 128) (Nat.mod_lt _ (by decide))
      rw [varintLoop, if_neg h]
      by_cases hlt : value < 128
      · have hdiv : value / 128 = 0 := Nat.div_eq_of_lt hlt
        refine ⟨[], BitVec.ofNat 8 (value % 128) ||| 0x80, ?_, ?_⟩
        · rw [hdiv, varintLoop, if_pos rfl, List.append_nil]
        · rw [hmod.2, Nat.mod_eq_of_lt hlt, Varint.encode_of_lt hlt, List.nil_append]
      · obtain ⟨first, b, hloop, henc⟩ := ih (value / 128) (by omega) (by omega)
          (buffer ++ [BitVec.ofNat 8 (value % 128) ||| 0x80])
        refine ⟨BitVec.ofNat 8 (value % 128 + 128) :: first, b, ?_, ?_⟩
        · rw [hloop, hmod.1]
          simp
        · rw [Varint.encode_of_le (by omega), henc, List.cons_append]

theorem modify_last (first : List (BitVec 8)) (b : BitVec 8) (f : BitVec 8 → BitVec 8) :
    (first ++ [b]).modify first.length f = first ++ [f b] := by
  induction first with
  | nil => rfl
  | cons a first ih =>
      rw [List.cons_append, List.length_cons, List.modify_succ_cons, ih, List.cons_append]

theorem pbEncodeVarint_eq (value : Nat) :
    pbEncodeVarint value = pbWrite (Varint.encode value) := by
  unfold pbEncodeVarint
  split
  · rename_i hle
    rw [Varint.encode_of_lt (by omega)]
  · rename_i hlt
    obtain ⟨first, b, hloop, henc⟩ := varintLoop_eq (by omega : value ≠ 0) []
    have hlast : (first ++ [b]).length - 1 = first.length := by
      rw [List.length_append, List.length_singleton, Nat.add_sub_cancel]
    simp only [hloop, henc, List.nil_append, hlast, modify_last]

theorem pbEncodeString_eq (buffer : List (BitVec 8)) :
    pbEncodeString buffer = pbWrite (Protobuf.Payload.len buffer).encode := by
  funext stream
  rw [pbEncodeString, pbEncodeVarint_eq, pbWrite_bind]
  rfl

theorem pbEncodeFixed32_eq (value : BitVec 32) :
    pbEncodeFixed32 value = pbWrite (Protobuf.Payload.ofFloat value).encode := by
  have hbyte : ∀ k, value.extractLsb' k 8 = BitVec.ofNat 8 (value.toNat / 2 ^ k) := fun k => by
    rw [BitVec.extractLsb', Nat.shiftRight_eq_div_pow]
  rw [pbEncodeFixed32, hbyte, hbyte, hbyte, hbyte, Protobuf.Payload.ofFloat,
    Protobuf.Payload.encode]
  simp only [Protobuf.octets, Nat.div_div_eq_div_mul, Nat.reducePow, Nat.reduceMul, Nat.div_one]

theorem pbEncodeSubmessage_eq {encode : Encoder} {w : List (BitVec 8)} (h : encode = pbWrite w) :
    pbEncodeSubmessage encode = pbWrite (Protobuf.Payload.len w).encode := by
  subst h
  funext stream
  have hsized : pbWrite w .forSizing = some (PbOstream.forSizing.count w.length rfl) :=
    pbWrite_sizing rfl w
  have hsize : (PbOstream.forSizing.count w.length rfl).bytesWritten = w.length := Nat.zero_add _
  rw [Protobuf.Payload.encode, ← pbWrite_bind, pbEncodeSubmessage, hsized]
  simp only [hsize, Option.bind_eq_bind, Option.bind_some, pbEncodeVarint_eq]
  cases pbWrite (Varint.encode w.length) stream with
  | none => rfl
  | some stream =>
      rw [Option.bind_some, Option.bind_some]
      by_cases hs : stream.sizing = true
      · rw [dif_pos hs, pbWrite_sizing hs]
      · by_cases hw : stream.maxSize < stream.bytesWritten + w.length
        · rw [dif_neg hs, dif_pos hw, pbWrite_full hs hw]
        · have hsub : ¬ (stream.sub w.length).sizing = true := hs
          have hfits : ¬ (stream.sub w.length).maxSize
              < (stream.sub w.length).bytesWritten + w.length :=
            Nat.not_lt.mpr (Nat.le_of_eq (Nat.zero_add _))
          rw [dif_neg hs, dif_neg hw, pbWrite_fits hs hw, pbWrite_fits hsub hfits,
            Option.bind_some]
          exact if_pos (Nat.zero_add _)

theorem pbEncodeTag_eq (tag : Nat) {wiretype : Nat} (h : wiretype < 8) :
    pbEncodeTag wiretype tag = pbWrite (Varint.encode (8 * tag + wiretype)) := by
  have hor : tag * 8 ||| wiretype = 8 * tag + wiretype := by
    rw [Nat.mul_comm]
    exact (Nat.two_pow_add_eq_or_of_lt (i := 3) h tag).symm
  rw [pbEncodeTag, hor, pbEncodeVarint_eq]

/-- The member is written as the payload says. -/
structure Member.Writes (strings : α → List (BitVec 8)) (src : σ) (member : Member α σ)
    (p : Protobuf.Payload) : Prop where
  wireType : member.wireType = p.wireType
  encode : member.encode strings src = pbWrite p.encode

/-- The field is written as the record of its payload, or not at all. -/
def PbField.Writes (strings : α → List (BitVec 8)) (src : σ) (field : PbField α σ)
    (f : Nat × Option Protobuf.Payload) : Prop :=
  encodeField strings src field = pbWrite (Protobuf.encode (Protobuf.records [f]))

namespace Member

open Protobuf

theorem writes_int32 (data : σ → BitVec 32) :
    (int32 data).Writes strings src (Payload.ofInt32 (data src)) :=
  ⟨rfl, pbEncodeVarint_eq _⟩

theorem writes_bool (data : σ → Bool) :
    (bool data).Writes strings src (Payload.ofBool (data src)) :=
  ⟨rfl, pbEncodeVarint_eq _⟩

theorem writes_uint32 (data : σ → BitVec 32) :
    (uint32 data).Writes strings src (Payload.ofUInt32 (data src)) :=
  ⟨rfl, pbEncodeVarint_eq _⟩

theorem writes_uenum (data : σ → BitVec 32) :
    (uenum data).Writes strings src (Payload.ofUInt32 (data src)) :=
  ⟨rfl, pbEncodeVarint_eq _⟩

theorem writes_uint64 (data : σ → BitVec 64) :
    (uint64 data).Writes strings src (Payload.ofUInt64 (data src)) :=
  ⟨rfl, pbEncodeVarint_eq _⟩

theorem writes_float (data : σ → BitVec 32) :
    (float data).Writes strings src (Payload.ofFloat (data src)) :=
  ⟨rfl, pbEncodeFixed32_eq _⟩

theorem writes_message {encode : (α → List (BitVec 8)) → σ → Encoder} {w : List (BitVec 8)}
    (h : encode strings src = pbWrite w) : (message encode).Writes strings src (.len w) :=
  ⟨rfl, pbEncodeSubmessage_eq h⟩

end Member

namespace PbField

open Protobuf

variable {tag : Nat} {member : Member α σ} {p : Payload}

theorem encode_record (tag : Nat) (p : Payload) (stream : PbOstream) :
    (pbEncodeTag p.wireType tag stream).bind (pbWrite p.encode)
      = pbWrite (encode (records [(tag, some p)])) stream := by
  rw [pbEncodeTag_eq tag p.wireType_lt, pbWrite_bind]
  simp [records, Record.encode]

theorem writes_required (h : member.Writes strings src p) :
    (required tag member).Writes strings src (tag, some p) := by
  funext stream
  rw [encodeField, h.wireType, h.encode, encode_record]

theorem writes_optional (has : σ → Bool) (h : member.Writes strings src p) :
    (optional tag has member).Writes strings src (tag, if has src then some p else none) := by
  funext stream
  rw [encodeField, h.wireType, h.encode, encode_record]
  cases has src with
  | true => rfl
  | false => exact (pbWrite_nil stream).symm

theorem writes_callback (arg : σ → Option α) :
    (callback tag arg).Writes strings src
      (tag, (arg src).map fun a => .len (strings a)) := by
  funext stream
  rw [encodeField]
  cases arg src with
  | none => exact (pbWrite_nil stream).symm
  | some a =>
      have hrecord := encode_record tag (.len (strings a)) stream
      rw [← pbEncodeString_eq] at hrecord
      exact hrecord

end PbField

/-- A message is written as its fields are. -/
theorem pbEncode_eq {fields : List (PbField α σ)} {fs : List (Nat × Option Protobuf.Payload)}
    (h : List.Forall₂ (PbField.Writes strings src) fields fs) :
    pbEncode strings src fields = pbWrite (Protobuf.encode (Protobuf.records fs)) := by
  induction h with
  | nil =>
      funext stream
      exact (pbWrite_nil stream).symm
  | @cons field f fields fs hf hfs ih =>
      funext stream
      have hrs : Protobuf.records (f :: fs) = Protobuf.records [f] ++ Protobuf.records fs := by
        rw [Protobuf.records_cons, Protobuf.records_cons f []]
        exact congrArg (· ++ _) (List.append_nil _).symm
      rw [pbEncode, show encodeField strings src field = _ from hf, ih, pbWrite_bind, hrs,
        Protobuf.encode_append]

/-- `SerializeToString` succeeds if and only if the message fits the buffer. -/
theorem NanoPBEncoder.serializeToString_eq {fields : List (PbField α σ)} {e : NanoPBEncoder α σ}
    {w : List (BitVec 8)} (h : pbEncode e.strings e.nanopbStruct fields = pbWrite w)
    (str : List (BitVec 8)) :
    e.serializeToString fields str
      = if w.length ≤ encodeBufferSize then (true, w) else (false, str) := by
  rw [serializeToString, h]
  have hs : ¬ (PbOstream.fromBuffer encodeBufferSize).sizing = true := Bool.false_ne_true
  by_cases hw : w.length ≤ encodeBufferSize
  · have hfits : ¬ (PbOstream.fromBuffer encodeBufferSize).maxSize
        < (PbOstream.fromBuffer encodeBufferSize).bytesWritten + w.length := by
      rw [Nat.not_lt]
      exact (Nat.zero_add _).symm ▸ hw
    rw [pbWrite_fits hs hfits, if_pos hw]
    simp [PbOstream.advance, PbOstream.fromBuffer]
  · have hfull : (PbOstream.fromBuffer encodeBufferSize).maxSize
        < (PbOstream.fromBuffer encodeBufferSize).bytesWritten + w.length := by
      exact (Nat.zero_add _).symm ▸ Nat.not_le.mp hw
    rw [pbWrite_full hs hfull, if_neg hw]

end OpenVoice.Nanopb
