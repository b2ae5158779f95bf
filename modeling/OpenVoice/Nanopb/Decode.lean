import Mathlib.Logic.Function.Basic
import OpenVoice.Types

/-!
# The decoder of nanopb (`pb_decode.c`) and `NanoPBDecoder` (`nanopb_decoder.cc`)

A stream is the list of the bytes left.  A message is a struct of type `σ`; the address of a
`shared_ptr` a callback field writes to is of type `α`.  Wire types of fields are not checked:
a field of type `int32` is read as a varint whatever stands in its tag.
-/

namespace OpenVoice.Nanopb

/-! ### Varints -/

/-- The rest of `pb_decode_varint32` behind the first byte.  `uint_fast8_t bitpos` has eight
    bits. -/
def varint32Loop : Bytes → BitVec 8 → BitVec 32 → Option (BitVec 32 × Bytes)
  | [], _, _ => none
  | byte :: stream, bitpos, result =>
      -- beyond 32 bits there may only be the sign, or nothing
      let signExtension : BitVec 8 := if bitpos < 63 then 0xFF else 0x01
      let overflow := byte &&& 0x7F ≠ 0 ∧ (result >>> 31 = 0 ∨ byte ≠ signExtension)
      if 32 ≤ bitpos ∧ overflow then none
      else
        let result := if 32 ≤ bitpos then result
          else result ||| (byte &&& 0x7F).setWidth 32 <<< bitpos
        let bitpos := bitpos + 7
        if byte &&& 0x80 ≠ 0 then varint32Loop stream bitpos result
        else if bitpos = 35 ∧ byte &&& 0x70 ≠ 0 then none
        else some (result, stream)

def pbDecodeVarint32 : Bytes → Option (BitVec 32 × Bytes)
  | [] => none
  | byte :: stream =>
      if byte &&& 0x80 = 0 then some (byte.setWidth 32, stream)
      else varint32Loop stream 7 ((byte &&& 0x7F).setWidth 32)

def varint64Loop : Bytes → BitVec 8 → BitVec 64 → Option (BitVec 64 × Bytes)
  | [], _, _ => none
  | byte :: stream, bitpos, result =>
      if 64 ≤ bitpos then none
      else
        let result := result ||| (byte &&& 0x7F).setWidth 64 <<< bitpos
        if byte &&& 0x80 ≠ 0 then varint64Loop stream (bitpos + 7) result
        else some (result, stream)

def pbDecodeVarint (stream : Bytes) : Option (BitVec 64 × Bytes) := varint64Loop stream 0 0

/-! ### Tags and fields without a meaning -/

inductive Tag where
  | field (wireType tag : BitVec 32) (stream : Bytes)
  | eof
  | error
deriving DecidableEq, Repr

/-- A message may end with a byte of zero. -/
def pbDecodeTag (stream : Bytes) : Tag :=
  match pbDecodeVarint32 stream with
  | none => if stream = [] then .eof else .error
  | some (temp, stream) => if temp = 0 then .eof else .field (temp &&& 7) (temp >>> 3) stream

/-- `pb_read` without a buffer. -/
def pbSkip (count : Nat) (stream : Bytes) : Option Bytes :=
  if stream.length < count then none else some (stream.drop count)

def pbSkipVarint : Bytes → Option Bytes
  | [] => none
  | byte :: stream => if byte &&& 0x80 ≠ 0 then pbSkipVarint stream else some stream

def pbSkipString (stream : Bytes) : Option Bytes :=
  (pbDecodeVarint32 stream).bind fun (length, stream) => pbSkip length.toNat stream

def pbSkipField (wireType : BitVec 32) (stream : Bytes) : Option Bytes :=
  if wireType = 0 then pbSkipVarint stream
  else if wireType = 1 then pbSkip 8 stream
  else if wireType = 2 then pbSkipString stream
  else if wireType = 5 then pbSkip 4 stream
  else none

/-! ### Streams for callbacks -/

/-- At most `maxSize` bytes of a varint, as they are. -/
def readRawVarint : Nat → Bytes → Option (Bytes × Bytes)
  | 0, _ => none
  | _ + 1, [] => none
  | maxSize + 1, byte :: stream =>
      if byte &&& 0x80 ≠ 0 then
        (readRawVarint maxSize stream).map fun (buf, stream) => (byte :: buf, stream)
      else some ([byte], stream)

def pbRead (count : Nat) (stream : Bytes) : Option (Bytes × Bytes) :=
  if stream.length < count then none else some (stream.take count, stream.drop count)

/-- `pb_make_string_substream`, or `read_raw_value` into the buffer of ten bytes. -/
def substream (wireType : BitVec 32) (stream : Bytes) : Option (Bytes × Bytes) :=
  if wireType = 2 then
    (pbDecodeVarint32 stream).bind fun (size, stream) => pbRead size.toNat stream
  else if wireType = 0 then readRawVarint 10 stream
  else if wireType = 1 then pbRead 8 stream
  else if wireType = 5 then pbRead 4 stream
  else none

/-! ### Fields -/

/-- What `PB_DECODERS` writes to.  A `bool` is the byte that is stored for it. -/
inductive InMember (σ : Type) where
  | int32 (data : BitVec 32 → σ → σ)
  | bool (data : BitVec 8 → σ → σ)
  | uenum (data : BitVec 32 → σ → σ)

/-- `pb_field_t`, as the decoder reads it.  The callback of a field is `decode_string` with the
    address of the `shared_ptr`, or null. -/
inductive InField (α σ : Type) where
  | required (tag : BitVec 32) (member : InMember σ)
  | optional (tag : BitVec 32) (has : Bool → σ → σ) (member : InMember σ)
  | callback (tag : BitVec 32) (arg : σ → Option α)

/-- An object of a class derived from `NanoPBDecoder`. -/
structure NanoPBDecoder (α σ : Type) where
  nanopbStruct : σ
  strings : α → Option Bytes := fun _ => none

variable {α σ : Type}

def InField.tag : InField α σ → BitVec 32
  | .required tag _ | .optional tag _ _ | .callback tag _ => tag

def InMember.setToDefault : InMember σ → σ → σ
  | .int32 data => data 0
  | .bool data => data 0
  | .uenum data => data 0

/-- A callback is not overwritten. -/
def InField.setToDefault : InField α σ → σ → σ
  | .required _ member => member.setToDefault
  | .optional _ has member => fun s => member.setToDefault (has false s)
  | .callback _ _ => id

def pbMessageSetToDefaults (fields : List (InField α σ)) (s : σ) : σ :=
  fields.foldl (fun s field => field.setToDefault s) s

/-- `PB_DECODERS`.  The member is written also if its value turns out to be too large. -/
def InMember.decode (stream : Bytes) (s : σ) : InMember σ → Option Bytes × σ
  | .int32 data =>
      match pbDecodeVarint stream with
      | none => (none, s)
      | some (value, stream) => (some stream, data (value.setWidth 32) s)
  | .bool data =>
      match pbDecodeVarint stream with
      | none => (none, s)
      | some (value, stream) =>
          let svalue := (value.setWidth 32).signExtend 64
          let clamped := svalue.setWidth 8
          (if clamped.signExtend 64 = svalue then some stream else none, data clamped s)
  | .uenum data =>
      match pbDecodeVarint stream with
      | none => (none, s)
      | some (value, stream) =>
          let clamped := value.setWidth 32
          (if clamped.setWidth 64 = value then some stream else none, data clamped s)

variable [DecidableEq α]

/-- `NanoPBDecoder::decode_string`: an empty one is not noticed. -/
def decodeString (stream : Bytes) (arg : α) (strings : α → Option Bytes) : α → Option Bytes :=
  if stream = [] then strings else Function.update strings arg (some stream)

def decodeField (field : InField α σ) (wireType : BitVec 32) (stream : Bytes)
    (r : NanoPBDecoder α σ) : Option Bytes × NanoPBDecoder α σ :=
  match field with
  | .required _ member =>
      let d := member.decode stream r.nanopbStruct
      (d.1, { r with nanopbStruct := d.2 })
  | .optional _ has member =>
      let d := member.decode stream (has true r.nanopbStruct)
      (d.1, { r with nanopbStruct := d.2 })
  | .callback _ arg =>
      match arg r.nanopbStruct with
      | none => (pbSkipField wireType stream, r)
      | some a =>
          match substream wireType stream with
          | none => (none, r)
          | some (sub, stream) => (some stream, { r with strings := decodeString sub a r.strings })

/-! ### `pb_decode` -/

/-- The loop of `pb_decode_noinit`.  The result is the list of the tags of known fields that have
    been met, none if decoding fails.  No more than `k` fields are read. -/
def decodeLoop (fields : List (InField α σ)) : Nat → List (BitVec 32) → Bytes →
    NanoPBDecoder α σ → Option (List (BitVec 32)) × NanoPBDecoder α σ
  | _, seen, [], r => (some seen, r)
  | 0, _, _ :: _, r => (none, r)
  | k + 1, seen, byte :: stream, r =>
      match pbDecodeTag (byte :: stream) with
      | .eof => (some seen, r)
      | .error => (none, r)
      | .field wireType tag stream =>
          match fields.find? fun field => field.tag = tag with
          | none =>
              match pbSkipField wireType stream with
              | none => (none, r)
              | some stream => decodeLoop fields k seen stream r
          | some field =>
              match decodeField field wireType stream r with
              | (none, r) => (none, r)
              | (some stream, r) => decodeLoop fields k (tag :: seen) stream r

/-- The loop, and the check that every required field has been met. -/
def pbDecodeNoinit (fields : List (InField α σ)) (stream : Bytes) (r : NanoPBDecoder α σ) :
    Bool × NanoPBDecoder α σ :=
  match decodeLoop fields stream.length [] stream r with
  | (none, r) => (false, r)
  | (some seen, r) =>
      (fields.all fun
        | .required tag _ => tag ∈ seen
        | _ => true, r)

def pbDecode (fields : List (InField α σ)) (stream : Bytes) (r : NanoPBDecoder α σ) :
    Bool × NanoPBDecoder α σ :=
  pbDecodeNoinit fields stream
    { r with nanopbStruct := pbMessageSetToDefaults fields r.nanopbStruct }

/-! ### The bound of the loop

Every field takes at least the byte of its tag. -/

theorem length_varint32Loop {stream rest : Bytes} {bitpos : BitVec 8} {result value : BitVec 32}
    (h : varint32Loop stream bitpos result = some (value, rest)) : rest.length < stream.length := by
  induction stream generalizing bitpos result with
  | nil => cases h
  | cons byte stream ih =>
      rw [varint32Loop] at h
      have hloop := (Option.ite_none_left_eq_some.mp h).2
      by_cases hmore : byte &&& 0x80 ≠ 0
      · rw [if_pos hmore] at hloop
        exact Nat.lt_succ_of_lt (ih hloop)
      · rw [if_neg hmore] at hloop
        cases (Option.ite_none_left_eq_some.mp hloop).2
        exact Nat.lt_succ_self _

theorem length_pbDecodeVarint32 {stream rest : Bytes} {value : BitVec 32}
    (h : pbDecodeVarint32 stream = some (value, rest)) : rest.length < stream.length := by
  cases stream with
  | nil => cases h
  | cons byte stream =>
      rw [pbDecodeVarint32] at h
      split at h
      · cases h
        exact Nat.lt_succ_self _
      · exact Nat.lt_succ_of_lt (length_varint32Loop h)

theorem length_varint64Loop {stream rest : Bytes} {bitpos : BitVec 8} {result value : BitVec 64}
    (h : varint64Loop stream bitpos result = some (value, rest)) : rest.length < stream.length := by
  induction stream generalizing bitpos result with
  | nil => cases h
  | cons byte stream ih =>
      rw [varint64Loop] at h
      have hloop := (Option.ite_none_left_eq_some.mp h).2
      by_cases hmore : byte &&& 0x80 ≠ 0
      · rw [if_pos hmore] at hloop
        exact Nat.lt_succ_of_lt (ih hloop)
      · rw [if_neg hmore] at hloop
        cases hloop
        exact Nat.lt_succ_self _

theorem length_pbDecodeTag {stream rest : Bytes} {wireType tag : BitVec 32}
    (h : pbDecodeTag stream = .field wireType tag rest) : rest.length < stream.length := by
  rw [pbDecodeTag] at h
  split at h
  · split at h <;> cases h
  · rename_i temp stream' hvarint
    split at h
    · cases h
    · cases h
      exact length_pbDecodeVarint32 hvarint

theorem length_pbSkip {count : Nat} {stream rest : Bytes} (h : pbSkip count stream = some rest) :
    rest.length ≤ stream.length := by
  rw [pbSkip] at h
  split at h
  · cases h
  · cases h
    rw [List.length_drop]
    exact Nat.sub_le _ _

theorem length_pbSkipVarint {stream rest : Bytes} (h : pbSkipVarint stream = some rest) :
    rest.length ≤ stream.length := by
  induction stream with
  | nil => cases h
  | cons byte stream ih =>
      rw [pbSkipVarint] at h
      split at h
      · exact Nat.le_succ_of_le (ih h)
      · cases h
        exact Nat.le_succ _

theorem length_pbSkipString {stream rest : Bytes} (h : pbSkipString stream = some rest) :
    rest.length ≤ stream.length := by
  obtain ⟨⟨length, stream'⟩, hvarint, hskip⟩ := Option.bind_eq_some_iff.mp h
  exact Nat.le_trans (length_pbSkip hskip) (Nat.le_of_lt (length_pbDecodeVarint32 hvarint))

theorem length_pbSkipField {wireType : BitVec 32} {stream rest : Bytes}
    (h : pbSkipField wireType stream = some rest) : rest.length ≤ stream.length := by
  unfold pbSkipField at h
  split at h
  · exact length_pbSkipVarint h
  · split at h
    · exact length_pbSkip h
    · split at h
      · exact length_pbSkipString h
      · split at h
        · exact length_pbSkip h
        · cases h

theorem length_readRawVarint {maxSize : Nat} {stream buf rest : Bytes}
    (h : readRawVarint maxSize stream = some (buf, rest)) : rest.length ≤ stream.length := by
  induction maxSize generalizing stream buf with
  | zero => cases h
  | succ maxSize ih =>
      cases stream with
      | nil => cases h
      | cons byte stream =>
          rw [readRawVarint] at h
          split at h
          · obtain ⟨⟨buf', rest'⟩, hread, heq⟩ := Option.map_eq_some_iff.mp h
            cases heq
            exact Nat.le_succ_of_le (ih hread)
          · cases h
            exact Nat.le_succ _

theorem length_pbRead {count : Nat} {stream buf rest : Bytes}
    (h : pbRead count stream = some (buf, rest)) : rest.length ≤ stream.length := by
  rw [pbRead] at h
  split at h
  · cases h
  · cases h
    rw [List.length_drop]
    exact Nat.sub_le _ _

theorem length_substream {wireType : BitVec 32} {stream sub rest : Bytes}
    (h : substream wireType stream = some (sub, rest)) : rest.length ≤ stream.length := by
  unfold substream at h
  split at h
  · obtain ⟨⟨size, stream'⟩, hvarint, hread⟩ := Option.bind_eq_some_iff.mp h
    exact Nat.le_trans (length_pbRead hread) (Nat.le_of_lt (length_pbDecodeVarint32 hvarint))
  · split at h
    · exact length_readRawVarint h
    · split at h
      · exact length_pbRead h
      · split at h
        · exact length_pbRead h
        · cases h

omit [DecidableEq α] in
theorem length_member {member : InMember σ} {stream rest : Bytes} {s : σ}
    (h : (member.decode stream s).1 = some rest) : rest.length ≤ stream.length := by
  have hvarint : ∀ {value : BitVec 64} {rest : Bytes},
      pbDecodeVarint stream = some (value, rest) → rest.length ≤ stream.length :=
    fun h => Nat.le_of_lt (length_varint64Loop h)
  cases member with
  | int32 data =>
      rw [InMember.decode] at h
      split at h
      · cases h
      · rename_i value stream' hv
        cases h
        exact hvarint hv
  | bool data =>
      rw [InMember.decode] at h
      split at h
      · cases h
      · rename_i value stream' hv
        cases (Option.ite_none_right_eq_some.mp h).2
        exact hvarint hv
  | uenum data =>
      rw [InMember.decode] at h
      split at h
      · cases h
      · rename_i value stream' hv
        cases (Option.ite_none_right_eq_some.mp h).2
        exact hvarint hv

theorem length_decodeField {field : InField α σ} {wireType : BitVec 32} {stream rest : Bytes}
    {r r' : NanoPBDecoder α σ} (h : decodeField field wireType stream r = (some rest, r')) :
    rest.length ≤ stream.length := by
  have hfst := congrArg Prod.fst h
  cases field with
  | required tag member =>
      rw [decodeField] at hfst
      exact length_member hfst
  | optional tag has member =>
      rw [decodeField] at hfst
      exact length_member hfst
  | callback tag arg =>
      rw [decodeField] at h
      split at h
      · exact length_pbSkipField (Prod.mk.inj h).1
      · split at h
        · cases h
        · rename_i sub stream' hsub
          cases h
          exact length_substream hsub

/-- As many fields as there are bytes may be read, so that a larger bound changes nothing. -/
theorem decodeLoop_of_length_le (fields : List (InField α σ)) {k : Nat} {stream : Bytes}
    (h : stream.length ≤ k) (seen : List (BitVec 32)) (r : NanoPBDecoder α σ) :
    decodeLoop fields k seen stream r = decodeLoop fields stream.length seen stream r := by
  induction k using Nat.strongRecOn generalizing stream seen r with
  | ind k ih =>
      cases stream with
      | nil => cases k <;> rfl
      | cons byte stream =>
          cases k with
          | zero => cases h
          | succ k =>
              rw [List.length_cons] at h ⊢
              -- both sides go on with what is left, which is less than `k` bytes
              have hgo : ∀ {rest : Bytes} (seen : List (BitVec 32)) (r : NanoPBDecoder α σ),
                  rest.length < stream.length + 1 →
                  decodeLoop fields k seen rest r = decodeLoop fields stream.length seen rest r := by
                intro rest seen r hrest
                rw [ih k (Nat.lt_succ_self k) (by omega), ih stream.length (by omega) (by omega)]
              rw [decodeLoop, decodeLoop]
              cases htag : pbDecodeTag (byte :: stream) with
              | eof => rfl
              | error => rfl
              | field wireType tag rest =>
                  have hrest := length_pbDecodeTag htag
                  dsimp only
                  cases fields.find? fun field => field.tag = tag with
                  | none =>
                      dsimp only
                      cases hskip : pbSkipField wireType rest with
                      | none => rfl
                      | some rest' =>
                          exact hgo seen r (Nat.lt_of_le_of_lt (length_pbSkipField hskip) hrest)
                  | some field =>
                      dsimp only
                      cases hfield : decodeField field wireType rest r with
                      | mk stream' r' =>
                          cases stream' with
                          | none => rfl
                          | some rest' =>
                              exact hgo _ r'
                                (Nat.lt_of_le_of_lt (length_decodeField hfield) hrest)

end OpenVoice.Nanopb
