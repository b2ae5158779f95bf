import OpenVoice.Lib.Protobuf
import OpenVoice.Nanopb.Decode

/-!
# What the decoder makes of a message

A message on the wire is the encoding of a list of records.  `pb_decode` takes the records one
after the other: it skips those whose number it does not know, and writes the others to their
members.  So the state it ends in is a fold over the records (`pbDecode_encode`).
-/

namespace OpenVoice.Nanopb

open Lib Lib.Protobuf

/-! ### Varints -/

/-- The seven bits of a byte, and its high bit. -/
theorem byte_bits : ∀ m < 128,
    BitVec.ofNat 8 m &&& 0x80 = 0 ∧ BitVec.ofNat 8 m &&& 0x7F = BitVec.ofNat 8 m ∧
      BitVec.ofNat 8 (m + 128) &&& 0x80 ≠ 0 ∧
      BitVec.ofNat 8 (m + 128) &&& 0x7F = BitVec.ofNat 8 m := by
  decide

theorem setWidth_byte {w m : Nat} (hw : 8 ≤ w) (hm : m < 128) :
    (BitVec.ofNat 8 m).setWidth w = BitVec.ofNat w m := by
  apply BitVec.eq_of_toNat_eq
  have hpow : 2 ^ 8 ≤ 2 ^ w := Nat.pow_le_pow_right (by decide) hw
  have hm' : m < 2 ^ w := by omega
  rw [BitVec.toNat_setWidth, BitVec.toNat_ofNat, BitVec.toNat_ofNat,
    Nat.mod_eq_of_lt (by omega : m < 2 ^ 8)]

/-- The lowest seven bits, and the others seven places further up. -/
theorem shift_or_shift (w n k : Nat) :
    BitVec.ofNat w (n % 128) <<< k ||| BitVec.ofNat w (n / 128) <<< (k + 7) =
      BitVec.ofNat w n <<< k := by
  apply BitVec.eq_of_getLsbD_eq
  intro i hi
  have hmod : (n % 128).testBit (i - k) = (decide (i - k < 7) && n.testBit (i - k)) :=
    Nat.testBit_mod_two_pow n 7 (i - k)
  have hdiv : (n / 128).testBit (i - (k + 7)) = n.testBit (i - (k + 7) + 7) :=
    Nat.testBit_div_two_pow (n := 7) n (i - (k + 7))
  rw [BitVec.getLsbD_or, BitVec.getLsbD_shiftLeft, BitVec.getLsbD_shiftLeft,
    BitVec.getLsbD_shiftLeft, BitVec.getLsbD_ofNat, BitVec.getLsbD_ofNat, BitVec.getLsbD_ofNat,
    hmod, hdiv]
  rcases Nat.lt_or_ge i k with hk | hk
  · simp [hk, Nat.lt_add_right 7 hk]
  · rcases Nat.lt_or_ge i (k + 7) with hk' | hk'
    · have hlt : i - k < 7 := by omega
      simp [hi, hk', Nat.not_lt.mpr hk, hlt, Nat.lt_of_le_of_lt (Nat.sub_le i k) hi]
    · have hge : ¬ i - k < 7 := by omega
      have heq : i - (k + 7) + 7 = i - k := by omega
      simp [hi, Nat.not_lt.mpr hk', Nat.not_lt.mpr hk, hge, heq,
        Nat.lt_of_le_of_lt (Nat.sub_le i k) hi, Nat.lt_of_le_of_lt (Nat.sub_le i (k + 7)) hi]

/-- `k` bytes have been read. -/
theorem varint64Loop_encode {n k : Nat} (hk : 7 * k < 64) (hn : n * 128 ^ k < 2 ^ 64) (l : Bytes)
    (result : BitVec 64) :
    varint64Loop (Varint.encode n ++ l) (BitVec.ofNat 8 (7 * k)) result =
      some (result ||| BitVec.ofNat 64 n <<< (7 * k), l) := by
  have hpos : (BitVec.ofNat 8 (7 * k)).toNat = 7 * k := by
    rw [BitVec.toNat_ofNat]
    exact Nat.mod_eq_of_lt (by omega)
  have hroom : ¬ (64 : BitVec 8) ≤ BitVec.ofNat 8 (7 * k) := by
    rw [BitVec.le_def, hpos, show (64 : BitVec 8).toNat = 64 from rfl]
    omega
  induction n using Varint.encode.induct generalizing k result with
  | case1 n h =>
      obtain ⟨hhigh, hlow, -, -⟩ := byte_bits n h
      rw [Varint.encode_of_lt h, List.singleton_append, varint64Loop, if_neg hroom, hlow,
        setWidth_byte (by decide) h]
      simp only [hhigh, ne_eq, not_true_eq_false, if_false]
      rw [BitVec.shiftLeft_eq', hpos]
  | case2 n h ih =>
      have hle : 128 ≤ n := Nat.not_lt.mp h
      obtain ⟨-, -, hhigh, hlow⟩ := byte_bits (n % 128) (Nat.mod_lt n (by decide))
      have hn' : n / 128 * 128 ^ (k + 1) < 2 ^ 64 := by
        rw [Nat.pow_succ, Nat.mul_comm (128 ^ k), ← Nat.mul_assoc]
        exact Nat.lt_of_le_of_lt (Nat.mul_le_mul_right _ (Nat.div_mul_le_self n 128)) hn
      have hk' : 7 * (k + 1) < 64 := by
        have hdiv : 1 ≤ n / 128 := by omega
        have hpow : 128 ^ (k + 1) < 2 ^ 64 :=
          Nat.lt_of_le_of_lt (Nat.le_mul_of_pos_left _ hdiv) hn'
        rw [show (128 : Nat) = 2 ^ 7 from rfl, ← Nat.pow_mul] at hpow
        exact (Nat.pow_lt_pow_iff_right (by decide)).mp hpow
      have hpos' : (BitVec.ofNat 8 (7 * (k + 1))).toNat = 7 * (k + 1) := by
        rw [BitVec.toNat_ofNat]
        exact Nat.mod_eq_of_lt (by omega)
      have hroom' : ¬ (64 : BitVec 8) ≤ BitVec.ofNat 8 (7 * (k + 1)) := by
        rw [BitVec.le_def, hpos', show (64 : BitVec 8).toNat = 64 from rfl]
        omega
      have hnext : BitVec.ofNat 8 (7 * k) + 7 = BitVec.ofNat 8 (7 * (k + 1)) := by
        apply BitVec.eq_of_toNat_eq
        rw [BitVec.toNat_add, hpos, hpos', show (7 : BitVec 8).toNat = 7 from rfl]
        omega
      rw [Varint.encode_of_le hle, List.cons_append, varint64Loop, if_neg hroom, hlow,
        setWidth_byte (by decide) (Nat.mod_lt n (by decide))]
      simp only [hhigh, ne_eq, not_false_eq_true, if_true]
      rw [hnext, ih hk' hn' _ hpos' hroom', BitVec.shiftLeft_eq', hpos, BitVec.or_assoc,
        show 7 * (k + 1) = 7 * k + 7 from rfl, shift_or_shift]

theorem pbDecodeVarint_encode {n : Nat} (hn : n < 2 ^ 64) (l : Bytes) :
    pbDecodeVarint (Varint.encode n ++ l) = some (BitVec.ofNat 64 n, l) := by
  have hloop := varint64Loop_encode (k := 0) (by decide) (by simpa using hn) l 0
  rw [pbDecodeVarint]
  simpa using hloop

/-- `k` bytes have been read, the first one among them. -/
theorem varint32Loop_encode {n k : Nat} (hk : k < 5) (hn : n * 128 ^ k < 2 ^ 32)
    (l : Bytes) (result : BitVec 32) :
    varint32Loop (Varint.encode n ++ l) (BitVec.ofNat 8 (7 * k)) result =
      some (result ||| BitVec.ofNat 32 n <<< (7 * k), l) := by
  have hpos : (BitVec.ofNat 8 (7 * k)).toNat = 7 * k := by
    rw [BitVec.toNat_ofNat]
    exact Nat.mod_eq_of_lt (by omega)
  have hroom : ¬ (32 : BitVec 8) ≤ BitVec.ofNat 8 (7 * k) := by
    rw [BitVec.le_def, hpos, show (32 : BitVec 8).toNat = 32 from rfl]
    omega
  have hnext : BitVec.ofNat 8 (7 * k) + 7 = BitVec.ofNat 8 (7 * (k + 1)) := by
    rw [show 7 * (k + 1) = 7 * k + 7 from rfl, BitVec.ofNat_add]
    rfl
  induction n using Varint.encode.induct generalizing k result with
  | case1 n h =>
      obtain ⟨hhigh, hlow, -, -⟩ := byte_bits n h
      -- the fifth byte has no more than four bits
      have hlast : ¬ (BitVec.ofNat 8 (7 * (k + 1)) = 35 ∧ BitVec.ofNat 8 n &&& 0x70 ≠ 0) := by
        rintro ⟨heq, hne⟩
        have heq' := congrArg BitVec.toNat heq
        rw [BitVec.toNat_ofNat, show (35 : BitVec 8).toNat = 35 from rfl] at heq'
        have hfour : k = 4 := by omega
        subst hfour
        have hsmall : n < 16 := by omega
        have hzero : ∀ m < 16, BitVec.ofNat 8 m &&& 0x70 = 0 := by decide
        exact hne (hzero n hsmall)
      rw [Varint.encode_of_lt h, List.singleton_append, varint32Loop]
      simp only [hroom, false_and, if_false, hlow, hhigh, ne_eq, not_true_eq_false, hnext]
      rw [if_neg hlast, setWidth_byte (by decide) h, BitVec.shiftLeft_eq', hpos]
  | case2 n h ih =>
      have hle : 128 ≤ n := Nat.not_lt.mp h
      obtain ⟨-, -, hhigh, hlow⟩ := byte_bits (n % 128) (Nat.mod_lt n (by decide))
      have hn' : n / 128 * 128 ^ (k + 1) < 2 ^ 32 := by
        rw [Nat.pow_succ, Nat.mul_comm (128 ^ k), ← Nat.mul_assoc]
        exact Nat.lt_of_le_of_lt (Nat.mul_le_mul_right _ (Nat.div_mul_le_self n 128)) hn
      have hk' : k + 1 < 5 := by
        have hdiv : 1 ≤ n / 128 := by omega
        have hpow : 128 ^ (k + 1) < 2 ^ 32 :=
          Nat.lt_of_le_of_lt (Nat.le_mul_of_pos_left _ hdiv) hn'
        rw [show (128 : Nat) = 2 ^ 7 from rfl, ← Nat.pow_mul] at hpow
        have hlt := (Nat.pow_lt_pow_iff_right (by decide)).mp hpow
        omega
      have hpos' : (BitVec.ofNat 8 (7 * (k + 1))).toNat = 7 * (k + 1) := by
        rw [BitVec.toNat_ofNat]
        exact Nat.mod_eq_of_lt (by omega)
      have hroom' : ¬ (32 : BitVec 8) ≤ BitVec.ofNat 8 (7 * (k + 1)) := by
        rw [BitVec.le_def, hpos', show (32 : BitVec 8).toNat = 32 from rfl]
        omega
      have hnext' : BitVec.ofNat 8 (7 * (k + 1)) + 7 = BitVec.ofNat 8 (7 * (k + 1 + 1)) := by
        rw [show 7 * (k + 1 + 1) = 7 * (k + 1) + 7 from rfl, BitVec.ofNat_add (7 * (k + 1))]
        rfl
      rw [Varint.encode_of_le hle, List.cons_append, varint32Loop]
      simp only [hroom, false_and, if_false, hlow, hhigh, ne_eq, not_false_eq_true, if_true, hnext]
      rw [ih hk' hn' _ hpos' hroom' hnext', setWidth_byte (by decide) (Nat.mod_lt n (by decide)),
        BitVec.shiftLeft_eq', hpos, BitVec.or_assoc, show 7 * (k + 1) = 7 * k + 7 from rfl,
        shift_or_shift]

theorem pbDecodeVarint32_encode {n : Nat} (hn : n < 2 ^ 32) (l : Bytes) :
    pbDecodeVarint32 (Varint.encode n ++ l) = some (BitVec.ofNat 32 n, l) := by
  rcases Nat.lt_or_ge n 128 with h | h
  · obtain ⟨hhigh, -, -, -⟩ := byte_bits n h
    rw [Varint.encode_of_lt h, List.singleton_append, pbDecodeVarint32, if_pos hhigh,
      setWidth_byte (by decide) h]
  · obtain ⟨-, -, hhigh, hlow⟩ := byte_bits (n % 128) (Nat.mod_lt n (by decide))
    have hn' : n / 128 * 128 ^ 1 < 2 ^ 32 := by
      rw [Nat.pow_one]
      exact Nat.lt_of_le_of_lt (Nat.div_mul_le_self n 128) hn
    have hloop := varint32Loop_encode (k := 1) (by decide) hn' l (BitVec.ofNat 32 (n % 128))
    rw [Varint.encode_of_le h, List.cons_append, pbDecodeVarint32, if_neg hhigh, hlow,
      setWidth_byte (by decide) (Nat.mod_lt n (by decide))]
    have hshift := shift_or_shift 32 n 0
    rw [Nat.zero_add, BitVec.shiftLeft_zero, BitVec.shiftLeft_zero] at hshift
    rw [← hshift]
    exact hloop

/-! ### Skipping -/

theorem pbSkipVarint_encode (n : Nat) (l : Bytes) :
    pbSkipVarint (Varint.encode n ++ l) = some l := by
  induction n using Varint.encode.induct with
  | case1 n h =>
      obtain ⟨hhigh, -, -, -⟩ := byte_bits n h
      rw [Varint.encode_of_lt h, List.singleton_append, pbSkipVarint, if_neg (not_not.mpr hhigh)]
  | case2 n h ih =>
      obtain ⟨-, -, hhigh, -⟩ := byte_bits (n % 128) (Nat.mod_lt n (by decide))
      rw [Varint.encode_of_le (Nat.not_lt.mp h), List.cons_append, pbSkipVarint, if_pos hhigh, ih]

theorem pbSkip_append (data l : Bytes) : pbSkip data.length (data ++ l) = some l := by
  rw [pbSkip, if_neg (by simp), List.drop_left]

theorem pbRead_append (data l : Bytes) : pbRead data.length (data ++ l) = some (data, l) := by
  rw [pbRead, if_neg (by simp), List.take_left, List.drop_left]

/-- A length is written in a `uint32_t`. -/
def Sized : Payload → Prop
  | .len data => data.length < 2 ^ 32
  | _ => True

instance : (p : Payload) → Decidable (Sized p)
  | .len data => inferInstanceAs (Decidable (data.length < 2 ^ 32))
  | .varint _ | .fixed64 _ | .fixed32 _ => .isTrue trivial

/-- Whatever stands in a field without a meaning is skipped. -/
theorem pbSkipField_encode {p : Payload} (h : Sized p) (l : Bytes) :
    pbSkipField (BitVec.ofNat 32 p.wireType) (p.encode ++ l) = some l := by
  cases p with
  | varint n => exact pbSkipVarint_encode n l
  | fixed64 n =>
      have hskip := pbSkip_append (octets 8 n) l
      rw [length_octets] at hskip
      exact hskip
  | len data =>
      have hvarint := pbDecodeVarint32_encode h (data ++ l)
      have hskip : pbSkipString ((Payload.len data).encode ++ l) = some l := by
        rw [pbSkipString, Payload.encode, List.append_assoc, hvarint, Option.bind_some]
        have hlen : (BitVec.ofNat 32 data.length).toNat = data.length := by
          rw [BitVec.toNat_ofNat]
          exact Nat.mod_eq_of_lt h
        simp only [hlen]
        exact pbSkip_append data l
      exact hskip
  | fixed32 n =>
      have hskip := pbSkip_append (octets 4 n) l
      rw [length_octets] at hskip
      exact hskip

/-! ### Records -/

variable {α σ : Type}

/-- The payload is one the member is read from: its wire type is that of the member, and its value
    is one of the type. -/
def InMember.Reads : InMember σ → Payload → Prop
  | .int32 _, .varint n => n < 2 ^ 64
  | .bool _, .varint n => n < 2
  | .uenum _, .varint n => n < 2 ^ 32
  | _, _ => False

def InField.Reads : InField α σ → Payload → Prop
  | .required _ member, p | .optional _ _ member, p => member.Reads p
  | .callback _ _, .len data => data.length < 2 ^ 32
  | .callback _ _, _ => False

instance : (member : InMember σ) → (p : Payload) → Decidable (member.Reads p)
  | .int32 _, .varint n => inferInstanceAs (Decidable (n < 2 ^ 64))
  | .bool _, .varint n => inferInstanceAs (Decidable (n < 2))
  | .uenum _, .varint n => inferInstanceAs (Decidable (n < 2 ^ 32))
  | .int32 _, .fixed64 _ | .int32 _, .len _ | .int32 _, .fixed32 _ => .isFalse id
  | .bool _, .fixed64 _ | .bool _, .len _ | .bool _, .fixed32 _ => .isFalse id
  | .uenum _, .fixed64 _ | .uenum _, .len _ | .uenum _, .fixed32 _ => .isFalse id

instance : (field : InField α σ) → (p : Payload) → Decidable (field.Reads p)
  | .required _ member, p | .optional _ _ member, p => inferInstanceAs (Decidable (member.Reads p))
  | .callback _ _, .len data => inferInstanceAs (Decidable (data.length < 2 ^ 32))
  | .callback _ _, .varint _ | .callback _ _, .fixed64 _ | .callback _ _, .fixed32 _ => .isFalse id

/-- What is written. -/
def InMember.write : InMember σ → Payload → σ → σ
  | .int32 data, .varint n | .uenum data, .varint n => data (BitVec.ofNat 32 n)
  | .bool data, .varint n => data (BitVec.ofNat 8 n)
  | _, _ => id

theorem InMember.decode_encode {member : InMember σ} {p : Payload} (h : member.Reads p) (l : Bytes)
    (s : σ) : member.decode (p.encode ++ l) s = (some l, member.write p s) := by
  cases p with
  | varint n =>
      cases member with
      | int32 data =>
          have hvarint := pbDecodeVarint_encode h l
          rw [Payload.encode, InMember.decode, hvarint]
          simp only [InMember.write, BitVec.setWidth_ofNat_of_le (by decide : 32 ≤ 64)]
      | bool data =>
          have hn : n < 2 := h
          have hvarint := pbDecodeVarint_encode (by omega : n < 2 ^ 64) l
          rw [Payload.encode, InMember.decode, hvarint]
          have hcases : n = 0 ∨ n = 1 := by omega
          rcases hcases with rfl | rfl
          · rfl
          · rfl
      | uenum data =>
          have hn : n < 2 ^ 32 := h
          have hvarint := pbDecodeVarint_encode (by omega : n < 2 ^ 64) l
          rw [Payload.encode, InMember.decode, hvarint]
          have hclamped : (BitVec.ofNat 64 n).setWidth 32 = BitVec.ofNat 32 n :=
            BitVec.setWidth_ofNat_of_le (by decide) n
          have hback : (BitVec.ofNat 32 n).setWidth 64 = BitVec.ofNat 64 n := by
            apply BitVec.eq_of_toNat_eq
            rw [BitVec.toNat_setWidth, BitVec.toNat_ofNat, BitVec.toNat_ofNat,
              Nat.mod_eq_of_lt hn]
          simp only [hclamped, hback, if_true, InMember.write]
  | fixed64 n => cases member <;> exact h.elim
  | len data => cases member <;> exact h.elim
  | fixed32 n => cases member <;> exact h.elim

theorem pbDecodeTag_encode {number wireType : Nat} (hpos : 0 < number) (hnumber : number < 2 ^ 29)
    (hwt : wireType < 8) (l : Bytes) :
    pbDecodeTag (Varint.encode (8 * number + wireType) ++ l) =
      .field (BitVec.ofNat 32 wireType) (BitVec.ofNat 32 number) l := by
  have htag : (BitVec.ofNat 32 (8 * number + wireType)).toNat = 8 * number + wireType := by
    rw [BitVec.toNat_ofNat]
    exact Nat.mod_eq_of_lt (by omega)
  have hne : BitVec.ofNat 32 (8 * number + wireType) ≠ 0 := by
    intro heq
    rw [heq] at htag
    have hzero : (0 : BitVec 32).toNat = 0 := rfl
    omega
  have hlow : BitVec.ofNat 32 (8 * number + wireType) &&& 7 = BitVec.ofNat 32 wireType := by
    apply BitVec.eq_of_toNat_eq
    have hmod : (8 * number + wireType) &&& 7 = (8 * number + wireType) % 8 :=
      Nat.and_two_pow_sub_one_eq_mod _ 3
    rw [BitVec.toNat_and, htag, show (7 : BitVec 32).toNat = 7 from rfl, hmod, BitVec.toNat_ofNat]
    omega
  have hhigh : BitVec.ofNat 32 (8 * number + wireType) >>> 3 = BitVec.ofNat 32 number := by
    apply BitVec.eq_of_toNat_eq
    rw [BitVec.toNat_ushiftRight, htag, BitVec.toNat_ofNat, Nat.shiftRight_eq_div_pow]
    omega
  rw [pbDecodeTag, pbDecodeVarint32_encode (by omega) l]
  simp only [hne, if_false, hlow, hhigh]

section fields

variable [DecidableEq α]

/-- A record of the field is read. -/
def InField.write : InField α σ → Payload → NanoPBDecoder α σ → NanoPBDecoder α σ
  | .required _ member, p, r => { r with nanopbStruct := member.write p r.nanopbStruct }
  | .optional _ has member, p, r =>
      { r with nanopbStruct := member.write p (has true r.nanopbStruct) }
  | .callback _ arg, .len data, r =>
      match arg r.nanopbStruct with
      | none => r
      | some a => { r with strings := decodeString data a r.strings }
  | .callback _ _, _, r => r

theorem substream_encode {data : Bytes} (h : data.length < 2 ^ 32) (l : Bytes) :
    substream 2 ((Payload.len data).encode ++ l) = some (data, l) := by
  have hlen : (BitVec.ofNat 32 data.length).toNat = data.length := by
    rw [BitVec.toNat_ofNat]
    exact Nat.mod_eq_of_lt h
  rw [substream, if_pos rfl, Payload.encode, List.append_assoc, pbDecodeVarint32_encode h,
    Option.bind_some]
  simp only [hlen]
  exact pbRead_append data l

theorem decodeField_encode {field : InField α σ} {p : Payload} (h : field.Reads p) (l : Bytes)
    (r : NanoPBDecoder α σ) :
    decodeField field (BitVec.ofNat 32 p.wireType) (p.encode ++ l) r =
      (some l, field.write p r) := by
  cases field with
  | required tag member =>
      simp only [decodeField, InMember.decode_encode h, InField.write]
  | optional tag has member =>
      simp only [decodeField, InMember.decode_encode h, InField.write]
  | callback tag arg =>
      cases p with
      | len data =>
          have hwt : BitVec.ofNat 32 (Payload.len data).wireType = 2 := rfl
          have hsub := substream_encode h l
          have hskip := pbSkipField_encode (p := .len data) h l
          simp only [decodeField, InField.write]
          cases arg r.nanopbStruct with
          | none => simp only [hskip]
          | some a => simp only [hwt, hsub]
      | varint n => exact h.elim
      | fixed64 n => exact h.elim
      | fixed32 n => exact h.elim

/-- The field that a record is of. -/
def known (fields : List (InField α σ)) (rec : Protobuf.Record) : Option (InField α σ) :=
  fields.find? fun field => field.tag = BitVec.ofNat 32 rec.number

/-- A record that the decoder can read: a record of a field that it knows has a payload of the
    type of the field. -/
structure Readable (fields : List (InField α σ)) (rec : Protobuf.Record) : Prop where
  pos : 0 < rec.number
  number : rec.number < 2 ^ 29
  sized : Sized rec.payload
  reads : ∀ field, known fields rec = some field → field.Reads rec.payload

omit [DecidableEq α] in
theorem readable_iff {fields : List (InField α σ)} {rec : Protobuf.Record} :
    Readable fields rec ↔ (0 < rec.number ∧ rec.number < 2 ^ 29) ∧ Sized rec.payload ∧
      ∀ field ∈ known fields rec, field.Reads rec.payload :=
  ⟨fun h => ⟨⟨h.pos, h.number⟩, h.sized, h.reads⟩, fun h => ⟨h.1.1, h.1.2, h.2.1, h.2.2⟩⟩

instance (fields : List (InField α σ)) (rec : Protobuf.Record) : Decidable (Readable fields rec) :=
  decidable_of_iff _ readable_iff.symm

/-- What one record does. -/
def readRecord (fields : List (InField α σ)) (r : NanoPBDecoder α σ) (rec : Protobuf.Record) :
    NanoPBDecoder α σ :=
  match known fields rec with
  | none => r
  | some field => field.write rec.payload r

/-- **The loop of `pb_decode`**: the records are read one after the other. -/
theorem decodeLoop_encode {fields : List (InField α σ)} {rs : List Protobuf.Record}
    (hrs : ∀ rec ∈ rs, Readable fields rec) {k : Nat} (hk : rs.length ≤ k)
    (seen : List (BitVec 32)) (r : NanoPBDecoder α σ) :
    ∃ seen', decodeLoop fields k seen (Protobuf.encode rs) r =
        (some seen', rs.foldl (readRecord fields) r) ∧
      ∀ tag, tag ∈ seen' ↔
        tag ∈ seen ∨ ∃ rec ∈ rs, (known fields rec).isSome ∧ BitVec.ofNat 32 rec.number = tag := by
  induction rs generalizing k seen r with
  | nil =>
      refine ⟨seen, ?_, by simp⟩
      cases k <;> rfl
  | cons rec rs ih =>
      have hrec := hrs rec (List.mem_cons_self ..)
      have hrest : ∀ rec ∈ rs, Readable fields rec :=
        fun rec' hmem => hrs rec' (List.mem_cons_of_mem _ hmem)
      obtain ⟨byte, bytes, hbytes⟩ := List.exists_cons_of_ne_nil rec.encode_ne_nil
      cases k with
      | zero => exact absurd hk (Nat.not_succ_le_zero _)
      | succ k =>
          have hk' : rs.length ≤ k := Nat.le_of_succ_le_succ hk
          have htag := pbDecodeTag_encode hrec.pos hrec.number rec.payload.wireType_lt
            (rec.payload.encode ++ Protobuf.encode rs)
          rw [← List.append_assoc] at htag
          have henc : Varint.encode (8 * rec.number + rec.payload.wireType) ++ rec.payload.encode =
              byte :: bytes := hbytes
          rw [henc, List.cons_append] at htag
          rw [Protobuf.encode_cons, hbytes, List.cons_append, decodeLoop, htag]
          dsimp only
          cases hknown : known fields rec with
          | none =>
              have hfind : (fields.find? fun field => field.tag = BitVec.ofNat 32 rec.number) =
                  none := hknown
              rw [hfind, pbSkipField_encode hrec.sized]
              obtain ⟨seen', hloop, hmem⟩ := ih hrest hk' seen r
              refine ⟨seen', ?_, ?_⟩
              · rw [List.foldl_cons, readRecord, hknown]
                exact hloop
              · intro tag
                rw [hmem tag]
                simp [hknown]
          | some field =>
              have hfind : (fields.find? fun field => field.tag = BitVec.ofNat 32 rec.number) =
                  some field := hknown
              rw [hfind]
              dsimp only
              rw [decodeField_encode (hrec.reads field hknown)]
              obtain ⟨seen', hloop, hmem⟩ :=
                ih hrest hk' (BitVec.ofNat 32 rec.number :: seen) (field.write rec.payload r)
              refine ⟨seen', ?_, ?_⟩
              · rw [List.foldl_cons, readRecord, hknown]
                exact hloop
              · intro tag
                rw [hmem tag]
                constructor
                · rintro (hseen | ⟨rec', hmem', hsome, heq⟩)
                  · rcases List.mem_cons.mp hseen with rfl | hseen
                    · exact .inr ⟨rec, List.mem_cons_self .., by rw [hknown]; rfl, rfl⟩
                    · exact .inl hseen
                  · exact .inr ⟨rec', List.mem_cons_of_mem _ hmem', hsome, heq⟩
                · rintro (hseen | ⟨rec', hmem', hsome, heq⟩)
                  · exact .inl (List.mem_cons_of_mem _ hseen)
                  · rcases List.mem_cons.mp hmem' with rfl | hmem'
                    · left
                      rw [heq]
                      exact List.mem_cons_self ..
                    · exact .inr ⟨rec', hmem', hsome, heq⟩

/-- A field that has to be met. -/
def InField.isRequired : InField α σ → Bool
  | .required _ _ => true
  | _ => false

/-- **What `pb_decode` makes of a list of records.**  It succeeds if every required field is
    among them. -/
theorem pbDecode_encode {fields : List (InField α σ)} {rs : List Protobuf.Record}
    (hrs : ∀ rec ∈ rs, Readable fields rec) (r : NanoPBDecoder α σ) :
    ((pbDecode fields (Protobuf.encode rs) r).1 = true ↔
      ∀ field ∈ fields, field.isRequired = true →
        ∃ rec ∈ rs, BitVec.ofNat 32 rec.number = field.tag) ∧
    (pbDecode fields (Protobuf.encode rs) r).2 =
      rs.foldl (readRecord fields)
        { r with nanopbStruct := pbMessageSetToDefaults fields r.nanopbStruct } := by
  obtain ⟨seen, hloop, hseen⟩ := decodeLoop_encode hrs (Protobuf.length_le_length_encode rs) []
    { r with nanopbStruct := pbMessageSetToDefaults fields r.nanopbStruct }
  have hmet : ∀ field ∈ fields,
      (field.tag ∈ seen ↔ ∃ rec ∈ rs, BitVec.ofNat 32 rec.number = field.tag) := by
    intro field hfield
    rw [hseen]
    constructor
    · rintro (hnil | ⟨rec, hmem, -, heq⟩)
      · cases hnil
      · exact ⟨rec, hmem, heq⟩
    · rintro ⟨rec, hmem, heq⟩
      refine .inr ⟨rec, hmem, ?_, heq⟩
      rw [known, List.find?_isSome]
      exact ⟨field, hfield, decide_eq_true heq.symm⟩
  rw [pbDecode, pbDecodeNoinit, hloop]
  refine ⟨?_, rfl⟩
  simp only [List.all_eq_true]
  constructor
  · intro h field hfield hrequired
    have hall := h field hfield
    cases field with
    | required tag member => exact (hmet _ hfield).mp (of_decide_eq_true hall)
    | optional tag has member => cases hrequired
    | callback tag arg => cases hrequired
  · intro h field hfield
    cases field with
    | required tag member => exact decide_eq_true ((hmet _ hfield).mpr (h _ hfield rfl))
    | optional tag has member => rfl
    | callback tag arg => rfl

end fields

end OpenVoice.Nanopb
