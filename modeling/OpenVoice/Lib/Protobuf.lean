import Mathlib.Algebra.Group.Nat.Defs
import OpenVoice.Lib.Varint

/-!
# The wire format of protocol buffers

A message is a list of records, each a field number with its payload.  How a payload is to be
read is not on the wire: the reader knows the type of every field.  If a field is met twice,
the last one counts.
-/

namespace OpenVoice.Lib.Protobuf

inductive Payload where
  | varint (n : Nat)
  | fixed64 (n : Nat)
  | len (data : List (BitVec 8))
  | fixed32 (n : Nat)
deriving DecidableEq, Repr

structure Record where
  number : Nat
  payload : Payload
deriving DecidableEq, Repr

/-! ### Numbers of fixed length -/

/-- The lowest byte stands first. -/
def octets : Nat → Nat → List (BitVec 8)
  | 0, _ => []
  | k + 1, n => BitVec.ofNat 8 n :: octets k (n / 256)

def ofOctets : List (BitVec 8) → Nat
  | [] => 0
  | b :: l => b.toNat + 256 * ofOctets l

@[simp] theorem length_octets (k n : Nat) : (octets k n).length = k := by
  induction k generalizing n with
  | zero => rfl
  | succ k ih => rw [octets, List.length_cons, ih]

theorem ofOctets_octets {k n : Nat} (h : n < 256 ^ k) : ofOctets (octets k n) = n := by
  induction k generalizing n with
  | zero =>
      rw [Nat.pow_zero] at h
      exact (Nat.lt_one_iff.mp h).symm
  | succ k ih =>
      have hdiv : n / 256 < 256 ^ k := by
        rw [Nat.pow_succ] at h
        exact (Nat.div_lt_iff_lt_mul (by decide)).mpr h
      rw [octets, ofOctets, ih hdiv, BitVec.toNat_ofNat]
      exact Nat.mod_add_div n 256

/-! ### Records -/

namespace Payload

def wireType : Payload → Nat
  | varint _ => 0
  | fixed64 _ => 1
  | len _ => 2
  | fixed32 _ => 5

def encode : Payload → List (BitVec 8)
  | varint n => Varint.encode n
  | fixed64 n => octets 8 n
  | len data => Varint.encode data.length ++ data
  | fixed32 n => octets 4 n

/-- The groups of wire types 3 and 4 are not read. -/
def decode (wireType : Nat) (l : List (BitVec 8)) : Option (Payload × List (BitVec 8)) :=
  match wireType with
  | 0 => (Varint.decode l).map fun r => (varint r.1, r.2)
  | 1 => if l.length < 8 then none else some (fixed64 (ofOctets (l.take 8)), l.drop 8)
  | 2 => (Varint.decode l).bind fun r =>
      if r.2.length < r.1 then none else some (len (r.2.take r.1), r.2.drop r.1)
  | 5 => if l.length < 4 then none else some (fixed32 (ofOctets (l.take 4)), l.drop 4)
  | _ => none

/-- A number of fixed length fits its length. -/
def Fits : Payload → Prop
  | fixed64 n => n < 256 ^ 8
  | fixed32 n => n < 256 ^ 4
  | _ => True

theorem wireType_lt (p : Payload) : p.wireType < 8 := by
  cases p with
  | varint _ => exact (by decide : 0 < 8)
  | fixed64 _ => exact (by decide : 1 < 8)
  | len _ => exact (by decide : 2 < 8)
  | fixed32 _ => exact (by decide : 5 < 8)

theorem decode_encode_append {p : Payload} (h : p.Fits) (l : List (BitVec 8)) :
    decode p.wireType (p.encode ++ l) = some (p, l) := by
  cases p with
  | varint n =>
      rw [wireType, encode, decode, Varint.decode_encode_append, Option.map_some]
  | fixed64 n =>
      have htake : (octets 8 n ++ l).take 8 = octets 8 n := List.take_left' (length_octets 8 n)
      have hdrop : (octets 8 n ++ l).drop 8 = l := List.drop_left' (length_octets 8 n)
      rw [wireType, encode, decode, if_neg, htake, hdrop, ofOctets_octets h]
      simp
  | len data =>
      rw [wireType, encode, decode, List.append_assoc, Varint.decode_encode_append,
        Option.bind_some, if_neg, List.take_left, List.drop_left]
      simp
  | fixed32 n =>
      have htake : (octets 4 n ++ l).take 4 = octets 4 n := List.take_left' (length_octets 4 n)
      have hdrop : (octets 4 n ++ l).drop 4 = l := List.drop_left' (length_octets 4 n)
      rw [wireType, encode, decode, if_neg, htake, hdrop, ofOctets_octets h]
      simp

end Payload

namespace Record

def encode (r : Record) : List (BitVec 8) :=
  Varint.encode (8 * r.number + r.payload.wireType) ++ r.payload.encode

/-- There is no field of the number 0. -/
def decode (l : List (BitVec 8)) : Option (Record × List (BitVec 8)) :=
  (Varint.decode l).bind fun tag =>
    if tag.1 / 8 = 0 then none
    else (Payload.decode (tag.1 % 8) tag.2).map fun r => (⟨tag.1 / 8, r.1⟩, r.2)

structure WellFormed (r : Record) : Prop where
  pos : 0 < r.number
  fits : r.payload.Fits

theorem encode_ne_nil (r : Record) : r.encode ≠ [] :=
  List.append_ne_nil_of_left_ne_nil (Varint.encode_ne_nil _) _

theorem decode_encode_append {r : Record} (h : r.WellFormed) (l : List (BitVec 8)) :
    decode (r.encode ++ l) = some (r, l) := by
  have hwt := r.payload.wireType_lt
  have hnumber : (8 * r.number + r.payload.wireType) / 8 = r.number := by omega
  have hmod : (8 * r.number + r.payload.wireType) % 8 = r.payload.wireType := by omega
  have hpos := h.pos
  rw [encode, decode, List.append_assoc, Varint.decode_encode_append, Option.bind_some]
  simp only [hnumber, hmod]
  rw [if_neg (by omega), Payload.decode_encode_append h.fits, Option.map_some]

end Record

/-! ### Messages -/

def encode (rs : List Record) : List (BitVec 8) := rs.flatMap Record.encode

/-- At most `k` records are read. -/
def decodeUpTo : Nat → List (BitVec 8) → Option (List Record)
  | _, [] => some []
  | 0, _ :: _ => none
  | k + 1, b :: l =>
      (Record.decode (b :: l)).bind fun r => (decodeUpTo k r.2).map (r.1 :: ·)

/-- There are no more records than bytes. -/
def decode (l : List (BitVec 8)) : Option (List Record) := decodeUpTo l.length l

variable {rs rs' : List Record}

@[simp] theorem encode_nil : encode [] = [] := rfl

@[simp] theorem encode_cons (r : Record) (rs : List Record) :
    encode (r :: rs) = r.encode ++ encode rs := List.flatMap_cons

@[simp] theorem encode_append (rs rs' : List Record) :
    encode (rs ++ rs') = encode rs ++ encode rs' := List.flatMap_append

theorem decodeUpTo_encode (hrs : ∀ r ∈ rs, r.WellFormed) {k : Nat} (hk : rs.length ≤ k) :
    decodeUpTo k (encode rs) = some rs := by
  induction rs generalizing k with
  | nil => cases k <;> rfl
  | cons r rs ih =>
      obtain ⟨b, l, hbl⟩ := List.exists_cons_of_ne_nil r.encode_ne_nil
      cases k with
      | zero => exact absurd hk (Nat.not_succ_le_zero _)
      | succ k =>
          have hr := Record.decode_encode_append (hrs r (List.mem_cons_self ..)) (encode rs)
          have htail := ih (fun r' h' => hrs r' (List.mem_cons_of_mem _ h'))
            (Nat.le_of_succ_le_succ hk)
          rw [encode_cons]
          rw [hbl, List.cons_append] at hr ⊢
          rw [decodeUpTo, hr, Option.bind_some, htail, Option.map_some]

theorem length_le_length_encode (rs : List Record) : rs.length ≤ (encode rs).length := by
  induction rs with
  | nil => exact Nat.le_refl _
  | cons r rs ih =>
      have hr := List.length_pos_iff.mpr r.encode_ne_nil
      rw [encode_cons, List.length_append, List.length_cons]
      omega

theorem decode_encode (hrs : ∀ r ∈ rs, r.WellFormed) : decode (encode rs) = some rs :=
  decodeUpTo_encode hrs (length_le_length_encode rs)

/-! ### Fields -/

/-- The last payload of a field. -/
def last (number : Nat) : List Record → Option Payload
  | [] => none
  | r :: rs => (last number rs).or (if r.number = number then some r.payload else none)

namespace Payload

variable {w : BitVec 32} {v : BitVec 64}

def int32 : Payload → Option (BitVec 32)
  | varint n => some (BitVec.ofNat 32 n)
  | _ => none

def uint64 : Payload → Option (BitVec 64)
  | varint n => some (BitVec.ofNat 64 n)
  | _ => none

def bool : Payload → Option Bool
  | varint n => some (n != 0)
  | _ => none

/-- The bits of a `float`. -/
def float : Payload → Option (BitVec 32)
  | fixed32 n => some (BitVec.ofNat 32 n)
  | _ => none

def bytes : Payload → Option (List (BitVec 8))
  | len data => some data
  | _ => none

/-- A negative number is widened before it is written. -/
def ofInt32 (w : BitVec 32) : Payload := varint (w.signExtend 64).toNat

def ofUInt32 (w : BitVec 32) : Payload := varint w.toNat

def ofUInt64 (v : BitVec 64) : Payload := varint v.toNat

def ofBool (b : Bool) : Payload := varint b.toNat

def ofFloat (w : BitVec 32) : Payload := fixed32 w.toNat

@[simp] theorem int32_ofInt32 : int32 (ofInt32 w) = some w := by
  have hbits : (w.signExtend 64).setWidth 32 = w := by
    ext i hi
    have h64 : i < 64 := by omega
    rw [BitVec.getElem_setWidth, BitVec.getLsbD_eq_getElem h64, BitVec.getElem_signExtend,
      dif_pos hi]
  rw [ofInt32, int32, BitVec.ofNat_toNat, hbits]

@[simp] theorem int32_ofUInt32 : int32 (ofUInt32 w) = some w := by
  rw [ofUInt32, int32, BitVec.ofNat_toNat, BitVec.setWidth_eq]

@[simp] theorem uint64_ofUInt64 : uint64 (ofUInt64 v) = some v := by
  rw [ofUInt64, uint64, BitVec.ofNat_toNat, BitVec.setWidth_eq]

@[simp] theorem bool_ofBool (b : Bool) : bool (ofBool b) = some b := by cases b <;> rfl

@[simp] theorem float_ofFloat : float (ofFloat w) = some w := by
  rw [ofFloat, float, BitVec.ofNat_toNat, BitVec.setWidth_eq]

@[simp] theorem bytes_len (data : List (BitVec 8)) : bytes (len data) = some data := rfl

@[simp] theorem fits_ofInt32 : (ofInt32 w).Fits := trivial

@[simp] theorem fits_ofUInt32 : (ofUInt32 w).Fits := trivial

@[simp] theorem fits_ofUInt64 : (ofUInt64 v).Fits := trivial

@[simp] theorem fits_ofBool (b : Bool) : (ofBool b).Fits := trivial

@[simp] theorem fits_ofFloat : (ofFloat w).Fits := w.isLt

@[simp] theorem fits_len (data : List (BitVec 8)) : (len data).Fits := trivial

end Payload

section read

variable {α : Type} (read : Payload → Option α) (number : Nat)

/-- A field that has to be there. -/
def requiredField (rs : List Record) : Option α := (last number rs).bind read

/-- A field that need not be there, but has to be readable. -/
def optionalField (rs : List Record) : Option (Option α) :=
  match last number rs with
  | none => some none
  | some p => (read p).map some

end read

/-! ### Messages given by their fields -/

/-- The records of the fields that are there. -/
def records (fs : List (Nat × Option Payload)) : List Record :=
  fs.filterMap fun f => f.2.map (Record.mk f.1)

variable {fs : List (Nat × Option Payload)} {number : Nat} {p : Option Payload}

theorem records_cons (f : Nat × Option Payload) (fs : List (Nat × Option Payload)) :
    records (f :: fs) = (f.2.map (Record.mk f.1)).toList ++ records fs := by
  rw [records, List.filterMap_cons]
  cases f.2 <;> rfl

theorem last_append (number : Nat) (rs rs' : List Record) :
    last number (rs ++ rs') = (last number rs').or (last number rs) := by
  induction rs with
  | nil => rw [List.nil_append, last, Option.or_none]
  | cons r rs ih => rw [List.cons_append, last, last, ih, Option.or_assoc]

theorem last_records_of_notMem (h : number ∉ fs.map Prod.fst) : last number (records fs) = none := by
  induction fs with
  | nil => rfl
  | cons f fs ih =>
      rw [List.map_cons, List.mem_cons, not_or] at h
      rw [records_cons, last_append, ih h.2, Option.none_or]
      cases f.2 with
      | none => rfl
      | some q => exact if_neg (Ne.symm h.1)

/-- Every field of a message is found. -/
theorem last_records (hnodup : (fs.map Prod.fst).Nodup) (h : (number, p) ∈ fs) :
    last number (records fs) = p := by
  induction fs with
  | nil => cases h
  | cons f fs ih =>
      rw [List.map_cons, List.nodup_cons] at hnodup
      rw [records_cons, last_append]
      cases List.mem_cons.mp h with
      | inl hf =>
          subst hf
          rw [last_records_of_notMem hnodup.1, Option.none_or]
          cases p with
          | none => rfl
          | some q => exact if_pos rfl
      | inr hfs =>
          have hne : f.1 ≠ number := fun he =>
            hnodup.1 (he ▸ List.mem_map.mpr ⟨(number, p), hfs, rfl⟩)
          have hhead : last number (f.2.map (Record.mk f.1)).toList = none := by
            cases f.2 with
            | none => rfl
            | some q => exact if_neg hne
          rw [ih hnodup.2 hfs, hhead, Option.or_none]

section read

variable {α : Type} {read : Payload → Option α}

theorem requiredField_records {q : Payload} (hnodup : (fs.map Prod.fst).Nodup) (i : Nat)
    (h : fs[i]? = some (number, some q)) : requiredField read number (records fs) = read q := by
  rw [requiredField, last_records hnodup (List.mem_of_getElem? h), Option.bind_some]

theorem optionalField_records {write : α → Payload} {o : Option α} (hnodup : (fs.map Prod.fst).Nodup)
    (i : Nat) (h : fs[i]? = some (number, o.map write)) (hread : ∀ a, read (write a) = some a) :
    optionalField read number (records fs) = some o := by
  rw [optionalField, last_records hnodup (List.mem_of_getElem? h)]
  cases o with
  | none => rfl
  | some a => exact congrArg (Option.map some) (hread a)

end read

theorem decode_encode_records (h : ∀ f ∈ fs, 0 < f.1 ∧ ∀ q ∈ f.2, Payload.Fits q) :
    decode (encode (records fs)) = some (records fs) := by
  refine decode_encode fun r hr => ?_
  obtain ⟨f, hf, hfr⟩ := List.mem_filterMap.mp hr
  obtain ⟨q, hq, rfl⟩ := Option.map_eq_some_iff.mp hfr
  exact ⟨(h f hf).1, (h f hf).2 q hq⟩

end OpenVoice.Lib.Protobuf
