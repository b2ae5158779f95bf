import Mathlib.Data.List.Nodup
import OpenVoice.Connection.Types
import OpenVoice.Nanopb.Responses
import OpenVoice.Nanopb.Wire

/-!
# What the getters return

The server may write the fields of a response in any order, write a field more than once, and
write fields that the client does not know.  The getters return the last value of each field.  A
string field is different in one point: an empty string does not replace an earlier one.
-/

namespace OpenVoice.Nanopb

open Lib Lib.Protobuf

variable {α σ β : Type}

/-- The values of a field, in order. -/
def values (number : Nat) (value : Payload → Option β) (rs : List Protobuf.Record) : List β :=
  rs.filterMap fun rec => if rec.number = number then value rec.payload else none

/-- The value of a string field; `decode_string` does not notice an empty one. -/
def nonempty : Payload → Option Bytes
  | .len [] => none
  | .len data => some data
  | _ => none

/-- The field is not of a member that `get` reads. -/
def InMember.Skips (get : σ → β) : InMember σ → Prop
  | .int32 data => ∀ i s, get (data i s) = get s
  | .bool data => ∀ b s, get (data b s) = get s
  | .uenum data => ∀ i s, get (data i s) = get s

def InField.Skips (get : σ → β) : InField α σ → Prop
  | .required _ member => member.Skips get
  | .optional _ has member => (∀ b s, get (has b s) = get s) ∧ member.Skips get
  | .callback _ _ => True

theorem InMember.get_write {get : σ → β} {member : InMember σ} (h : member.Skips get) (p : Payload)
    (s : σ) : get (member.write p s) = get s := by
  cases member with
  | int32 data =>
      cases p with
      | varint n => exact h _ s
      | _ => rfl
  | bool data =>
      cases p with
      | varint n => exact h _ s
      | _ => rfl
  | uenum data =>
      cases p with
      | varint n => exact h _ s
      | _ => rfl

theorem known_eq_some {fields : List (InField α σ)} {rec : Protobuf.Record} {field : InField α σ}
    (h : known fields rec = some field) : field ∈ fields ∧ field.tag = BitVec.ofNat 32 rec.number :=
  ⟨List.mem_of_find?_eq_some h, by simpa using List.find?_some h⟩

theorem number_eq_iff {m n : Nat} (hm : m < 2 ^ 29) (hn : n < 2 ^ 29) :
    BitVec.ofNat 32 m = BitVec.ofNat 32 n ↔ m = n := by
  constructor
  · intro h
    have heq := congrArg BitVec.toNat h
    rw [BitVec.toNat_ofNat, BitVec.toNat_ofNat] at heq
    omega
  · rintro rfl
    rfl

section fields

variable [DecidableEq α] {fields : List (InField α σ)} {rs : List Protobuf.Record} {number : Nat}

theorem InField.get_write {get : σ → β} {field : InField α σ} (h : field.Skips get) (p : Payload)
    (r : NanoPBDecoder α σ) : get (field.write p r).nanopbStruct = get r.nanopbStruct := by
  cases field with
  | required tag member => exact InMember.get_write h p r.nanopbStruct
  | optional tag has member =>
      exact (InMember.get_write h.2 p (has true r.nanopbStruct)).trans (h.1 true r.nanopbStruct)
  | callback tag arg =>
      cases p with
      | len data =>
          rw [InField.write]
          split
          · rfl
          · rfl
      | _ => rfl

/-- **A getter returns the last value of its field.**  `keep` is what every record keeps. -/
theorem get_foldl (get : NanoPBDecoder α σ → β) (value : Payload → Option β) (number : Nat)
    (keep : NanoPBDecoder α σ → Prop) (hrs : ∀ rec ∈ rs, Readable fields rec)
    (hkeep : ∀ rec r, keep r → keep (readRecord fields r rec))
    (hget : ∀ rec r, Readable fields rec → keep r → get (readRecord fields r rec) =
      (if rec.number = number then value rec.payload else none).getD (get r))
    {r : NanoPBDecoder α σ} (hr : keep r) :
    get (rs.foldl (readRecord fields) r) = (values number value rs).getLast?.getD (get r) := by
  have hboth : keep (rs.foldl (readRecord fields) r) ∧
      get (rs.foldl (readRecord fields) r) = (values number value rs).getLast?.getD (get r) := by
    induction rs using List.reverseRecOn with
    | nil => exact ⟨hr, rfl⟩
    | append_singleton rs rec ih =>
        obtain ⟨ihkeep, ihget⟩ := ih fun rec' hmem => hrs rec' (List.mem_append_left _ hmem)
        have hrec := hrs rec (List.mem_append_right _ (List.mem_singleton_self rec))
        rw [List.foldl_append, List.foldl_cons, List.foldl_nil]
        refine ⟨hkeep _ _ ihkeep, ?_⟩
        rw [hget rec _ hrec ihkeep, ihget, values, values, List.filterMap_append,
          List.filterMap_cons, List.filterMap_nil]
        cases (if rec.number = number then value rec.payload else none : Option β) with
        | none => rw [List.append_nil, Option.getD_none]
        | some b => simp
  exact hboth.2

/-- What a record does to a getter, if no other field is read by it. -/
theorem get_readRecord (get : NanoPBDecoder α σ → β) (value : Payload → Option β)
    {field : InField α σ} {rec : Protobuf.Record} {r : NanoPBDecoder α σ}
    (hnodup : (fields.map InField.tag).Nodup) (hnumber : number < 2 ^ 29) (hmem : field ∈ fields)
    (htag : field.tag = BitVec.ofNat 32 number) (hrec : Readable fields rec)
    (hown : ∀ p, field.Reads p → get (field.write p r) = (value p).getD (get r))
    (hother : ∀ f ∈ fields, f.tag ≠ field.tag → ∀ p, get (f.write p r) = get r) :
    get (readRecord fields r rec) =
      (if rec.number = number then value rec.payload else none).getD (get r) := by
  rw [readRecord]
  cases hknown : known fields rec with
  | none =>
      have hne : rec.number ≠ number := by
        rintro rfl
        exact List.find?_eq_none.mp hknown field hmem (decide_eq_true htag)
      rw [if_neg hne, Option.getD_none]
  | some f =>
      obtain ⟨hf, hftag⟩ := known_eq_some hknown
      dsimp only
      rcases Decidable.em (rec.number = number) with heq | hne
      · rw [heq, ← htag] at hftag
        have hfield : f = field := List.inj_on_of_nodup_map hnodup hf hmem hftag
        subst hfield
        rw [if_pos heq]
        exact hown _ (hrec.reads f hknown)
      · rw [if_neg hne, Option.getD_none]
        apply hother f hf
        rw [hftag, htag]
        exact fun heq => hne ((number_eq_iff hrec.number hnumber).mp heq)

/-- A member of the struct. -/
theorem get_member (get : σ → β) (value : Payload → Option β) (number : Nat) (field : InField α σ)
    (hrs : ∀ rec ∈ rs, Readable fields rec) (hnodup : (fields.map InField.tag).Nodup)
    (hnumber : number < 2 ^ 29) (hmem : field ∈ fields)
    (htag : field.tag = BitVec.ofNat 32 number)
    (hown : ∀ p (r : NanoPBDecoder α σ), field.Reads p →
      get (field.write p r).nanopbStruct = (value p).getD (get r.nanopbStruct))
    (hother : ∀ f ∈ fields, f.tag ≠ field.tag → f.Skips get) (r : NanoPBDecoder α σ) :
    get (rs.foldl (readRecord fields) r).nanopbStruct =
      (values number value rs).getLast?.getD (get r.nanopbStruct) := by
  refine get_foldl (fun r => get r.nanopbStruct) value number (fun _ => True) hrs
    (fun _ _ _ => trivial) ?_ trivial
  intro rec r hrec _
  exact get_readRecord (fun r => get r.nanopbStruct) value hnodup hnumber hmem htag hrec
    (fun p hp => hown p r hp) (fun f hf hne p => InField.get_write (hother f hf hne) p r)

/-! ### Strings -/

/-- What a field keeps is kept by a record of it. -/
theorem keeps_write {P : σ → Prop} {field : InField α σ} (hf : field.Keeps P) (p : Payload)
    {r : NanoPBDecoder α σ} (h : P r.nanopbStruct) : P (field.write p r).nanopbStruct := by
  have hmember : ∀ {member : InMember σ} {s : σ}, member.Keeps P → P s → P (member.write p s) := by
    intro member s hm hs
    cases member with
    | int32 data =>
        cases p with
        | varint n => exact hm _ s hs
        | _ => exact hs
    | bool data =>
        cases p with
        | varint n => exact hm _ s hs
        | _ => exact hs
    | uenum data =>
        cases p with
        | varint n => exact hm _ s hs
        | _ => exact hs
  cases field with
  | required tag member => exact hmember hf h
  | optional tag has member => exact hmember hf.2 (hf.1 true _ h)
  | callback tag arg =>
      cases p with
      | len data =>
          rw [InField.write]
          split
          · exact h
          · exact h
      | _ => exact h

theorem keeps_readRecord {P : σ → Prop} (hfs : ∀ field ∈ fields, field.Keeps P) (rec : Protobuf.Record)
    {r : NanoPBDecoder α σ} (h : P r.nanopbStruct) : P (readRecord fields r rec).nanopbStruct := by
  rw [readRecord]
  cases hknown : known fields rec with
  | none => exact h
  | some field => exact keeps_write (hfs field (known_eq_some hknown).1) rec.payload h

/-- The callback of a string field writes to the string of that field. -/
def InField.Owns (owner : BitVec 32 → α) (s : σ) : InField α σ → Prop
  | .callback tag arg => arg s = some (owner tag)
  | _ => True

/-- A string. -/
theorem get_string {P : σ → Prop} (owner : BitVec 32 → α) (number : Nat) (field : InField α σ) {a : α}
    (hrs : ∀ rec ∈ rs, Readable fields rec) (hnodup : (fields.map InField.tag).Nodup)
    (hnumber : number < 2 ^ 29) (hmem : field ∈ fields)
    (htag : field.tag = BitVec.ofNat 32 number) (hcallback : ∃ tag arg, field = .callback tag arg)
    (hkeeps : ∀ f ∈ fields, f.Keeps P) (howns : ∀ s, P s → ∀ f ∈ fields, f.Owns owner s)
    (hown : owner field.tag = a)
    (hother : ∀ f ∈ fields, f.tag ≠ field.tag → ∀ tag arg, f = .callback tag arg → owner tag ≠ a)
    {r : NanoPBDecoder α σ} (hr : P r.nanopbStruct) (hnone : r.strings a = none) :
    (rs.foldl (readRecord fields) r).strings a = (values number nonempty rs).getLast? := by
  have hfold := get_foldl (fun r => r.strings a) (fun p => (nonempty p).map some) number
    (fun r => P r.nanopbStruct) hrs (fun rec r h => keeps_readRecord hkeeps rec h) ?_ hr
  · rw [hfold, hnone]
    have hmap : values number (fun p => (nonempty p).map some) rs =
        (values number nonempty rs).map some := by
      rw [values, values, List.map_filterMap]
      refine List.filterMap_congr fun rec _ => ?_
      split
      · rfl
      · rfl
    rw [hmap, List.getLast?_map]
    cases (values number nonempty rs).getLast? with
    | none => rfl
    | some str => rfl
  · intro rec r hrec hP
    refine get_readRecord (fun r => r.strings a) (fun p => (nonempty p).map some) hnodup hnumber
      hmem htag hrec ?_ ?_
    · intro p hp
      obtain ⟨tag, arg, rfl⟩ := hcallback
      have harg : arg r.nanopbStruct = some a := by
        rw [← hown]
        exact howns _ hP _ hmem
      cases p with
      | len data =>
          simp only [InField.write, harg, decodeString]
          cases data with
          | nil => rfl
          | cons b data => simp [nonempty]
      | varint n => exact hp.elim
      | fixed64 n => exact hp.elim
      | fixed32 n => exact hp.elim
    · intro f hf hne p
      cases f with
      | required tag member => rfl
      | optional tag has member => rfl
      | callback tag arg =>
          have harg : arg r.nanopbStruct = some (owner tag) := howns _ hP _ hf
          have hne' : a ≠ owner tag := (hother _ hf hne tag arg rfl).symm
          cases p with
          | len data =>
              simp only [InField.write, harg, decodeString]
              split
              · rfl
              · exact Function.update_of_ne hne' _ _
          | _ => rfl

end fields

/-- A field that has to be there is, if there is a record of its number. -/
theorem required_iff {rs : List Protobuf.Record} {fields : List (InField α σ)} [DecidableEq α]
    (hrs : ∀ rec ∈ rs, Readable fields rec) {number : Nat} (hnumber : number < 2 ^ 29) :
    (∃ rec ∈ rs, BitVec.ofNat 32 rec.number = BitVec.ofNat 32 number) ↔
      ∃ rec ∈ rs, rec.number = number := by
  constructor
  · rintro ⟨rec, hmem, heq⟩
    exact ⟨rec, hmem, (number_eq_iff (hrs rec hmem).number hnumber).mp heq⟩
  · rintro ⟨rec, hmem, heq⟩
    exact ⟨rec, hmem, by rw [heq]⟩

/-- What an `int32` or an enumeration reads. -/
theorem getD_int32 {p : Payload} {b : BitVec 32} :
    (∀ {data : BitVec 32 → σ → σ} {s : σ} {get : σ → BitVec 32}, (∀ i s, get (data i s) = i) →
      (InMember.int32 data).Reads p → get (InMember.write (.int32 data) p s) =
        (Payload.int32 p).getD b) ∧
    ∀ {data : BitVec 32 → σ → σ} {s : σ} {get : σ → BitVec 32}, (∀ i s, get (data i s) = i) →
      (InMember.uenum data).Reads p → get (InMember.write (.uenum data) p s) =
        (Payload.int32 p).getD b := by
  constructor
  · intro data s get hget hp
    cases p with
    | varint n => exact hget _ s
    | _ => exact hp.elim
  · intro data s get hget hp
    cases p with
    | varint n => exact hget _ s
    | _ => exact hp.elim

/-! ### `AuthResponse` -/

namespace AuthResponse

structure Struct where
  result : BitVec 32 := 0
deriving DecidableEq, Repr

def fields : List (InField Empty Struct) :=
  [.required 1 (.uenum fun i s => { s with result := i })]

end AuthResponse

abbrev AuthResponse := NanoPBDecoder Empty AuthResponse.Struct

namespace AuthResponse

def new : AuthResponse := { nanopbStruct := {} }

/-- There are no strings to clear. -/
def parseFromArray (r : AuthResponse) (data : Bytes) : Bool × AuthResponse := pbDecode fields data r

def result (r : AuthResponse) : BitVec 32 := r.nanopbStruct.result

variable {rs : List Protobuf.Record}

theorem parseFromArray_encode (hrs : ∀ rec ∈ rs, Readable fields rec) :
    ((new.parseFromArray (Protobuf.encode rs)).1 = true ↔ ∃ rec ∈ rs, rec.number = 1) ∧
      (new.parseFromArray (Protobuf.encode rs)).2.result =
        (values 1 Payload.int32 rs).getLast?.getD 0 := by
  obtain ⟨hok, hstate⟩ := pbDecode_encode hrs new
  constructor
  · rw [parseFromArray, hok, ← required_iff hrs (by decide)]
    simp only [fields, List.forall_mem_cons, InField.isRequired, InField.tag]
    simp
  · have hget := get_member (fun s : Struct => s.result) Payload.int32 1
      (.required 1 (.uenum fun i s => { s with result := i })) hrs (by decide) (by decide)
      (List.mem_singleton_self _) rfl ?_ ?_
      { new with nanopbStruct := pbMessageSetToDefaults fields new.nanopbStruct }
    · rw [parseFromArray, hstate]
      exact hget
    · intro p r hp
      exact getD_int32.2 (fun _ _ => rfl) hp
    · intro f hf hne
      exact absurd (congrArg InField.tag (List.mem_singleton.mp hf)) hne

/-- `SpeechConnection::handle_auth_result`. -/
def handleAuthResult (message : Bytes) : Bool :=
  let d := new.parseFromArray message
  d.1 && d.2.result = 0

/-- **The server accepts** if the last result it has written is SUCCESS. -/
theorem handleAuthResult_encode (hrs : ∀ rec ∈ rs, Readable fields rec) :
    handleAuthResult (Protobuf.encode rs) = true ↔
      (values 1 Payload.int32 rs).getLast? = some 0 := by
  obtain ⟨hok, hresult⟩ := parseFromArray_encode hrs
  have hvalues : (∃ rec ∈ rs, rec.number = 1) ↔ values 1 Payload.int32 rs ≠ [] := by
    rw [values, ne_eq, List.filterMap_eq_nil_iff]
    push Not
    refine exists_congr fun rec => and_congr_right fun hmem => ?_
    constructor
    · intro hnumber
      rw [if_pos hnumber]
      have hknown : known fields rec = some (.required 1 (.uenum fun i s => { s with result := i })) := by
        simp [known, fields, InField.tag, hnumber]
      have hreads := (hrs rec hmem).reads _ hknown
      cases hp : rec.payload with
      | varint n => simp [Payload.int32]
      | fixed64 n =>
          rw [hp] at hreads
          exact hreads.elim
      | len data =>
          rw [hp] at hreads
          exact hreads.elim
      | fixed32 n =>
          rw [hp] at hreads
          exact hreads.elim
    · intro hsome
      by_contra hne
      exact hsome (if_neg hne)
  rw [handleAuthResult]
  simp only [Bool.and_eq_true, decide_eq_true_eq]
  rw [hok, hresult, hvalues]
  cases hlast : (values 1 Payload.int32 rs).getLast? with
  | none => simp [List.getLast?_eq_none_iff.mp hlast]
  | some b =>
      have hne : values 1 Payload.int32 rs ≠ [] := by
        intro hnil
        rw [hnil] at hlast
        cases hlast
      simp [hne]

end AuthResponse

/-- What the connection makes of a message from the server. -/
def message (data : Bytes) : Message :=
  let d := AuthResponse.new.parseFromArray data
  { data := data, authResult := if d.1 then some d.2.result.toInt else none }

theorem accepted_message (data : Bytes) :
    (message data).accepted = AuthResponse.handleAuthResult data := by
  have hzero : ∀ b : BitVec 32, b.toInt = 0 ↔ b = 0 := by
    intro b
    constructor
    · intro h
      exact BitVec.eq_of_toInt_eq h
    · rintro rfl
      rfl
  rw [message, Message.accepted, AuthResponse.handleAuthResult]
  cases (AuthResponse.new.parseFromArray data).1 with
  | false => rfl
  | true => simp [hzero]

/-! ### `TtsResponse` -/

namespace TtsResponse

/-- The string of a field. -/
def owner (tag : BitVec 32) : Str := if tag = 3 then .text else .voice

/-- The callbacks are as `init_string_field` has left them. -/
def Linked (s : Struct) : Prop := s.text = some .text ∧ s.voice = some .voice

theorem keeps_linked : ∀ f ∈ fields, f.Keeps Linked := by
  intro f hf
  simp only [fields, List.mem_cons, List.not_mem_nil, or_false] at hf
  obtain rfl | rfl | rfl | rfl | rfl := hf
  · exact fun _ _ h => h
  · exact fun _ _ h => h
  · exact trivial
  · exact trivial
  · exact ⟨fun _ _ h => h, fun _ _ h => h⟩

theorem owns_linked (s : Struct) (h : Linked s) : ∀ f ∈ fields, f.Owns owner s := by
  intro f hf
  simp only [fields, List.mem_cons, List.not_mem_nil, or_false] at hf
  obtain rfl | rfl | rfl | rfl | rfl := hf
  · exact trivial
  · exact trivial
  · exact h.1
  · exact h.2
  · exact trivial

variable {rs : List Protobuf.Record}

/-- The state in which the records are read. -/
def start : TtsResponse :=
  { new.clearSuperData with
    nanopbStruct := pbMessageSetToDefaults fields new.clearSuperData.nanopbStruct }

/-- Every string has one field. -/
theorem owner_ne {f f' : InField Str Struct} (hf : f ∈ fields) (hf' : f' ∈ fields)
    (hne : f'.tag ≠ f.tag) (hcallback : ∃ tag arg, f = .callback tag arg) :
    ∀ tag arg, f' = .callback tag arg → owner tag ≠ owner f.tag := by
  rintro tag arg rfl
  obtain ⟨tag', arg', rfl⟩ := hcallback
  simp only [fields, List.mem_cons, List.not_mem_nil, or_false, reduceCtorEq, false_or,
    InField.callback.injEq] at hf hf'
  obtain ⟨rfl, -⟩ | ⟨rfl, -⟩ := hf
  · obtain ⟨rfl, -⟩ | ⟨rfl, -⟩ := hf'
    · exact absurd rfl hne
    · simp [owner, InField.tag]
  · obtain ⟨rfl, -⟩ | ⟨rfl, -⟩ := hf'
    · simp [owner, InField.tag]
    · exact absurd rfl hne

theorem string_encode (hrs : ∀ rec ∈ rs, Readable fields rec) (number : Nat)
    (field : InField Str Struct) (hnumber : number < 2 ^ 29) (hmem : field ∈ fields)
    (htag : field.tag = BitVec.ofNat 32 number)
    (hcallback : ∃ tag arg, field = .callback tag arg) :
    (rs.foldl (readRecord fields) start).strings (owner field.tag) =
      (values number nonempty rs).getLast? := by
  refine get_string owner number field hrs (by decide) hnumber hmem htag hcallback keeps_linked
    owns_linked rfl (fun f hf hne => owner_ne hmem hf hne hcallback) ?_ ?_
  · exact ⟨rfl, rfl⟩
  · exact strings_clearSuperData new _

theorem getters_encode (hrs : ∀ rec ∈ rs, Readable fields rec) :
    getters (rs.foldl (readRecord fields) start) =
      { id := (values 1 Payload.int32 rs).getLast?.getD 0
        result := (values 2 Payload.int32 rs).getLast?.getD 0
        hasVoice := (values 4 nonempty rs).getLast?.isSome
        voice := (values 4 nonempty rs).getLast?
        text := (values 3 nonempty rs).getLast?
        finish := (values 5 Payload.bool rs).getLast?.getD false } := by
  have hid := get_member (fun s : Struct => s.id) Payload.int32 1
    (.required 1 (.int32 fun i s => { s with id := i })) hrs (by decide) (by decide)
    (by simp [fields]) rfl (fun p r hp => getD_int32.1 (fun _ _ => rfl) hp)
    (fun f hf hne => by
      simp only [fields, List.mem_cons, List.not_mem_nil, or_false] at hf
      obtain rfl | rfl | rfl | rfl | rfl := hf
      · exact absurd rfl hne
      · exact fun _ _ => rfl
      · exact trivial
      · exact trivial
      · exact ⟨fun _ _ => rfl, fun _ _ => rfl⟩) start
  have hresult := get_member (fun s : Struct => s.result) Payload.int32 2
    (.required 2 (.uenum fun i s => { s with result := i })) hrs (by decide) (by decide)
    (by simp [fields]) rfl (fun p r hp => getD_int32.2 (fun _ _ => rfl) hp)
    (fun f hf hne => by
      simp only [fields, List.mem_cons, List.not_mem_nil, or_false] at hf
      obtain rfl | rfl | rfl | rfl | rfl := hf
      · exact fun _ _ => rfl
      · exact absurd rfl hne
      · exact trivial
      · exact trivial
      · exact ⟨fun _ _ => rfl, fun _ _ => rfl⟩) start
  have hfinish := get_member (fun s : Struct => s.finish != 0) Payload.bool 5
    (.optional 5 (fun b s => { s with hasFinish := b }) (.bool fun b s => { s with finish := b }))
    hrs (by decide) (by decide) (by simp [fields]) rfl
    (fun p r hp => by
      cases p with
      | varint n =>
          have hn : n < 2 := hp
          obtain rfl | rfl : n = 0 ∨ n = 1 := by omega
          · rfl
          · rfl
      | _ => exact hp.elim)
    (fun f hf hne => by
      simp only [fields, List.mem_cons, List.not_mem_nil, or_false] at hf
      obtain rfl | rfl | rfl | rfl | rfl := hf
      · exact fun _ _ => rfl
      · exact fun _ _ => rfl
      · exact trivial
      · exact trivial
      · exact absurd rfl hne) start
  have htext := string_encode hrs 3 (.callback 3 (·.text)) (by decide) (by simp [fields]) rfl
    ⟨_, _, rfl⟩
  have hvoice := string_encode hrs 4 (.callback 4 (·.voice)) (by decide) (by simp [fields]) rfl
    ⟨_, _, rfl⟩
  generalize rs.foldl (readRecord fields) start = r at hid hresult hfinish htext hvoice ⊢
  have htext' : r.strings .text = (values 3 nonempty rs).getLast? := htext
  have hvoice' : r.strings .voice = (values 4 nonempty rs).getLast? := hvoice
  have hrelease : (releaseVoice r).1 = r.strings .voice ∧
      (releaseText r).1 = r.strings .text := by
    unfold releaseVoice releaseText
    constructor
    · cases r.strings .voice <;> rfl
    · cases r.strings .text <;> rfl
  rw [← htext', ← hvoice', getters, hrelease.1, hrelease.2]
  simp only [Getters.mk.injEq, true_and]
  exact ⟨hid, hresult, rfl, hfinish⟩

/-- **What a `TtsResponse` is parsed into.** -/
theorem parseFromArray_encode (hrs : ∀ rec ∈ rs, Readable fields rec) (history : List Call) :
    ((parseFromArray (history.foldl call new) (Protobuf.encode rs)).1 = true ↔
      (∃ rec ∈ rs, rec.number = 1) ∧ ∃ rec ∈ rs, rec.number = 2) ∧
    (parseFromArray (history.foldl call new) (Protobuf.encode rs)).2.getters =
      { id := (values 1 Payload.int32 rs).getLast?.getD 0
        result := (values 2 Payload.int32 rs).getLast?.getD 0
        hasVoice := (values 4 nonempty rs).getLast?.isSome
        voice := (values 4 nonempty rs).getLast?
        text := (values 3 nonempty rs).getLast?
        finish := (values 5 Payload.bool rs).getLast?.getD false } := by
  obtain ⟨hok, hstate⟩ := pbDecode_encode hrs new.clearSuperData
  rw [parseFromArray_eq, parseFromArray, hok, hstate]
  constructor
  · rw [← required_iff hrs (by decide : 1 < 2 ^ 29), ← required_iff hrs (by decide : 2 < 2 ^ 29)]
    simp only [fields, List.forall_mem_cons, InField.isRequired, InField.tag]
    simp
  · exact getters_encode hrs

end TtsResponse

/-! ### `SpeechResponse` -/

namespace SpeechResponse

/-- The string of a field. -/
def owner (tag : BitVec 32) : Str :=
  if tag = 4 then .asr
  else if tag = 5 then .nlp
  else if tag = 6 then .action
  else if tag = 7 then .extra
  else .voiceTrigger

/-- The callbacks are as `init_string_field` has left them. -/
structure Linked (s : Struct) : Prop where
  asr : s.asr = some .asr
  nlp : s.nlp = some .nlp
  action : s.action = some .action
  extra : s.extra = some .extra
  voiceTrigger : s.voiceTrigger = some .voiceTrigger

theorem keeps_linked : ∀ f ∈ fields, f.Keeps Linked := by
  intro f hf
  simp only [fields, List.mem_cons, List.not_mem_nil, or_false] at hf
  obtain rfl | rfl | rfl | rfl | rfl | rfl | rfl | rfl := hf
  · exact fun _ _ h => ⟨h.asr, h.nlp, h.action, h.extra, h.voiceTrigger⟩
  · exact fun _ _ h => ⟨h.asr, h.nlp, h.action, h.extra, h.voiceTrigger⟩
  · exact fun _ _ h => ⟨h.asr, h.nlp, h.action, h.extra, h.voiceTrigger⟩
  all_goals exact trivial

theorem owns_linked (s : Struct) (h : Linked s) : ∀ f ∈ fields, f.Owns owner s := by
  intro f hf
  simp only [fields, List.mem_cons, List.not_mem_nil, or_false] at hf
  obtain rfl | rfl | rfl | rfl | rfl | rfl | rfl | rfl := hf
  · exact trivial
  · exact trivial
  · exact trivial
  · exact h.asr
  · exact h.nlp
  · exact h.action
  · exact h.extra
  · exact h.voiceTrigger

/-- The tags of the string fields have different strings. -/
theorem owner_injective {tag tag' : BitVec 32} (h : tag ∈ ([4, 5, 6, 7, 11] : List (BitVec 32)))
    (h' : tag' ∈ ([4, 5, 6, 7, 11] : List (BitVec 32))) (hne : tag' ≠ tag) :
    owner tag' ≠ owner tag := by
  have hnodup : (([4, 5, 6, 7, 11] : List (BitVec 32)).map owner).Nodup := by decide
  exact fun heq => hne (List.inj_on_of_nodup_map hnodup h' h heq)

theorem tag_mem {f : InField Str Struct} (hf : f ∈ fields)
    (hcallback : ∃ tag arg, f = .callback tag arg) :
    f.tag ∈ ([4, 5, 6, 7, 11] : List (BitVec 32)) := by
  obtain ⟨tag, arg, rfl⟩ := hcallback
  simp only [fields, List.mem_cons, List.not_mem_nil, or_false, reduceCtorEq, false_or,
    InField.callback.injEq] at hf
  obtain ⟨rfl, -⟩ | ⟨rfl, -⟩ | ⟨rfl, -⟩ | ⟨rfl, -⟩ | ⟨rfl, -⟩ := hf
  all_goals simp [InField.tag]

variable {rs : List Protobuf.Record}

/-- The state in which the records are read. -/
def start : SpeechResponse :=
  { new.clearSuperData with
    nanopbStruct := pbMessageSetToDefaults fields new.clearSuperData.nanopbStruct }

theorem string_encode (hrs : ∀ rec ∈ rs, Readable fields rec) (number : Nat)
    (field : InField Str Struct) (hnumber : number < 2 ^ 29) (hmem : field ∈ fields)
    (htag : field.tag = BitVec.ofNat 32 number)
    (hcallback : ∃ tag arg, field = .callback tag arg) :
    (rs.foldl (readRecord fields) start).strings (owner field.tag) =
      (values number nonempty rs).getLast? := by
  refine get_string owner number field hrs (by decide) hnumber hmem htag hcallback keeps_linked
    owns_linked rfl ?_ ?_ ?_
  · rintro f hf hne tag arg rfl
    exact owner_injective (tag_mem hmem hcallback) (tag_mem hf ⟨tag, arg, rfl⟩) hne
  · exact ⟨rfl, rfl, rfl, rfl, rfl⟩
  · exact strings_clearSuperData new _

theorem getters_encode (hrs : ∀ rec ∈ rs, Readable fields rec) :
    getters (rs.foldl (readRecord fields) start) =
      { id := (values 1 Payload.int32 rs).getLast?.getD 0
        type := (values 2 Payload.int32 rs).getLast?.getD 0
        result := (values 3 Payload.int32 rs).getLast?.getD 0
        asr := (values 4 nonempty rs).getLast?.getD []
        nlp := (values 5 nonempty rs).getLast?.getD []
        action := (values 6 nonempty rs).getLast?.getD []
        extra := (values 7 nonempty rs).getLast?.getD []
        voiceTrigger := (values 11 nonempty rs).getLast?.getD [] } := by
  have hid := get_member (fun s : Struct => s.id) Payload.int32 1
    (.required 1 (.int32 fun i s => { s with id := i })) hrs (by decide) (by decide)
    (by simp [fields]) rfl (fun p r hp => getD_int32.1 (fun _ _ => rfl) hp)
    (fun f hf hne => by
      simp only [fields, List.mem_cons, List.not_mem_nil, or_false] at hf
      obtain rfl | rfl | rfl | rfl | rfl | rfl | rfl | rfl := hf
      · exact absurd rfl hne
      · exact fun _ _ => rfl
      · exact fun _ _ => rfl
      all_goals exact trivial) start
  have htype := get_member (fun s : Struct => s.type) Payload.int32 2
    (.required 2 (.uenum fun i s => { s with type := i })) hrs (by decide) (by decide)
    (by simp [fields]) rfl (fun p r hp => getD_int32.2 (fun _ _ => rfl) hp)
    (fun f hf hne => by
      simp only [fields, List.mem_cons, List.not_mem_nil, or_false] at hf
      obtain rfl | rfl | rfl | rfl | rfl | rfl | rfl | rfl := hf
      · exact fun _ _ => rfl
      · exact absurd rfl hne
      · exact fun _ _ => rfl
      all_goals exact trivial) start
  have hresult := get_member (fun s : Struct => s.result) Payload.int32 3
    (.required 3 (.uenum fun i s => { s with result := i })) hrs (by decide) (by decide)
    (by simp [fields]) rfl (fun p r hp => getD_int32.2 (fun _ _ => rfl) hp)
    (fun f hf hne => by
      simp only [fields, List.mem_cons, List.not_mem_nil, or_false] at hf
      obtain rfl | rfl | rfl | rfl | rfl | rfl | rfl | rfl := hf
      · exact fun _ _ => rfl
      · exact fun _ _ => rfl
      · exact absurd rfl hne
      all_goals exact trivial) start
  have hasr := string_encode hrs 4 (.callback 4 (·.asr)) (by decide) (by simp [fields]) rfl
    ⟨_, _, rfl⟩
  have hnlp := string_encode hrs 5 (.callback 5 (·.nlp)) (by decide) (by simp [fields]) rfl
    ⟨_, _, rfl⟩
  have haction := string_encode hrs 6 (.callback 6 (·.action)) (by decide) (by simp [fields]) rfl
    ⟨_, _, rfl⟩
  have hextra := string_encode hrs 7 (.callback 7 (·.extra)) (by decide) (by simp [fields]) rfl
    ⟨_, _, rfl⟩
  have htrigger := string_encode hrs 11 (.callback 11 (·.voiceTrigger)) (by decide)
    (by simp [fields]) rfl ⟨_, _, rfl⟩
  generalize rs.foldl (readRecord fields) start = r at *
  have htext : ∀ {a : Str} {str : Option Bytes}, r.strings a = str → text r a = str.getD [] := by
    rintro a str rfl
    rfl
  rw [getters]
  simp only [Getters.mk.injEq]
  exact ⟨hid, htype, hresult, htext hasr, htext hnlp, htext haction, htext hextra,
    htext htrigger⟩

/-- **What a `SpeechResponse` is parsed into.** -/
theorem parseFromArray_encode (hrs : ∀ rec ∈ rs, Readable fields rec) (history : List Bytes) :
    let used := history.foldl (fun r data => (parseFromArray r data).2) new
    ((parseFromArray used (Protobuf.encode rs)).1 = true ↔
      (∃ rec ∈ rs, rec.number = 1) ∧ (∃ rec ∈ rs, rec.number = 2) ∧
        ∃ rec ∈ rs, rec.number = 3) ∧
    (parseFromArray used (Protobuf.encode rs)).2.getters =
      { id := (values 1 Payload.int32 rs).getLast?.getD 0
        type := (values 2 Payload.int32 rs).getLast?.getD 0
        result := (values 3 Payload.int32 rs).getLast?.getD 0
        asr := (values 4 nonempty rs).getLast?.getD []
        nlp := (values 5 nonempty rs).getLast?.getD []
        action := (values 6 nonempty rs).getLast?.getD []
        extra := (values 7 nonempty rs).getLast?.getD []
        voiceTrigger := (values 11 nonempty rs).getLast?.getD [] } := by
  obtain ⟨hok, hstate⟩ := pbDecode_encode hrs new.clearSuperData
  simp only
  rw [parseFromArray_eq, parseFromArray, hok, hstate]
  constructor
  · rw [← required_iff hrs (by decide : 1 < 2 ^ 29), ← required_iff hrs (by decide : 2 < 2 ^ 29),
      ← required_iff hrs (by decide : 3 < 2 ^ 29)]
    simp only [fields, List.forall_mem_cons, InField.isRequired, InField.tag]
    simp
  · exact getters_encode hrs

end SpeechResponse

/-- **The client reads what the server has written.**  The records of a response may come in any
    order and more than once, with records of other fields in between, and the object may have been
    used for any frames before.  `ParseFromArray` succeeds if and only if the required fields are
    there, and every getter returns the last value of its field; of a string, the last value that
    is not empty. -/
theorem responses_read (tts speech auth : List Protobuf.Record)
    (htts : ∀ rec ∈ tts, Readable TtsResponse.fields rec)
    (hspeech : ∀ rec ∈ speech, Readable SpeechResponse.fields rec)
    (hauth : ∀ rec ∈ auth, Readable AuthResponse.fields rec)
    (calls : List TtsResponse.Call) (frames : List Bytes) :
    (let d := TtsResponse.parseFromArray (calls.foldl TtsResponse.call .new) (Protobuf.encode tts);
      d.2.getters =
        { id := (values 1 Payload.int32 tts).getLast?.getD 0
          result := (values 2 Payload.int32 tts).getLast?.getD 0
          hasVoice := (values 4 nonempty tts).getLast?.isSome
          voice := (values 4 nonempty tts).getLast?
          text := (values 3 nonempty tts).getLast?
          finish := (values 5 Payload.bool tts).getLast?.getD false } ∧
      (d.1 = true ↔ (∃ rec ∈ tts, rec.number = 1) ∧ ∃ rec ∈ tts, rec.number = 2)) ∧
    (let d := SpeechResponse.parseFromArray
        (frames.foldl (fun r data => (SpeechResponse.parseFromArray r data).2) .new)
        (Protobuf.encode speech);
      d.2.getters =
        { id := (values 1 Payload.int32 speech).getLast?.getD 0
          type := (values 2 Payload.int32 speech).getLast?.getD 0
          result := (values 3 Payload.int32 speech).getLast?.getD 0
          asr := (values 4 nonempty speech).getLast?.getD []
          nlp := (values 5 nonempty speech).getLast?.getD []
          action := (values 6 nonempty speech).getLast?.getD []
          extra := (values 7 nonempty speech).getLast?.getD []
          voiceTrigger := (values 11 nonempty speech).getLast?.getD [] } ∧
      (d.1 = true ↔ (∃ rec ∈ speech, rec.number = 1) ∧ (∃ rec ∈ speech, rec.number = 2) ∧
        ∃ rec ∈ speech, rec.number = 3)) ∧
    ((message (Protobuf.encode auth)).accepted = true ↔
      (values 1 Payload.int32 auth).getLast? = some 0) := by
  refine ⟨(TtsResponse.parseFromArray_encode htts calls).symm,
    (SpeechResponse.parseFromArray_encode hspeech frames).symm, ?_⟩
  rw [accepted_message]
  exact AuthResponse.handleAuthResult_encode hauth

/-- A voice that is written twice, and then an empty one, in front of the id; a field of the number
    99; a text that is not there. -/
theorem responses_read_repeated :
    (TtsResponse.new.parseFromArray (Protobuf.encode [⟨4, .len [1]⟩, ⟨4, .len [2]⟩, ⟨99, .fixed64 5⟩,
        ⟨4, .len []⟩, ⟨2, .varint 0⟩, ⟨1, .varint 7⟩])).2.getters =
      { id := 7, result := 0, hasVoice := true, voice := some [2], text := none, finish := false } ∧
    (message (Protobuf.encode [⟨1, .varint 3⟩, ⟨1, .varint 0⟩])).accepted = true := by
  have htts : ∀ rec ∈ ([⟨4, .len [1]⟩, ⟨4, .len [2]⟩, ⟨99, .fixed64 5⟩, ⟨4, .len []⟩, ⟨2, .varint 0⟩,
      ⟨1, .varint 7⟩] : List Protobuf.Record), Readable TtsResponse.fields rec := by decide +kernel
  have hauth : ∀ rec ∈ ([⟨1, .varint 3⟩, ⟨1, .varint 0⟩] : List Protobuf.Record),
      Readable AuthResponse.fields rec := by decide +kernel
  have h := responses_read _ [] _ htts (by simp) hauth [] []
  exact ⟨h.1.1, h.2.2.mpr rfl⟩

end OpenVoice.Nanopb
