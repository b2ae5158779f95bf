import Mathlib.Algebra.Group.Nat.Defs
import OpenVoice.Speech.Model

/-!
# The loop of `put_voice`

`SpeechImpl.putVoice` puts the pieces of its argument into `voice_reqs_` at once.  Here is the
loop that makes them, with its offset and its test, and what it leaves in the queue.
-/

namespace OpenVoice

namespace SpeechImpl

/-- `sz` in an iteration of the loop, when `left` bytes are left. -/
def pieceSize (options : SpeechOptionsHolder) (left : BitVec 32) : BitVec 32 :=
  if isStreamCodec options.codec ∧ options.voiceFragment < left then options.voiceFragment
  else left

/-- The loop of `put_voice` from the offset `off` on.  The first argument bounds the number of
    iterations; the flag is `need_notify`. -/
def putVoiceLoop (options : SpeechOptionsHolder) (id : Int) (voice : Bytes) :
    Nat → BitVec 32 → Bool → Streams Bytes VoiceOptions →
      Option (Bool × Streams Bytes VoiceOptions)
  | 0, _, _, _ => none
  | n + 1, off, needNotify, q =>
      let length := BitVec.ofNat 32 voice.length
      if off < length then
        let sz := pieceSize options (length - off)
        let spv := (voice.drop off.toNat).take sz.toNat
        let r := q.stream id (some spv)
        putVoiceLoop options id voice n (off + sz) (needNotify || r.1) r.2
      else some (needNotify, q)

/-- Hand the pieces to `voice_reqs_.stream`. -/
def streamPieces (id : Int) :
    List Bytes → Bool → Streams Bytes VoiceOptions → Bool × Streams Bytes VoiceOptions
  | [], needNotify, q => (needNotify, q)
  | piece :: pieces, needNotify, q =>
      let r := q.stream id (some piece)
      streamPieces id pieces (needNotify || r.1) r.2

variable {options : SpeechOptionsHolder} {id : Int} {voice : Bytes} {off : BitVec 32} {b : Bool}
  {q : Streams Bytes VoiceOptions} {sz n : Nat}

/-! ### The pieces -/

theorem flatten_cut (hsz : 0 < sz) (hn : voice.length ≤ n) : (cut sz n voice).flatten = voice := by
  induction n generalizing voice with
  | zero => rw [List.eq_nil_of_length_eq_zero (Nat.le_zero.mp hn), cut, List.flatten_nil]
  | succ n ih =>
      unfold cut
      split
      · rename_i hnil
        rw [hnil, List.flatten_nil]
      · rw [List.flatten_cons, ih (by rw [List.length_drop]; omega), List.take_append_drop]

theorem mem_cut {piece : Bytes} (hsz : 0 < sz) (hp : piece ∈ cut sz n voice) :
    piece ≠ [] ∧ piece.length ≤ sz := by
  induction n generalizing voice with
  | zero => cases hp
  | succ n ih =>
      unfold cut at hp
      split at hp
      · cases hp
      · rename_i hne
        rcases List.mem_cons.mp hp with rfl | hp
        · refine ⟨?_, List.length_take_le sz voice⟩
          rw [Ne, List.take_eq_nil_iff, not_or]
          exact ⟨hsz.ne', hne⟩
        · exact ih hp

/-- Pieces as long as the argument: there is one. -/
theorem cut_of_le (hne : voice ≠ []) (hsz : voice.length ≤ sz) :
    cut sz (n + 1) voice = [voice] := by
  have hrest : cut sz n (voice.drop sz) = [] := by
    rw [List.drop_eq_nil_of_le hsz]
    cases n with
    | zero => rfl
    | succ n => rfl
  rw [cut, if_neg hne, hrest, List.take_of_length_le hsz]

/-- The bound is large enough as soon as it is the number of bytes. -/
theorem cut_congr {m : Nat} (hsz : 0 < sz) (hn : voice.length ≤ n) (hm : voice.length ≤ m) :
    cut sz n voice = cut sz m voice := by
  induction n generalizing voice m with
  | zero =>
      rw [List.eq_nil_of_length_eq_zero (Nat.le_zero.mp hn)]
      cases m with
      | zero => rfl
      | succ m => rfl
  | succ n ih =>
      cases m with
      | zero =>
          rw [List.eq_nil_of_length_eq_zero (Nat.le_zero.mp hm)]
          rfl
      | succ m =>
          have hrest : cut sz n (voice.drop sz) = cut sz m (voice.drop sz) := by
            apply ih
            · rw [List.length_drop]
              omega
            · rw [List.length_drop]
              omega
          rw [cut, cut, hrest]

theorem streamPieces_snd (pieces : List Bytes) :
    (streamPieces id pieces b q).2 =
      pieces.foldl (fun q piece => (q.stream id (some piece)).2) q := by
  induction pieces generalizing b q with
  | nil => rfl
  | cons piece pieces ih => rw [streamPieces, List.foldl_cons, ih]

/-- What an uncompleted stream gets. -/
theorem find_streamPieces {pieces : List Bytes} {r : Record Bytes VoiceOptions}
    (hfind : Fifo.find id q.records = some r) (hst : r.state = .uncompleted) :
    Fifo.find id (streamPieces id pieces b q).2.records =
      some { r with pending := r.pending ++ pieces.map some } := by
  induction pieces generalizing q r b with
  | nil => rw [streamPieces, List.map_nil, List.append_nil, hfind]
  | cons piece pieces ih =>
      have hpush : Fifo.find id (q.stream id (some piece)).2.records =
          some (r.push (some piece)) := by
        rw [Streams.stream_records, Fifo.stream_of_uncompleted _ hfind hst]
        exact Fifo.find_amend_self _ (fun _ => rfl) hfind
      rw [streamPieces, ih hpush hst, Record.push, List.append_assoc, List.map_cons,
        List.singleton_append]

/-! ### The loop -/

variable {s : SpeechImpl}

/-- An iteration takes what `cut` takes. -/
theorem take_pieceSize {left : Bytes} (hleft : left.length ≤ voice.length)
    (hlen : voice.length < 2 ^ 32) :
    left.take (pieceSize s.options (BitVec.ofNat 32 left.length)).toNat =
        left.take (s.fragmentSize voice) ∧
      left.drop (pieceSize s.options (BitVec.ofNat 32 left.length)).toNat =
        left.drop (s.fragmentSize voice) := by
  have hnat : (BitVec.ofNat 32 left.length).toNat = left.length := by
    rw [BitVec.toNat_ofNat]
    exact Nat.mod_eq_of_lt (by omega)
  unfold pieceSize fragmentSize
  by_cases hcodec : isStreamCodec s.options.codec = true
  · by_cases hlt : s.options.voiceFragment < BitVec.ofNat 32 left.length
    · rw [if_pos ⟨hcodec, hlt⟩, if_pos hcodec]
      rw [BitVec.lt_def, hnat] at hlt
      rw [Nat.min_eq_right (by omega)]
      exact ⟨rfl, rfl⟩
    · rw [if_neg (fun h => hlt h.2), if_pos hcodec, hnat]
      rw [BitVec.lt_def, hnat] at hlt
      have hle : left.length ≤ min voice.length s.options.voiceFragment.toNat := by omega
      rw [List.take_of_length_le hle, List.drop_eq_nil_of_le hle, List.take_length,
        List.drop_length]
      exact ⟨rfl, rfl⟩
  · rw [if_neg (fun h => hcodec h.1), if_neg hcodec, hnat, List.take_of_length_le hleft,
      List.drop_eq_nil_of_le hleft, List.take_length, List.drop_length]
    exact ⟨rfl, rfl⟩

theorem pieceSize_bounds {left : Bytes} (hne : left ≠ []) (hleft : left.length ≤ voice.length)
    (hlen : voice.length < 2 ^ 32) (hsz : 0 < s.fragmentSize voice) :
    0 < (pieceSize s.options (BitVec.ofNat 32 left.length)).toNat ∧
      (pieceSize s.options (BitVec.ofNat 32 left.length)).toNat ≤ left.length := by
  have hnat : (BitVec.ofNat 32 left.length).toNat = left.length := by
    rw [BitVec.toNat_ofNat]
    exact Nat.mod_eq_of_lt (by omega)
  have hpos := List.length_pos_of_ne_nil hne
  unfold fragmentSize at hsz
  unfold pieceSize
  split
  · rename_i h
    obtain ⟨hcodec, hlt⟩ := h
    rw [if_pos hcodec] at hsz
    rw [BitVec.lt_def, hnat] at hlt
    omega
  · rw [hnat]
    exact ⟨hpos, Nat.le_refl _⟩

/-- The size of a piece is not `0`, unless the fragment size is. -/
theorem fragmentSize_pos (hne : voice ≠ [])
    (hfrag : isStreamCodec s.options.codec = true → s.options.voiceFragment ≠ 0) :
    0 < s.fragmentSize voice := by
  have hvoice := List.length_pos_of_ne_nil hne
  unfold fragmentSize
  split
  · rename_i hcodec
    have hpos : 0 < s.options.voiceFragment.toNat := by
      have h := hfrag hcodec
      bv_omega
    omega
  · exact hvoice

/-- **The loop**, from an offset on.  By induction on the bound. -/
theorem putVoiceLoop_eq (hlen : voice.length < 2 ^ 32) (hsz : 0 < s.fragmentSize voice)
    (hoff : off.toNat ≤ voice.length) (hn : voice.length - off.toNat < n) :
    putVoiceLoop s.options id voice n off b q =
      some (streamPieces id
        (cut (s.fragmentSize voice) (voice.length - off.toNat) (voice.drop off.toNat)) b q) := by
  induction n generalizing off b q with
  | zero => omega
  | succ n ih =>
      have hlength : (BitVec.ofNat 32 voice.length).toNat = voice.length := by
        rw [BitVec.toNat_ofNat]
        exact Nat.mod_eq_of_lt hlen
      rw [putVoiceLoop]
      dsimp only
      by_cases hlt : off < BitVec.ofNat 32 voice.length
      · rw [if_pos hlt]
        rw [BitVec.lt_def, hlength] at hlt
        have hdiff : BitVec.ofNat 32 voice.length - off =
            BitVec.ofNat 32 (voice.drop off.toNat).length := by
          rw [List.length_drop]
          bv_omega
        have hleft : (voice.drop off.toNat).length ≤ voice.length := by
          rw [List.length_drop]
          omega
        have hne : voice.drop off.toNat ≠ [] := by
          rw [Ne, List.drop_eq_nil_iff]
          omega
        obtain ⟨htake, hdrop⟩ := @take_pieceSize voice s _ hleft hlen
        obtain ⟨hpos, hle⟩ := @pieceSize_bounds voice s _ hne hleft hlen hsz
        rw [hdiff]
        generalize pieceSize s.options (BitVec.ofNat 32 (voice.drop off.toNat).length) = piece
          at htake hdrop hpos hle ⊢
        rw [List.length_drop] at hle
        have hsum : (off + piece).toNat = off.toNat + piece.toNat := by
          rw [BitVec.toNat_add]
          exact Nat.mod_eq_of_lt (by omega)
        -- the pieces behind this one, whatever their number is bounded by
        obtain ⟨k, hk⟩ : ∃ k, voice.length - off.toNat = k + 1 :=
          ⟨voice.length - off.toNat - 1, by omega⟩
        have hrest : cut (s.fragmentSize voice) (voice.length - (off.toNat + piece.toNat))
            ((voice.drop off.toNat).drop piece.toNat) =
            cut (s.fragmentSize voice) k ((voice.drop off.toNat).drop piece.toNat) := by
          apply cut_congr hsz
          · rw [List.length_drop, List.length_drop]
            omega
          · rw [List.length_drop, List.length_drop]
            omega
        rw [ih (by omega) (by omega), hsum, ← List.drop_drop, hrest, hk, cut, if_neg hne,
          streamPieces, htake, hdrop]
      · rw [if_neg hlt]
        rw [BitVec.lt_def, hlength] at hlt
        have hzero : voice.length - off.toNat = 0 := by omega
        rw [hzero, cut, streamPieces]

/-- Pieces of no bytes: the loop makes no progress. -/
theorem putVoiceLoop_stuck (hlen : voice.length < 2 ^ 32) (hoff : off.toNat < voice.length)
    (hcodec : isStreamCodec s.options.codec = true) (hfrag : s.options.voiceFragment = 0) :
    putVoiceLoop s.options id voice n off b q = none := by
  induction n generalizing b q with
  | zero => rfl
  | succ n ih =>
      have hlength : (BitVec.ofNat 32 voice.length).toNat = voice.length := by
        rw [BitVec.toNat_ofNat]
        exact Nat.mod_eq_of_lt hlen
      have hlt : off < BitVec.ofNat 32 voice.length := by
        rw [BitVec.lt_def, hlength]
        exact hoff
      have hsz : pieceSize s.options (BitVec.ofNat 32 voice.length - off) = 0 := by
        unfold pieceSize
        rw [hfrag, if_pos]
        refine ⟨hcodec, ?_⟩
        bv_omega
      rw [putVoiceLoop]
      dsimp only
      have hoff' : off + 0 = off := BitVec.add_zero off
      rw [if_pos hlt, hsz, hoff']
      exact ih

/-- The step of the model is the loop: it has no result if the loop does not end. -/
theorem putVoice_eq_loop (hlen : voice.length < 2 ^ 32) (hne : voice ≠ []) :
    (∃ n b q', putVoiceLoop s.options id voice n 0 false s.voiceReqs = some (b, q') ∧
      s.putVoice id voice = some { s with voiceReqs := q' }) ∨
    (∀ n, putVoiceLoop s.options id voice n 0 false s.voiceReqs = none) ∧
      s.putVoice id voice = none := by
  by_cases hfrag : isStreamCodec s.options.codec = true → s.options.voiceFragment ≠ 0
  · left
    have hsz := fragmentSize_pos hne hfrag
    have hloop := @putVoiceLoop_eq id voice 0 false s.voiceReqs (voice.length + 1) s hlen hsz
      (Nat.zero_le _) (Nat.lt_succ_self _)
    refine ⟨voice.length + 1, _, _, hloop, ?_⟩
    rw [putVoice, if_neg (fun h => hsz.ne' h.2), streamPieces_snd]
    rfl
  · right
    obtain ⟨hcodec, hzero⟩ := not_forall.mp hfrag
    have hfrag' : s.options.voiceFragment = 0 := not_not.mp hzero
    have hstart : (0 : BitVec 32).toNat < voice.length := List.length_pos_of_ne_nil hne
    refine ⟨fun n => putVoiceLoop_stuck hlen hstart hcodec hfrag', ?_⟩
    rw [putVoice, if_pos]
    refine ⟨hne, ?_⟩
    rw [fragmentSize, if_pos hcodec, hfrag']
    exact Nat.min_zero _

/-- **`put_voice` splits without loss.**  Its loop ends, and an uncompleted stream gets its
    argument in pieces that are not empty, and not longer than the fragment size for a stream
    codec, exactly if the fragment size is not `0` for a stream codec. -/
theorem putVoiceLoop_splits_iff (hlen : voice.length < 2 ^ 32) (hne : voice ≠ []) :
    (∃ n b q', putVoiceLoop s.options id voice n 0 false s.voiceReqs = some (b, q') ∧
      ∀ r, Fifo.find id s.voiceReqs.records = some r → r.state = .uncompleted →
        ∃ pieces : List Bytes,
          Fifo.find id q'.records = some { r with pending := r.pending ++ pieces.map some } ∧
          (∀ piece ∈ pieces, piece ≠ []) ∧ pieces.flatten = voice ∧
          (isStreamCodec s.options.codec = true →
            ∀ piece ∈ pieces, piece.length ≤ s.options.voiceFragment.toNat)) ↔
      (isStreamCodec s.options.codec = true → s.options.voiceFragment ≠ 0) := by
  constructor
  · rintro ⟨n, b, q', hloop, -⟩ hcodec hfrag
    have hzero : (0 : BitVec 32).toNat < voice.length := List.length_pos_of_ne_nil hne
    rw [putVoiceLoop_stuck hlen hzero hcodec hfrag] at hloop
    cases hloop
  · intro hfrag
    have hsz := fragmentSize_pos hne hfrag
    have hloop := @putVoiceLoop_eq id voice 0 false s.voiceReqs (voice.length + 1) s hlen hsz
      (Nat.zero_le _) (Nat.lt_succ_self _)
    refine ⟨voice.length + 1, _, _, hloop, ?_⟩
    intro r hfind hst
    refine ⟨_, find_streamPieces hfind hst, fun piece hp => (mem_cut hsz hp).1,
      flatten_cut hsz (Nat.le_refl _), ?_⟩
    intro hcodec piece hp
    have hle := (mem_cut hsz hp).2
    have hfs : s.fragmentSize voice ≤ s.options.voiceFragment.toNat := by
      rw [fragmentSize, if_pos hcodec]
      exact Nat.min_le_right _ _
    omega

/-- Five bytes after `set_voice_fragment(2)`, for a stream that holds a piece already: the data is
    cut into three pieces. -/
theorem putVoiceLoop_splits_five :
    let mod : SpeechOptionsModifier := SpeechOptionsModifier.setVoiceFragment 2 {}
    let s : SpeechImpl := config (some mod)
      { voiceReqs := ((Streams.empty.start 1).2.stream 1 (some [9])).2 }
    (∃ n b q', putVoiceLoop s.options 1 [1, 2, 3, 4, 5] n 0 false s.voiceReqs = some (b, q') ∧
      ∀ r, Fifo.find 1 s.voiceReqs.records = some r → r.state = .uncompleted →
        ∃ pieces : List Bytes,
          Fifo.find 1 q'.records = some { r with pending := r.pending ++ pieces.map some } ∧
          (∀ piece ∈ pieces, piece ≠ []) ∧ pieces.flatten = [1, 2, 3, 4, 5] ∧
          (isStreamCodec s.options.codec = true →
            ∀ piece ∈ pieces, piece.length ≤ s.options.voiceFragment.toNat)) ∧
      s.options.voiceFragment = 2 ∧
      (putVoiceLoop s.options 1 [1, 2, 3, 4, 5] 4 0 false s.voiceReqs).map
          (fun r => (Fifo.find 1 r.2.records).map Record.pending) =
        some (some [some [9], some [1, 2], some [3, 4], some [5]]) := by
  intro mod s
  refine ⟨?_, by decide, by decide⟩
  exact (putVoiceLoop_splits_iff (by decide) (by decide)).mpr (by decide)

/-- With `set_voice_fragment(0)` the loop does not end for a single byte. -/
theorem putVoiceLoop_endless :
    let mod : SpeechOptionsModifier := SpeechOptionsModifier.setVoiceFragment 0 {}
    let s : SpeechImpl := config (some mod) { voiceReqs := (Streams.empty.start 1).2 }
    ¬∃ n r, putVoiceLoop s.options 1 [7] n 0 false s.voiceReqs = some r := by
  intro mod s hreturns
  obtain ⟨n, r, hloop⟩ := hreturns
  rw [putVoiceLoop_stuck (by decide) (by decide) (by decide) (by decide)] at hloop
  cases hloop

end SpeechImpl

end OpenVoice
