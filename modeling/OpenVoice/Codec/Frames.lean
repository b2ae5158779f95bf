import OpenVoice.Codec.Encoder
import OpenVoice.Lib.Chunks
import OpenVoice.Lib.Framing

/-!
# What a call of `encode` does

`Opus.answers` is what the library makes of a sequence of frames when each packet is put behind
the ones before it.  A call of `encode` is described by it (`encode_spec`): the frames are those
of the samples carried over and the samples of the call, cut at the frame size.
-/

namespace OpenVoice

open OpenVoice.Lib
open OpenVoice.Lib.Framing (frame framed framed_nil framed_cons)

variable {σ : Type}

/-- The packets for the frames, up to the first one that `opus_encode` fails for; whether it
    failed for none; and the state of the encoder.  `encSize` bytes of the buffer are in use at
    the beginning. -/
def Opus.answers (opus : Opus σ) :
    σ → BitVec 32 → List (List (BitVec 16)) → List Bytes × Bool × σ
  | st, _, [] => ([], true, st)
  | st, encSize, f :: fs =>
      let r := opus.encode st f (RKOpusEncoder.maxDataBytes encSize)
      match r.1 with
      | none => ([], false, r.2)
      | some p =>
          let r' := opus.answers r.2 (encSize + BitVec.ofNat 32 (p.length + 1)) fs
          (p :: r'.1, r'.2)

namespace Opus

variable {opus : Opus σ} {st : σ} {encSize : BitVec 32} {f : List (BitVec 16)}
  {fs : List (List (BitVec 16))}

theorem answers_nil : opus.answers st encSize [] = ([], true, st) := rfl

theorem answers_failed (h : (opus.encode st f (RKOpusEncoder.maxDataBytes encSize)).1 = none) :
    opus.answers st encSize (f :: fs) =
      ([], false, (opus.encode st f (RKOpusEncoder.maxDataBytes encSize)).2) := by
  simp only [answers, h]

theorem answers_ok {p : Bytes}
    (h : (opus.encode st f (RKOpusEncoder.maxDataBytes encSize)).1 = some p) :
    opus.answers st encSize (f :: fs) =
      (p :: (opus.answers (opus.encode st f (RKOpusEncoder.maxDataBytes encSize)).2
          (encSize + BitVec.ofNat 32 (p.length + 1)) fs).1,
        (opus.answers (opus.encode st f (RKOpusEncoder.maxDataBytes encSize)).2
          (encSize + BitVec.ofNat 32 (p.length + 1)) fs).2) := by
  simp only [answers, h]

/-- As many packets as frames, unless `opus_encode` failed. -/
theorem length_answers (h : (opus.answers st encSize fs).2.1 = true) :
    (opus.answers st encSize fs).1.length = fs.length := by
  induction fs generalizing st encSize with
  | nil => rfl
  | cons f fs ih =>
      cases hp : (opus.encode st f (RKOpusEncoder.maxDataBytes encSize)).1 with
      | none =>
          rw [answers_failed hp] at h
          cases h
      | some p =>
          rw [answers_ok hp] at h ⊢
          rw [List.length_cons, List.length_cons, ih h]

/-- A packet takes two bytes or more. -/
theorem length_framed_answers :
    2 * (opus.answers st encSize fs).1.length ≤ (framed (opus.answers st encSize fs).1).length := by
  induction fs generalizing st encSize with
  | nil => exact Nat.le_refl _
  | cons f fs ih =>
      cases hp : (opus.encode st f (RKOpusEncoder.maxDataBytes encSize)).1 with
      | none =>
          rw [answers_failed hp]
          exact Nat.le_refl _
      | some p =>
          have hpos := opus.encode_pos _ _ _ _ hp
          have hle := @ih (opus.encode st f (RKOpusEncoder.maxDataBytes encSize)).2
            (encSize + BitVec.ofNat 32 (p.length + 1))
          rw [answers_ok hp, framed_cons, List.length_append, Framing.length_frame,
            List.length_cons]
          omega

end Opus

namespace RKOpusEncoder

variable {opus : Opus σ} {e e' : RKOpusEncoder σ} {st : σ} {encSize : BitVec 32}
  {f : List (BitVec 16)} {pcm : List (BitVec 16)}

theorem opusBufferSize_toNat : opusBufferSize.toNat = 16384 := rfl

/-- In a buffer that is used up the difference wraps to `-1`. -/
theorem maxDataBytes_eq (h : encSize.toNat ≤ opusBufferSize.toNat) :
    maxDataBytes encSize = opusBufferSize.toNat - encSize.toNat - 1 := by
  have hsub : (opusBufferSize - encSize - 1).toNat =
      (16384 + (2 ^ 32 - encSize.toNat) + (2 ^ 32 - 1)) % 2 ^ 32 := by
    unfold opusBufferSize
    bv_omega
  rw [opusBufferSize_toNat] at h ⊢
  rw [maxDataBytes, BitVec.toInt_eq_toNat_cond, hsub]
  split
  · omega
  · omega

theorem encodeFrame_failed
    (h : (opus.encode st f (maxDataBytes encSize)).1 = none) :
    encodeFrame opus st f encSize e = some (none, { e with
      opusEncoder := some (opus.encode st f (maxDataBytes encSize)).2
      passed := e.passed ++ [f] }) := by
  unfold encodeFrame
  simp only [h]

/-- A packet fits: it goes into the buffer behind what is there. -/
theorem encodeFrame_ok {p : Bytes} (h : (opus.encode st f (maxDataBytes encSize)).1 = some p)
    (hbuf : e.opusBuffer.length = opusBufferSize.toNat)
    (henc : encSize.toNat ≤ opusBufferSize.toNat) :
    ∃ encSize' buffer, encodeFrame opus st f encSize e = some (some encSize', { e with
        opusEncoder := some (opus.encode st f (maxDataBytes encSize)).2
        passed := e.passed ++ [f]
        opusBuffer := buffer }) ∧
      encSize' = encSize + BitVec.ofNat 32 (p.length + 1) ∧
      buffer.length = opusBufferSize.toNat ∧ encSize'.toNat ≤ opusBufferSize.toNat ∧
      buffer.take encSize'.toNat = e.opusBuffer.take encSize.toNat ++ frame p := by
  have hle := opus.encode_le _ _ _ _ h
  rw [maxDataBytes_eq henc] at hle
  have hfit : encSize.toNat + 1 + p.length ≤ e.opusBuffer.length := by omega
  -- the packet, and then the length byte in front of it
  obtain ⟨buffer, hbuffer, hlen⟩ := Memory.exists_store hfit
  obtain ⟨buffer', hbuffer', hlen'⟩ : ∃ buffer',
      Memory.store encSize.toNat [BitVec.ofNat 8 p.length] buffer = some buffer' ∧
        buffer'.length = buffer.length := by
    apply Memory.exists_store
    rw [List.length_singleton]
    omega
  have hsize : (encSize + BitVec.ofNat 32 (p.length + 1)).toNat =
      encSize.toNat + 1 + p.length := by
    rw [BitVec.toNat_add, BitVec.toNat_ofNat, opusBufferSize_toNat] at *
    omega
  refine ⟨_, buffer', ?_, rfl, by omega, by omega, ?_⟩
  · unfold encodeFrame
    simp only [h, hbuffer, hbuffer', Option.bind_eq_bind, Option.bind_some]
    rfl
  · have htake : buffer'.take (encSize.toNat + 1 + p.length) =
        e.opusBuffer.take encSize.toNat ++ [BitVec.ofNat 8 p.length] ++ p :=
      Memory.take_store_store hbuffer hbuffer'
    rw [hsize, htake, List.append_assoc]
    rfl

/-- What the caller reads of `_opus_buffer`. -/
def output (opu : Sp Bytes) (encSize : BitVec 32) : Bytes := (opu.getD []).take encSize.toNat

/-- How a call ends that puts the packets for `frames` behind `before` and keeps `left`: `r` are
    the answers to the frames. -/
structure Ends (frames : List (List (BitVec 16))) (left : List (BitVec 16)) (before : Bytes)
    (r : List Bytes × Bool × σ) (e : RKOpusEncoder σ) (opu : Sp Bytes) (encSize : BitVec 32)
    (e' : RKOpusEncoder σ) : Prop where
  ready : e'.Ready r.2.2
  size : e'.pcmFrameSize = e.pcmFrameSize
  bytes : encSize.toNat = (before ++ framed r.1).length
  /-- No frame is passed after one that could not be encoded. -/
  passed : e'.passed = e.passed ++ frames.take (if r.2.1 then frames.length else r.1.length + 1)
  encoded : r.2.1 = true → output opu encSize = before ++ framed r.1 ∧ e'.carried = left ∧
    (opu = none → encSize = 0)
  failed : r.2.1 = false → opu = none
  buffer : ∀ buffer, opu = some buffer → buffer = e'.opusBuffer
  fits : encSize.toNat ≤ opusBufferSize.toNat

/-- **The loop.**  By induction on the samples, one frame at a time. -/
theorem encodeLoop_spec {n : Nat} {before : Bytes} (h : e.Ready st) (hn : pcm.length < n)
    (hused : e.pcmFrameUsedBytes = 0) (henc : encSize.toNat ≤ opusBufferSize.toNat)
    (hlen : before.length = encSize.toNat) (htake : e.opusBuffer.take encSize.toNat = before) :
    ∃ opu encSize' e', encodeLoop opus n pcm encSize e = some ((opu, encSize'), e') ∧
      Ends (Chunks.whole e.pcmFrameSize pcm) (Chunks.rest e.pcmFrameSize pcm) before
        (opus.answers st encSize (Chunks.whole e.pcmFrameSize pcm)) e opu encSize' e' := by
  induction n generalizing pcm encSize e st before with
  | zero => omega
  | succ n ih =>
      by_cases hle : e.pcmFrameSize ≤ pcm.length
      · rw [Chunks.whole_of_le h.frame_pos hle, Chunks.rest_of_le h.frame_pos hle]
        cases hp : (opus.encode st (pcm.take e.pcmFrameSize) (maxDataBytes encSize)).1 with
        | none =>
            rw [Opus.answers_failed hp]
            refine ⟨none, encSize, { e with
              opusEncoder := some
                (opus.encode st (pcm.take e.pcmFrameSize) (maxDataBytes encSize)).2
              passed := e.passed ++ [pcm.take e.pcmFrameSize] }, ?_, ?_⟩
            · simp only [encodeLoop, if_pos hle, h.encoder, encodeFrame_failed hp]
            · exact
                { ready := ⟨rfl, h.frame_pos, h.frame, h.used, h.buffer⟩
                  size := rfl
                  bytes := by rw [framed_nil, List.append_nil, hlen]
                  passed := rfl
                  encoded := fun hok => by cases hok
                  failed := fun _ => rfl
                  buffer := fun _ h => by cases h
                  fits := henc }
        | some p =>
            obtain ⟨encSize', buffer, hframe, henc', hbuf', hle', htake'⟩ :=
              encodeFrame_ok hp h.buffer henc
            rw [Opus.answers_ok hp, ← henc']
            -- the rest of the samples, behind this packet
            have hready : ({ e with
                opusEncoder := some
                  (opus.encode st (pcm.take e.pcmFrameSize) (maxDataBytes encSize)).2
                passed := e.passed ++ [pcm.take e.pcmFrameSize]
                opusBuffer := buffer } : RKOpusEncoder σ).Ready
                (opus.encode st (pcm.take e.pcmFrameSize) (maxDataBytes encSize)).2 :=
              ⟨rfl, h.frame_pos, h.frame, h.used, hbuf'⟩
            have hfewer : (pcm.drop e.pcmFrameSize).length < n := by
              have hpos := h.frame_pos
              rw [List.length_drop]
              omega
            have hbytes : (before ++ frame p).length = encSize'.toNat := by
              rw [← htake, ← htake', List.length_take, hbuf', Nat.min_eq_left hle']
            obtain ⟨opu, encSize'', e', hloop, hends⟩ := ih hready hfewer hused hle' hbytes
              (by rw [htake', htake])
            refine ⟨opu, encSize'', e', ?_, ?_⟩
            · simp only [encodeLoop, if_pos hle, h.encoder, hframe]
              exact hloop
            · exact
                { ready := hends.ready
                  size := hends.size
                  bytes := by rw [hends.bytes, framed_cons, List.append_assoc]
                  passed := by
                    rw [hends.passed, List.append_assoc, List.singleton_append]
                    simp only [List.length_cons]
                    split
                    · rw [List.take_succ_cons]
                    · rw [List.take_succ_cons]
                  encoded := by
                    intro hok
                    rw [framed_cons, ← List.append_assoc]
                    exact hends.encoded hok
                  failed := hends.failed
                  buffer := hends.buffer
                  fits := hends.fits }
      · have hlt : pcm.length < e.pcmFrameSize := Nat.lt_of_not_le hle
        rw [Chunks.whole_of_lt hlt, Chunks.rest_of_lt hlt]
        by_cases hnil : pcm = []
        · subst hnil
          refine ⟨some e.opusBuffer, encSize, e, ?_, ?_⟩
          · simp only [encodeLoop, if_neg hle, ne_eq, not_true_eq_false, if_false]
          · exact
              { ready := h
                size := rfl
                bytes := by rw [Opus.answers_nil, framed_nil, List.append_nil, hlen]
                passed := by rw [List.take_nil, List.append_nil]
                encoded := by
                  intro _
                  refine ⟨?_, ?_, fun hnull => by cases hnull⟩
                  · rw [Opus.answers_nil, framed_nil, List.append_nil]
                    exact htake
                  · rw [carried, hused, List.take_zero]
                failed := fun hfail => by cases hfail
                buffer := fun _ h => (Option.some.inj h).symm
                fits := henc }
        · obtain ⟨mem, hmem, hmemlen⟩ : ∃ mem, Memory.store 0 pcm e.aPcmFrame = some mem ∧
              mem.length = e.aPcmFrame.length := by
            apply Memory.exists_store
            have hframe := h.frame
            omega
          refine ⟨some e.opusBuffer, encSize, { e with
            aPcmFrame := mem, pcmFrameUsedBytes := pcm.length }, ?_, ?_⟩
          · simp only [encodeLoop, if_neg hle, ne_eq, hnil, not_false_eq_true, if_true, hmem]
            rfl
          · have hcarried : mem.take pcm.length = pcm := by
              have hstored := Memory.take_store hmem
              rwa [Nat.zero_add, List.take_zero, List.nil_append] at hstored
            exact
              { ready := ⟨h.encoder, h.frame_pos, hmemlen.trans h.frame, hlt, h.buffer⟩
                size := rfl
                bytes := by rw [Opus.answers_nil, framed_nil, List.append_nil, hlen]
                passed := by rw [List.take_nil, List.append_nil]
                encoded := by
                  intro _
                  refine ⟨?_, hcarried, fun hnull => by cases hnull⟩
                  rw [Opus.answers_nil, framed_nil, List.append_nil]
                  exact htake
                failed := fun hfail => by cases hfail
                buffer := fun _ h => (Option.some.inj h).symm
                fits := henc }

/-- **A call of `encode`.**  It always returns and writes inside its arrays.  The frames are
    those of the samples carried over and the samples of the call. -/
theorem encode_spec (h : e.Ready st) (hpcm : pcm ≠ []) :
    ∃ opu encSize e', e.encode opus (some pcm) = some ((opu, encSize), e') ∧
      Ends (Chunks.whole e.pcmFrameSize (e.carried ++ pcm))
        (Chunks.rest e.pcmFrameSize (e.carried ++ pcm)) []
        (opus.answers st 0 (Chunks.whole e.pcmFrameSize (e.carried ++ pcm))) e opu encSize e' := by
  have hcarried := h.length_carried
  have hzero : (0 : BitVec 32).toNat ≤ opusBufferSize.toNat := by decide
  by_cases hused : e.pcmFrameUsedBytes = 0
  · -- no frame has been begun
    have hnil : e.carried = [] := by
      apply List.eq_nil_of_length_eq_zero
      rw [hcarried, hused]
    rw [hnil, List.nil_append]
    obtain ⟨opu, encSize, e', hloop, hends⟩ :=
      encodeLoop_spec h (Nat.lt_succ_self _) hused hzero rfl rfl
    refine ⟨opu, encSize, e', ?_, hends⟩
    simp only [encode, h.encoder, hpcm, if_false, hused, ne_eq, not_true_eq_false]
    exact hloop
  · have hlt := h.used
    have hframe := h.frame
    by_cases hneed : pcm.length < e.pcmFrameSize - e.pcmFrameUsedBytes
    · -- the frame is still not complete
      have hshort : (e.carried ++ pcm).length < e.pcmFrameSize := by
        rw [List.length_append, hcarried]
        omega
      rw [Chunks.whole_of_lt hshort, Chunks.rest_of_lt hshort]
      obtain ⟨mem, hmem, hmemlen⟩ : ∃ mem,
          Memory.store e.pcmFrameUsedBytes pcm e.aPcmFrame = some mem ∧
            mem.length = e.aPcmFrame.length := by
        apply Memory.exists_store
        omega
      refine ⟨none, 0, { e with
        aPcmFrame := mem, pcmFrameUsedBytes := e.pcmFrameUsedBytes + pcm.length }, ?_, ?_⟩
      · simp only [encode, h.encoder, hpcm, if_false, hused, ne_eq, not_false_eq_true, if_true,
          hneed, hmem]
        rfl
      · exact
          { ready := ⟨h.encoder, h.frame_pos, hmemlen.trans hframe, by simp only; omega, h.buffer⟩
            size := rfl
            bytes := rfl
            passed := by rw [List.take_nil, List.append_nil]
            encoded := fun _ => ⟨rfl, Memory.take_store hmem, fun _ => rfl⟩
            failed := fun hfail => by cases hfail
            buffer := fun _ h => by cases h
            fits := hzero }
    · -- it is completed and encoded; the other samples go through the loop
      have hfill : (pcm.take (e.pcmFrameSize - e.pcmFrameUsedBytes)).length =
          e.pcmFrameSize - e.pcmFrameUsedBytes := by
        rw [List.length_take]
        omega
      obtain ⟨mem, hmem, hmemlen⟩ : ∃ mem,
          Memory.store e.pcmFrameUsedBytes (pcm.take (e.pcmFrameSize - e.pcmFrameUsedBytes))
            e.aPcmFrame = some mem ∧ mem.length = e.aPcmFrame.length := by
        apply Memory.exists_store
        omega
      have hfull : mem = e.carried ++ pcm.take (e.pcmFrameSize - e.pcmFrameUsedBytes) := by
        have hstored := Memory.take_store hmem
        rwa [List.take_of_length_le (by omega)] at hstored
      have hlong : e.pcmFrameSize ≤ (e.carried ++ pcm).length := by
        rw [List.length_append, hcarried]
        omega
      have htake : (e.carried ++ pcm).take e.pcmFrameSize = mem := by
        rw [hfull, List.take_append, hcarried, List.take_of_length_le (by omega)]
      have hdrop : (e.carried ++ pcm).drop e.pcmFrameSize =
          pcm.drop (e.pcmFrameSize - e.pcmFrameUsedBytes) := by
        rw [List.drop_append, hcarried, List.drop_eq_nil_of_le (by omega), List.nil_append]
      rw [Chunks.whole_of_le h.frame_pos hlong, Chunks.rest_of_le h.frame_pos hlong, htake, hdrop]
      cases hp : (opus.encode st mem (maxDataBytes 0)).1 with
      | none =>
          rw [Opus.answers_failed hp]
          refine ⟨none, 0, { e with
            aPcmFrame := mem
            opusEncoder := some (opus.encode st mem (maxDataBytes 0)).2
            passed := e.passed ++ [mem] }, ?_, ?_⟩
          · simp only [encode, h.encoder, hpcm, if_false, hused, ne_eq, not_false_eq_true, if_true,
              hneed, hmem, encodeFrame_failed hp]
          · exact
              { ready := ⟨rfl, h.frame_pos, hmemlen.trans hframe, h.used, h.buffer⟩
                size := rfl
                bytes := rfl
                passed := rfl
                encoded := fun hok => by cases hok
                failed := fun _ => rfl
                buffer := fun _ h => by cases h
                fits := hzero }
      | some p =>
          obtain ⟨encSize, buffer, hencode, henc, hbuf, hle, hbytes⟩ :=
            encodeFrame_ok (e := { e with aPcmFrame := mem }) hp h.buffer hzero
          rw [Opus.answers_ok hp, ← henc]
          have hready : ({ e with
              aPcmFrame := mem
              opusEncoder := some (opus.encode st mem (maxDataBytes 0)).2
              passed := e.passed ++ [mem]
              opusBuffer := buffer
              pcmFrameUsedBytes := 0 } : RKOpusEncoder σ).Ready
              (opus.encode st mem (maxDataBytes 0)).2 :=
            ⟨rfl, h.frame_pos, hmemlen.trans hframe, h.frame_pos, hbuf⟩
          have hfewer : (pcm.drop (e.pcmFrameSize - e.pcmFrameUsedBytes)).length <
              pcm.length + 1 := by
            rw [List.length_drop]
            omega
          have hfront : buffer.take encSize.toNat = frame p := hbytes
          have hlen : (frame p).length = encSize.toNat := by
            rw [← hfront, List.length_take, hbuf, Nat.min_eq_left hle]
          obtain ⟨opu, encSize', e', hloop, hends⟩ :=
            @encodeLoop_spec _ opus _ _ _ _ _ _ hready hfewer rfl hle hlen hfront
          simp only [h.encoder] at hencode
          refine ⟨opu, encSize', e', ?_, ?_⟩
          · simp only [encode, h.encoder, hpcm, if_false, hused, ne_eq, not_false_eq_true, if_true,
              hneed, hmem, hencode]
            exact hloop
          · exact
              { ready := hends.ready
                size := hends.size
                bytes := hends.bytes
                passed := by
                  rw [hends.passed, List.append_assoc, List.singleton_append]
                  simp only [List.length_cons]
                  split
                  · rw [List.take_succ_cons]
                  · rw [List.take_succ_cons]
                encoded := hends.encoded
                failed := hends.failed
                buffer := hends.buffer
                fits := hends.fits }

/-- The same without samples: nothing is done. -/
theorem encode_ends (opus : Opus σ) (h : e.Ready st) (pcm : List (BitVec 16)) :
    ∃ opu encSize e', e.encode opus (some pcm) = some ((opu, encSize), e') ∧
      Ends (Chunks.whole e.pcmFrameSize (e.carried ++ pcm))
        (Chunks.rest e.pcmFrameSize (e.carried ++ pcm)) []
        (opus.answers st 0 (Chunks.whole e.pcmFrameSize (e.carried ++ pcm))) e opu encSize e' := by
  by_cases hpcm : pcm = []
  · subst hpcm
    have hlt : e.carried.length < e.pcmFrameSize := by
      rw [h.length_carried]
      exact h.used
    rw [List.append_nil, Chunks.whole_of_lt hlt, Chunks.rest_of_lt hlt]
    refine ⟨none, 0, e, ?_, ?_⟩
    · simp only [encode, h.encoder, if_true]
    · exact
        { ready := h
          size := rfl
          bytes := rfl
          passed := by rw [List.take_nil, List.append_nil]
          encoded := fun _ => ⟨rfl, rfl, fun _ => rfl⟩
          failed := fun hfail => by cases hfail
          buffer := fun _ h => by cases h
          fits := Nat.zero_le _ }
  · exact encode_spec h hpcm

end RKOpusEncoder

end OpenVoice
