import SN110.Shownet.Rle

/-!
# Truncated encodings

An encoding that is cut inside its last run: a marker with fewer than two bytes behind it. The
decoder takes these bytes as they are and returns a length, and so the receiver delivers the packet
(`truncated_accepted`), although `shownet.h` has -1 for an error.
-/

namespace SN110

open Memory Checked

/-- Whole tokens, and a run of which at most the count is there. -/
def truncated (tokens : List RleToken) (tail : List UInt8) : List UInt8 :=
  rleEncode tokens ++ rleMarker :: tail

/-- What `shownet_decode_rle` returns: where the last byte was stored, if no access was a fault. -/
def decoderReturn {cap : Nat} (encoded : List UInt8) (max : Nat) (dst : Vector UInt8 cap) :
    Option Int :=
  match rleLoopChecked encoded max 0 dst 0 with
  | .ok run => some run.2
  | .error _ => none

/-- Too few bytes for a run stand for themselves. -/
theorem rleLoop_short {max : Nat} {bytes : List UInt8} (hshort : bytes.length ≤ 2)
    {out : List UInt8} (h : out.length ≤ max) :
    rleLoop max bytes out = (out ++ bytes).take max := by
  induction bytes generalizing out with
  | nil =>
    rw [List.append_nil, List.take_of_length_le h]
    rfl
  | cons b bytes ih =>
    rw [List.length_cons] at hshort
    by_cases hroom : out.length < max
    · rw [rleLoop_literal hroom (fun hrun => absurd hrun.2 (by omega)), ih (by omega)
        (by rw [List.length_append, List.length_singleton]; omega), List.append_assoc,
        List.singleton_append]
    · rw [rleLoop_full hroom, List.take_append_of_le_length (by omega), List.take_of_length_le h]

section

variable {tail : List UInt8} (htail : tail.length < 2)

include htail

/-- **The cut run is decoded to its own bytes.** -/
theorem shownetDecodeRle_truncated (tokens : List RleToken) (max : Nat) :
    shownetDecodeRle (truncated tokens tail) max
      = (rleExpand tokens ++ rleMarker :: tail).take max := by
  have hout : ((rleExpand tokens).take max).length ≤ max := by
    rw [List.length_take]
    exact Nat.min_le_left _ _
  unfold shownetDecodeRle truncated
  rw [rleLoop_encode_append tokens _ (Nat.zero_le max), List.nil_append,
    rleLoop_short (by rw [List.length_cons]; omega) hout, take_append_take]

theorem length_shownetDecodeRle_truncated (tokens : List RleToken) (max : Nat) :
    (shownetDecodeRle (truncated tokens tail) max).length
      = min max ((rleExpand tokens).length + 1 + tail.length) := by
  rw [shownetDecodeRle_truncated htail, List.length_take, List.length_append, List.length_cons]
  omega

end

/-- The data of a cut encoding is an error, for the decoder and for the receiver of a packet with
it. -/
structure ReportsTruncation {cap : Nat} (encoded : List UInt8) (max : Nat) (dst : Vector UInt8 cap)
    (received : Int × ShownetFields) : Prop where
  decoder : decoderReturn encoded max dst = some (-1)
  receiver : received.1 = -1

theorem decoderReturn_eq {cap max : Nat} (hmax : max ≤ cap) (encoded : List UInt8)
    (dst : Vector UInt8 cap) :
    decoderReturn encoded max dst = some ((shownetDecodeRle encoded max).length : Int) := by
  have hloop := rleLoopChecked_eq hmax dst encoded 0 []
  rw [overlay_nil, List.drop_zero] at hloop
  unfold decoderReturn
  rw [List.length_nil] at hloop
  rw [hloop]
  rfl

/-- **A cut encoding is no error**, neither for the decoder nor for the receiver: both take the
bytes of the cut run as data. -/
theorem truncated_accepted (tokens : List RleToken) {tail : List UInt8} (htail : tail.length < 2)
    {cap max : Nat} (hmax : max ≤ cap) (dst : Vector UInt8 cap)
    (header : Vector UInt8 14) (flags : UInt8) (pkt : ShownetFields)
    (hfits : (shownetPacket header (withRle flags true) (truncated tokens tail)).length
      ≤ shownetBufLen) :
    ¬ ReportsTruncation (truncated tokens tail) max dst
        (receivedEncoded header flags (truncated tokens tail) pkt) ∧
      decoderReturn (truncated tokens tail) max dst
        = some ((min max ((rleExpand tokens).length + 1 + tail.length) : Nat) : Int) ∧
      (receivedEncoded header flags (truncated tokens tail) pkt).1 = 0 ∧
      (receivedEncoded header flags (truncated tokens tail) pkt).2.dmxLength
        = UInt16.ofNat (min dmxUniverseSize ((rleExpand tokens).length + 1 + tail.length)) := by
  have hlength := length_shownetDecodeRle_truncated htail tokens
  have hreturn : decoderReturn (truncated tokens tail) max dst
      = some ((min max ((rleExpand tokens).length + 1 + tail.length) : Nat) : Int) := by
    rw [decoderReturn_eq hmax, hlength]
  have hdata : 1 ≤ (truncated tokens tail).length := by
    unfold truncated
    rw [List.length_append, List.length_cons]
    omega
  rw [length_shownetPacket] at hfits
  rw [receivedEncoded_eq hdata hfits, hlength]
  refine ⟨fun herror => ?_, hreturn, rfl, rfl⟩
  -- what is returned is a length
  have hneg := herror.decoder
  rw [hreturn] at hneg
  exact absurd (Option.some.inj hneg) (by omega)

/-- Four slots, and the marker and count of a run whose value is missing. -/
theorem truncated_accepted_count :
    ¬ ReportsTruncation (truncated [.run 3 7, .literal 66 (by decide)] [5]) 6
        (Vector.replicate 8 0)
        (receivedEncoded (slotHeader 5) 0 (truncated [.run 3 7, .literal 66 (by decide)] [5])
          blankShownetFields) ∧
      decoderReturn (truncated [.run 3 7, .literal 66 (by decide)] [5]) 6 (Vector.replicate 8 0)
        = some 6 ∧
      (receivedEncoded (slotHeader 5) 0 (truncated [.run 3 7, .literal 66 (by decide)] [5])
        blankShownetFields).1 = 0 ∧
      (receivedEncoded (slotHeader 5) 0 (truncated [.run 3 7, .literal 66 (by decide)] [5])
        blankShownetFields).2.dmxLength = 6 :=
  truncated_accepted [.run 3 7, .literal 66 (by decide)] (by decide) (by decide)
    (Vector.replicate 8 0) (slotHeader 5) 0 blankShownetFields (by decide)

/-- A literal and the marker of a run: the receiver delivers two slots. -/
theorem marker_notReported :
    ¬ ReportsTruncation (truncated [.literal 66 (by decide)] []) dmxUniverseSize
      (Vector.replicate 512 0)
      (receivedEncoded (slotHeader 1) 0 (truncated [.literal 66 (by decide)] [])
        blankShownetFields) := by
  intro h
  have hreturn := h.decoder
  rw [decoderReturn_eq (le_refl _), length_shownetDecodeRle_truncated (by decide)] at hreturn
  exact absurd hreturn (by decide)

end SN110
