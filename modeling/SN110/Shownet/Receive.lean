import SN110.Shownet.Packet
import SN110.Oabi.Socket
import SN110.Lib.Checked

/-!
# The ShowNet receiver (`shownet_receive`, `shownet_decode_rle`)

`shownetReceive` is the function as it computes. `shownetReceiveChecked` is the same code with
every access to the buffer and to the packet checked and every length kept exact; it never faults
(`shownetReceiveChecked_eq`). The decoder reads its input by position there, and as a list in
`rleLoop`, whose second argument is what has been decoded: the invariant between the two is that
the array holds these bytes first (`rleLoopChecked_eq`).
-/

namespace SN110

open Memory Checked

/-! ## Packet offsets -/

@[simp] abbrev offNetSlot : Nat := 6
@[simp] abbrev offSlotCount : Nat := 8
@[simp] abbrev offFlags : Nat := 14
@[simp] abbrev offData : Nat := 15

@[simp] abbrev shownetMinPacket : Nat := 16

/-- The size of `shownet_receive`'s buffer. -/
abbrev shownetBufLen : Nat := 1500

abbrev shownetFlagRle : UInt8 := 0x01

/-- The byte that starts a run. -/
abbrev rleMarker : UInt8 := 0x80

/-- `shownet_packet_t` as memory: the length is not bounded yet. -/
structure ShownetFields where
  netSlot : UInt16
  dmxData : Slots
  dmxLength : UInt16

/-! ## The decoder -/

/-- The inner loop of `shownet_decode_rle`: `count` copies, up to `max` bytes in all. -/
def rleRun (value : UInt8) (max : Nat) : Nat → List UInt8 → List UInt8
  | 0, out => out
  | count + 1, out =>
    if out.length < max then rleRun value max count (out ++ [value]) else out

/-- The loop of `shownet_decode_rle`, on the bytes still encoded and the bytes decoded. A marker
with fewer than two bytes behind it is an ordinary byte. -/
def rleLoop (max : Nat) : List UInt8 → List UInt8 → List UInt8
  | [], out => out
  | b :: count :: value :: rest, out =>
    if out.length < max then
      if b = rleMarker then rleLoop max rest (rleRun value max count.toNat out)
      else rleLoop max (count :: value :: rest) (out ++ [b])
    else out
  | b :: rest, out => if out.length < max then rleLoop max rest (out ++ [b]) else out

/-- `shownet_decode_rle`: the bytes stored at the start of `decoded`. Their number is the return
value. -/
def shownetDecodeRle (encoded : List UInt8) (maxDecodedLen : Nat) : List UInt8 :=
  rleLoop maxDecodedLen encoded []

/-! ## The receiver -/

/-- `data_len` on the uncompressed path: cut to a universe and to the declared slots. -/
def shownetDataLen (slotCount : UInt16) (n : Int) : Int :=
  let dataLen := n - offData
  let dataLen := if dataLen > 512 then 512 else dataLen
  if dataLen % 65536 > slotCount.toNat then slotCount.toNat else dataLen

/-- `shownet_receive`: the return value and the packet. -/
def shownetReceive (r : Received shownetBufLen) (pkt : ShownetFields) : Int × ShownetFields :=
  if r.count < shownetMinPacket then (-1, pkt)
  else if load r.buf offFlags &&& shownetFlagRle ≠ 0 then
    let decoded := shownetDecodeRle (r.buf.drop offData) dmxUniverseSize
    (0, { netSlot := load16Le r.buf offNetSlot
          dmxData := overlay pkt.dmxData decoded
          dmxLength := UInt16.ofNat decoded.length })
  else
    let dataLen := shownetDataLen (load16Le r.buf offSlotCount) r.count
    (0, { netSlot := load16Le r.buf offNetSlot
          dmxData := Vector.ofFn fun i : Fin 512 =>
            if i.val < dataLen.toNat then load r.buf (offData + i) else pkt.dmxData.get i
          dmxLength := UInt16.ofInt dataLen })

/-! ## The checked run -/

section

variable {cap : Nat}

/-- The inner loop of the decoder, on the array and the position in it. -/
def rleRunChecked (value : UInt8) (max : Nat) :
    Nat → Vector UInt8 cap → Nat → Except Fault (Vector UInt8 cap × Nat)
  | 0, decoded, outPos => .ok (decoded, outPos)
  | count + 1, decoded, outPos =>
    if outPos < max then do
      let decoded ← put decoded outPos value
      rleRunChecked value max count decoded (outPos + 1)
    else .ok (decoded, outPos)

/-- The loop of the decoder, on the position in the input, the array and the position in it. -/
def rleLoopChecked (encoded : List UInt8) (max : Nat) (inPos : Nat) (decoded : Vector UInt8 cap)
    (outPos : Nat) : Except Fault (Vector UInt8 cap × Nat) :=
  if h : inPos < encoded.length ∧ outPos < max then do
    let b ← fetch encoded inPos
    -- `in_pos` has been stepped past `b` when the code looks two bytes ahead
    if b = rleMarker ∧ inPos + 1 + 1 < encoded.length then do
      let count ← fetch encoded (inPos + 1)
      let value ← fetch encoded (inPos + 2)
      let run ← rleRunChecked value max count.toNat decoded outPos
      rleLoopChecked encoded max (inPos + 3) run.1 run.2
    else do
      let decoded ← put decoded outPos b
      rleLoopChecked encoded max (inPos + 1) decoded (outPos + 1)
  else .ok (decoded, outPos)
termination_by encoded.length - inPos

end

/-- `shownet_receive`, every access checked. -/
def shownetReceiveChecked (r : Received shownetBufLen) (pkt : ShownetFields) :
    Except Fault (Int × ShownetFields) :=
  let buf := r.buf
  if r.count < shownetMinPacket then .ok (-1, pkt)
  else do
    let netSlot ← fetch16Le buf offNetSlot
    let slotCount ← fetch16Le buf offSlotCount
    let flags ← fetch buf offFlags
    if flags &&& shownetFlagRle ≠ 0 then do
      let decoded ← rleLoopChecked (buf.drop offData) dmxUniverseSize 0 pkt.dmxData 0
      let dmxLength ← narrow16 decoded.2
      .ok (0, { netSlot := netSlot, dmxData := decoded.1, dmxLength := dmxLength })
    else do
      let dataLen : Int := (buf.length : Int) - offData
      let dataLen := if dataLen > 512 then 512 else dataLen
      let dataLen16 ← narrow16 dataLen
      let dataLen := if dataLen16 > slotCount then (slotCount.toNat : Int) else dataLen
      let dmxData ← copyIn pkt.dmxData buf offData dataLen.toNat
      let dmxLength ← narrow16 dataLen
      .ok (0, { netSlot := netSlot, dmxData := dmxData, dmxLength := dmxLength })

/-! ## The decoder stays inside -/

theorem length_rleRun_le {value : UInt8} {max : Nat} (count : Nat) {out : List UInt8}
    (h : out.length ≤ max) : (rleRun value max count out).length ≤ max := by
  induction count generalizing out with
  | zero => exact h
  | succ count ih =>
    rw [rleRun]
    split_ifs with hroom
    · exact ih (by rw [List.length_append, List.length_singleton]; omega)
    · exact h

/-- A full array ends the loop. -/
theorem rleLoop_full {max : Nat} {out : List UInt8} (h : ¬ out.length < max)
    (encoded : List UInt8) : rleLoop max encoded out = out := by
  match encoded with
  | [] => rfl
  | [b] => simp only [rleLoop, if_neg h]
  | [b, c] => simp only [rleLoop, if_neg h]
  | b :: count :: value :: rest => rw [rleLoop, if_neg h]

/-- A run takes three bytes of the input. -/
theorem rleLoop_run {max : Nat} {out : List UInt8} (h : out.length < max) (count value : UInt8)
    (rest : List UInt8) :
    rleLoop max (rleMarker :: count :: value :: rest) out
      = rleLoop max rest (rleRun value max count.toNat out) := by
  rw [rleLoop, if_pos h, if_pos rfl]

/-- Any other byte stands for itself. -/
theorem rleLoop_literal {max : Nat} {out : List UInt8} (h : out.length < max) {b : UInt8}
    {rest : List UInt8} (hb : ¬ (b = rleMarker ∧ 2 ≤ rest.length)) :
    rleLoop max (b :: rest) out = rleLoop max rest (out ++ [b]) := by
  match rest with
  | [] => simp only [rleLoop, if_pos h]
  | [c] => simp only [rleLoop, if_pos h]
  | count :: value :: rest =>
    rw [rleLoop, if_pos h, if_neg (fun hmarker => hb ⟨hmarker, by simp⟩)]

theorem length_rleLoop_le {max : Nat} (encoded : List UInt8) {out : List UInt8}
    (h : out.length ≤ max) : (rleLoop max encoded out).length ≤ max := by
  -- the loop stores only while there is room
  induction encoded, out using rleLoop.induct max with
  | case1 out => exact h
  | case2 count value rest out hroom ih =>
    rw [rleLoop_run hroom]
    exact ih (length_rleRun_le count.toNat h)
  | case3 b count value rest out hroom hb ih =>
    rw [rleLoop_literal hroom (fun hmarker => hb hmarker.1)]
    exact ih (by rw [List.length_append, List.length_singleton]; omega)
  | case4 b count value rest out hroom =>
    rw [rleLoop_full hroom]
    exact h
  | case5 b rest out hshort hroom ih =>
    rw [rleLoop, if_pos hroom]
    · exact ih (by rw [List.length_append, List.length_singleton]; omega)
    · exact hshort
  | case6 b rest out hshort hroom =>
    rw [rleLoop_full hroom]
    exact h

/-- The decoder stops at the length it is given. -/
theorem length_shownetDecodeRle_le (encoded : List UInt8) (max : Nat) :
    (shownetDecodeRle encoded max).length ≤ max :=
  length_rleLoop_le encoded (Nat.zero_le max)

section

variable {cap max : Nat} (hmax : max ≤ cap) (dst : Vector UInt8 cap)

include hmax

theorem rleRunChecked_eq (value : UInt8) (count : Nat) (out : List UInt8) :
    rleRunChecked value max count (overlay dst out) out.length
      = .ok (overlay dst (rleRun value max count out), (rleRun value max count out).length) := by
  induction count generalizing out with
  | zero => rfl
  | succ count ih =>
    rw [rleRunChecked, rleRun]
    split_ifs with hroom
    · rw [put_overlay value (by omega), ok_bind]
      have hnext := ih (out ++ [value])
      rwa [List.length_append, List.length_singleton] at hnext
    · rfl

/-- The loop by position does what the loop on the remaining bytes does, and never faults. -/
theorem rleLoopChecked_eq (encoded : List UInt8) (inPos : Nat) (out : List UInt8) :
    rleLoopChecked encoded max inPos (overlay dst out) out.length
      = .ok (overlay dst (rleLoop max (encoded.drop inPos) out),
          (rleLoop max (encoded.drop inPos) out).length) := by
  -- on the number of bytes left to read
  induction hleft : encoded.length - inPos using Nat.strong_induction_on generalizing inPos out with
  | _ left ih =>
    subst hleft
    rw [rleLoopChecked]
    by_cases hroom : out.length < max
    swap
    · rw [dif_neg (fun h => hroom h.2), rleLoop_full hroom]
    by_cases hin : inPos < encoded.length
    swap
    · rw [dif_neg (fun h => hin h.1), List.drop_of_length_le (not_lt.mp hin)]
      rfl
    have hdrop : encoded.drop inPos = load encoded inPos :: encoded.drop (inPos + 1) := by
      rw [load_eq_getElem hin, List.drop_eq_getElem_cons hin]
    rw [dif_pos ⟨hin, hroom⟩, fetch_eq_ok hin, ok_bind, hdrop]
    by_cases hrun : load encoded inPos = rleMarker ∧ inPos + 1 + 1 < encoded.length
    · obtain ⟨hmarker, hlong⟩ := hrun
      have hdrop2 : encoded.drop (inPos + 1)
          = load encoded (inPos + 1) :: load encoded (inPos + 2) :: encoded.drop (inPos + 3) := by
        rw [load_eq_getElem (by omega), load_eq_getElem hlong,
          List.drop_eq_getElem_cons (by omega), List.drop_eq_getElem_cons hlong]
      rw [if_pos ⟨hmarker, hlong⟩, fetch_eq_ok (by omega), ok_bind, fetch_eq_ok hlong, ok_bind,
        rleRunChecked_eq hmax, ok_bind, hmarker, hdrop2, rleLoop_run hroom]
      exact ih _ (by omega) (inPos + 3) _ rfl
    · have hliteral : ¬ (load encoded inPos = rleMarker ∧
          2 ≤ (encoded.drop (inPos + 1)).length) := by
        intro h
        rw [List.length_drop] at h
        exact hrun ⟨h.1, by omega⟩
      rw [if_neg hrun, put_overlay _ (by omega), ok_bind, rleLoop_literal hroom hliteral]
      have hnext := ih _ (by omega) (inPos + 1) (out ++ [load encoded inPos]) rfl
      rwa [List.length_append, List.length_singleton] at hnext

end

/-! ## The receiver stays inside -/

/-- The uncompressed length: within a universe, the declared slots and the datagram. -/
theorem shownetDataLen_eq (slotCount : UInt16) {n : Nat} (hmin : 16 ≤ n) :
    shownetDataLen slotCount n = min (min (n - 15) 512) slotCount.toNat := by
  have hlt := slotCount.toNat_lt
  simp only [shownetDataLen, offData]
  split_ifs <;> omega

/-- **The receiver stays inside.** `shownet_receive` reads and writes in bounds, its lengths do not
wrap, and it computes what it does unchecked. -/
theorem shownetReceiveChecked_eq (r : Received shownetBufLen) (pkt : ShownetFields) :
    shownetReceiveChecked r pkt = .ok (shownetReceive r pkt) := by
  unfold shownetReceiveChecked shownetReceive
  by_cases hmin : r.count < shownetMinPacket
  · rw [if_pos hmin, if_pos hmin]
  simp only [shownetMinPacket] at hmin
  have hcount := Received.count_eq_length (r := r) (by omega)
  have hlen : 16 ≤ r.buf.length := by omega
  simp only
  rw [if_neg hmin, if_neg hmin, fetch16Le_eq_ok (by simp only [offNetSlot]; omega), ok_bind,
    fetch16Le_eq_ok (by simp only [offSlotCount]; omega), ok_bind,
    fetch_eq_ok (by simp only [offFlags]; omega), ok_bind]
  -- the decoder is bounded by the universe, so its count fits 16 bits
  by_cases hrle : load r.buf offFlags &&& shownetFlagRle ≠ 0
  · have hdecoded : rleLoopChecked (r.buf.drop offData) dmxUniverseSize 0 pkt.dmxData 0
        = .ok (overlay pkt.dmxData (shownetDecodeRle (r.buf.drop offData) dmxUniverseSize),
          (shownetDecodeRle (r.buf.drop offData) dmxUniverseSize).length) := by
      have hloop :=
        rleLoopChecked_eq (le_refl dmxUniverseSize) pkt.dmxData (r.buf.drop offData) 0 []
      rwa [overlay_nil, List.drop_zero] at hloop
    have hle := length_shownetDecodeRle_le (r.buf.drop offData) dmxUniverseSize
    simp only [dmxUniverseSize] at hle
    rw [if_pos hrle, if_pos hrle, hdecoded, ok_bind, narrow16_natCast (by
      simp only [dmxUniverseSize]
      omega), ok_bind]
  · -- the length after the first cut fits 16 bits, so that the code's comparison is exact
    have hcut : (if (r.buf.length : Int) - offData > 512 then 512
        else (r.buf.length : Int) - offData) = ((min (r.buf.length - 15) 512 : Nat) : Int) := by
      simp only [offData]
      split_ifs <;> omega
    have hgt : UInt16.ofNat (min (r.buf.length - 15) 512) > load16Le r.buf offSlotCount ↔
        (load16Le r.buf offSlotCount).toNat < min (r.buf.length - 15) 512 := by
      rw [gt_iff_lt, UInt16.lt_iff_toNat_lt, UInt16.toNat_ofNat', Nat.mod_eq_of_lt (by omega)]
    have hdata : (if UInt16.ofNat (min (r.buf.length - 15) 512) > load16Le r.buf offSlotCount then
        ((load16Le r.buf offSlotCount).toNat : Int)
        else ((min (r.buf.length - 15) 512 : Nat) : Int))
        = shownetDataLen (load16Le r.buf offSlotCount) r.count := by
      rw [hcount, shownetDataLen_eq _ hlen]
      split_ifs with hlong
      · rw [hgt] at hlong
        omega
      · rw [hgt] at hlong
        omega
    rw [if_neg hrle, if_neg hrle, hcut, narrow16_natCast (by omega), ok_bind, hdata]
    have hval : shownetDataLen (load16Le r.buf offSlotCount) r.count
        = min (min (r.buf.length - 15) 512) (load16Le r.buf offSlotCount).toNat := by
      rw [hcount, shownetDataLen_eq _ hlen]
    generalize shownetDataLen (load16Le r.buf offSlotCount) r.count = dataLen at hval
    rw [copyIn_eq_ok (by simp only [offData]; omega) (by simp only [dmxUniverseSize]; omega),
      ok_bind, narrow16_eq_ok (by omega) (by omega), ok_bind]
    rfl

/-- A received packet has at most 512 slots. -/
theorem shownetReceive_dmxLength {r : Received shownetBufLen} {pkt : ShownetFields}
    (hok : (shownetReceive r pkt).1 = 0) :
    (shownetReceive r pkt).2.dmxLength.toNat ≤ dmxUniverseSize := by
  have hneg : (-1 : Int) ≠ 0 := by decide
  unfold shownetReceive at hok ⊢
  by_cases hmin : r.count < shownetMinPacket
  · rw [if_pos hmin] at hok
    exact absurd hok hneg
  rw [if_neg hmin]
  simp only [shownetMinPacket] at hmin
  have hcount := Received.count_eq_length (r := r) (by omega)
  have hle := length_shownetDecodeRle_le (r.buf.drop offData) dmxUniverseSize
  have hval := shownetDataLen_eq (load16Le r.buf offSlotCount) (n := r.buf.length) (by omega)
  simp only [dmxUniverseSize] at hle ⊢
  split_ifs
  · rw [UInt16.toNat_ofNat']
    omega
  · rw [hcount, hval, UInt16.ofInt, UInt16.toNat_ofNat']
    omega

/-- The slots of a received packet do not depend on what the record held. -/
theorem shownetReceive_congr {r : Received shownetBufLen} {pkt : ShownetFields}
    (pkt' : ShownetFields) (hok : (shownetReceive r pkt).1 = 0) :
    (shownetReceive r pkt').1 = 0 ∧
      (shownetReceive r pkt').2.dmxLength = (shownetReceive r pkt).2.dmxLength ∧
      ∀ c : Fin dmxUniverseSize, c.val < (shownetReceive r pkt).2.dmxLength.toNat →
        (shownetReceive r pkt').2.dmxData.get c = (shownetReceive r pkt).2.dmxData.get c := by
  have hneg : (-1 : Int) ≠ 0 := by decide
  unfold shownetReceive at hok ⊢
  by_cases hmin : r.count < shownetMinPacket
  · rw [if_pos hmin] at hok
    exact absurd hok hneg
  rw [if_neg hmin, if_neg hmin]
  simp only [shownetMinPacket] at hmin
  have hcount := Received.count_eq_length (r := r) (by omega)
  -- what is stored below the length comes from the datagram alone
  by_cases hrle : load r.buf offFlags &&& shownetFlagRle ≠ 0
  · have hle := length_shownetDecodeRle_le (r.buf.drop offData) dmxUniverseSize
    rw [if_pos hrle, if_pos hrle]
    refine ⟨rfl, by simp only, fun c hc => overlay_congr ?_⟩
    simp only [dmxUniverseSize, UInt16.toNat_ofNat'] at hc hle ⊢
    omega
  · have hval := shownetDataLen_eq (load16Le r.buf offSlotCount) (n := r.buf.length) (by omega)
    rw [if_neg hrle, if_neg hrle]
    refine ⟨rfl, by simp only, fun c hc => ?_⟩
    simp only [hcount, hval, UInt16.ofInt, UInt16.toNat_ofNat', get_ofFn] at hc ⊢
    rw [if_pos (by omega), if_pos (by omega)]

end SN110
