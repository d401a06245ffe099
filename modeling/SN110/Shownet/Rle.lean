import SN110.Shownet.Receive

/-!
# Run-length encodings

An encoding is a list of tokens: a byte that stands for itself, or a marker with a count and a
value. The decoder inverts every encoding (`shownetDecodeRle_encode`), and so a packet can carry
its slots either way; only the uncompressed path looks at the declared slot count
(`receivedAlike_iff`).
-/

namespace SN110

open Memory Checked

/-! ## Tokens -/

/-- A token of the encoding. A marker cannot stand for itself. -/
inductive RleToken where
  | literal (b : UInt8) (ne_marker : b ≠ rleMarker)
  | run (count value : UInt8)

/-- The bytes of a token. -/
def RleToken.encode : RleToken → List UInt8
  | .literal b _ => [b]
  | .run count value => [rleMarker, count, value]

/-- What a token stands for. -/
def RleToken.expand : RleToken → List UInt8
  | .literal b _ => [b]
  | .run count value => List.replicate count.toNat value

/-- The encoding of a list of tokens. -/
def rleEncode (tokens : List RleToken) : List UInt8 := tokens.flatMap RleToken.encode

/-- What a list of tokens stands for. -/
def rleExpand (tokens : List RleToken) : List UInt8 := tokens.flatMap RleToken.expand

/-! ## The decoder on an encoding -/

/-- Cutting early cuts nothing that is cut later. -/
theorem take_append_take {α : Type*} (n : Nat) (xs ys : List α) :
    (xs.take n ++ ys).take n = (xs ++ ys).take n := by
  rw [List.take_append, List.take_append, List.take_take, List.length_take, Nat.min_self]
  congr 2
  omega

/-- The inner loop appends the run, up to the limit. -/
theorem rleRun_eq {value : UInt8} {max : Nat} (count : Nat) {out : List UInt8}
    (h : out.length ≤ max) :
    rleRun value max count out = (out ++ List.replicate count value).take max := by
  induction count generalizing out with
  | zero => simp [rleRun, h]
  | succ count ih =>
    rw [rleRun]
    split_ifs with hroom
    · rw [ih (by rw [List.length_append, List.length_singleton]; omega), List.replicate_succ,
        List.append_assoc, List.singleton_append]
    · rw [List.take_append_of_le_length (by omega), List.take_of_length_le h]

/-- **The loop appends what the tokens stand for**, up to the limit, and goes on behind them. -/
theorem rleLoop_encode_append {max : Nat} (tokens : List RleToken) (rest : List UInt8)
    {out : List UInt8} (h : out.length ≤ max) :
    rleLoop max (rleEncode tokens ++ rest) out
      = rleLoop max rest ((out ++ rleExpand tokens).take max) := by
  induction tokens generalizing out with
  | nil =>
    show rleLoop max rest out = rleLoop max rest ((out ++ []).take max)
    rw [List.append_nil, List.take_of_length_le h]
  | cons token tokens ih =>
    by_cases hroom : out.length < max
    · cases token with
      -- a literal is no marker, so it is read as itself
      | literal b hb =>
        show rleLoop max (b :: (rleEncode tokens ++ rest)) out
          = rleLoop max rest ((out ++ b :: rleExpand tokens).take max)
        rw [rleLoop_literal hroom fun hmarker => hb hmarker.1,
          ih (by rw [List.length_append, List.length_singleton]; omega), List.append_assoc,
          List.singleton_append]
      | run count value =>
        show rleLoop max (rleMarker :: count :: value :: (rleEncode tokens ++ rest)) out
          = rleLoop max rest
              ((out ++ (List.replicate count.toNat value ++ rleExpand tokens)).take max)
        rw [rleLoop_run hroom, ih (length_rleRun_le _ h), rleRun_eq _ h, take_append_take,
          List.append_assoc]
    · -- the output is full: nothing more is read
      rw [rleLoop_full hroom, List.take_append_of_le_length (by omega), List.take_of_length_le h,
        rleLoop_full hroom]

/-- Decoding the encoding of `tokens` appends their expansion, as far as the bound allows. -/
theorem rleLoop_encode {max : Nat} (tokens : List RleToken) {out : List UInt8}
    (h : out.length ≤ max) :
    rleLoop max (rleEncode tokens) out = (out ++ rleExpand tokens).take max := by
  have happ := rleLoop_encode_append tokens [] h
  rw [List.append_nil] at happ
  rw [happ]
  rfl

/-- From an empty output it is the expansion, as far as the bound allows. -/
theorem shownetDecodeRle_eq (tokens : List RleToken) (max : Nat) :
    shownetDecodeRle (rleEncode tokens) max = (rleExpand tokens).take max :=
  rleLoop_encode tokens (Nat.zero_le max)

/-- **Decoding inverts every encoding.** Into an array with room for `max` bytes the decoder writes
the first `max` bytes of what the tokens stand for, returns their number and leaves the rest of the
array alone. -/
theorem shownetDecodeRle_encode (tokens : List RleToken) {cap max : Nat} (hmax : max ≤ cap)
    (dst : Vector UInt8 cap) :
    ∃ decoded, rleLoopChecked (rleEncode tokens) max 0 dst 0
        = .ok (decoded, min max (rleExpand tokens).length) ∧
      ∀ i : Fin cap, decoded[i]
        = if i.val < min max (rleExpand tokens).length then load (rleExpand tokens) i
          else dst[i] := by
  have hloop := rleLoopChecked_eq hmax dst (rleEncode tokens) 0 []
  rw [overlay_nil, List.drop_zero, rleLoop_encode tokens (Nat.zero_le max), List.nil_append,
    List.length_take] at hloop
  refine ⟨_, hloop, fun i => ?_⟩
  have hget := getElem_overlay dst ((rleExpand tokens).take max) i.isLt
  simp only [List.length_take] at hget
  refine hget.trans ?_
  -- a slot that is decoded, or one behind them
  split_ifs with hi
  · rw [List.getElem_take, load_eq_getElem (by omega)]
  · rfl

/-- A run cut by the bound: two of three slots are stored, and the count says so. -/
theorem shownetDecodeRle_encode_cut :
    ∃ decoded, rleLoopChecked (rleEncode [.literal 10 (by decide), .run 3 7]) 2 0
        (Vector.replicate 4 0) 0 = .ok (decoded, 2) ∧
      ∀ i : Fin 4, decoded[i] = if i.val < 2 then load [10, 7, 7, 7] i else 0 := by
  obtain ⟨decoded, hrun, hbytes⟩ := shownetDecodeRle_encode
    [.literal 10 (by decide), .run 3 7] (by decide : 2 ≤ 4) (Vector.replicate 4 0)
  refine ⟨decoded, hrun, fun i => (hbytes i).trans ?_⟩
  have hzero : (Vector.replicate 4 (0 : UInt8))[i] = 0 := Vector.getElem_replicate i.isLt
  rw [hzero]
  rfl

/-! ## The two kinds of packet -/

/-- A packet: the header up to the flags, the flags and the data behind them. -/
def shownetPacket (header : Vector UInt8 14) (flags : UInt8) (data : List UInt8) : List UInt8 :=
  header.toList ++ flags :: data

/-- The flags of a packet whose slots are run-length encoded, or not. -/
def withRle (flags : UInt8) : Bool → UInt8
  | true => flags ||| shownetFlagRle
  | false => flags &&& ~~~shownetFlagRle

/-- The slot count that the header declares. -/
def slotCount (header : Vector UInt8 14) : UInt16 := load16Le header.toList offSlotCount

section

variable (header : Vector UInt8 14) (flags : UInt8) (data : List UInt8)

/-- A packet has 15 bytes before its data. -/
@[simp] theorem length_shownetPacket :
    (shownetPacket header flags data).length = 15 + data.length := by
  simp only [shownetPacket, List.length_append, Vector.length_toList, List.length_cons]
  omega

/-- The first 14 bytes are the header. -/
theorem load_shownetPacket_header {i : Nat} (h : i < 14) :
    load (shownetPacket header flags data) i = load header.toList i := by
  have hlen : i < header.toList.length := by simpa using h
  unfold shownetPacket
  rw [load_eq_getElem (by rw [List.length_append]; omega), load_eq_getElem hlen,
    List.getElem_append_left hlen]

/-- The byte behind them is the flags. -/
theorem load_shownetPacket_flags : load (shownetPacket header flags data) offFlags = flags := by
  unfold shownetPacket load
  simp

/-- The data stand behind the flags. -/
theorem load_shownetPacket_data (i : Nat) :
    load (shownetPacket header flags data) (offData + i) = load data i := by
  have hlen : (header.toList ++ [flags]).length = offData := by simp
  have hcut : shownetPacket header flags data = (header.toList ++ [flags]) ++ data := by
    unfold shownetPacket
    rw [List.append_assoc, List.singleton_append]
  unfold load
  rw [hcut, List.getD_append_right _ _ _ _ (by omega), hlen, Nat.add_sub_cancel_left]

/-- Behind the first 15 bytes the data are left. -/
theorem drop_shownetPacket : (shownetPacket header flags data).drop offData = data := by
  unfold shownetPacket
  rw [List.drop_append]
  simp

end

/-- What the two kinds of packet with the same slots have to be received as. -/
structure ReceivedAlike (raw rle : Int × ShownetFields) (slotCount : UInt16) : Prop where
  raw_ret : raw.1 = 0
  rle_ret : rle.1 = 0
  netSlot : raw.2.netSlot = rle.2.netSlot
  dmxLength : raw.2.dmxLength = rle.2.dmxLength
  dmxData : ∀ c : Fin dmxUniverseSize, c.val < raw.2.dmxLength.toNat →
    raw.2.dmxData.get c = rle.2.dmxData.get c
  raw_le : raw.2.dmxLength ≤ slotCount
  rle_le : rle.2.dmxLength ≤ slotCount

/-- The packet with the slots as they are, received. -/
def receivedRaw (header : Vector UInt8 14) (flags : UInt8) (d : List UInt8)
    (pkt : ShownetFields) : Int × ShownetFields :=
  shownetReceive (.datagram shownetBufLen (shownetPacket header (withRle flags false) d)) pkt

/-- A packet with encoded data, received. -/
def receivedEncoded (header : Vector UInt8 14) (flags : UInt8) (encoded : List UInt8)
    (pkt : ShownetFields) : Int × ShownetFields :=
  shownetReceive (.datagram shownetBufLen (shownetPacket header (withRle flags true) encoded)) pkt

/-- The packet with the slots encoded, received. -/
def receivedRle (header : Vector UInt8 14) (flags : UInt8) (tokens : List RleToken)
    (pkt : ShownetFields) : Int × ShownetFields :=
  shownetReceive
    (.datagram shownetBufLen (shownetPacket header (withRle flags true) (rleEncode tokens))) pkt

section

variable {header : Vector UInt8 14} {flags : UInt8}

/-- Without the flag the receiver takes the data as they are. -/
theorem withRle_false : withRle flags false &&& shownetFlagRle = 0 := by
  have hmask : ~~~shownetFlagRle &&& shownetFlagRle = 0 := by decide
  unfold withRle
  rw [UInt8.and_assoc, hmask, UInt8.and_zero]

/-- With it the receiver decodes them. -/
theorem withRle_true : withRle flags true &&& shownetFlagRle ≠ 0 := by
  have hset : (flags ||| shownetFlagRle) &&& shownetFlagRle = shownetFlagRle := by
    apply UInt8.eq_of_toBitVec_eq
    rw [UInt8.toBitVec_and, UInt8.toBitVec_or]
    ext i hi
    rw [BitVec.getElem_and, BitVec.getElem_or]
    grind
  show (flags ||| shownetFlagRle) &&& shownetFlagRle ≠ 0
  rw [hset]
  decide

/-- A datagram that fits the buffer arrives as a whole. -/
theorem datagram_buf {payload : List UInt8} (h : payload.length ≤ shownetBufLen) :
    (Received.datagram shownetBufLen payload).buf = payload := List.take_of_length_le h

/-- So its count is its length. -/
theorem datagram_count {payload : List UInt8} (h : payload.length ≤ shownetBufLen) :
    (Received.datagram shownetBufLen payload).count = payload.length := by
  show ((payload.take shownetBufLen).length : Int) = _
  rw [List.take_of_length_le h]

/-- A 16-bit field of the packet is the one of its header. -/
theorem load16Le_shownetPacket {off : Nat} (h : off + 1 < 14) (data : List UInt8) :
    load16Le (shownetPacket header flags data) off = load16Le header.toList off := by
  unfold load16Le
  rw [load_shownetPacket_header header flags data (by omega),
    load_shownetPacket_header header flags data h]

theorem ofInt_natCast (n : Nat) : UInt16.ofInt n = UInt16.ofNat n := by
  apply UInt16.toNat_inj.mp
  rw [UInt16.ofInt, UInt16.toNat_ofNat', UInt16.toNat_ofNat']
  omega

/-- What `shownet_receive` stores for data sent as they are. -/
theorem receivedRaw_eq {d : List UInt8} (hmin : 16 ≤ 15 + d.length) (hmax : d.length ≤ 512)
    (pkt : ShownetFields) :
    receivedRaw header flags d pkt
      = (0, { netSlot := load16Le header.toList offNetSlot
              dmxData := overlay pkt.dmxData (d.take (slotCount header).toNat)
              dmxLength := UInt16.ofNat (min d.length (slotCount header).toNat) }) := by
  have hlen : (shownetPacket header (withRle flags false) d).length ≤ shownetBufLen := by
    rw [length_shownetPacket]
    simp only [shownetBufLen]
    omega
  have hval : shownetDataLen (slotCount header) ((15 + d.length : Nat) : Int)
      = (min d.length (slotCount header).toNat : Nat) := by
    rw [shownetDataLen_eq _ hmin]
    omega
  have hdata : (Vector.ofFn fun i : Fin 512 =>
      if i.val < min d.length (slotCount header).toNat then
        load (shownetPacket header (withRle flags false) d) (offData + i)
      else pkt.dmxData.get i) = overlay pkt.dmxData (d.take (slotCount header).toNat) := by
    apply Vector.ext
    intro i hi
    rw [Vector.getElem_ofFn, getElem_overlay _ _ hi]
    simp only [List.length_take, Nat.min_comm d.length]
    split_ifs with hin
    · rw [load_shownetPacket_data, load_eq_getElem (by omega), List.getElem_take]
    · rfl
  unfold receivedRaw shownetReceive
  rw [datagram_count hlen, datagram_buf hlen, length_shownetPacket, if_neg,
    load_shownetPacket_flags, if_neg (not_not_intro withRle_false),
    load16Le_shownetPacket (by decide),
    load16Le_shownetPacket (by decide)]
  · unfold slotCount at hval hdata ⊢
    dsimp only
    rw [hval, Int.toNat_natCast, hdata, ofInt_natCast]
  · simp only [shownetMinPacket]
    omega

/-- What it stores for data sent encoded, whatever they decode to. -/
theorem receivedEncoded_eq {encoded : List UInt8} (hmin : 1 ≤ encoded.length)
    (hmax : 15 + encoded.length ≤ shownetBufLen) (pkt : ShownetFields) :
    receivedEncoded header flags encoded pkt
      = (0, { netSlot := load16Le header.toList offNetSlot
              dmxData := overlay pkt.dmxData (shownetDecodeRle encoded dmxUniverseSize)
              dmxLength :=
                UInt16.ofNat (shownetDecodeRle encoded dmxUniverseSize).length }) := by
  have hlen : (shownetPacket header (withRle flags true) encoded).length ≤ shownetBufLen := by
    rw [length_shownetPacket]
    exact hmax
  unfold receivedEncoded shownetReceive
  rw [datagram_count hlen, datagram_buf hlen, length_shownetPacket, if_neg,
    load_shownetPacket_flags, if_pos withRle_true, drop_shownetPacket, load16Le_shownetPacket]
  · decide
  · simp only [shownetMinPacket]
    omega

/-- What it stores for the encoding of `tokens`. -/
theorem receivedRle_eq {tokens : List RleToken} (hmin : 16 ≤ 15 + (rleEncode tokens).length)
    (hmax : 15 + (rleEncode tokens).length ≤ 1500) (pkt : ShownetFields) :
    receivedRle header flags tokens pkt
      = (0, { netSlot := load16Le header.toList offNetSlot
              dmxData := overlay pkt.dmxData ((rleExpand tokens).take 512)
              dmxLength := UInt16.ofNat ((rleExpand tokens).take 512).length }) := by
  have hreceived := @receivedEncoded_eq header flags _
    (show 1 ≤ (rleEncode tokens).length by omega) hmax pkt
  rwa [shownetDecodeRle_eq] at hreceived

end

/-- **Where the two kinds of packet are received alike**: if they carry at most as many slots as
the header declares. -/
theorem receivedAlike_iff (header : Vector UInt8 14) (flags : UInt8) (d : List UInt8)
    (tokens : List RleToken) (pkt pkt' : ShownetFields) (hexpand : rleExpand tokens = d)
    (hd : d.length ≤ 512)
    (hraw : shownetMinPacket ≤ (shownetPacket header (withRle flags false) d).length)
    (hrle : shownetMinPacket
      ≤ (shownetPacket header (withRle flags true) (rleEncode tokens)).length)
    (hmax : (shownetPacket header (withRle flags true) (rleEncode tokens)).length ≤ 1500) :
    ReceivedAlike (receivedRaw header flags d pkt) (receivedRle header flags tokens pkt')
        (slotCount header) ↔
      d.length ≤ (slotCount header).toNat := by
  subst hexpand
  rw [length_shownetPacket] at hraw hrle hmax
  rw [receivedRaw_eq hraw hd, receivedRle_eq hrle hmax, List.take_of_length_le hd]
  have hcount := (slotCount header).toNat_lt
  constructor
  · intro h
    -- the length of the encoded slots is not cut to the declared count
    have hle : (UInt16.ofNat (rleExpand tokens).length).toNat ≤ (slotCount header).toNat :=
      UInt16.le_iff_toNat_le.mp h.rle_le
    rw [UInt16.toNat_ofNat'] at hle
    omega
  · intro hle
    have hmin : min (rleExpand tokens).length (slotCount header).toNat
        = (rleExpand tokens).length := Nat.min_eq_left hle
    rw [hmin, List.take_of_length_le hle]
    have hlength : UInt16.ofNat (rleExpand tokens).length ≤ slotCount header := by
      rw [UInt16.le_iff_toNat_le, UInt16.toNat_ofNat']
      omega
    refine ⟨rfl, rfl, rfl, rfl, fun c hc => overlay_congr ?_, hlength, hlength⟩
    rw [UInt16.toNat_ofNat'] at hc
    omega

/-- A header that declares some slots. -/
def slotHeader (count : UInt8) : Vector UInt8 14 := (Vector.replicate 14 0).set 8 count

/-- A record before the first packet. -/
def blankShownetFields : ShownetFields where
  netSlot := 0
  dmxData := Vector.replicate 512 0
  dmxLength := 0

/-- Two slots sent as they are and as one run are received alike. -/
theorem receivedAlike_twoSlots :
    ReceivedAlike (receivedRaw (slotHeader 2) 0 [7, 7] blankShownetFields)
      (receivedRle (slotHeader 2) 0 [.run 2 7] blankShownetFields) (slotCount (slotHeader 2)) :=
  (receivedAlike_iff (slotHeader 2) 0 [7, 7] [.run 2 7] blankShownetFields blankShownetFields rfl
    (by decide) (by decide) (by decide) (by decide)).mpr (by decide)

/-- A header that declares one slot before an encoding of two: both are received. -/
theorem rle_pastSlotCount :
    rleExpand [.run 2 7] = [7, 7] ∧
      ¬ ReceivedAlike (receivedRaw (slotHeader 1) 0 [7, 7] blankShownetFields)
        (receivedRle (slotHeader 1) 0 [.run 2 7] blankShownetFields)
        (slotCount (slotHeader 1)) := by
  refine ⟨rfl, fun h => ?_⟩
  have hle := h.rle_le
  rw [receivedRle_eq (by decide) (by decide)] at hle
  exact absurd hle (by decide)

end SN110
