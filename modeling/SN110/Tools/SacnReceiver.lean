import SN110.Tools.SacnSender
import SN110.Sacn.Accept

/-!
# The test receiver (`sacn_receiver.py`)

`parse_sacn` reads a datagram for the tests that listen to the node, with slices and `struct` where
`sacn_parse` has loads and `memcpy`. `verify_mode` counts the packets that show a pattern.

* `parseSacn_agrees`: both parsers accept the same datagrams and read the same from them.
* `verifyMode_iff`: the test passes when three of the datagrams show the pattern to the node's own
  parser, as far as their levels go.
* `builders_readAlike`: the packets of the two builders, which are never equal, are read the same by
  both parsers.

## How the two parsers are compared

`SacnAccepted` says which datagrams `sacn_parse` accepts. `parse_sacn` is shown to accept the same
ones, and each slice it takes is then the field that the node loads (`samePacket_receivedPacket`).
The builders' packets differ only in the low bytes of the lengths of their three layers, which
neither parser looks at: `SameButLengths` says so, and has one lemma for each kind of load.
-/

namespace SN110

open Memory

/-! ## The code -/

/-- `buf[lo:hi]`. -/
def pySlice (buf : List UInt8) (lo hi : Nat) : List UInt8 := (buf.drop lo).take (hi - lo)

/-- What `parse_sacn` returns for a packet. -/
structure ReceivedPacket where
  cid : List UInt8
  sourceName : String
  priority : Nat
  sequence : Nat
  dmxUniverse : Nat
  startCode : Nat
  dmxData : List UInt8
  dmxLength : Nat

/-- `parse_sacn`; `decode` is `bytes.decode('utf-8', errors='replace')`. -/
def parseSacn (decode : List UInt8 → String) (buf : List UInt8) : Option ReceivedPacket :=
  if buf.length < 126 then none
  else if (load16 buf offPreamble).toNat ≠ 0x0010 then none
  else if pySlice buf offAcnId (offAcnId + 12) ≠ sacnAcnIdentifier then none
  else if (load32 buf offRootVector).toNat ≠ 4 then none
  else if load buf offDmpVector ≠ 2 then none
  else if (load16 buf offDmpPropCount).toNat < 1 then none
  else
    let sourceName := (pySlice buf offSourceName (offSourceName + 64)).takeWhile (· ≠ 0)
    let dmxLen := min ((load16 buf offDmpPropCount).toNat - 1) 512
    let dmxLen :=
      if offDmpDmxData + dmxLen > buf.length then buf.length - offDmpDmxData else dmxLen
    some {
      cid := pySlice buf offCid (offCid + 16)
      sourceName := decode sourceName
      priority := (load buf offPriority).toNat
      sequence := (load buf offSequence).toNat
      dmxUniverse := (load16 buf offUniverse).toNat
      startCode := (load buf offDmpStartCode).toNat
      dmxData := pySlice buf offDmpDmxData (offDmpDmxData + dmxLen)
      dmxLength := dmxLen }

/-- The patterns that `--pattern` offers. -/
inductive TestPattern where
  | identify
  | full
  | zero
  | ramp

/-- `generate_expected`. -/
def generateExpected : TestPattern → List UInt8
  | .identify => (((List.replicate 512 0).set 0 255).set 1 128).set 2 64
  | .full => List.replicate 512 255
  | .zero => List.replicate 512 0
  | .ramp => (List.range 512).map UInt8.ofNat

/-- The comparison of `verify_mode`, as far as both lists go. -/
def matchesExpected (dmx expected : List UInt8) : Bool :=
  (List.range (min expected.length dmx.length)).all fun i => load dmx i == load expected i

/-- The loop of `verify_mode` after `matchCount` matches. Nothing received is a timeout of the
socket; the list ends when the time is up. -/
def verifyLoop (decode : List UInt8 → String) (dmxUniverse : Nat) (expected : List UInt8) :
    Nat → List (Option (List UInt8)) → Bool
  | _, [] => false
  | matchCount, none :: arrivals => verifyLoop decode dmxUniverse expected matchCount arrivals
  | matchCount, some datagram :: arrivals =>
    match parseSacn decode (datagram.take 700) with
    | none => verifyLoop decode dmxUniverse expected matchCount arrivals
    | some pkt =>
      if pkt.dmxUniverse ≠ dmxUniverse then
        verifyLoop decode dmxUniverse expected matchCount arrivals
      else if pkt.startCode ≠ 0 then verifyLoop decode dmxUniverse expected matchCount arrivals
      else if matchesExpected pkt.dmxData expected then
        if matchCount + 1 ≥ 3 then true
        else verifyLoop decode dmxUniverse expected (matchCount + 1) arrivals
      else verifyLoop decode dmxUniverse expected matchCount arrivals

/-- `verify_mode`. -/
def verifyMode (decode : List UInt8 → String) (dmxUniverse : Nat) (pattern : TestPattern)
    (arrivals : List (Option (List UInt8))) : Bool :=
  verifyLoop decode dmxUniverse (generateExpected pattern) 0 arrivals

/-! ## The two parsers -/

/-- Both have read the same. The node's source name is a C string, of at most 63 bytes; its options
have no counterpart. -/
structure SamePacket (decode : List UInt8 → String) (r : ReceivedPacket) (pkt : SacnPacket) :
    Prop where
  cid : r.cid = pkt.cid.toList
  sourceName : ∃ name, r.sourceName = decode name ∧ cstr pkt.sourceName.toList = name.take 63
  priority : r.priority = pkt.priority.toNat
  sequence : r.sequence = pkt.sequence.toNat
  dmxUniverse : r.dmxUniverse = pkt.dmxUniverse.toNat
  startCode : r.startCode = pkt.startCode.toNat
  dmxLength : r.dmxLength = pkt.dmxLength.toNat
  dmxData : r.dmxData = pkt.dmxData.toList.take pkt.dmxLength.toNat

section

variable {buf : List UInt8} {lo n : Nat}

/-- A slice within the buffer is its bytes one by one. -/
theorem pySlice_eq_map (h : lo + n ≤ buf.length) :
    pySlice buf lo (lo + n) = (List.range n).map fun i => load buf (lo + i) := by
  unfold pySlice
  rw [Nat.add_sub_cancel_left]
  apply List.ext_getElem
  · simp
    omega
  · intro i hi hi'
    rw [List.length_map, List.length_range] at hi'
    rw [List.getElem_take, List.getElem_drop, List.getElem_map, List.getElem_range,
      load_eq_getElem (by omega)]

/-- The bytes of a field, read into an array. -/
theorem pySlice_eq_toList (h : lo + n ≤ buf.length) {v : Vector UInt8 n}
    (hv : ∀ i : Fin n, v[i] = load buf (lo + i)) : pySlice buf lo (lo + n) = v.toList := by
  rw [pySlice_eq_map h]
  apply List.ext_getElem
  · simp
  · intro i hi hi'
    rw [List.length_map, List.length_range] at hi
    rw [List.getElem_map, List.getElem_range, Vector.getElem_toList]
    exact (hv ⟨i, hi⟩).symm

/-- The identifier as a slice, and byte by byte. -/
theorem pySlice_acnId_iff (h : 16 ≤ buf.length) :
    pySlice buf offAcnId (offAcnId + 12) = sacnAcnIdentifier ↔ acnIdMatches buf = true := by
  have hid : sacnAcnIdentifier = (List.range 12).map fun i => load sacnAcnIdentifier i := by decide
  rw [pySlice_eq_map (by simp only [offAcnId]; omega), hid, List.map_inj_left, acnIdMatches,
    List.all_eq_true]
  exact forall₂_congr fun i _ => beq_iff_eq.symm

/-- `dmx_len` of `parse_sacn`. -/
def receivedLen (buf : List UInt8) : Nat :=
  let dmxLen := min ((load16 buf offDmpPropCount).toNat - 1) 512
  if offDmpDmxData + dmxLen > buf.length then buf.length - offDmpDmxData else dmxLen

/-- What `parse_sacn` returns for a datagram that passes its tests. -/
def receivedPacket (decode : List UInt8 → String) (buf : List UInt8) : ReceivedPacket where
  cid := pySlice buf offCid (offCid + 16)
  sourceName := decode ((pySlice buf offSourceName (offSourceName + 64)).takeWhile (· ≠ 0))
  priority := (load buf offPriority).toNat
  sequence := (load buf offSequence).toNat
  dmxUniverse := (load16 buf offUniverse).toNat
  startCode := (load buf offDmpStartCode).toNat
  dmxData := pySlice buf offDmpDmxData (offDmpDmxData + receivedLen buf)
  dmxLength := receivedLen buf

/-- The tests of `parse_sacn` are those of `sacn_parse`. -/
theorem parseSacn_accepted (decode : List UInt8 → String) (h : SacnAccepted buf buf.length) :
    parseSacn decode buf = some (receivedPacket decode buf) := by
  have hlong := h.long
  simp only [sacnMinPacketLen] at hlong
  have hacn := (pySlice_acnId_iff (by omega)).mpr h.acnId
  have hpreamble : (load16 buf offPreamble).toNat = 0x0010 := UInt16.toNat_inj.mpr h.preamble
  have hroot : (load32 buf offRootVector).toNat = 4 := UInt32.toNat_inj.mpr h.rootVector
  have hprop : ¬ (load16 buf offDmpPropCount).toNat < 1 :=
    fun hlt => h.propCount (UInt16.lt_iff_toNat_lt.mpr hlt)
  unfold parseSacn
  rw [if_neg (by omega), if_neg (not_not_intro hpreamble), if_neg (not_not_intro hacn),
    if_neg (not_not_intro hroot), if_neg (not_not_intro h.dmpVector), if_neg hprop]
  rfl

/-- What the tool parses, the node's parser accepts. -/
theorem accepted_of_parseSacn {decode : List UInt8 → String}
    (h : (parseSacn decode buf).isSome) : SacnAccepted buf buf.length := by
  unfold parseSacn at h
  -- `parse_sacn` returns `None` at the first test that fails
  split_ifs at h with hlong hpreamble hacn hroot hdmp hprop
  · cases h
  · cases h
  · cases h
  · cases h
  · cases h
  · cases h
  exact {
    long := by simp only [sacnMinPacketLen]; omega
    preamble := UInt16.toNat_inj.mp (not_not.mp hpreamble)
    acnId := (pySlice_acnId_iff (by omega)).mp (not_not.mp hacn)
    rootVector := UInt32.toNat_inj.mp (not_not.mp hroot)
    dmpVector := not_not.mp hdmp
    propCount := fun hlt => hprop (UInt16.lt_iff_toNat_lt.mp hlt) }

/-- How many slots the node takes of a long enough packet. -/
theorem receivedLen_eq (h : 126 ≤ buf.length) :
    receivedLen buf
      = min (min ((load16 buf offDmpPropCount).toNat - 1) 512) (buf.length - 126) := by
  unfold receivedLen
  simp only [offDmpDmxData]
  split_ifs <;> omega

/-- A field whose last byte is made a NUL holds the text of the field, cut in front of it. -/
theorem cstr_field {n : Nat} {bytes : List UInt8} (hlength : bytes.length = n + 1)
    {v : Vector UInt8 (n + 1)}
    (hv : ∀ i : Fin (n + 1), v[i] = if i.val = n then 0 else load bytes i) :
    cstr v.toList = (cstr bytes).take n := by
  have hbytes : v.toList = bytes.take n ++ [0] := by
    apply List.ext_getElem
    · rw [Vector.length_toList, List.length_append, List.length_take, List.length_singleton]
      omega
    · intro i hi hi'
      rw [Vector.length_toList] at hi
      have hbyte : v[i] = if i = n then 0 else load bytes i := hv ⟨i, hi⟩
      rw [Vector.getElem_toList, hbyte]
      by_cases hlast : i = n
      · rw [if_pos hlast, List.getElem_append_right (by rw [List.length_take]; omega)]
        rw [List.getElem_singleton]
      · rw [if_neg hlast, List.getElem_append_left (by rw [List.length_take]; omega),
          List.getElem_take, load_eq_getElem (by omega)]
  rw [hbytes]
  -- the last byte is 0, so the text ends within the field or fills it but for that byte
  by_cases hnul : 0 ∈ bytes.take n
  · rw [cstr_append_of_mem hnul]
    exact List.take_takeWhile.symm
  · rw [cstr_append hnul, show cstr [0] = [] from rfl, List.append_nil, ← cstr_of_no_nul hnul]
    exact List.take_takeWhile.symm

/-- **What both parsers read.** -/
theorem samePacket_receivedPacket (decode : List UInt8 → String) {pkt : SacnPacket}
    (hlong : 126 ≤ buf.length) (h : PacketFields buf pkt) :
    SamePacket decode (receivedPacket decode buf) pkt where
  cid := pySlice_eq_toList (by simp only [offCid]; omega) h.cid
  sourceName := by
    have hfield : offSourceName + 64 ≤ buf.length := by
      simp only [offSourceName]
      omega
    have hlength : (pySlice buf offSourceName (offSourceName + 64)).length = 63 + 1 := by
      rw [pySlice_eq_map hfield, List.length_map, List.length_range]
    refine ⟨_, rfl, cstr_field hlength fun i => ?_⟩
    have hbyte : load (pySlice buf offSourceName (offSourceName + 64)) i
        = load buf (offSourceName + i) := by
      rw [load_eq_getElem (by rw [hlength]; exact i.isLt)]
      simp only [pySlice_eq_map hfield, List.getElem_map, List.getElem_range]
    rw [hbyte]
    exact h.sourceName i
  priority := congrArg UInt8.toNat h.priority.symm
  sequence := congrArg UInt8.toNat h.sequence.symm
  dmxUniverse := congrArg UInt16.toNat h.dmxUniverse.symm
  startCode := congrArg UInt8.toNat h.startCode.symm
  dmxLength := (receivedLen_eq hlong).trans h.dmxLength.symm
  dmxData := by
    -- both take the same number of slots
    have hlen : receivedLen buf = pkt.dmxLength.toNat :=
      (receivedLen_eq hlong).trans h.dmxLength.symm
    have hbound := h.dmxLength
    have hsize : dmxUniverseSize = 512 := rfl
    have hdata : (receivedPacket decode buf).dmxData
        = pySlice buf offDmpDmxData (offDmpDmxData + receivedLen buf) := by
      rw [receivedPacket]
    rw [hdata, hlen, pySlice_eq_map (by simp only [offDmpDmxData]; omega)]
    apply List.ext_getElem
    · rw [List.length_map, List.length_range, List.length_take, Vector.length_toList]
      omega
    · intro i hi hi'
      rw [List.length_map, List.length_range] at hi
      rw [List.getElem_map, List.getElem_range, List.getElem_take, Vector.getElem_toList]
      exact (h.dmxData ⟨i, by omega⟩ hi).symm

end

/-- **The two parsers agree** on every datagram: they accept the same ones, and read the same from
them. -/
theorem parseSacn_agrees (decode : List UInt8 → String) (buf : List UInt8) (pkt : SacnPacket)
    (hlen : buf.length < 65536) :
    ((parseSacn decode buf).isSome ↔ (sacnParse buf buf.length pkt).1 = 0) ∧
      ∀ r, parseSacn decode buf = some r →
        SamePacket decode r (sacnParse buf buf.length pkt).2 := by
  constructor
  · rw [sacnParse_accepts_iff]
    refine ⟨accepted_of_parseSacn, fun h => ?_⟩
    rw [parseSacn_accepted decode h]
    rfl
  · intro r hr
    have haccepted : SacnAccepted buf buf.length := by
      refine @accepted_of_parseSacn buf decode ?_
      rw [hr]
      rfl
    have hlong := haccepted.long
    simp only [sacnMinPacketLen] at hlong
    rw [parseSacn_accepted decode haccepted, Option.some.injEq] at hr
    rw [← hr, sacnParse_accepted haccepted]
    exact samePacket_receivedPacket decode (by omega) (packetFields_sacnRead haccepted hlen pkt)

/-- The decoding of texts in ASCII. -/
def decodeAscii (bytes : List UInt8) : String :=
  String.ofList (bytes.map fun b => Char.ofNat b.toNat)

/-- A packet with one slot at full. -/
theorem parseSacn_agrees_fullSlot :
    ((parseSacn decodeAscii (fullSlotPacket 100)).isSome ↔
        (sacnParse (fullSlotPacket 100) (fullSlotPacket 100).length blankSacnPacket).1 = 0) ∧
      ∀ r, parseSacn decodeAscii (fullSlotPacket 100) = some r →
        SamePacket decodeAscii r
          (sacnParse (fullSlotPacket 100) (fullSlotPacket 100).length blankSacnPacket).2 :=
  parseSacn_agrees decodeAscii (fullSlotPacket 100) blankSacnPacket
    (by rw [length_fullSlotPacket]; decide)

/-! ## The test -/

/-- Every pattern is a whole universe. -/
theorem length_generateExpected (pattern : TestPattern) :
    (generateExpected pattern).length = 512 := by
  cases pattern with
  | identify =>
    rw [generateExpected, List.length_set, List.length_set, List.length_set, List.length_replicate]
  | full => rw [generateExpected, List.length_replicate]
  | zero => rw [generateExpected, List.length_replicate]
  | ramp => rw [generateExpected, List.length_map, List.length_range]

/-- Levels that are no longer than the pattern match it when it begins with them. -/
theorem matchesExpected_iff {dmx expected : List UInt8} (hlen : dmx.length ≤ expected.length) :
    matchesExpected dmx expected = true ↔ dmx <+: expected := by
  unfold matchesExpected
  rw [min_eq_right hlen, List.all_eq_true, List.prefix_iff_eq_take]
  simp only [List.mem_range, beq_iff_eq]
  -- the loop over the shorter length compares slot by slot
  constructor
  · intro hall
    refine List.ext_getElem ?_ fun i hi hi' => ?_
    · rw [List.length_take, min_eq_left hlen]
    · have hbyte := hall i hi
      rw [load_eq_getElem hi, load_eq_getElem (by omega)] at hbyte
      rw [hbyte, List.getElem_take]
  · intro heq i hi
    rw [load_eq_getElem hi, load_eq_getElem (by omega)]
    have hbyte := List.getElem_of_eq heq hi
    rwa [List.getElem_take] at hbyte

/-- The node's parser takes the datagram, cut as `recvfrom` cuts it, for a packet of the universe
with levels that the pattern begins with. -/
def showsPattern (dmxUniverse : Nat) (pattern : TestPattern) (datagram : List UInt8) : Bool :=
  let res := sacnParse (datagram.take 700) (datagram.take 700).length blankSacnPacket
  res.1 == 0 && res.2.dmxUniverse.toNat == dmxUniverse && res.2.startCode.toNat == 0 &&
    (res.2.dmxData.toList.take res.2.dmxLength.toNat).isPrefixOf (generateExpected pattern)

/-- A datagram shows the pattern when it is parsed as a packet of the universe with its levels. -/
theorem showsPattern_iff (decode : List UInt8 → String) (dmxUniverse : Nat) (pattern : TestPattern)
    (datagram : List UInt8) :
    showsPattern dmxUniverse pattern datagram = true ↔
      ∃ pkt, parseSacn decode (datagram.take 700) = some pkt ∧ pkt.dmxUniverse = dmxUniverse ∧
        pkt.startCode = 0 ∧ matchesExpected pkt.dmxData (generateExpected pattern) = true := by
  have hlen : (datagram.take 700).length < 65536 := by
    rw [List.length_take]
    omega
  obtain ⟨hsome, hsame⟩ := parseSacn_agrees decode (datagram.take 700) blankSacnPacket hlen
  unfold showsPattern
  -- from here on what the node's parser returns is a variable
  generalize sacnParse (datagram.take 700) (datagram.take 700).length blankSacnPacket = res
    at hsome hsame ⊢
  have hmatches : matchesExpected (res.2.dmxData.toList.take res.2.dmxLength.toNat)
        (generateExpected pattern) = true ↔
      res.2.dmxData.toList.take res.2.dmxLength.toNat <+: generateExpected pattern := by
    refine matchesExpected_iff ?_
    rw [length_generateExpected, List.length_take, Vector.length_toList]
    exact min_le_right _ _
  simp only [Bool.and_eq_true, beq_iff_eq, ← hsome, List.isPrefixOf_iff_prefix, ← hmatches]
  constructor
  · rintro ⟨⟨⟨hparsed, huniverse⟩, hstart⟩, hlevels⟩
    obtain ⟨pkt, hpkt⟩ := Option.isSome_iff_exists.mp hparsed
    have h := hsame pkt hpkt
    exact ⟨pkt, hpkt, h.dmxUniverse.trans huniverse, h.startCode.trans hstart,
      by rwa [h.dmxData]⟩
  · rintro ⟨pkt, hpkt, huniverse, hstart, hlevels⟩
    have h := hsame pkt hpkt
    exact ⟨⟨⟨Option.isSome_iff_exists.mpr ⟨pkt, hpkt⟩, h.dmxUniverse.symm.trans huniverse⟩,
      h.startCode.symm.trans hstart⟩, by rwa [← h.dmxData]⟩

/-- A round of the loop: a datagram counts if it shows the pattern to the node's parser. -/
theorem verifyLoop_cons (decode : List UInt8 → String) (dmxUniverse : Nat) (pattern : TestPattern)
    (matchCount : Nat) (datagram : List UInt8) (arrivals : List (Option (List UInt8))) :
    verifyLoop decode dmxUniverse (generateExpected pattern) matchCount (some datagram :: arrivals)
      = if showsPattern dmxUniverse pattern datagram = true then
          if matchCount + 1 ≥ 3 then true
          else verifyLoop decode dmxUniverse (generateExpected pattern) (matchCount + 1) arrivals
        else verifyLoop decode dmxUniverse (generateExpected pattern) matchCount arrivals := by
  have hshows := showsPattern_iff decode dmxUniverse pattern datagram
  generalize generateExpected pattern = expected at hshows ⊢
  rw [verifyLoop]
  cases hparse : parseSacn decode (datagram.take 700) with
  -- the tool goes on where it cannot parse
  | none =>
    have hnot : ¬ showsPattern dmxUniverse pattern datagram = true := by
      rw [hshows]
      rintro ⟨pkt, hpkt, -⟩
      rw [hparse] at hpkt
      cases hpkt
    rw [if_neg hnot]
  | some pkt =>
    have hone : showsPattern dmxUniverse pattern datagram = true ↔
        pkt.dmxUniverse = dmxUniverse ∧ pkt.startCode = 0 ∧
          matchesExpected pkt.dmxData expected = true := by
      rw [hshows, hparse]
      simp
    dsimp only
    by_cases hyes : showsPattern dmxUniverse pattern datagram = true
    · obtain ⟨huniverse, hstart, hmatch⟩ := hone.mp hyes
      rw [if_neg (not_not_intro huniverse), if_neg (not_not_intro hstart), if_pos hmatch,
        if_pos hyes]
    · -- one of the three tests fails
      rw [if_neg hyes]
      split_ifs with huniverse hstart hmatch
      · rfl
      · rfl
      · exact absurd (hone.mpr ⟨not_not.mp huniverse, not_not.mp hstart, hmatch⟩) hyes
      · exact absurd (hone.mpr ⟨not_not.mp huniverse, not_not.mp hstart, hmatch⟩) hyes
      · rfl

/-- The loop passes when what is missing to three matches comes. -/
theorem verifyLoop_iff (decode : List UInt8 → String) (dmxUniverse : Nat) (pattern : TestPattern)
    {matchCount : Nat} (hcount : matchCount < 3) (arrivals : List (Option (List UInt8))) :
    verifyLoop decode dmxUniverse (generateExpected pattern) matchCount arrivals = true ↔
      3 ≤ matchCount + arrivals.reduceOption.countP (showsPattern dmxUniverse pattern) := by
  induction arrivals generalizing matchCount with
  | nil =>
    refine iff_of_false nofun ?_
    show ¬ 3 ≤ matchCount + 0
    omega
  | cons arrival arrivals ih =>
    cases arrival with
    -- a timeout is no packet, and the count is kept
    | none => exact ih hcount
    | some datagram =>
      have hreduce : (some datagram :: arrivals).reduceOption = datagram :: arrivals.reduceOption :=
        rfl
      rw [hreduce, List.countP_cons, verifyLoop_cons]
      split_ifs with hshows hthree
      · exact iff_of_true rfl (by omega)
      · rw [ih (by omega)]
        omega
      · exact ih hcount

/-- **The test passes** exactly when three of the datagrams that arrive in time show the pattern to
the node's parser, wherever they come among the others. -/
theorem verifyMode_iff (decode : List UInt8 → String) (dmxUniverse : Nat) (pattern : TestPattern)
    (arrivals : List (Option (List UInt8))) :
    verifyMode decode dmxUniverse pattern arrivals = true ↔
      3 ≤ arrivals.reduceOption.countP (showsPattern dmxUniverse pattern) := by
  have h := verifyLoop_iff decode dmxUniverse pattern (show 0 < 3 by decide) arrivals
  rwa [Nat.zero_add] at h

/-! ## The two builders -/

/-- Two buffers that differ in the low bytes of the three length words alone. -/
structure SameButLengths (a b : List UInt8) : Prop where
  length : a.length = b.length
  load : ∀ i, i ≠ 17 → i ≠ 39 → i ≠ 116 → Memory.load a i = Memory.load b i

section

variable {a b : List UInt8}

/-- Away from the three length bytes, 16-bit loads are the same. -/
theorem SameButLengths.load16 (h : SameButLengths a b) {i : Nat}
    (hi : ∀ k < 2, i + k ≠ 17 ∧ i + k ≠ 39 ∧ i + k ≠ 116) :
    Memory.load16 a i = Memory.load16 b i := by
  obtain ⟨h0, h0', h0''⟩ := hi 0 (by decide)
  obtain ⟨h1, h1', h1''⟩ := hi 1 (by decide)
  unfold Memory.load16
  rw [h.load i h0 h0' h0'', h.load (i + 1) h1 h1' h1'']

/-- Away from the three length bytes, 32-bit loads are the same. -/
theorem SameButLengths.load32 (h : SameButLengths a b) {i : Nat}
    (hi : ∀ k < 4, i + k ≠ 17 ∧ i + k ≠ 39 ∧ i + k ≠ 116) :
    Memory.load32 a i = Memory.load32 b i := by
  obtain ⟨h0, h0', h0''⟩ := hi 0 (by decide)
  obtain ⟨h1, h1', h1''⟩ := hi 1 (by decide)
  obtain ⟨h2, h2', h2''⟩ := hi 2 (by decide)
  obtain ⟨h3, h3', h3''⟩ := hi 3 (by decide)
  unfold Memory.load32
  rw [h.load i h0 h0' h0'', h.load (i + 1) h1 h1' h1'', h.load (i + 2) h2 h2' h2'',
    h.load (i + 3) h3 h3' h3'']

/-- Away from the three length bytes, slices are the same. -/
theorem SameButLengths.pySlice (h : SameButLengths a b) {lo n : Nat} (hlen : lo + n ≤ a.length)
    (hi : ∀ i < n, lo + i ≠ 17 ∧ lo + i ≠ 39 ∧ lo + i ≠ 116) :
    pySlice a lo (lo + n) = pySlice b lo (lo + n) := by
  rw [pySlice_eq_map hlen, pySlice_eq_map (h.length ▸ hlen)]
  refine List.map_congr_left fun i hmem => ?_
  obtain ⟨h17, h39, h116⟩ := hi i (List.mem_range.mp hmem)
  exact h.load _ h17 h39 h116

/-- The parsers do not look at the length words. -/
theorem SameButLengths.accepted (h : SameButLengths a b) (hb : SacnAccepted b b.length) :
    SacnAccepted a a.length := by
  have hlong := hb.long
  rw [← h.length] at hlong
  simp only [sacnMinPacketLen] at hlong
  -- the six tests read none of the three bytes
  refine ⟨by simpa using hlong, ?_, ?_, ?_, ?_, ?_⟩
  · rw [h.load16 (by decide)]
    exact hb.preamble
  · have hacn := (pySlice_acnId_iff (by rw [← h.length]; omega)).mpr hb.acnId
    rw [← h.pySlice (by simp only [offAcnId]; omega) (by decide)] at hacn
    exact (pySlice_acnId_iff (by omega)).mp hacn
  · rw [h.load32 (by decide)]
    exact hb.rootVector
  · rw [h.load _ (by decide) (by decide) (by decide)]
    exact hb.dmpVector
  · rw [h.load16 (by decide)]
    exact hb.propCount

/-- The node reads nothing of the three length bytes. -/
theorem SameButLengths.sacnRead (h : SameButLengths a b) (pkt : SacnPacket) :
    SN110.sacnRead a a.length pkt = SN110.sacnRead b b.length pkt := by
  have hcid : ∀ i : Fin 16, Memory.load a (offCid + i) = Memory.load b (offCid + i) := by
    intro i
    simp only [offCid]
    exact h.load _ (by omega) (by omega) (by omega)
  have hname : ∀ i : Fin 64, Memory.load a (offSourceName + i)
      = Memory.load b (offSourceName + i) := by
    intro i
    simp only [offSourceName]
    exact h.load _ (by omega) (by omega) (by omega)
  have hdata : ∀ i : Fin 512, Memory.load a (offDmpDmxData + i)
      = Memory.load b (offDmpDmxData + i) := by
    intro i
    simp only [offDmpDmxData]
    exact h.load _ (by omega) (by omega) (by omega)
  -- none of the offsets it reads is one of the three
  unfold SN110.sacnRead
  simp only [hcid, hname, hdata, h.length]
  rw [h.load offPriority (by decide) (by decide) (by decide),
    h.load offSequence (by decide) (by decide) (by decide),
    h.load offOptions (by decide) (by decide) (by decide),
    h.load offDmpStartCode (by decide) (by decide) (by decide), @SameButLengths.load16 a b h
      offUniverse (by decide), @SameButLengths.load16 a b h offDmpPropCount (by decide)]

/-- Nor does the tool. -/
theorem SameButLengths.receivedPacket (h : SameButLengths a b) (hlong : 126 ≤ a.length)
    (decode : List UInt8 → String) :
    SN110.receivedPacket decode a = SN110.receivedPacket decode b := by
  have hlen : receivedLen a = receivedLen b := by
    unfold receivedLen
    rw [h.load16 (by decide), h.length]
  have hbound := receivedLen_eq hlong
  unfold SN110.receivedPacket
  rw [h.pySlice (by simp only [offCid]; omega) (by decide),
    h.pySlice (by simp only [offSourceName]; omega) (by decide),
    h.load _ (by decide) (by decide) (by decide),
    h.load offSequence (by decide) (by decide) (by decide), h.load16 (by decide),
    h.load offDmpStartCode (by decide) (by decide) (by decide), ← hlen,
    h.pySlice (by simp only [offDmpDmxData]; omega)
      (fun i hi => by simp only [offDmpDmxData]; omega)]

end

section

variable {tx : SacnTx} {seq : Nat} {dmxUniverse : UInt16} {dmxData : List UInt8} {priority : UInt8}
  {sourceName : String}

/-- What fills a field up does not belong to its text. -/
theorem cstr_ljust (s : List UInt8) (width : Nat) : cstr (ljust s width) = cstr s := by
  unfold ljust
  by_cases hnul : 0 ∈ s
  · exact cstr_append_of_mem hnul
  · have hpad : cstr (List.replicate (width - s.length) 0) = [] := by
      cases width - s.length <;> rfl
    rw [cstr_append hnul, hpad, List.append_nil, cstr_of_no_nul hnul]

/-- The test receiver reads the name up to its end. -/
theorem received_sourceName (decode : List UInt8 → String)
    (same : SameSource tx seq dmxUniverse priority sourceName) {n : Nat} {slots : List UInt8} :
    (receivedPacket decode (sacnTxFill tx slots n (List.replicate (126 + n) 0))).sourceName
      = decode (cstr sourceName.toUTF8.data.toList) := by
  have hbuf : 126 ≤ (List.replicate (126 + n) (0 : UInt8)).length := by simp
  have hfield := @pySlice_eq_toList (sacnTxFill tx slots n (List.replicate (126 + n) 0))
    offSourceName 64 (by simp [offSourceName]; omega) tx.sourceName
    fun i => (load_sacnTxFill_sourceName hbuf i.isLt).symm
  unfold receivedPacket
  rw [hfield, same.name]
  exact congrArg decode (cstr_ljust _ _)

/-- **The two builders' packets are read the same** by the node and by the test receiver, although
they are never equal: as the name, the fields and the levels that the sender was given, these filled
up to a universe. -/
theorem builders_readAlike (decode : List UInt8 → String)
    (same : SameSource tx seq dmxUniverse priority sourceName) (hdata : dmxData.length ≤ 512)
    (hname : sourceName.toUTF8.size ≤ 63) :
    ∃ sent built r,
      (buildSacnPacket seq dmxUniverse.toNat dmxData priority.toNat sourceName).2 = some sent ∧
      sacnTxBuildPacket tx (ljust dmxData 512) 512 sacnMaxPacketLen = (638, built) ∧
      sent ≠ built ∧
      parseSacn decode sent = some r ∧ parseSacn decode built = some r ∧
      (∀ pkt, sacnParse sent sent.length pkt = sacnParse built built.length pkt) ∧
      (∀ pkt, (sacnParse built built.length pkt).1 = 0 ∧
        SamePacket decode r (sacnParse built built.length pkt).2) ∧
      r.cid = senderCid ∧ r.sourceName = decode (cstr sourceName.toUTF8.data.toList) ∧
      r.priority = priority.toNat ∧ r.sequence = (seq + 1) % 256 ∧
      r.dmxUniverse = dmxUniverse.toNat ∧ r.startCode = 0 ∧ r.dmxData = ljust dmxData 512 := by
  obtain ⟨sent, built, hsent, hbuilt, hsentLength, hbuiltLength, hdiffer⟩ :=
    packets_differ same hdata hname (show (638 : Int) ≤ sacnMaxPacketLen by decide)
  have halike : SameButLengths sent built := by
    refine ⟨hsentLength.trans hbuiltLength.symm, fun i h17 h39 h116 => ?_⟩
    rw [hdiffer, if_neg (by omega), UInt8.add_zero]
  have hne : sent ≠ built := by
    rintro rfl
    have hlast := hdiffer 17
    rw [if_pos (by decide)] at hlast
    exact absurd hlast (by simp)
  have hslots : (ljust dmxData 512).length = 512 := length_ljust hdata
  -- what the node reads from its own packet
  have hround := (sacnTx_roundTrip tx (ljust dmxData 512) 512 (Nat.le_refl _)
    (Nat.le_of_eq hslots.symm) sacnMaxPacketLen blankSacnPacket).1 (by decide)
  rw [hbuilt] at hround
  dsimp only at hround
  have hlength : (638 : Int) = built.length := by
    rw [hbuiltLength]
    rfl
  rw [hlength] at hround
  obtain ⟨-, -, hparsed, hcid, -, hpriority, hsequence, huniverse, hstart, hdmxLength, hlevels⟩ :=
    hround
  have hbuiltOk := accepted_of_sacnParse hparsed
  have hsentOk := halike.accepted hbuiltOk
  have hlevelsAll : (ljust dmxData 512).take 512 = ljust dmxData 512 :=
    List.take_of_length_le (Nat.le_of_eq hslots)
  have hread : ∀ pkt, SamePacket decode (receivedPacket decode built)
      (sacnParse built built.length pkt).2 := fun pkt =>
    (parseSacn_agrees decode built pkt (by omega)).2 _ (parseSacn_accepted decode hbuiltOk)
  have hsame := hread blankSacnPacket
  have hsource : (receivedPacket decode built).sourceName
      = decode (cstr sourceName.toUTF8.data.toList) := by
    have hfill : built
        = sacnTxFill tx (ljust dmxData 512) 512 (List.replicate (126 + 512) 0) := by
      have hfits := @sacnTxBuildPacket_of_fits tx (ljust dmxData 512) 512 sacnMaxPacketLen
        (Nat.le_refl 512) (by decide)
      exact (Prod.mk.inj (hbuilt.symm.trans hfits)).2
    rw [hfill]
    exact received_sourceName decode same
  refine ⟨sent, built, receivedPacket decode built, hsent, hbuilt, hne, ?_,
    parseSacn_accepted decode hbuiltOk, fun pkt => ?_, fun pkt => ⟨?_, hread pkt⟩, ?_, hsource, ?_,
    ?_, ?_, ?_, ?_⟩
  · rw [parseSacn_accepted decode hsentOk, halike.receivedPacket (by omega)]
  · rw [sacnParse_accepted hsentOk, sacnParse_accepted hbuiltOk, halike.sacnRead]
  · exact (sacnParse_accepts_iff built built.length pkt).mpr hbuiltOk
  · rw [hsame.cid, hcid, same.cid]
  · rw [hsame.priority, hpriority, same.priority]
  · rw [hsame.sequence, hsequence, same.sequence]
  · rw [hsame.dmxUniverse, huniverse, same.dmxUniverse]
  · rw [hsame.startCode, hstart]
    rfl
  · rw [hsame.dmxData, hdmxLength, hlevels, hlevelsAll]

end

/-- `builders_readAlike` on the packet of the sender's identify pattern. -/
theorem builders_readAlike_identify :
    ∃ sent built r,
      (buildSacnPacket 0 (1 : UInt16).toNat [255, 128, 64] (100 : UInt8).toNat "SN110 Test").2
        = some sent ∧
      sacnTxBuildPacket senderTx (ljust [255, 128, 64] 512) 512 sacnMaxPacketLen = (638, built) ∧
      sent ≠ built ∧
      parseSacn decodeAscii sent = some r ∧ parseSacn decodeAscii built = some r ∧
      (∀ pkt, sacnParse sent sent.length pkt = sacnParse built built.length pkt) ∧
      (∀ pkt, (sacnParse built built.length pkt).1 = 0 ∧
        SamePacket decodeAscii r (sacnParse built built.length pkt).2) ∧
      r.cid = senderCid ∧ r.sourceName = decodeAscii (cstr "SN110 Test".toUTF8.data.toList) ∧
      r.priority = (100 : UInt8).toNat ∧ r.sequence = (0 + 1) % 256 ∧
      r.dmxUniverse = (1 : UInt16).toNat ∧ r.startCode = 0 ∧
      r.dmxData = ljust [255, 128, 64] 512 :=
  builders_readAlike decodeAscii senderTx_same (by decide) (by decide)

end SN110
