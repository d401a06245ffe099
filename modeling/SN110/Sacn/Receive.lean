import SN110.Sacn.Parse
import SN110.Oabi.Socket
import SN110.Lib.Checked

/-!
# The sACN receiver (`sacn_receive`)

`sacnReceive` is the function as it computes. `sacnReceiveChecked` is the same code with every
access to the buffer and to the packet checked, and every 16-bit length kept exact; its parser
never faults (`sacnParseChecked_eq`), and the receiver faults in one place only, where the log of
the first datagrams prints four bytes of a buffer that holds fewer (`sacnReceiveChecked_eq`).
The text of that log is left out.
-/

namespace SN110

open Memory Checked

/-- The debug counters of `sacn.c`. -/
structure RecvStats where
  recvPos : Int
  recvNeg : Int
  recvErr : Int
  parseOk : Int
  parseFail : Int

/-- The counters at start-up. -/
def RecvStats.zero : RecvStats where
  recvPos := 0
  recvNeg := 0
  recvErr := 0
  parseOk := 0
  parseFail := 0

/-- Count a result of `recv`. -/
def RecvStats.received (s : RecvStats) (n : Int) : RecvStats :=
  if n > 0 then { s with recvPos := s.recvPos + 1 }
  else if n = 0 then { s with recvErr := s.recvErr + 1 }
  else { s with recvNeg := s.recvNeg + 1 }

/-- Count a result of `sacn_parse`. -/
def RecvStats.parsed (s : RecvStats) (rc : Int) : RecvStats :=
  if rc = 0 then { s with parseOk := s.parseOk + 1 } else { s with parseFail := s.parseFail + 1 }

/-- `sacn_receive`: the return value, the packet and the counters. -/
def sacnReceive (r : Received sacnMaxPacketLen) (s : RecvStats) (pkt : SacnPacket) :
    Int × SacnPacket × RecvStats :=
  let s := s.received r.count
  if r.count < sacnMinPacketLen then (-1, pkt, s)
  else
    let res := sacnParse r.buf r.count pkt
    (res.1, res.2, s.parsed res.1)

/-! ## The checked run -/

/-- `dmx_len` of `sacn_parse`, every 16-bit value exact. -/
def sacnDmxLenChecked (propCount : UInt16) (n : Nat) : Except Fault UInt16 := do
  let dmxLen ← narrow16 ((propCount.toNat : Int) - 1)
  cutLengthChecked 512 offDmpDmxData dmxLen n

/-- `sacn_parse`, every access checked. -/
def sacnParseChecked (buf : List UInt8) (pkt : SacnPacket) : Except Fault (Int × SacnPacket) :=
  if buf.length < sacnMinPacketLen then .ok (-1, pkt)
  else do
    let preamble ← fetch16 buf offPreamble
    if preamble ≠ sacnPreambleSize then .ok (-1, pkt)
    else do
      let acnId ← fetchRange buf offAcnId 12
      if acnId ≠ sacnAcnIdentifier then .ok (-1, pkt)
      else do
        let rootVector ← fetch32 buf offRootVector
        if rootVector ≠ vectorRootE131Data then .ok (-1, pkt)
        else do
          let cid ← copyIn pkt.cid buf offCid 16
          let sourceName ← copyIn pkt.sourceName buf offSourceName 64
          let sourceName ← put sourceName 63 0
          let priority ← fetch buf offPriority
          let sequence ← fetch buf offSequence
          let options ← fetch buf offOptions
          let dmxUniverse ← fetch16 buf offUniverse
          let pkt := { pkt with
            cid := cid
            sourceName := sourceName
            priority := priority
            sequence := sequence
            options := options
            dmxUniverse := dmxUniverse }
          let dmpVector ← fetch buf offDmpVector
          if dmpVector ≠ vectorDmpSetProperty then .ok (-1, pkt)
          else do
            let propCount ← fetch16 buf offDmpPropCount
            if propCount < 1 then .ok (-1, pkt)
            else do
              let startCode ← fetch buf offDmpStartCode
              let dmxLen ← sacnDmxLenChecked propCount buf.length
              let dmxData ← copyIn pkt.dmxData buf offDmpDmxData dmxLen.toNat
              .ok (0, { pkt with
                startCode := startCode
                dmxData := dmxData
                dmxLength := dmxLen })

/-- The log of `sacn_receive`: the first four bytes of the first three datagrams. -/
def sacnLogPacket (buf : List UInt8) (n : Int) (s : RecvStats) : Except Fault (List UInt8) :=
  if n > 0 ∧ s.recvPos ≤ 3 then fetchRange buf 0 4 else .ok []

/-- `sacn_receive`, every access checked. -/
def sacnReceiveChecked (r : Received sacnMaxPacketLen) (s : RecvStats) (pkt : SacnPacket) :
    Except Fault (Int × SacnPacket × RecvStats) := do
  let s := s.received r.count
  let _ ← sacnLogPacket r.buf r.count s
  if r.count < sacnMinPacketLen then .ok (-1, pkt, s)
  else do
    let res ← sacnParseChecked r.buf pkt
    .ok (res.1, res.2, s.parsed res.1)

/-! ## The parser stays inside -/

/-- The property count less its start code. -/
theorem toNat_sub_one {propCount : UInt16} (hprop : ¬ propCount < 1) :
    (propCount - 1).toNat = propCount.toNat - 1 :=
  UInt16.toNat_sub_of_le _ _ (UInt16.not_lt.mp hprop)

/-- The announced length as the parser cuts it: exact, at most a universe, and inside the
datagram. -/
theorem sacnDmxLen_spec {propCount : UInt16} {n : Nat} (hprop : ¬ propCount < 1) (hmin : 126 ≤ n)
    (hmax : n < 65536) :
    (sacnDmxLen propCount n).toNat = min (min (propCount.toNat - 1) 512) (n - 126) := by
  rw [← toNat_sub_one hprop]
  exact toNat_cutLength hmin hmax (propCount - 1)

/-- `memcmp` on the bytes read. -/
theorem fetched_acnId (buf : List UInt8) :
    ((List.range 12).map fun i => load buf (offAcnId + i)) ≠ sacnAcnIdentifier ↔
      acnIdMatches buf = false := by
  rw [← not_iff_not, not_not, Bool.not_eq_false]
  simp only [acnIdMatches, List.range_succ, List.range_zero, sacnAcnIdentifier, load]
  simp

/-- The source name with its NUL. -/
theorem put_sourceName (name : Fin 64 → UInt8) :
    put (Vector.ofFn name) 63 0
      = .ok (Vector.ofFn fun i : Fin 64 => if i.val = 63 then 0 else name i) := by
  rw [put, dif_pos (show 63 < 64 by omega)]
  refine congrArg Except.ok (Vector.ext fun i hi => ?_)
  rw [Vector.getElem_set, Vector.getElem_ofFn, Vector.getElem_ofFn]
  simp only [eq_comm]

/-- The announced length is computed without a wrap. -/
theorem sacnDmxLenChecked_eq {propCount : UInt16} {n : Nat} (hprop : ¬ propCount < 1)
    (hmin : 126 ≤ n) (hmax : n < 65536) :
    sacnDmxLenChecked propCount n = .ok (sacnDmxLen propCount n) := by
  have hlt := propCount.toNat_lt
  have hpos : 1 ≤ propCount.toNat := UInt16.le_iff_toNat_le.mp (UInt16.not_lt.mp hprop)
  have hpred : narrow16 ((propCount.toNat : Int) - 1) = .ok (propCount - 1) := by
    rw [show (propCount.toNat : Int) - 1 = ((propCount.toNat - 1 : Nat) : Int) by omega,
      narrow16_natCast (by omega), ← toNat_sub_one hprop, UInt16.ofNat_toNat]
  rw [sacnDmxLenChecked, hpred, ok_bind]
  exact cutLengthChecked_eq hmin hmax (propCount - 1)

/-- **The parser stays inside.** On a received datagram `sacn_parse` reads and writes in bounds,
its lengths do not wrap, and it computes what it does unchecked. -/
theorem sacnParseChecked_eq {buf : List UInt8} (hmax : buf.length < 65536) (pkt : SacnPacket) :
    sacnParseChecked buf pkt = .ok (sacnParse buf buf.length pkt) := by
  unfold sacnParseChecked sacnParse
  by_cases hmin : buf.length < sacnMinPacketLen
  · rw [if_pos hmin, if_pos (by exact_mod_cast hmin)]
  have hlen : 126 ≤ buf.length := not_lt.mp hmin
  rw [if_neg hmin, if_neg (by exact_mod_cast hmin)]
  -- the tests are passed in the parser's order; every fixed offset lies below 126
  rw [fetch16_eq_ok (by simp only [offPreamble]; omega), ok_bind]
  by_cases hpreamble : load16 buf offPreamble ≠ sacnPreambleSize
  · rw [if_pos hpreamble, if_pos hpreamble]
  rw [if_neg hpreamble, if_neg hpreamble, fetchRange_eq_ok (by simp only [offAcnId]; omega),
    ok_bind]
  by_cases hacn : acnIdMatches buf = false
  · rw [if_pos ((fetched_acnId buf).mpr hacn), if_pos hacn]
  rw [if_neg (fun h => hacn ((fetched_acnId buf).mp h)), if_neg hacn,
    fetch32_eq_ok (by simp only [offRootVector]; omega), ok_bind]
  by_cases hroot : load32 buf offRootVector ≠ vectorRootE131Data
  · rw [if_pos hroot, if_pos hroot]
  rw [if_neg hroot, if_neg hroot, copyIn_full (by simp only [offCid]; omega), ok_bind,
    copyIn_full (by simp only [offSourceName]; omega), ok_bind, put_sourceName, ok_bind,
    fetch_eq_ok (by simp only [offPriority]; omega), ok_bind,
    fetch_eq_ok (by simp only [offSequence]; omega), ok_bind,
    fetch_eq_ok (by simp only [offOptions]; omega), ok_bind,
    fetch16_eq_ok (by simp only [offUniverse]; omega), ok_bind,
    fetch_eq_ok (by simp only [offDmpVector]; omega), ok_bind]
  simp only
  by_cases hdmp : load buf offDmpVector ≠ vectorDmpSetProperty
  · rw [if_pos hdmp, if_pos hdmp]
  rw [if_neg hdmp, if_neg hdmp, fetch16_eq_ok (by simp only [offDmpPropCount]; omega), ok_bind]
  by_cases hprop : load16 buf offDmpPropCount < 1
  · rw [if_pos hprop, if_pos hprop]
  rw [if_neg hprop, if_neg hprop, fetch_eq_ok (by simp only [offDmpStartCode]; omega), ok_bind]
  have hspec := sacnDmxLen_spec hprop hlen hmax
  rw [sacnDmxLenChecked_eq hprop hlen hmax, ok_bind,
    copyIn_eq_ok (by simp only [offDmpDmxData]; omega) (by simp only [dmxUniverseSize]; omega),
    ok_bind]
  rfl

/-- An accepted packet has at most 512 slots. -/
theorem sacnParse_dmxLength {buf : List UInt8} {n : Nat} {pkt : SacnPacket} (hmax : n < 65536)
    (hok : (sacnParse buf n pkt).1 = 0) :
    (sacnParse buf n pkt).2.dmxLength.toNat ≤ dmxUniverseSize := by
  have hacc := accepted_of_sacnParse hok
  have hmin := hacc.long
  rw [sacnParse_accepted hacc]
  simp only [sacnRead, sacnMinPacketLen, dmxUniverseSize] at hmin ⊢
  rw [sacnDmxLen_spec hacc.propCount (by omega) hmax]
  omega

/-- The slots of an accepted packet do not depend on what the record held. -/
theorem sacnParse_congr {buf : List UInt8} {n : Int} {pkt : SacnPacket} (pkt' : SacnPacket)
    (hok : (sacnParse buf n pkt).1 = 0) :
    (sacnParse buf n pkt').1 = 0 ∧
      (sacnParse buf n pkt').2.dmxLength = (sacnParse buf n pkt).2.dmxLength ∧
      ∀ c : Fin dmxUniverseSize, c.val < (sacnParse buf n pkt).2.dmxLength.toNat →
        (sacnParse buf n pkt').2.dmxData.get c = (sacnParse buf n pkt).2.dmxData.get c := by
  have hacc := accepted_of_sacnParse hok
  rw [sacnParse_accepted hacc, sacnParse_accepted hacc]
  refine ⟨rfl, rfl, fun c hc => ?_⟩
  simp only [sacnRead, get_ofFn] at hc ⊢
  rw [if_pos hc, if_pos hc]

/-! ## The receiver -/

/-- The log reads four bytes, of the first three datagrams. -/
theorem sacnLogPacket_eq (r : Received sacnMaxPacketLen) (s : RecvStats) :
    (s.recvPos < 3 ∧ 0 < r.count ∧ r.count < 4 →
      sacnLogPacket r.buf r.count (s.received r.count) = .error (.load r.buf.length)) ∧
    (¬ (s.recvPos < 3 ∧ 0 < r.count ∧ r.count < 4) →
      ∃ bytes, sacnLogPacket r.buf r.count (s.received r.count) = .ok bytes) := by
  unfold sacnLogPacket
  by_cases hn : 0 < r.count
  · have hcount := Received.count_eq_length (le_of_lt hn)
    have hpos : (s.received r.count).recvPos = s.recvPos + 1 := by
      rw [RecvStats.received, if_pos hn]
    -- the counter is tested after the datagram has been counted
    rw [hpos]
    constructor
    · intro h
      rw [if_pos ⟨hn, by omega⟩, fetchRange_eq_error (by omega)]
    · intro h
      split_ifs
      · exact ⟨_, fetchRange_eq_ok (by omega)⟩
      · exact ⟨[], rfl⟩
  · exact ⟨fun h => absurd h.2.1 hn, fun _ => ⟨[], if_neg fun h => hn h.1⟩⟩

/-- **Where the receiver leaves the datagram.** `sacn_receive` reads past the bytes received only
for the log, when one of the first three datagrams has one to three bytes. -/
theorem sacnReceiveChecked_eq (r : Received sacnMaxPacketLen) (s : RecvStats) (pkt : SacnPacket) :
    sacnReceiveChecked r s pkt =
      if s.recvPos < 3 ∧ 0 < r.count ∧ r.count < 4 then .error (.load r.buf.length)
      else .ok (sacnReceive r s pkt) := by
  obtain ⟨herror, hlogged⟩ := sacnLogPacket_eq r s
  simp only [sacnReceiveChecked, sacnReceive]
  by_cases hfault : s.recvPos < 3 ∧ 0 < r.count ∧ r.count < 4
  · rw [if_pos hfault, herror hfault]
    rfl
  · obtain ⟨bytes, hbytes⟩ := hlogged hfault
    rw [if_neg hfault, hbytes, ok_bind]
    by_cases hmin : r.count < sacnMinPacketLen
    · rw [if_pos hmin, if_pos hmin]
    · have hlen := Received.count_eq_length (r := r) (by
        simp only [sacnMinPacketLen] at hmin
        omega)
      have hle := r.buf_length_le
      rw [if_neg hmin, if_neg hmin, sacnParseChecked_eq (by
        simp only [sacnMaxPacketLen] at hle
        omega), ok_bind, hlen]

end SN110
