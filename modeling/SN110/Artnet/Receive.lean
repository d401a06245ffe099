import SN110.Artnet.Packet
import SN110.Oabi.Socket
import SN110.Lib.Checked
import SN110.Minilib.Text

/-!
# The Art-Net receiver (`artnet_receive`)

`artnetReceive` is the function as it computes, with the reply it sends to an ArtPoll, if any.
`artnetReceiveChecked` is the same code with every access to the buffer and to the packet checked
and the length kept exact; it never faults (`artnetReceiveChecked_eq`). The protocol version is
read and not used, and is left out.
-/

namespace SN110

open Memory Checked

/-! ## Packet offsets and constants -/

@[simp] abbrev offArtOpcode : Nat := 8
@[simp] abbrev offArtSequence : Nat := 12
@[simp] abbrev offArtPhysical : Nat := 13
@[simp] abbrev offArtUniverse : Nat := 14
@[simp] abbrev offArtLengthHi : Nat := 16
@[simp] abbrev offArtLengthLo : Nat := 17
@[simp] abbrev offArtDmxData : Nat := 18

@[simp] abbrev artnetMinDmxLen : Nat := 18

/-- The size of `artnet_receive`'s buffer. -/
abbrev artnetBufLen : Nat := 530

abbrev artnetPort : UInt16 := 6454
abbrev artnetOpPoll : UInt16 := 0x2000
abbrev artnetOpDmx : UInt16 := 0x5000

/-- `ARTNET_MAGIC` with its NUL. -/
def artnetMagic : List UInt8 := ascii "Art-Net" ++ [0]

/-! ## The reply to an ArtPoll -/

/-- The reply `artnet_send_poll_reply` sends. -/
def artnetPollReply (myIp : UInt32) (myMac : Option (Vector UInt8 6)) : List UInt8 :=
  let reply := List.replicate 239 0
  let reply := store reply 0 artnetMagic
  let reply := store8 reply 8 0x00
  let reply := store8 reply 9 0x21
  let reply := store reply 10 (le32 myIp)
  let reply := store8 reply 14 0x36
  let reply := store8 reply 15 0x19
  let reply := store8 reply 16 0
  let reply := store8 reply 17 1
  let reply := store reply 26 (ascii "SN110-OpenFW")
  let reply := store reply 44 (ascii "Strand SN110 Open Firmware DMX Node")
  let reply := match myMac with
    | none => reply
    | some mac => store reply 201 mac.toList
  let reply := store8 reply 173 2
  let reply := store8 reply 174 0x80
  store8 reply 175 0x80

/-- A datagram sent, and to whom. -/
structure Sent where
  dest : SockAddrIn
  payload : List UInt8

/-! ## The receiver -/

/-- `dmx_len` of `artnet_receive`: the length field, cut to a universe and to the datagram. -/
def artnetDmxLen (length : UInt16) (n : Int) : UInt16 := cutLength 512 offArtDmxData length n

/-- `memcmp(buf, ARTNET_MAGIC, ARTNET_MAGIC_LEN) == 0`. -/
def artnetMagicMatches (buf : List UInt8) : Bool :=
  (List.range 8).all fun i => load buf (0 + i) == load artnetMagic i

/-- The length field: big-endian, unlike the universe and the opcode. -/
def artnetLength (buf : List UInt8) : UInt16 :=
  UInt16.ofNat ((load buf offArtLengthHi).toNat <<< 8 + (load buf offArtLengthLo).toNat)

/-- `artnet_receive`: the return value, the packet, and the reply sent to `sender`. -/
def artnetReceive (r : Received artnetBufLen) (sender : SockAddrIn) (pkt : ArtnetDmxPacket) :
    Int × ArtnetDmxPacket × Option Sent :=
  if r.count < artnetMinDmxLen then (-1, pkt, none)
  else if artnetMagicMatches r.buf = false then (-1, pkt, none)
  else if load16Le r.buf offArtOpcode = artnetOpPoll then
    -- the reply goes to the sender's address, at the Art-Net port
    (-1, pkt, some { dest := { sender with port := artnetPort }
                     payload := artnetPollReply 0 none })
  else if load16Le r.buf offArtOpcode ≠ artnetOpDmx then (-1, pkt, none)
  else
    let dmxLen := artnetDmxLen (artnetLength r.buf) r.count
    (0, { sequence := load r.buf offArtSequence
          physical := load r.buf offArtPhysical
          dmxUniverse := load16Le r.buf offArtUniverse
          dmxData := Vector.ofFn fun i : Fin 512 =>
            if i.val < dmxLen.toNat then load r.buf (offArtDmxData + i) else pkt.dmxData[i]
          dmxLength := dmxLen }, none)

/-- `artnet_receive`, every access checked. -/
def artnetReceiveChecked (r : Received artnetBufLen) (sender : SockAddrIn)
    (pkt : ArtnetDmxPacket) : Except Fault (Int × ArtnetDmxPacket × Option Sent) :=
  let buf := r.buf
  if r.count < artnetMinDmxLen then .ok (-1, pkt, none)
  else do
    let magic ← fetchRange buf 0 8
    if magic ≠ artnetMagic then .ok (-1, pkt, none)
    else do
      let opcode ← fetch16Le buf offArtOpcode
      if opcode = artnetOpPoll then
        .ok (-1, pkt,
          some { dest := { sender with port := artnetPort }, payload := artnetPollReply 0 none })
      else if opcode ≠ artnetOpDmx then .ok (-1, pkt, none)
      else do
        let sequence ← fetch buf offArtSequence
        let physical ← fetch buf offArtPhysical
        let dmxUniverse ← fetch16Le buf offArtUniverse
        let hi ← fetch buf offArtLengthHi
        let lo ← fetch buf offArtLengthLo
        let length ← narrow16 (hi.toNat <<< 8 + lo.toNat : Nat)
        let dmxLen ← cutLengthChecked 512 offArtDmxData length buf.length
        let dmxData ← copyIn pkt.dmxData buf offArtDmxData dmxLen.toNat
        .ok (0, { sequence := sequence
                  physical := physical
                  dmxUniverse := dmxUniverse
                  dmxData := dmxData
                  dmxLength := dmxLen }, none)

/-! ## The receiver stays inside -/

/-- `memcmp` on the bytes read. -/
theorem fetched_artnetMagic (buf : List UInt8) :
    ((List.range 8).map fun i => load buf (0 + i)) ≠ artnetMagic ↔
      artnetMagicMatches buf = false := by
  have hmagic : artnetMagic = [65, 114, 116, 45, 78, 101, 116, 0] := rfl
  rw [← not_iff_not, not_not, Bool.not_eq_false]
  simp only [artnetMagicMatches, List.range_succ, List.range_zero, hmagic, load]
  simp

/-- **The receiver stays inside.** `artnet_receive` reads and writes in bounds, its length does not
wrap, and it computes what it does unchecked. -/
theorem artnetReceiveChecked_eq (r : Received artnetBufLen) (sender : SockAddrIn)
    (pkt : ArtnetDmxPacket) :
    artnetReceiveChecked r sender pkt = .ok (artnetReceive r sender pkt) := by
  unfold artnetReceiveChecked artnetReceive
  by_cases hmin : r.count < artnetMinDmxLen
  · rw [if_pos hmin, if_pos hmin]
  have hcount := Received.count_eq_length (r := r) (by
    simp only [artnetMinDmxLen] at hmin
    omega)
  have hlen : 18 ≤ r.buf.length := by
    simp only [artnetMinDmxLen] at hmin
    omega
  have hmax : r.buf.length < 65536 := by
    have hle := r.buf_length_le
    simp only [artnetBufLen] at hle
    omega
  simp only
  -- every fixed offset lies below 18
  rw [if_neg hmin, if_neg hmin, fetchRange_eq_ok (by omega), ok_bind]
  by_cases hmagic : artnetMagicMatches r.buf = false
  · rw [if_pos ((fetched_artnetMagic _).mpr hmagic), if_pos hmagic]
  rw [if_neg (fun h => hmagic ((fetched_artnetMagic _).mp h)), if_neg hmagic,
    fetch16Le_eq_ok (by simp only [offArtOpcode]; omega), ok_bind]
  by_cases hpoll : load16Le r.buf offArtOpcode = artnetOpPoll
  · rw [if_pos hpoll, if_pos hpoll]
  rw [if_neg hpoll, if_neg hpoll]
  by_cases hdmx : load16Le r.buf offArtOpcode ≠ artnetOpDmx
  · rw [if_pos hdmx, if_pos hdmx]
  have hlength : (load r.buf offArtLengthHi).toNat <<< 8 + (load r.buf offArtLengthLo).toNat
      < 65536 := by
    have hhi := (load r.buf offArtLengthHi).toNat_lt
    have hlo := (load r.buf offArtLengthLo).toNat_lt
    rw [Nat.shiftLeft_eq]
    omega
  have hcut : (cutLength 512 offArtDmxData (artnetLength r.buf) r.buf.length).toNat
      = min (min (artnetLength r.buf).toNat 512) (r.buf.length - 18) := toNat_cutLength hlen hmax _
  rw [if_neg hdmx, if_neg hdmx, fetch_eq_ok (by simp only [offArtSequence]; omega), ok_bind,
    fetch_eq_ok (by simp only [offArtPhysical]; omega), ok_bind,
    fetch16Le_eq_ok (by simp only [offArtUniverse]; omega), ok_bind,
    fetch_eq_ok (by simp only [offArtLengthHi]; omega), ok_bind,
    fetch_eq_ok (by simp only [offArtLengthLo]; omega), ok_bind, narrow16_natCast hlength, ok_bind,
    ← artnetLength, cutLengthChecked_eq hlen hmax, ok_bind,
    copyIn_eq_ok (by rw [hcut, offArtDmxData]; omega) (by rw [hcut, dmxUniverseSize]; omega),
    ok_bind]
  simp only [artnetDmxLen, hcount]

/-! ## What the receiver accepts -/

/-- The tests of `artnet_receive`. -/
structure ArtnetAccepted (r : Received artnetBufLen) : Prop where
  long : ¬ r.count < artnetMinDmxLen
  magic : artnetMagicMatches r.buf = true
  opcode : load16Le r.buf offArtOpcode = artnetOpDmx

/-- The packet read from an accepted datagram. Only the slots behind the last one keep what the
record held. -/
def artnetRead (buf : List UInt8) (n : Int) (pkt : ArtnetDmxPacket) : ArtnetDmxPacket where
  sequence := load buf offArtSequence
  physical := load buf offArtPhysical
  dmxUniverse := load16Le buf offArtUniverse
  dmxData := Vector.ofFn fun i : Fin 512 =>
    if i.val < (artnetDmxLen (artnetLength buf) n).toNat then load buf (offArtDmxData + i)
    else pkt.dmxData[i]
  dmxLength := artnetDmxLen (artnetLength buf) n

theorem artnetReceive_accepted {r : Received artnetBufLen} (h : ArtnetAccepted r)
    (sender : SockAddrIn) (pkt : ArtnetDmxPacket) :
    artnetReceive r sender pkt = (0, artnetRead r.buf r.count pkt, none) := by
  have hpoll : load16Le r.buf offArtOpcode ≠ artnetOpPoll := by
    rw [h.opcode]
    decide
  unfold artnetReceive
  rw [if_neg h.long, if_neg (by simp [h.magic]), if_neg hpoll, if_neg (not_not_intro h.opcode)]
  simp only [artnetRead]

theorem accepted_of_artnetReceive {r : Received artnetBufLen} {sender : SockAddrIn}
    {pkt : ArtnetDmxPacket} (h : (artnetReceive r sender pkt).1 = 0) : ArtnetAccepted r := by
  have hneg : (-1 : Int) ≠ 0 := by decide
  unfold artnetReceive at h
  -- each test that refuses returns -1, in the order of the source
  by_cases hlong : r.count < artnetMinDmxLen
  · rw [if_pos hlong] at h
    exact absurd h hneg
  rw [if_neg hlong] at h
  by_cases hmagic : artnetMagicMatches r.buf = false
  · rw [if_pos hmagic] at h
    exact absurd h hneg
  rw [if_neg hmagic] at h
  by_cases hpoll : load16Le r.buf offArtOpcode = artnetOpPoll
  · rw [if_pos hpoll] at h
    exact absurd h hneg
  rw [if_neg hpoll] at h
  by_cases hdmx : load16Le r.buf offArtOpcode ≠ artnetOpDmx
  · rw [if_pos hdmx] at h
    exact absurd h hneg
  exact {
    long := hlong
    magic := by simpa using hmagic
    opcode := not_not.mp hdmx }

/-- An accepted packet has at most 512 slots. -/
theorem artnetReceive_dmxLength {r : Received artnetBufLen} {sender : SockAddrIn}
    {pkt : ArtnetDmxPacket} (hok : (artnetReceive r sender pkt).1 = 0) :
    (artnetReceive r sender pkt).2.1.dmxLength.toNat ≤ dmxUniverseSize := by
  have hacc := accepted_of_artnetReceive hok
  have hmin := hacc.long
  simp only [artnetMinDmxLen] at hmin
  have hcount := Received.count_eq_length (r := r) (by omega)
  have hle := r.buf_length_le
  simp only [artnetBufLen] at hle
  rw [artnetReceive_accepted hacc]
  simp only [artnetRead, artnetDmxLen, hcount]
  rw [toNat_cutLength (by simp only [offArtDmxData]; omega) (by omega)]
  simp [dmxUniverseSize]

/-- The slots of an accepted packet do not depend on what the record held. -/
theorem artnetReceive_congr {r : Received artnetBufLen} {sender : SockAddrIn}
    {pkt : ArtnetDmxPacket} (pkt' : ArtnetDmxPacket) (hok : (artnetReceive r sender pkt).1 = 0) :
    (artnetReceive r sender pkt').1 = 0 ∧
      (artnetReceive r sender pkt').2.1.dmxLength = (artnetReceive r sender pkt).2.1.dmxLength ∧
      ∀ c : Fin dmxUniverseSize, c.val < (artnetReceive r sender pkt).2.1.dmxLength.toNat →
        (artnetReceive r sender pkt').2.1.dmxData.get c
          = (artnetReceive r sender pkt).2.1.dmxData.get c := by
  have hacc := accepted_of_artnetReceive hok
  rw [artnetReceive_accepted hacc, artnetReceive_accepted hacc]
  refine ⟨rfl, by simp only [artnetRead], fun c hc => ?_⟩
  simp only [artnetRead, get_ofFn] at hc ⊢
  rw [if_pos hc, if_pos hc]

end SN110
