import SN110.Sacn.RoundTrip

/-!
# Sending frames (`sacn_tx_init`, `sacn_tx_send`)

The transmitter's socket is left out, but for what `socket` and `sendto` return. A packet that has
been sent `Carries` a sequence number, a universe and a frame: this is what any receiver parses out
of it.
-/

namespace SN110

open Memory

/-- `SACN_DEFAULT_PRIORITY`. -/
abbrev sacnDefaultPriority : UInt8 := 100

/-- The hash of `generate_cid`, over a name of at most 64 characters. -/
def cidHash (name : List UInt8) : UInt32 :=
  (name.take 64).foldl (fun hash c => hash * 31 + c.toUInt32) 0x534E3131

/-- `generate_cid`. -/
def generateCid (name : List UInt8) : Vector UInt8 16 :=
  let hash := cidHash name
  ⟨#[0x53, 0x4E, 0x31, 0x31, 0x30, (hash >>> 24).toUInt8, (hash >>> 16).toUInt8,
    (hash >>> 8).toUInt8, hash.toUInt8, 0, 0, 0, (hash >>> 12).toUInt8, (hash >>> 4).toUInt8,
    0, 1], rfl⟩

/-- `sacn_tx_init`, on a source name without its NUL and the result of `socket`. -/
def sacnTxInit (dmxUniverse : UInt16) (sourceName : List UInt8) (sockFd : Int) : Int × SacnTx :=
  (if sockFd < 0 then -1 else 0,
    { sequence := 0
      dmxUniverse := dmxUniverse
      cid := generateCid sourceName
      -- `strncpy` of 63 characters into a field of zeros
      sourceName := Vector.ofFn fun i : Fin 64 => if i.val < 63 then load sourceName i else 0
      priority := sacnDefaultPriority
      sourceName_nul := nul_firstBytes sourceName })

/-- What a call of `sacn_tx_send` does: its return value, the transmitter it leaves and the packet
it gives to `sendto`, if it builds one. -/
structure TxSent where
  ret : Int
  tx : SacnTx
  packet : Option (List UInt8)

/-- `sacn_tx_send`, on the result of `sendto`. -/
def sacnTxSend (tx : SacnTx) (dmxData : List UInt8) (dmxLen : Nat) (sent : Int) : TxSent :=
  let built := sacnTxBuildPacket tx dmxData dmxLen sacnMaxPacketLen
  if built.1 < 0 then { ret := -1, tx := tx, packet := none }
  else if sent < 0 then { ret := -1, tx := tx, packet := some built.2 }
  else { ret := 0, tx := { tx with sequence := tx.sequence + 1 }, packet := some built.2 }

/-! ## What a packet carries -/

/-- `sacn_parse` accepts the packet, and reads these values out of it. -/
structure Carries (packet : List UInt8) (sequence : UInt8) (dmxUniverse : UInt16)
    (frame : List UInt8) : Prop where
  parsed : ∀ pkt, (sacnParse packet packet.length pkt).1 = 0
  sequence : ∀ pkt, (sacnParse packet packet.length pkt).2.sequence = sequence
  dmxUniverse : ∀ pkt, (sacnParse packet packet.length pkt).2.dmxUniverse = dmxUniverse
  startCode : ∀ pkt, (sacnParse packet packet.length pkt).2.startCode = 0
  dmxLength : ∀ pkt, (sacnParse packet packet.length pkt).2.dmxLength.toNat = frame.length
  dmxData : ∀ pkt,
    (sacnParse packet packet.length pkt).2.dmxData.toList.take frame.length = frame

/-- The packet that is built for a frame. -/
@[irreducible] def framePacket (tx : SacnTx) (dmxData : List UInt8) (n : Nat) : List UInt8 :=
  sacnTxFill tx dmxData n (List.replicate (126 + n) 0)

section

variable {tx : SacnTx} {dmxData : List UInt8} {n : Nat}

@[simp] theorem length_framePacket : (framePacket tx dmxData n).length = 126 + n := by
  unfold framePacket
  rw [length_sacnTxFill, List.length_replicate]

theorem carries_of_fill {packet : List UInt8} (hn : n ≤ 512) (hdata : n ≤ dmxData.length)
    (hfill : packet = sacnTxFill tx dmxData n (List.replicate (126 + n) 0)) :
    Carries packet tx.sequence tx.dmxUniverse (dmxData.take n) := by
  have hlength : packet.length = 126 + n := by
    rw [hfill, length_sacnTxFill, List.length_replicate]
  have hparse := fun pkt => sacnParse_sacnTxFill hn hdata pkt hfill
  have hlen : (dmxData.take n).length = n := List.length_take_of_le hdata
  have hval : (UInt16.ofNat n).toNat = n := by
    rw [UInt16.toNat_ofNat']
    omega
  refine ⟨fun pkt => ?_, fun pkt => ?_, fun pkt => ?_, fun pkt => ?_, fun pkt => ?_, fun pkt => ?_⟩
  all_goals rw [hlength, hparse]
  · rw [hlen]
    exact hval
  · rw [hlen]
    exact take_parsed_slots hn hdata pkt.dmxData

theorem carries_framePacket (hn : n ≤ 512) (hdata : n ≤ dmxData.length) :
    Carries (framePacket tx dmxData n) tx.sequence tx.dmxUniverse (dmxData.take n) := by
  unfold framePacket
  exact carries_of_fill hn hdata rfl

/-- The channels stand at the end of the packet. -/
theorem drop_framePacket (hdata : n ≤ dmxData.length) :
    (framePacket tx dmxData n).drop 126 = dmxData.take n := by
  apply List.ext_getElem
  · rw [List.length_drop, length_framePacket, List.length_take_of_le hdata, Nat.add_sub_cancel_left]
  · intro i hi hi'
    rw [List.length_take_of_le hdata] at hi'
    rw [List.getElem_drop, List.getElem_take]
    have hbuf : 126 + n ≤ (List.replicate (126 + n) (0 : UInt8)).length := by
      rw [List.length_replicate]
    have hload := @load_sacnTxFill_dmxData tx dmxData n _ i hi' hdata hbuf
    rw [load_eq_getElem] at hload
    simpa only [framePacket] using hload

/-- A frame of at most 512 bytes always fits the buffer: only `sendto` can fail. -/
theorem sacnTxSend_eq (hn : n ≤ 512) (sent : Int) :
    sacnTxSend tx dmxData n sent =
      if sent < 0 then { ret := -1, tx := tx, packet := some (framePacket tx dmxData n) }
      else { ret := 0
             tx := { tx with sequence := tx.sequence + 1 }
             packet := some (framePacket tx dmxData n) } := by
  have hbuilt : sacnTxBuildPacket tx dmxData n sacnMaxPacketLen
      = (((126 + n : Nat) : Int), framePacket tx dmxData n) := by
    unfold framePacket
    exact sacnTxBuildPacket_of_fits hn (by simp only [sacnMaxPacketLen]; omega)
  unfold sacnTxSend
  rw [hbuilt]
  dsimp only
  rw [if_neg (by omega)]

end

end SN110
