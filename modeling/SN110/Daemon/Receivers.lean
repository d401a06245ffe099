import SN110.Daemon.Handlers
import SN110.Sacn.Receive
import SN110.Sacn.RoundTrip
import SN110.Artnet.Receive
import SN110.Shownet.Receive

/-!
# No datagram makes a receiver leave its buffers

The three receivers parse lengths that an attacker chooses, and the handlers copy as many bytes as
the packet says. `ReceiverSafe` is what the checked run of a receiver has to show: it ends without
a fault, what it delivers fits the handler's copy, and the slots it delivers are the datagram's and
not left over in the packet. Each receiver has it from its own `…Checked_eq`, but for
`sacn_receive`'s log of the first datagrams.
-/

namespace SN110

open Checked

/-- `memcpy(g_dmx_out[port].data, pkt->dmx_data, pkt->dmx_length)` of the handlers, checked. -/
def handlerCopy (dst src : Slots) (len : Nat) : Except Fault Slots :=
  if len ≤ dmxUniverseSize then .ok (memcpySlots dst src len) else .error (.store dmxUniverseSize)

/-- A receiver stays inside its buffers. `data` and `length` are the slots and the number of slots
of its packet. -/
structure ReceiverSafe {π : Type} (receive : π → Except Fault (Int × π)) (data : π → Slots)
    (length : π → UInt16) : Prop where
  /-- Every load is below the bytes received, every store inside `dmx_data`, and every 16-bit
  length exact. -/
  inside : ∀ pkt, ∃ res, receive pkt = .ok res
  /-- A delivered length is at most 512, so that the handler's copy stays inside the frame. -/
  fits : ∀ pkt res, receive pkt = .ok res → res.1 = 0 →
    (length res.2).toNat ≤ dmxUniverseSize ∧
      ∀ dst, ∃ frame, handlerCopy dst (data res.2) (length res.2).toNat = .ok frame
  /-- All delivered slots are written: they are the same whatever the packet held. -/
  written : ∀ pkt pkt' res, receive pkt = .ok res → res.1 = 0 →
    ∃ res', receive pkt' = .ok res' ∧ res'.1 = 0 ∧ length res'.2 = length res.2 ∧
      ∀ c : Fin dmxUniverseSize, c.val < (length res.2).toNat →
        (data res'.2).get c = (data res.2).get c

/-- A receiver whose checked run never faults is safe, if its packets are. -/
theorem receiverSafe_of_eq {π : Type} {receive : π → Except Fault (Int × π)} {data : π → Slots}
    {length : π → UInt16} (f : π → Int × π) (heq : ∀ pkt, receive pkt = .ok (f pkt))
    (hlen : ∀ pkt, (f pkt).1 = 0 → (length (f pkt).2).toNat ≤ dmxUniverseSize)
    (hcongr : ∀ pkt pkt', (f pkt).1 = 0 → (f pkt').1 = 0 ∧
      length (f pkt').2 = length (f pkt).2 ∧
      ∀ c : Fin dmxUniverseSize, c.val < (length (f pkt).2).toNat →
        (data (f pkt').2).get c = (data (f pkt).2).get c) :
    ReceiverSafe receive data length where
  inside := fun pkt => ⟨f pkt, heq pkt⟩
  fits := by
    intro pkt res hres hok
    obtain rfl := Except.ok.inj ((heq pkt).symm.trans hres)
    exact ⟨hlen pkt hok, fun dst => ⟨_, if_pos (hlen pkt hok)⟩⟩
  written := by
    intro pkt pkt' res hres hok
    obtain rfl := Except.ok.inj ((heq pkt).symm.trans hres)
    exact ⟨f pkt', heq pkt', hcongr pkt pkt' hok⟩

/-- `sacn_receive` as it acts on its packet. -/
def sacnReceiver (r : Received sacnMaxPacketLen) (s : RecvStats) (pkt : SacnPacket) :
    Except Fault (Int × SacnPacket) :=
  (sacnReceiveChecked r s pkt).map fun res => (res.1, res.2.1)

/-- `artnet_receive` as it acts on its packet. -/
def artnetReceiver (r : Received artnetBufLen) (sender : SockAddrIn) (pkt : ArtnetDmxPacket) :
    Except Fault (Int × ArtnetDmxPacket) :=
  (artnetReceiveChecked r sender pkt).map fun res => (res.1, res.2.1)

/-- All three receivers stay inside their buffers. -/
def ReceiversSafe (s : RecvStats) (rs : Received sacnMaxPacketLen) (ra : Received artnetBufLen)
    (sender : SockAddrIn) (rn : Received shownetBufLen) : Prop :=
  ReceiverSafe (sacnReceiver rs s) SacnPacket.dmxData SacnPacket.dmxLength ∧
    ReceiverSafe (artnetReceiver ra sender) ArtnetDmxPacket.dmxData ArtnetDmxPacket.dmxLength ∧
    ReceiverSafe (shownetReceiveChecked rn) ShownetFields.dmxData ShownetFields.dmxLength

/-- What `sacn_receive` does to its packet is the parser's. -/
theorem sacnReceive_packet (r : Received sacnMaxPacketLen) (s : RecvStats) (pkt : SacnPacket) :
    ((sacnReceive r s pkt).1, (sacnReceive r s pkt).2.1) = sacnParse r.buf r.count pkt := by
  unfold sacnReceive
  by_cases hmin : r.count < sacnMinPacketLen
  · rw [if_pos hmin, sacnParse, if_pos hmin]
  · rw [if_neg hmin]

/-- A datagram that fits the buffer is parsed whole. -/
theorem sacnReceive_datagram {bytes : List UInt8} (hlen : bytes.length ≤ sacnMaxPacketLen)
    (s : RecvStats) (pkt : SacnPacket) :
    (sacnReceive (.datagram sacnMaxPacketLen bytes) s pkt).1
        = (sacnParse bytes bytes.length pkt).1 ∧
      (sacnReceive (.datagram sacnMaxPacketLen bytes) s pkt).2.1
        = (sacnParse bytes bytes.length pkt).2 := by
  have hreceived := sacnReceive_packet (.datagram sacnMaxPacketLen bytes) s pkt
  have hbuf : (Received.datagram sacnMaxPacketLen bytes).buf = bytes := List.take_of_length_le hlen
  have hcount : (Received.datagram sacnMaxPacketLen bytes).count = bytes.length :=
    congrArg (fun buf : List UInt8 => (buf.length : Int)) hbuf
  rw [hbuf, hcount] at hreceived
  exact Prod.mk.inj (hreceived.trans (Prod.mk.eta (p := sacnParse _ _ _)).symm)

/-- `sacn_receive` is safe where it does not log a datagram of one to three bytes. -/
theorem sacnReceiver_safe {r : Received sacnMaxPacketLen} {s : RecvStats}
    (h : ¬ (s.recvPos < 3 ∧ 0 < r.count ∧ r.count < 4)) :
    ReceiverSafe (sacnReceiver r s) SacnPacket.dmxData SacnPacket.dmxLength := by
  refine receiverSafe_of_eq (fun pkt => sacnParse r.buf r.count pkt) ?_ ?_ ?_
  · intro pkt
    rw [sacnReceiver, sacnReceiveChecked_eq, if_neg h, ← sacnReceive_packet r s pkt]
    rfl
  · intro pkt hok
    have hmin := (accepted_of_sacnParse hok).long
    have hle := r.buf_length_le
    simp only [sacnMinPacketLen, sacnMaxPacketLen] at hmin hle
    rw [Received.count_eq_length (by omega)] at hok ⊢
    exact sacnParse_dmxLength (by omega) hok
  · intro pkt pkt' hok
    exact sacnParse_congr pkt' hok

/-- `artnet_receive` is safe on every datagram. -/
theorem artnetReceiver_safe (r : Received artnetBufLen) (sender : SockAddrIn) :
    ReceiverSafe (artnetReceiver r sender) ArtnetDmxPacket.dmxData ArtnetDmxPacket.dmxLength := by
  refine receiverSafe_of_eq
    (fun pkt => ((artnetReceive r sender pkt).1, (artnetReceive r sender pkt).2.1)) ?_ ?_ ?_
  · intro pkt
    rw [artnetReceiver, artnetReceiveChecked_eq]
    rfl
  · intro pkt hok
    exact artnetReceive_dmxLength hok
  · intro pkt pkt' hok
    exact artnetReceive_congr pkt' hok

theorem shownetReceiver_safe (r : Received shownetBufLen) :
    ReceiverSafe (shownetReceiveChecked r) ShownetFields.dmxData ShownetFields.dmxLength :=
  receiverSafe_of_eq (shownetReceive r) (shownetReceiveChecked_eq r)
    (fun _ hok => shownetReceive_dmxLength hok) (fun _ pkt' hok => shownetReceive_congr pkt' hok)

/-- The log reads bytes that were not received. -/
theorem sacnReceiver_not_safe {r : Received sacnMaxPacketLen} {s : RecvStats}
    (h : s.recvPos < 3 ∧ 0 < r.count ∧ r.count < 4) :
    ¬ ReceiverSafe (sacnReceiver r s) SacnPacket.dmxData SacnPacket.dmxLength := by
  intro hsafe
  obtain ⟨res, hres⟩ := hsafe.inside blankSacnPacket
  rw [sacnReceiver, sacnReceiveChecked_eq, if_pos h] at hres
  cases hres

/-- A first datagram of one byte. -/
def oneByte : Received sacnMaxPacketLen := .datagram sacnMaxPacketLen [0]

end SN110
