import SN110.Daemon.Loop
import SN110.Sacn.Multicast
import SN110.Sacn.Receive
import SN110.Sacn.RoundTrip
import SN110.Config.Load

/-!
# Does a port receive its multicast universe?

`main` opens one sACN socket and gives `sacn_init` the universe of port 0. A multicast packet
reaches the socket when its group has been joined, and then goes through `sacn_receive` and
`handle_sacn_packet` to the ports on its universe. So the packets for a port arrive exactly when its
universe is that of port 0 (`receivesUniverse_iff`).
-/

namespace SN110

open Memory

/-! ## Start-up and one round of the loop -/

/-- The sACN part of `main`'s start-up: `sacn_sock` and the groups it has joined. -/
def initSacn (cfg : NodeConfig) (k : InitAnswers) : Int × List UInt32 :=
  if cfg.activeProtocol = protoSacn then sacnInit (cfg.ports 0).dmxUniverse k else (-1, [])

/-- The sACN part of one round of `main`'s loop: poll the socket and hand on what it parses.
`held` is what the packet on the stack holds before. -/
def pollSacn (cfg : NodeConfig) (sock : Int) (r : Received sacnMaxPacketLen) (s : RecvStats)
    (held : SacnPacket) (clk : HandlerClock) (st : DaemonState) : DaemonState :=
  if sock ≥ 0 then
    let res := sacnReceive r s held
    if res.1 = 0 then handleSacnPacket cfg res.2.1 clk st else st
  else st

/-- What a multicast datagram is to a socket: read if its group has been joined, and else nothing,
which a non-blocking `recv` reports as an error. -/
def multicast (groups : List UInt32) (group : UInt32) (payload : List UInt8) :
    Received sacnMaxPacketLen :=
  if group ∈ groups then .datagram sacnMaxPacketLen payload else .error

/-! ## The property -/

/-- The port has had a packet applied that carries the transmitter's priority and these slots. -/
def HasApplied (tx : SacnTx) (slots : List UInt8) (clk : HandlerClock) (i : Port)
    (st st' : DaemonState) : Prop :=
  ∃ pkt : SacnPacket, st' i = { st i with out := sacnStore pkt clk i (st i).out } ∧
    pkt.dmxUniverse = tx.dmxUniverse ∧ pkt.priority = tx.priority ∧
    pkt.dmxLength.toNat = slots.length ∧ pkt.dmxData.toList.take slots.length = slots

/-- Every packet of 1 to 512 slots for port `i`'s universe, sent to the universe's group with a
priority at least the port's, is applied to the port. -/
def ReceivesUniverse (cfg : NodeConfig) (k : InitAnswers) (i : Port) : Prop :=
  ∀ (tx : SacnTx) (slots : List UInt8), tx.dmxUniverse = (cfg.ports i).dmxUniverse →
    1 ≤ slots.length → slots.length ≤ dmxUniverseSize →
    ∀ (s : RecvStats) (held : SacnPacket) (clk : HandlerClock) (st : DaemonState),
      (st i).out.priority ≤ tx.priority →
      HasApplied tx slots clk i st
        (pollSacn cfg (initSacn cfg k).1
          (multicast (initSacn cfg k).2 (sacnMulticastAddr tx.dmxUniverse)
            (sacnTxBuildPacket tx slots slots.length sacnMaxPacketLen).2) s held clk st)

/-! ## One packet -/

/-- A built packet that is received is parsed back. -/
theorem sacnReceive_built (tx : SacnTx) {slots : List UInt8}
    (hmax : slots.length ≤ dmxUniverseSize) (s : RecvStats) (held : SacnPacket) :
    ∃ pkt s', sacnReceive (.datagram sacnMaxPacketLen
          (sacnTxBuildPacket tx slots slots.length sacnMaxPacketLen).2) s held = (0, pkt, s') ∧
      pkt.startCode = 0 ∧ pkt.dmxUniverse = tx.dmxUniverse ∧ pkt.priority = tx.priority ∧
      pkt.dmxLength.toNat = slots.length ∧ pkt.dmxData.toList.take slots.length = slots := by
  have hroom : ((126 + slots.length : Nat) : Int) ≤ (sacnMaxPacketLen : Nat) := by
    simp only [sacnMaxPacketLen, dmxUniverseSize] at hmax ⊢
    omega
  have hfits := @sacnTxBuildPacket_of_fits tx slots slots.length (sacnMaxPacketLen : Nat) hmax
    (by exact_mod_cast hroom)
  obtain ⟨buf, hfill⟩ : ∃ buf, buf = sacnTxFill tx slots slots.length
    (List.replicate (126 + slots.length) 0) := ⟨_, rfl⟩
  -- from here on the packet is a variable, so that no rewriting goes into its stores
  rw [hfits, ← hfill]
  have hlen : buf.length = 126 + slots.length := by simp [hfill]
  have huncut : buf.take sacnMaxPacketLen = buf := by
    refine List.take_of_length_le ?_
    simp only [sacnMaxPacketLen, dmxUniverseSize] at hmax ⊢
    omega
  have hcount : (Received.datagram sacnMaxPacketLen buf).count
      = ((126 + slots.length : Nat) : Int) := by
    show (((buf.take sacnMaxPacketLen).length : Nat) : Int) = _
    rw [huncut, hlen]
  have hbuf : (Received.datagram sacnMaxPacketLen buf).buf = buf := huncut
  have hmin : ¬ (Received.datagram sacnMaxPacketLen buf).count < sacnMinPacketLen := by
    rw [hcount]
    simp only [sacnMinPacketLen]
    omega
  have hparse := sacnParse_sacnTxFill hmax le_rfl held hfill
  have hrecv : sacnReceive (.datagram sacnMaxPacketLen buf) s held
      = (0, (sacnParse buf ((126 + slots.length : Nat) : Int) held).2,
          (s.received ((126 + slots.length : Nat) : Int)).parsed 0) := by
    rw [sacnReceive, if_neg hmin]
    simp only [hcount, hbuf, hparse]
  refine ⟨_, _, hrecv, ?_⟩
  rw [hparse]
  refine ⟨rfl, rfl, rfl, ?_, ?_⟩
  · simp only [UInt16.toNat_ofNat', dmxUniverseSize] at hmax ⊢
    omega
  · rw [take_parsed_slots hmax le_rfl, List.take_length]

/-- The packet is applied to a TX port on its universe whose priority it reaches. -/
theorem handleSacnPacket_applied {cfg : NodeConfig} {pkt : SacnPacket} {clk : HandlerClock}
    {st : DaemonState} {i : Port} (hcode : pkt.startCode = 0)
    (hroute : Routed cfg pkt.dmxUniverse i) (hprio : (st i).out.priority ≤ pkt.priority) :
    handleSacnPacket cfg pkt clk st i = { st i with out := sacnStore pkt clk i (st i).out } := by
  rw [handleSacnPacket_apply, if_pos ⟨hcode, hroute, decide_eq_true (Or.inl hprio)⟩]

section

variable {cfg : NodeConfig} {k : InitAnswers} {i : Port}

/-- On the universe of port 0 the packets arrive. -/
theorem receivesUniverse_of_same (hproto : cfg.activeProtocol = protoSacn)
    (htx : (cfg.ports i).mode = dmxModeTx) (hk : k.Succeed)
    (hsame : (cfg.ports i).dmxUniverse = (cfg.ports 0).dmxUniverse) :
    ReceivesUniverse cfg k i := by
  intro tx slots huni _ hmax s held clk st hprio
  obtain ⟨pkt, s', hrecv, hcode, hpkt, hpktPrio, hlen, hdata⟩ := sacnReceive_built tx hmax s held
  have hinit : initSacn cfg k = (k.socket, [sacnMulticastAddr (cfg.ports 0).dmxUniverse]) := by
    rw [initSacn, if_pos hproto, sacnInit_of_succeed hk]
  have hgroup :
      sacnMulticastAddr tx.dmxUniverse ∈ [sacnMulticastAddr (cfg.ports 0).dmxUniverse] := by
    rw [huni, hsame]
    exact List.mem_singleton_self _
  refine ⟨pkt, ?_, hpkt, hpktPrio, hlen, hdata⟩
  rw [hinit, pollSacn, if_pos hk.1, multicast, if_pos hgroup, hrecv]
  exact handleSacnPacket_applied hcode ⟨by rw [hpkt, huni], htx⟩ (by rw [hpktPrio]; exact hprio)

/-- A poll that receives nothing leaves the ports alone. -/
theorem pollSacn_error (sock : Int) (s : RecvStats) (held : SacnPacket) (clk : HandlerClock)
    (st : DaemonState) : pollSacn cfg sock .error s held clk st = st := by
  have hnothing : (sacnReceive .error s held).1 ≠ 0 := by
    rw [sacnReceive, if_pos (by decide)]
    exact show (-1 : Int) ≠ 0 by decide
  unfold pollSacn
  split_ifs <;> rfl

/-- Where the packets arrive, the port's group has been joined. -/
theorem joined_of_receivesUniverse (h : ReceivesUniverse cfg k i) :
    sacnMulticastAddr (cfg.ports i).dmxUniverse ∈ (initSacn cfg k).2 := by
  by_contra hout
  -- one slot for the port's universe, stamped 1, into a state whose stamps are 0
  let tx : SacnTx := { sampleTx with dmxUniverse := (cfg.ports i).dmxUniverse }
  obtain ⟨pkt, happ, _⟩ := h tx [0] rfl (by decide) (by decide) RecvStats.zero blankSacnPacket
    (HandlerClock.at 1) (initialState cfg fun _ => 3) (UInt8.zero_le)
  rw [multicast, if_neg hout, pollSacn_error] at happ
  have hstamp : (0 : UInt32) = nowMs 1 := congrArg (fun p : PortState => p.out.lastUpdateMs) happ
  exact absurd hstamp (by decide)

end

/-- **One universe out of two.** With sACN active, a TX port is applied every multicast packet for
its universe if and only if that universe is port 0's and opening the socket has succeeded. -/
theorem receivesUniverse_iff (cfg : NodeConfig) (k : InitAnswers) (i : Port)
    (hproto : cfg.activeProtocol = protoSacn) (htx : (cfg.ports i).mode = dmxModeTx) :
    ReceivesUniverse cfg k i ↔
      k.Succeed ∧ (cfg.ports i).dmxUniverse = (cfg.ports 0).dmxUniverse := by
  constructor
  · intro h
    have hjoined := joined_of_receivesUniverse h
    rw [initSacn, if_pos hproto] at hjoined
    obtain ⟨hk, haddr⟩ := mem_groups_of_sacnInit hjoined
    exact ⟨hk, sacnMulticastAddr_injective haddr⟩
  · intro h
    exact receivesUniverse_of_same hproto htx h.1 h.2

/-- The kernel grants everything. -/
def grantAll : InitAnswers := { socket := 4, bind := 0, join := 0 }

/-- The configuration loaded from an empty file. -/
def emptyFileConfig : NodeConfig := (configLoad (some [])).2

theorem emptyFile_portZero_receives : ReceivesUniverse emptyFileConfig grantAll 0 :=
  (receivesUniverse_iff emptyFileConfig grantAll 0 (by decide) (by decide)).mpr
    ⟨by decide, by decide⟩

/-- An empty file puts both ports in TX mode, on universes 1 and 2, and port 1 gets nothing. -/
theorem emptyFile_portOne_starves :
    emptyFileConfig.activeProtocol = protoSacn ∧ (emptyFileConfig.ports 1).mode = dmxModeTx ∧
      grantAll.Succeed ∧ ¬ ReceivesUniverse emptyFileConfig grantAll 1 := by
  refine ⟨by decide, by decide, by decide, fun h => ?_⟩
  have hjoined := joined_of_receivesUniverse h
  rw [initSacn, if_pos (by decide)] at hjoined
  have hsame := sacnMulticastAddr_injective (mem_groups_of_sacnInit hjoined).2
  exact absurd hsame (by decide)

end SN110
