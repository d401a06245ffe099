import SN110.Daemon.Main
import SN110.Daemon.Stream
import SN110.Daemon.Receivers
import SN110.Lib.Relay
import Mathlib.Data.List.ReduceOption

/-!
# Two nodes and the network between them

A node with an RX port sends what its console sends; another one receives it and writes it to a
TX port. This is what the program is for. Both daemons take their passes in any order; the network
may lose packets, but it neither reorders nor repeats them. Seen through `relayEvents` the two nodes
are a `Relay` register.

* `Bridge.sim_step`: every step of the two nodes is matched by the register's.
* `bridge_inOrder`: the TX port shows frames that the other node has sent, in their order, each at
  most once, and nothing else but blank frames.
* `bridge_coherent`: when nothing has been lost and nothing is on the way, the last frame written
  shows the last frame that was read, unless the port has timed out.

## The simulation

`Bridge.Sim` ties the two nodes to the register: the packets in flight carry the frames of the
register's queue, the receiving port holds nothing that has still to be written, and the sending one
goes on feeding the stream (`Feeds`). There is one `Matched` lemma for each kind of event, and
`sim_run` puts them together. The register's own lemmas (`Relay.trace_sublist`) then say that what
it shows is a part of what was put into it, in order; the statement about frames is that one, read
through `relayEvents`.
-/

namespace SN110

open Run Memory

/-! ## The packets of a stream -/

/-- A packet of a transmitter for a universe: the frame is what any receiver reads out of it. -/
structure IsPacketOf (u : UInt16) (d : Datagram) : Prop where
  dest : d.dest = sacnMulticastAddr u
  length_le : d.bytes.length ≤ sacnMaxPacketLen
  carries : ∃ sequence, Carries d.bytes sequence u d.frame
  priority : ∀ pkt, (sacnParse d.bytes d.bytes.length pkt).2.priority = sacnDefaultPriority

/-- The port streams to a universe at the default priority. -/
structure Feeds (cfg : NodeConfig) (i : Port) (u : UInt16) (p : InPort) : Prop where
  streaming : Streaming cfg i p
  dmxUniverse : p.tx.dmxUniverse = u
  priority : p.tx.priority = sacnDefaultPriority

section

variable {cfg : NodeConfig} {i : Port} {u : UInt16} {p : InPort} {t : UInt32} {sent : Int}
  {dmxData : List UInt8} {n : Nat}

/-- A packet built for a port carries the sender's priority to the parser. -/
theorem priority_framePacket {tx : SacnTx} (hn : n ≤ 512) (hdata : n ≤ dmxData.length)
    (pkt : SacnPacket) :
    (sacnParse (framePacket tx dmxData n) (framePacket tx dmxData n).length pkt).2.priority
      = tx.priority := by
  rw [length_framePacket]
  unfold framePacket
  rw [sacnParse_sacnTxFill hn hdata pkt rfl]

/-- What a port on universe `u` sends is a packet of that universe, with the default priority. -/
theorem isPacketOf_portDatagram (hn : n ≤ 512) (hdata : n ≤ dmxData.length)
    (hu : p.tx.dmxUniverse = u) (hpriority : p.tx.priority = sacnDefaultPriority) :
    IsPacketOf u (portDatagram t sent i dmxData n p) where
  dest := by
    rw [← hu]
    rfl
  length_le := by
    rw [portDatagram_bytes, length_framePacket]
    simp only [sacnMaxPacketLen]
    omega
  carries := by
    rw [frame_portDatagram hdata, portDatagram_bytes, ← hu]
    exact ⟨_, carries_framePacket hn hdata⟩
  priority := fun pkt => by
    rw [portDatagram_bytes, priority_framePacket hn hdata, hpriority]

/-- Sending keeps the source on its universe, and what it puts on the network is a packet of
it. -/
theorem feeds_sendFrame (hn : n ≤ 512) (hdata : n ≤ dmxData.length) (h : Feeds cfg i u p) :
    Feeds cfg i u (sendFrame t sent i dmxData n p).1 ∧
      ∀ d ∈ (sendFrame t sent i dmxData n p).2, IsPacketOf u d := by
  obtain ⟨hstreaming, huniverse⟩ := @streaming_sendFrame cfg t sent i p dmxData n hn h.streaming
  refine ⟨⟨hstreaming, huniverse.trans h.dmxUniverse, ?_⟩, ?_⟩
  · rw [sendFrame_eq hn]
    dsimp only
    split_ifs
    · exact h.priority
    · exact h.priority
  · rw [sendFrame_eq hn]
    intro d hd
    rw [List.mem_singleton.mp hd]
    exact isPacketOf_portDatagram hn hdata h.dmxUniverse h.priority

/-- Bytes read from the device leave the source feeding the same universe. -/
theorem feeds_storeFrame {bytes : List UInt8} (hle : bytes.length ≤ 512) (h : Feeds cfg i u p) :
    Feeds cfg i u (storeFrame t bytes p) := by
  refine ⟨streaming_storeFrame h.streaming hle, ?_, ?_⟩
  · rw [storeFrame_tx]
    exact h.dmxUniverse
  · rw [storeFrame_tx]
    exact h.priority

/-- An input cycle keeps a port feeding, and sends packets of its stream only. -/
theorem feeds_inputPort (h : Feeds cfg i u p) (read : ReadFrame) :
    Feeds cfg i u (inputPort cfg t read sent i p).1 ∧
      ∀ d ∈ (inputPort cfg t read sent i p).2, IsPacketOf u d := by
  have hnone : ∀ d ∈ ([] : List Datagram), IsPacketOf u d := fun _ hd => nomatch hd
  cases read with
  | nothing =>
    rw [inputPort_nothing h.streaming]
    split_ifs
    · refine feeds_sendFrame h.streaming.length_le ?_ h
      rw [Vector.length_toList]
      exact h.streaming.length_le
    · exact ⟨h, hnone⟩
  | frame bytes hpos hle =>
    rw [inputPort_frame h.streaming]
    split_ifs
    · exact ⟨h, hnone⟩
    · exact feeds_sendFrame hle le_rfl (feeds_storeFrame hle h)

/-- An RX port whose device and socket open starts out feeding its universe. -/
theorem feeds_inputStart {opened sockets : Port → Int} (hrx : (cfg.ports i).mode = dmxModeRx)
    (hopened : 0 ≤ opened i) (hsocket : 0 ≤ sockets i) :
    Feeds cfg i (cfg.ports i).dmxUniverse (inputStart cfg opened sockets i) := by
  have hstart := @streamed_inputStart cfg i _ _ hrx hopened hsocket
  refine ⟨hstart.streaming, hstart.dmxUniverse, ?_⟩
  have hfd : (if (cfg.ports i).mode = dmxModeOff then -1 else opened i) = opened i :=
    if_neg (by rw [hrx]; decide)
  have hready : 0 ≤ opened i ∧ (cfg.ports i).mode = dmxModeRx := ⟨hopened, hrx⟩
  unfold inputStart
  dsimp only
  rw [hfd, if_pos hready]
  rfl

end

/-! ## What a pass writes, whatever the clock says -/

section

variable {cfg : NodeConfig} {i : Port} {n : Node} {p : Pass}

/-- A write puts out the whole frame or nothing: one frame at most, whatever the device
answers. -/
theorem dmxTxWrite_frames (port : Port) (fd : Int) (data : Slots) (o : Opens) :
    (dmxTxWrite port fd data o).2.filterMap (frameTo port) = [] ∨
      (dmxTxWrite port fd data o).2.filterMap (frameTo port) = [data] := by
  unfold dmxTxWrite
  split_ifs
  · exact Or.inl rfl
  · exact Or.inr (by simp [List.filterMap_cons])
  · exact Or.inl rfl
  · exact Or.inr (by simp [List.filterMap_cons])

/-- A pass writes nothing, or a blank frame, or the levels after the packet it has applied; and a
port on which nothing is left to be sent is left so. -/
theorem writes_cases (hone : n.sockets.OneOpen) (h : ¬ (n.out i).Pending) :
    ¬ ((mainPass cfg n p).1.out i).Pending ∧
      (writesOf i (mainPass cfg n p).2 = [] ∨
        writesOf i (mainPass cfg n p).2 = [blankFrame] ∨
        AppliesTo cfg i n p ∧ writesOf i (mainPass cfg n p).2
          = [(finalState (step cfg) n.out (packetEvents n p) i).out.data]) := by
  obtain ⟨hout, hwrites⟩ := @mainPass_port cfg i n p
  obtain ⟨port, hport⟩ : ∃ port, port = finalState (step cfg) n.out (packetEvents n p) i := ⟨_, rfl⟩
  have happlied : port.Pending → AppliesTo cfg i n p := by
    intro hpending
    by_contra hnot
    rcases @polled_cases cfg i _ p hone with ⟨hyes, -⟩ | ⟨-, hkept⟩
    · exact hnot hyes
    · rw [hport, hkept] at hpending
      exact h hpending
  rw [← hport] at hout hwrites ⊢
  rw [outputPort_eq] at hout hwrites
  cases haction : portAction cfg (nowMs p.outMs) i port with
  | leave =>
    rw [haction] at hout hwrites
    dsimp only at hout hwrites
    refine ⟨?_, Or.inl (by rw [hwrites]; rfl)⟩
    rw [hout]
    -- a port that is left alone is not an open TX port with a fresh frame
    intro hpending
    unfold portAction at haction
    split_ifs at haction with hclosed hmode hfresh
    · exact absurd hpending.1 (not_le.mpr hclosed)
    · obtain hnot := happlied hpending
      obtain ⟨e, he, hsome⟩ := hnot
      obtain ⟨v, hv⟩ := Option.isSome_iff_exists.mp hsome
      exact hmode (routed_of_applied hv).2
    · exact hfresh hpending.2
  | send =>
    rw [haction] at hout hwrites
    dsimp only at hout hwrites
    refine ⟨?_, ?_⟩
    · rw [hout]
      exact fun hpending => UInt32.lt_irrefl port.out.lastUpdateMs hpending.2
    · rw [hwrites]
      rcases dmxTxWrite_frames i port.fd port.out.data (p.opens i) with hnone | hsome
      · exact Or.inl hnone
      · exact Or.inr (Or.inr ⟨happlied (portAction_send haction), hsome⟩)
  | blank =>
    rw [haction] at hout hwrites
    dsimp only at hout hwrites
    refine ⟨?_, ?_⟩
    · rw [hout]
      exact fun hpending => UInt32.not_lt_zero hpending.2
    · rw [hwrites]
      rcases dmxTxWrite_frames i port.fd blankFrame (p.opens i) with hnone | hsome
      · exact Or.inl hnone
      · exact Or.inr (Or.inl hsome)

end

/-! ## A packet that arrives -/

/-- The pass in which a datagram is sent to a group, at a socket that has joined `groups`. -/
def Pass.receiving (p : Pass) (groups : List UInt32) (d : Datagram) : Pass :=
  { p with sacn := multicast groups d.dest d.bytes }

/-- The packet that `sacn_receive` makes of a datagram. -/
def Pass.parsed (p : Pass) (d : Datagram) : SacnPacket :=
  (sacnParse d.bytes d.bytes.length p.sacnPkt).2

section

variable {cfg : NodeConfig} {i : Port} {n : Node} {p : Pass} {d : Datagram} {u : UInt16}
  {groups : List UInt32}

/-- Only the sACN socket may be open. -/
structure OnlySacn (s : Sockets) : Prop where
  artnet : s.artnet < 0
  shownet : s.shownet < 0

/-- A node that only listens for sACN has at most one open socket. -/
theorem OnlySacn.oneOpen {s : Sockets} (h : OnlySacn s) : s.OneOpen :=
  ⟨Or.inr h.artnet, Or.inr h.shownet, Or.inl h.artnet⟩

/-- With only the sACN socket open, a pass hands over the sACN datagram alone. -/
theorem packetEvents_of_onlySacn (h : OnlySacn n.sockets) (p : Pass) :
    packetEvents n p = sacnEvents n p := by
  have hartnet : artnetEvents n p = [] :=
    if_neg fun hopen => absurd hopen.1 (not_le.mpr h.artnet)
  have hshownet : shownetEvents n p = [] :=
    dif_neg fun hopen => absurd hopen.1 (not_le.mpr h.shownet)
  rw [packetEvents, hartnet, hshownet, List.append_nil, List.append_nil]

/-- What a pass hands on when a packet of a stream arrives. -/
theorem receiving_events (hd : IsPacketOf u d) (honly : OnlySacn n.sockets) :
    packetEvents n (p.receiving groups d)
      = if n.sockets.sacn ≥ 0 ∧ d.dest ∈ groups then [.sacn (p.parsed d) p.clk] else [] := by
  rw [packetEvents_of_onlySacn honly]
  by_cases hjoined : d.dest ∈ groups
  · have hsacn : (p.receiving groups d).sacn = .datagram sacnMaxPacketLen d.bytes :=
      if_pos hjoined
    obtain ⟨sequence, hcarries⟩ := hd.carries
    by_cases hopen : n.sockets.sacn ≥ 0
    · rw [if_pos ⟨hopen, hjoined⟩]
      exact sacnEvents_datagram hopen hsacn hd.length_le (hcarries.parsed p.sacnPkt)
    · rw [sacnEvents, if_neg fun h => hopen h.1, if_neg fun h => hopen h.1]
  · have hnone : (p.receiving groups d).sacn = .error := if_neg hjoined
    have hret : (sacnReceive (Received.error : Received sacnMaxPacketLen) n.stats
        (p.receiving groups d).sacnPkt).1 = -1 := by
      rw [sacnReceive, if_pos (by decide)]
    rw [sacnEvents, hnone, if_neg (by rw [hret]; exact fun h => absurd h.2 (by decide)),
      if_neg fun h => hjoined h.2]

/-- The receiver reads back as many levels as the packet's source put in. -/
theorem parsed_dmxLength (hd : IsPacketOf u d) : (p.parsed d).dmxLength.toNat = d.frame.length := by
  obtain ⟨sequence, hcarries⟩ := hd.carries
  rw [Pass.parsed, hcarries.dmxLength]

/-- The slots that a packet sets. -/
theorem take_sacnStore (hd : IsPacketOf u d) (clk : HandlerClock) (f : DmxFrame) :
    (sacnStore (p.parsed d) clk i f).data.toList.take d.frame.length = d.frame := by
  obtain ⟨sequence, hcarries⟩ := hd.carries
  have hdata : (p.parsed d).dmxData.toList.take d.frame.length = d.frame := by
    rw [Pass.parsed, hcarries.dmxData]
  refine Eq.trans ?_ hdata
  have hlength := parsed_dmxLength (p := p) hd
  apply List.ext_getElem
  · simp
  · intro k hk hk'
    rw [List.length_take, Vector.length_toList] at hk
    rw [List.getElem_take, List.getElem_take, Vector.getElem_toList, Vector.getElem_toList]
    dsimp only [sacnStore]
    rw [getElem_memcpySlots, if_pos (by omega)]

/-- When the packet is applied to a port, the levels of the port begin with its frame. -/
theorem polled_receiving (hd : IsPacketOf u d) (honly : OnlySacn n.sockets)
    (happlies : AppliesTo cfg i n (p.receiving groups d)) :
    finalState (step cfg) n.out (packetEvents n (p.receiving groups d)) i
      = { n.out i with out := sacnStore (p.parsed d) p.clk i (n.out i).out } := by
  unfold AppliesTo at happlies
  rw [receiving_events hd honly] at happlies ⊢
  split_ifs at happlies ⊢ with hopen
  · obtain ⟨e, he, hsome⟩ := happlies
    rw [List.mem_singleton.mp he] at hsome
    obtain ⟨v, hv⟩ := Option.isSome_iff_exists.mp hsome
    rw [Event.appliedAt, Option.ite_some_none_eq_some] at hv
    obtain ⟨hcond, -⟩ := hv
    rw [finalState_cons, finalState_nil]
    simp only [step]
    rw [handleSacnPacket_apply, if_pos hcond]
  · obtain ⟨e, he, -⟩ := happlies
    cases he

end

/-! ## The two nodes -/

/-- The configurations of the two nodes, what their kernels answer at the start, and the two ports:
the one that is read and the one that is written. -/
structure Bridge where
  source : NodeConfig
  sourceBoot : Boot
  rx : Port
  sink : NodeConfig
  sinkBoot : Boot
  tx : Port

/-- The two daemons and the packets on their way from one to the other. -/
structure BridgeState where
  sender : Node
  inFlight : List Datagram
  receiver : Node

/-- What can happen. -/
inductive BridgeEvent where
  /-- The sending daemon takes a pass. -/
  | send (p : Pass)
  /-- A packet is lost. -/
  | lose (k : Nat)
  /-- The next packet arrives, and the receiving daemon takes the pass that gets it. -/
  | deliver (p : Pass)
  /-- The receiving daemon takes a pass that gets a datagram from elsewhere, or none. -/
  | other (p : Pass)

/-- What the two nodes do to the outside. -/
inductive BridgeOutput where
  | sent (frame : List UInt8)
  | wrote (data : Slots)

/-- The frame that is sent, if one is. -/
def BridgeOutput.sent? : BridgeOutput → Option (List UInt8)
  | .sent frame => some frame
  | _ => none

/-- The frame that is written, if one is. -/
def BridgeOutput.wrote? : BridgeOutput → Option Slots
  | .wrote data => some data
  | _ => none

namespace Bridge

/-- The universe that is streamed to. -/
def dmxUniverse (c : Bridge) : UInt16 := (c.source.ports c.rx).dmxUniverse

/-- The groups that the receiving node has joined. -/
def groups (c : Bridge) : List UInt32 := (initSacn c.sink c.sinkBoot.init).2

/-- Both nodes enter their loops. -/
def start (c : Bridge) : BridgeState where
  sender := mainStart c.source c.sourceBoot
  inFlight := []
  receiver := mainStart c.sink c.sinkBoot

/-- The packets of the stream that `sendto` takes in a pass. -/
def sentBy (c : Bridge) (s : BridgeState) (p : Pass) : List Datagram :=
  (streamOf c.rx (mainPass c.source s.sender p).2).filter fun d => 0 ≤ d.sent

/-- The receiving daemon takes a pass. -/
def receive (c : Bridge) (s : BridgeState) (p : Pass) : BridgeState × List BridgeOutput :=
  ({ s with receiver := (mainPass c.sink s.receiver p).1 },
    (writesOf c.tx (mainPass c.sink s.receiver p).2).map .wrote)

/-- What an event does. -/
def step (c : Bridge) (s : BridgeState) : BridgeEvent → BridgeState × List BridgeOutput
  | .send p =>
    ({ s with
        sender := (mainPass c.source s.sender p).1
        inFlight := s.inFlight ++ c.sentBy s p },
      (c.sentBy s p).map fun d => .sent d.frame)
  | .lose k => ({ s with inFlight := s.inFlight.eraseIdx k }, [])
  | .deliver p =>
    match s.inFlight with
    | [] => (s, [])
    | d :: inFlight => c.receive { s with inFlight := inFlight } (p.receiving c.groups d)
  | .other p => c.receive s p

/-- The frames that are sent. -/
def sent (os : List BridgeOutput) : List (List UInt8) := os.filterMap BridgeOutput.sent?

/-- The frames that are written. -/
def written (os : List BridgeOutput) : List Slots := os.filterMap BridgeOutput.wrote?

/-- A datagram from elsewhere is not for the port's universe. -/
def Elsewhere (c : Bridge) (s : BridgeState) : BridgeEvent → Prop
  | .other p => ∀ e ∈ packetEvents s.receiver p,
      e.addressedTo ≠ some (c.sink.ports c.tx).dmxUniverse
  | _ => True

/-- The sending port reads, its device and its transmitter's socket are open, and the receiving node
listens to sACN. -/
structure Ready (c : Bridge) : Prop where
  rx : (c.source.ports c.rx).mode = dmxModeRx
  device : 0 ≤ c.sourceBoot.opened c.rx
  socket : 0 ≤ c.sourceBoot.txSockets c.rx
  protocol : c.sink.activeProtocol = protoSacn

/-- A written frame shows a frame that was sent, or it is blank. -/
def Shows (data : Slots) : Option (List UInt8) → Prop
  | some frame => data.toList.take frame.length = frame
  | none => data = blankFrame

/-- The frame that a written one shows, when `frame` has just arrived. -/
def shownOf (frame : List UInt8) (data : Slots) : Option (List UInt8) :=
  if data.toList.take frame.length = frame then some frame else none

/-- What the frames written in a step show. -/
def shown (c : Bridge) (s : BridgeState) : BridgeEvent → List (Option (List UInt8))
  | .deliver p =>
    match s.inFlight with
    | [] => []
    | d :: _ => (writesOf c.tx (mainPass c.sink s.receiver (p.receiving c.groups d)).2).map
        (shownOf d.frame)
  | .other p => (writesOf c.tx (mainPass c.sink s.receiver p).2).map fun _ => none
  | _ => []

/-- A step as the register sees it: a frame that is shown is read from it. -/
def relayEvents (c : Bridge) (s : BridgeState) (e : BridgeEvent) :
    List (Relay.Event (List UInt8)) :=
  match e with
  | .send p => (c.sentBy s p).map fun d => .send d.frame
  | .lose k => [.lose k]
  | .deliver _ =>
    if s.inFlight = [] then [] else .deliver :: (c.shown s e).reduceOption.map fun _ => .read
  | .other _ => []

/-- The two nodes and the register that stands for them. -/
structure Sim (c : Bridge) (s : BridgeState) (r : Relay.State (List UInt8)) : Prop where
  queue : r.queue = s.inFlight.map Datagram.frame
  inFlight : ∀ d ∈ s.inFlight, IsPacketOf c.dmxUniverse d
  feeds : Feeds c.source c.rx c.dmxUniverse (s.sender.input c.rx)
  device : (s.sender.out c.rx).fd = (s.sender.input c.rx).fd
  sockets : OnlySacn s.receiver.sockets
  idle : ¬ (s.receiver.out c.tx).Pending

section

variable {c : Bridge} {s : BridgeState} {r : Relay.State (List UInt8)}

theorem sent_append (xs ys : List BridgeOutput) : sent (xs ++ ys) = sent xs ++ sent ys :=
  List.filterMap_append

theorem written_append (xs ys : List BridgeOutput) :
    written (xs ++ ys) = written xs ++ written ys := List.filterMap_append

@[simp] theorem written_map_wrote (ds : List Slots) : written (ds.map .wrote) = ds := by
  unfold written
  rw [List.filterMap_map]
  exact List.filterMap_some

@[simp] theorem sent_map_wrote (ds : List Slots) : sent (ds.map .wrote) = [] := by
  unfold sent
  rw [List.filterMap_map]
  exact List.filterMap_eq_nil_iff.mpr fun _ _ => rfl

@[simp] theorem sent_map_sent (ds : List Datagram) :
    sent (ds.map fun d => .sent d.frame) = ds.map Datagram.frame := by
  unfold sent
  rw [List.filterMap_map]
  exact congrFun List.filterMap_eq_map ds

@[simp] theorem written_map_sent (ds : List Datagram) :
    written (ds.map fun d => .sent d.frame) = [] := by
  unfold written
  rw [List.filterMap_map]
  exact List.filterMap_eq_nil_iff.mpr fun _ _ => rfl

/-- The relay events of a cycle's sends carry its frames. -/
theorem sends_map_send (frames : List (List UInt8)) :
    Relay.sends (frames.map Relay.Event.send) = frames := by
  unfold Relay.sends
  rw [List.filterMap_map]
  exact List.filterMap_some

/-- A run of sends only queues the frames and answers nothing. -/
theorem finalState_map_send (frames : List (List UInt8)) (r : Relay.State (List UInt8)) :
    finalState Relay.step r (frames.map Relay.Event.send)
        = { r with queue := r.queue ++ frames } ∧
      trace Relay.step r (frames.map Relay.Event.send) = [] := by
  induction frames generalizing r with
  | nil => exact ⟨by simp, rfl⟩
  | cons frame frames ih =>
    obtain ⟨hfinal, htrace⟩ := ih (Relay.step r (.send frame)).1
    refine ⟨hfinal.trans ?_, htrace⟩
    simp [Relay.step]

/-- The start of the two nodes is the start of the register. -/
theorem sim_start (h : c.Ready) : Sim c c.start Relay.State.initial where
  queue := rfl
  inFlight := fun _ hd => nomatch hd
  feeds := feeds_inputStart h.rx h.device h.socket
  device := rfl
  sockets := ⟨initSockets_artnet (by rw [h.protocol]; decide) _,
    initSockets_shownet (by rw [h.protocol]; decide) _⟩
  idle := fun hpending => UInt32.lt_irrefl 0 hpending.2

/-! ### One step -/

/-- With nothing in flight a delivery does nothing. -/
theorem step_deliver_nil (hflight : s.inFlight = []) (p : Pass) :
    c.step s (.deliver p) = (s, []) := by
  simp only [step, hflight]

/-- A delivery hands the oldest datagram in flight to the receiver's pass. -/
theorem step_deliver_cons {d : Datagram} {inFlight : List Datagram}
    (hflight : s.inFlight = d :: inFlight) (p : Pass) :
    c.step s (.deliver p)
      = c.receive { s with inFlight := inFlight } (p.receiving c.groups d) := by
  simp only [step, hflight]

/-- A pass that brings something else leaves the sink's universe alone. -/
theorem not_appliesTo_of_elsewhere {p : Pass} (hother : c.Elsewhere s (.other p)) :
    ¬ AppliesTo c.sink c.tx s.receiver p := by
  rintro ⟨e, he, hsome⟩
  obtain ⟨v, hv⟩ := Option.isSome_iff_exists.mp hsome
  exact hother e he (routed_of_applied hv).1

/-- The register when the first packet has left the network. The receiver does not see that. -/
theorem Sim.arrived (h : Sim c s r) {d : Datagram} {inFlight : List Datagram}
    (hflight : s.inFlight = d :: inFlight) (register : Option (List UInt8)) (unread : Bool) :
    Sim c { s with inFlight := inFlight }
      { queue := inFlight.map Datagram.frame, register := register, unread := unread } :=
  ⟨rfl, fun d' hd' => h.inFlight d' (hflight ▸ List.mem_cons_of_mem d hd'), h.feeds, h.device,
    h.sockets, h.idle⟩

/-- The relay's delivery puts the oldest frame queued into its register, unread. -/
theorem relay_deliver (h : Sim c s r) {d : Datagram} {inFlight : List Datagram}
    (hflight : s.inFlight = d :: inFlight) :
    Relay.step r .deliver
      = ({ queue := inFlight.map Datagram.frame, register := some d.frame, unread := true },
        []) := by
  have hqueue : r.queue = d.frame :: inFlight.map Datagram.frame := by
    rw [h.queue, hflight, List.map_cons]
  simp [Relay.step, hqueue]

/-- What is written in the pass of an arrival is blank or shows the frame that has arrived. -/
theorem writes_receiving (h : Sim c s r) {d : Datagram} (hd : IsPacketOf c.dmxUniverse d)
    (p : Pass) :
    writesOf c.tx (mainPass c.sink s.receiver (p.receiving c.groups d)).2 = [] ∨
      ∃ data, writesOf c.tx (mainPass c.sink s.receiver (p.receiving c.groups d)).2 = [data] ∧
        (data = blankFrame ∨ data.toList.take d.frame.length = d.frame) := by
  rcases (@writes_cases c.sink _ _ (p.receiving c.groups d) h.sockets.oneOpen h.idle).2 with
    hnone | hblank | ⟨happlies, hdata⟩
  · exact Or.inl hnone
  · exact Or.inr ⟨_, hblank, Or.inl rfl⟩
  · refine Or.inr ⟨_, hdata, Or.inr ?_⟩
    rw [polled_receiving hd h.sockets happlies]
    exact take_sacnStore hd p.clk _

/-- A step of the two nodes that the register matches. -/
structure Matched (c : Bridge) (s : BridgeState) (r : Relay.State (List UInt8))
    (e : BridgeEvent) : Prop where
  sim : Sim c (c.step s e).1 (finalState Relay.step r (c.relayEvents s e))
  shows : List.Forall₂ Shows (written (c.step s e).2) (c.shown s e)
  read : trace Relay.step r (c.relayEvents s e) = (c.shown s e).reduceOption
  sent : Relay.sends (c.relayEvents s e) = sent (c.step s e).2

/-- A sending cycle of the source is the relay queueing the frames it sent. -/
theorem matched_send (h : Sim c s r) (hrx : (c.source.ports c.rx).mode = dmxModeRx) (p : Pass) :
    c.Matched s r (.send p) := by
  obtain ⟨hinput, hstream, hdevice⟩ := mainPass_rx hrx h.device p
  obtain ⟨hfeeds, hpackets⟩ := @feeds_inputPort c.source c.rx _ _ p.input.t (p.input.sents c.rx)
    h.feeds (p.input.reads c.rx)
  have hevents : c.relayEvents s (.send p)
      = ((c.sentBy s p).map Datagram.frame).map Relay.Event.send := by
    rw [relayEvents, List.map_map]
    rfl
  obtain ⟨hfinal, htrace⟩ := finalState_map_send ((c.sentBy s p).map Datagram.frame) r
  -- the frames go to the end of both queues, and nothing is written
  refine ⟨?_, ?_, ?_, ?_⟩
  · rw [hevents, hfinal]
    refine ⟨?_, ?_, ?_, hdevice, h.sockets, h.idle⟩
    · dsimp only [step]
      rw [h.queue, List.map_append]
    · intro d hd
      rcases List.mem_append.mp hd with hd | hd
      · exact h.inFlight d hd
      · have hsent := (List.mem_filter.mp hd).1
        rw [hstream] at hsent
        exact hpackets d hsent
    · dsimp only [step]
      rw [hinput]
      exact hfeeds
  · dsimp only [step]
    rw [written_map_sent]
    exact .nil
  · rw [hevents, htrace]
    rfl
  · rw [hevents, sends_map_send]
    dsimp only [step]
    rw [sent_map_sent]

/-- A datagram lost on the network is the frame lost from the relay's queue. -/
theorem matched_lose (h : Sim c s r) (k : Nat) : c.Matched s r (.lose k) where
  sim := by
    refine ⟨?_, fun d hd => h.inFlight d (List.mem_of_mem_eraseIdx hd), h.feeds, h.device,
      h.sockets, h.idle⟩
    show r.queue.eraseIdx k = _
    rw [h.queue]
    exact List.eraseIdx_map ..
  shows := .nil
  read := rfl
  sent := rfl

/-- A pass of the receiver keeps the simulation. -/
theorem sim_receive (h : Sim c s r) (p : Pass) : Sim c (c.receive s p).1 r :=
  ⟨h.queue, h.inFlight, h.feeds, h.device, h.sockets,
    (@writes_cases c.sink _ _ p h.sockets.oneOpen h.idle).1⟩

/-- A pass of the receiver that brings nothing from the source is the relay reading its
register. -/
theorem matched_other (h : Sim c s r) {p : Pass} (hother : c.Elsewhere s (.other p)) :
    c.Matched s r (.other p) := by
  refine ⟨sim_receive h p, ?_, ?_, ?_⟩
  · dsimp only [step, receive, shown]
    rw [written_map_wrote]
    rcases (@writes_cases c.sink _ _ p h.sockets.oneOpen h.idle).2 with
      hnone | hblank | ⟨happlies, -⟩
    · rw [hnone]
      exact .nil
    · rw [hblank]
      exact .cons rfl .nil
    · exact absurd happlies (not_appliesTo_of_elsewhere hother)
  · dsimp only [shown]
    show [] = _
    rw [eq_comm, List.reduceOption, List.filterMap_map]
    exact List.filterMap_eq_nil_iff.mpr fun _ _ => rfl
  · dsimp only [step, receive]
    rw [sent_map_wrote]
    rfl

/-- Nothing is in flight, and nothing happens. -/
theorem matched_deliver_nil (h : Sim c s r) (hflight : s.inFlight = []) (p : Pass) :
    c.Matched s r (.deliver p) := by
  have hstep : c.step s (.deliver p) = (s, []) := step_deliver_nil hflight p
  have hshown : c.shown s (.deliver p) = [] := by simp only [shown, hflight]
  have hevents : c.relayEvents s (.deliver p) = [] := if_pos hflight
  refine ⟨?_, ?_, ?_, ?_⟩
  · rw [hstep, hevents]
    exact h
  · rw [hstep, hshown]
    exact .nil
  · rw [hevents, hshown]
    rfl
  · rw [hstep, hevents]
    rfl

/-- A frame arrives, and it is read if the pass shows it. -/
theorem matched_deliver_cons (h : Sim c s r) {d : Datagram} {inFlight : List Datagram}
    (hflight : s.inFlight = d :: inFlight) (p : Pass) : c.Matched s r (.deliver p) := by
  have hd : IsPacketOf c.dmxUniverse d := h.inFlight d (hflight ▸ List.mem_cons_self)
  set p' := p.receiving c.groups d with hp'
  set writes := writesOf c.tx (mainPass c.sink s.receiver p').2 with hwrites
  have hstep : c.step s (.deliver p) = c.receive { s with inFlight := inFlight } p' :=
    step_deliver_cons hflight p
  have hshown : c.shown s (.deliver p) = writes.map (shownOf d.frame) := by
    simp only [shown, hflight, hwrites, hp']
  have hevents : c.relayEvents s (.deliver p)
      = .deliver :: (writes.map (shownOf d.frame)).reduceOption.map fun _ => .read := by
    rw [relayEvents, if_neg (by rw [hflight]; exact List.cons_ne_nil d inFlight), hshown]
  -- at most one frame is written: blank, or the levels delivered
  have hcases : writes = [] ∨ ∃ data, writes = [data] ∧
      (data = blankFrame ∨ data.toList.take d.frame.length = d.frame) :=
    writes_receiving h hd p
  have hread : finalState Relay.step r (c.relayEvents s (.deliver p))
        = { queue := inFlight.map Datagram.frame
            register := some d.frame
            unread := decide ((writes.map (shownOf d.frame)).reduceOption = []) } ∧
      trace Relay.step r (c.relayEvents s (.deliver p))
        = (writes.map (shownOf d.frame)).reduceOption := by
    rw [hevents, finalState_cons, trace_cons, relay_deliver h hflight]
    -- a blank frame is no reading of the register
    rcases hcases with hnone | ⟨data, hsome, -⟩
    · rw [hnone]
      exact ⟨rfl, rfl⟩
    · rw [hsome, List.map_singleton, shownOf]
      split_ifs
      · exact ⟨rfl, rfl⟩
      · exact ⟨rfl, rfl⟩
  refine ⟨?_, ?_, ?_, ?_⟩
  · rw [hstep, hread.1]
    exact sim_receive (h.arrived hflight _ _) p'
  · rw [hstep, hshown]
    show List.Forall₂ Shows (written (writes.map .wrote)) _
    rw [written_map_wrote]
    rcases hcases with hnone | ⟨data, hsome, hdata⟩
    · rw [hnone]
      exact .nil
    · rw [hsome, List.map_singleton, shownOf]
      refine .cons ?_ .nil
      split_ifs with htake
      · exact htake
      · exact hdata.resolve_right htake
  · rw [hread.2, hshown]
  · rw [hstep, hevents]
    show Relay.sends _ = sent (writes.map .wrote)
    rw [sent_map_wrote, Relay.sends, List.filterMap_cons_none rfl, List.filterMap_map]
    exact List.filterMap_eq_nil_iff.mpr fun _ _ => rfl

/-- A delivered datagram is the relay delivering its frame and the receiver reading it. -/
theorem matched_deliver (h : Sim c s r) (p : Pass) : c.Matched s r (.deliver p) := by
  cases hflight : s.inFlight with
  | nil => exact matched_deliver_nil h hflight p
  | cons d inFlight => exact matched_deliver_cons h hflight p

/-- **Every step of the two nodes is matched by the register's.** -/
theorem sim_step (h : Sim c s r) (hrx : (c.source.ports c.rx).mode = dmxModeRx)
    {e : BridgeEvent} (he : c.Elsewhere s e) : c.Matched s r e := by
  cases e with
  | send p => exact matched_send h hrx p
  | lose k => exact matched_lose h k
  | deliver p => exact matched_deliver h p
  | other p => exact matched_other h he

/-! ### Runs -/

/-- What the frames written in a run show. -/
def allShown (c : Bridge) (s : BridgeState) : List BridgeEvent → List (Option (List UInt8))
  | [] => []
  | e :: es => c.shown s e ++ c.allShown (c.step s e).1 es

/-- A run as the register sees it. -/
def allRelayEvents (c : Bridge) (s : BridgeState) :
    List BridgeEvent → List (Relay.Event (List UInt8))
  | [] => []
  | e :: es => c.relayEvents s e ++ c.allRelayEvents (c.step s e).1 es

/-- A run of the two nodes is a run of the register. -/
theorem sim_run (h : Sim c s r) (hrx : (c.source.ports c.rx).mode = dmxModeRx)
    {es : List BridgeEvent} (hes : Along c.step c.Elsewhere s es) :
    Sim c (finalState c.step s es) (finalState Relay.step r (c.allRelayEvents s es)) ∧
      List.Forall₂ Shows (written (trace c.step s es)) (c.allShown s es) ∧
      trace Relay.step r (c.allRelayEvents s es) = (c.allShown s es).reduceOption ∧
      Relay.sends (c.allRelayEvents s es) = sent (trace c.step s es) := by
  induction es generalizing s r with
  | nil => exact ⟨h, .nil, rfl, rfl⟩
  | cons e es ih =>
    obtain ⟨he, hrest⟩ := hes
    have hmatched := sim_step h hrx he
    obtain ⟨hsim, hshows, hread, hsent⟩ := ih hmatched.sim hrest
    refine ⟨?_, ?_, ?_, ?_⟩
    · rw [finalState_cons, allRelayEvents, finalState_append]
      exact hsim
    · rw [trace_cons, written_append]
      exact List.rel_append hmatched.shows hshows
    · rw [allRelayEvents, trace_append, hmatched.read, hread, allShown, List.reduceOption_append]
    · rw [allRelayEvents, Relay.sends, List.filterMap_append, ← Relay.sends, ← Relay.sends,
        hmatched.sent, hsent, trace_cons, sent_append]

end

end Bridge

/-- **Frames arrive in order.** Whatever the network loses and however the passes of the two nodes
fall, on any clock and with any open of the devices failing: every frame written to the TX port is
blank or shows a frame that the other node has sent for its RX port, and these come in the order of
sending, each at most once. -/
theorem bridge_inOrder {c : Bridge} (hready : c.Ready) {es : List BridgeEvent}
    (hes : Along c.step c.Elsewhere c.start es) :
    ∃ shown, List.Forall₂ Bridge.Shows (Bridge.written (trace c.step c.start es)) shown ∧
      shown.reduceOption.Sublist (Bridge.sent (trace c.step c.start es)) := by
  obtain ⟨-, hshows, hread, hsent⟩ := Bridge.sim_run (Bridge.sim_start hready) hready.rx hes
  refine ⟨_, hshows, ?_⟩
  rw [← hread, ← hsent]
  exact Relay.trace_sublist Relay.State.initial _

/-! ## Nothing lost and nothing on the way -/

section

variable {cfg : NodeConfig} {i : Port} {n : Node} {p : Pass} {ps : List Pass}

/-- A packet that is applied to a settled port is what the port holds after the pass. -/
theorem out_of_applies (htx : (cfg.ports i).mode = dmxModeTx) (hone : n.sockets.OneOpen)
    (h : Settled i (p :: ps) (n.out i)) (happlies : AppliesTo cfg i n p) :
    ((mainPass cfg n p).1.out i).out
      = (finalState (step cfg) n.out (packetEvents n p) i).out := by
  rw [mainPass_port.1]
  rcases @polled_cases cfg i _ p hone with ⟨-, f, hpolled, hstamp⟩ | ⟨hnot, -⟩
  · have hfresh : f.lastUpdateMs > (n.out i).lastWrite := by
      rw [hstamp]
      exact h.older p List.mem_cons_self
    rw [hpolled, outputPort_fresh (p := { n.out i with out := f }) h.device htx hfresh]
  · exact absurd happlies hnot

/-- Without a packet a settled port keeps what it holds, or is blanked. -/
theorem out_of_not_applies (htx : (cfg.ports i).mode = dmxModeTx) (hone : n.sockets.OneOpen)
    (h : Settled i (p :: ps) (n.out i)) (hnot : ¬ AppliesTo cfg i n p) :
    ((mainPass cfg n p).1.out i).out
      = if timedOut cfg (nowMs p.outMs) (n.out i).out = true then
          { (n.out i).out with data := blankFrame, lastUpdateMs := 0, priority := 0 }
        else (n.out i).out := by
  rw [mainPass_port.1]
  rcases @polled_cases cfg i _ p hone with ⟨happlies, -⟩ | ⟨-, hpolled⟩
  · exact absurd happlies hnot
  · rw [hpolled, outputPort_stale h.device htx h.sent]
    split_ifs <;> rfl

/-- Which datagram a pass receives changes nothing about the clock. -/
theorem Paced.receiving {q : Nat} (h : Paced i q (p :: ps)) (groups : List UInt32) (d : Datagram) :
    Paced i q (p.receiving groups d :: ps) where
  increasing := List.pairwise_cons.mpr (List.pairwise_cons.mp h.increasing)
  epoch := List.forall_mem_cons.mpr (List.forall_mem_cons.mp h.epoch)
  opens := List.forall_mem_cons.mpr (List.forall_mem_cons.mp h.opens)

/-- Which datagram a pass receives changes nothing about the port's state before it. -/
theorem Settled.receiving {st : PortState} (h : Settled i (p :: ps) st) (groups : List UInt32)
    (d : Datagram) : Settled i (p.receiving groups d :: ps) st where
  device := h.device
  sent := h.sent
  older := List.forall_mem_cons.mpr (List.forall_mem_cons.mp h.older)

end

namespace Bridge

/-- The passes of the sending daemon. -/
def senderPasses (es : List BridgeEvent) : List Pass :=
  es.filterMap fun
    | .send p => some p
    | _ => none

/-- The passes of the receiving daemon. -/
def receiverPasses (es : List BridgeEvent) : List Pass :=
  es.filterMap fun
    | .deliver p | .other p => some p
    | _ => none

/-- The receiving node is set up for the stream: its TX port is on the universe of the stream, which
is the one its socket has joined, and its device is open. -/
structure Joined (c : Bridge) : Prop extends c.Ready where
  init : c.sinkBoot.init.Succeed
  sinkDevice : 0 ≤ c.sinkBoot.opened c.tx
  mode : (c.sink.ports c.tx).mode = dmxModeTx
  same : (c.sink.ports c.tx).dmxUniverse = c.dmxUniverse
  first : (c.sink.ports 0).dmxUniverse = c.dmxUniverse

/-- Nothing is lost: not on the network, not by `sendto`, not by the opens of the receiver's device,
whose clock advances from pass to pass. -/
structure Lossless (c : Bridge) (q : Nat) (es : List BridgeEvent) : Prop where
  network : ∀ e ∈ es, ∀ k, e ≠ .lose k
  taken : ∀ p ∈ senderPasses es, 0 ≤ p.input.sents c.rx
  paced : Paced c.tx q (receiverPasses es)

/-- The last frame written shows `frame`, or the port has timed out and is blank. -/
def ShowsLast (ws : List Slots) (p : PortState) (frame : List UInt8) : Prop :=
  ∃ data, ws.getLast? = some data ∧
    (p.out.lastUpdateMs = 0 ∧ data = blankFrame ∨ Shows data (some frame))

/-- The receiving port is settled, open to the stream, and shows what has arrived last. -/
structure Current (c : Bridge) (ps : List Pass) (s : BridgeState)
    (r : Relay.State (List UInt8)) (ws : List Slots) : Prop where
  socket : 0 ≤ s.receiver.sockets.sacn
  settled : Settled c.tx ps (s.receiver.out c.tx)
  priority : (s.receiver.out c.tx).out.priority ≤ sacnDefaultPriority
  shows : ∀ frame, r.register = some frame → ShowsLast ws (s.receiver.out c.tx) frame

section

variable {c : Bridge} {s : BridgeState} {r : Relay.State (List UInt8)} {ws : List Slots}
  {ps : List Pass} {p : Pass} {q : Nat}

/-- The receiver is in the multicast group of the sink's universe. -/
theorem mem_groups (h : c.Joined) : sacnMulticastAddr c.dmxUniverse ∈ c.groups := by
  rw [groups, initSacn, if_pos h.protocol, sacnInit_of_succeed h.init, h.first]
  exact List.mem_singleton_self _

/-- A pass without a packet for the port. -/
theorem current_other (h : c.Joined) (hsim : Sim c s r) (hcurrent : Current c (p :: ps) s r ws)
    (hpaced : Paced c.tx q (p :: ps)) (hnot : ¬ AppliesTo c.sink c.tx s.receiver p) :
    Current c ps (c.receive s p).1 r (ws ++ written (c.receive s p).2) := by
  obtain ⟨hwrites, hsettled⟩ :=
    settled_mainPass h.mode hsim.sockets.oneOpen hpaced hcurrent.settled
  have hout := out_of_not_applies h.mode hsim.sockets.oneOpen hcurrent.settled hnot
  have hwritten : written (c.receive s p).2
      = if timedOut c.sink (nowMs p.outMs) (s.receiver.out c.tx).out = true then [blankFrame]
        else [] := by
    dsimp only [receive]
    rw [written_map_wrote, hwrites.writes, dueWrites, if_neg hnot]
  -- nothing is taken, so the frame stays or the hold time blanks it
  refine ⟨?_, hsettled, ?_, fun frame hframe => ?_⟩
  · dsimp only [receive]
    rw [mainPass_sockets]
    exact hcurrent.socket
  · dsimp only [receive]
    rw [hout]
    split_ifs
    · exact UInt8.zero_le
    · exact hcurrent.priority
  · rw [hwritten]
    unfold ShowsLast
    dsimp only [receive]
    rw [hout]
    split_ifs
    · exact ⟨blankFrame, List.getLast?_concat, Or.inl ⟨rfl, rfl⟩⟩
    · rw [List.append_nil]
      exact hcurrent.shows frame hframe

/-- The pass in which a packet of the stream arrives. -/
theorem current_deliver (h : c.Joined) (hsim : Sim c s r)
    (hcurrent : Current c (p :: ps) s r ws) (hpaced : Paced c.tx q (p :: ps)) {d : Datagram}
    (hd : IsPacketOf c.dmxUniverse d) (r' : Relay.State (List UInt8))
    (hr' : r'.register = some d.frame) :
    Current c ps (c.receive s (p.receiving c.groups d)).1 r'
      (ws ++ written (c.receive s (p.receiving c.groups d)).2) := by
  have hjoined : d.dest ∈ c.groups := by
    rw [hd.dest]
    exact mem_groups h
  obtain ⟨sequence, hcarries⟩ := hd.carries
  have hpriority : (p.parsed d).priority = sacnDefaultPriority := by
    rw [Pass.parsed, hd.priority]
  -- the priority is the default one and the frame's is no higher, so the packet is taken
  have happlied : (Event.sacn (p.parsed d) p.clk).appliedAt c.sink c.tx s.receiver.out
      = some (p.clk.store c.tx) := by
    rw [Event.appliedAt, if_pos]
    refine ⟨?_, ⟨?_, h.mode⟩, ?_⟩
    · rw [Pass.parsed, hcarries.startCode]
    · rw [h.same, Pass.parsed, hcarries.dmxUniverse]
    · refine decide_eq_true (Or.inl ?_)
      rw [hpriority]
      exact hcurrent.priority
  have happlies : AppliesTo c.sink c.tx s.receiver (p.receiving c.groups d) := by
    refine ⟨.sacn (p.parsed d) p.clk, ?_, by rw [happlied]; rfl⟩
    rw [receiving_events hd hsim.sockets, if_pos ⟨hcurrent.socket, hjoined⟩]
    exact List.mem_singleton_self _
  have hpolled := polled_receiving hd hsim.sockets happlies
  obtain ⟨hwrites, hsettled⟩ := settled_mainPass h.mode hsim.sockets.oneOpen
    (hpaced.receiving c.groups d) (hcurrent.settled.receiving c.groups d)
  have hout := out_of_applies h.mode hsim.sockets.oneOpen
    (hcurrent.settled.receiving c.groups d) happlies
  rw [hpolled] at hout
  have hwritten : written (c.receive s (p.receiving c.groups d)).2
      = [(sacnStore (p.parsed d) p.clk c.tx (s.receiver.out c.tx).out).data] := by
    dsimp only [receive]
    rw [written_map_wrote, hwrites.writes, dueWrites, if_pos happlies, hpolled]
  refine ⟨?_, hsettled, ?_, fun frame hframe => ?_⟩
  · dsimp only [receive]
    rw [mainPass_sockets]
    exact hcurrent.socket
  · dsimp only [receive]
    rw [hout]
    dsimp only [sacnStore]
    rw [hpriority]
    exact UInt8.le_refl sacnDefaultPriority
  · rw [hr', Option.some_inj] at hframe
    rw [hwritten, ← hframe]
    exact ⟨_, List.getLast?_concat, Or.inr (take_sacnStore hd p.clk _)⟩

/-- Reading leaves the register as it is. -/
theorem register_reads (frames : List (List UInt8)) (r : Relay.State (List UInt8)) :
    (finalState Relay.step r (frames.map fun _ => .read)).register = r.register := by
  induction frames generalizing r with
  | nil => rfl
  | cons frame frames ih => exact ih (Relay.step r .read).1

/-- The register holds what has just arrived. -/
theorem register_deliver (hsim : Sim c s r) {d : Datagram} {inFlight : List Datagram}
    (hflight : s.inFlight = d :: inFlight) :
    (finalState Relay.step r (c.relayEvents s (.deliver p))).register = some d.frame := by
  rw [relayEvents, if_neg (by rw [hflight]; exact List.cons_ne_nil d inFlight), finalState_cons,
    register_reads, relay_deliver hsim hflight]

/-- **The port stays current.** -/
theorem current_run (h : c.Joined) (hsim : Sim c s r) {es : List BridgeEvent}
    (hes : Along c.step c.Elsewhere s es) (hpaced : Paced c.tx q (receiverPasses es))
    (hnetwork : ∀ e ∈ es, ∀ k, e ≠ .lose k) (hcurrent : Current c (receiverPasses es) s r ws) :
    Current c [] (finalState c.step s es) (finalState Relay.step r (c.allRelayEvents s es))
      (ws ++ written (trace c.step s es)) := by
  induction es generalizing s r ws with
  | nil =>
    rw [trace_nil, written, List.filterMap_nil, List.append_nil]
    exact hcurrent
  | cons e es ih =>
    obtain ⟨he, hrest⟩ := hes
    have hmatched := sim_step hsim h.rx he
    have hnext := fun hcurrent' hpaced' => @ih _ _ (ws ++ written (c.step s e).2) hmatched.sim
      hrest hpaced' (fun e' he' => hnetwork e' (List.mem_cons_of_mem e he')) hcurrent'
    rw [finalState_cons, allRelayEvents, finalState_append, trace_cons, written_append,
      ← List.append_assoc]
    cases e with
    -- the sender's cycle leaves the receiver as it is
    | send p =>
      refine hnext ?_ hpaced
      have hkept := (finalState_map_send ((c.sentBy s p).map Datagram.frame) r).1
      rw [List.map_map] at hkept
      dsimp only [step, relayEvents]
      rw [written_map_sent, List.append_nil, Function.comp_def] at *
      exact ⟨hcurrent.socket, hcurrent.settled, hcurrent.priority, by
        rw [hkept]
        exact hcurrent.shows⟩
    | lose k => exact absurd rfl (hnetwork (.lose k) List.mem_cons_self k)
    -- a pass of the receiver takes one from the paced run
    | other p =>
      refine hnext ?_ hpaced.of_cons
      exact current_other h hsim hcurrent hpaced (not_appliesTo_of_elsewhere he)
    | deliver p =>
      refine hnext ?_ hpaced.of_cons
      cases hflight : s.inFlight with
      | nil =>
        have hevents : c.relayEvents s (.deliver p) = [] := if_pos hflight
        rw [step_deliver_nil hflight, hevents, written, List.filterMap_nil, List.append_nil]
        exact ⟨hcurrent.socket, hcurrent.settled.of_cons, hcurrent.priority, hcurrent.shows⟩
      | cons d inFlight =>
        have hd : IsPacketOf c.dmxUniverse d := hsim.inFlight d (hflight ▸ List.mem_cons_self)
        rw [step_deliver_cons hflight]
        exact current_deliver h (hsim.arrived hflight r.register r.unread)
          ⟨hcurrent.socket, hcurrent.settled, hcurrent.priority, hcurrent.shows⟩ hpaced hd _
          (register_deliver hsim hflight)

/-- At the start nothing was sent, and nothing is owed to the sink. -/
theorem current_start (h : c.Joined) {ps : List Pass} (hpaced : Paced c.tx q ps) :
    Current c ps c.start Relay.State.initial [] where
  socket := by
    show 0 ≤ (initSacn c.sink c.sinkBoot.init).1
    rw [initSacn, if_pos h.protocol, sacnInit_of_succeed h.init]
    exact h.init.1
  settled := settled_mainStart h.mode h.sinkDevice hpaced
  priority := UInt8.zero_le
  shows := fun _ hframe => nomatch hframe

/-- Where the network loses nothing, the relay's run loses nothing either. -/
theorem lossless_allRelayEvents {es : List BridgeEvent} (h : ∀ e ∈ es, ∀ k, e ≠ .lose k)
    (s : BridgeState) : Relay.Lossless (c.allRelayEvents s es) := by
  induction es generalizing s with
  | nil => exact fun _ he => nomatch he
  | cons e es ih =>
    intro e' he' k
    rcases List.mem_append.mp he' with he' | he'
    -- only a loss on the network is a loss of the relay
    · cases e with
      | send p =>
        obtain ⟨d, -, rfl⟩ := List.mem_map.mp he'
        exact nofun
      | lose k' => exact absurd rfl (h (.lose k') List.mem_cons_self k')
      | other p => cases he'
      | deliver p =>
        unfold relayEvents at he'
        split_ifs at he'
        · cases he'
        · rcases List.mem_cons.mp he' with rfl | he'
          · exact nofun
          · obtain ⟨frame, -, rfl⟩ := List.mem_map.mp he'
            exact nofun
    · exact ih (fun e' he' => h e' (List.mem_cons_of_mem e he')) _ e' he' k

/-- What is sent in a run is what the sending daemon streams. -/
theorem sent_trace (s : BridgeState) (es : List BridgeEvent) :
    sent (trace c.step s es)
      = ((streamOf c.rx (trace (mainPass c.source) s.sender (senderPasses es))).filter
          fun d => 0 ≤ d.sent).map Datagram.frame := by
  induction es generalizing s with
  | nil => rfl
  | cons e es ih =>
    rw [trace_cons, sent_append, ih]
    -- only the sender's passes put datagrams on the network
    cases e with
    | send p =>
      have hpasses : senderPasses (.send p :: es) = p :: senderPasses es := rfl
      rw [hpasses, trace_cons, streamOf_append, List.filter_append, List.map_append]
      dsimp only [step]
      rw [sent_map_sent]
      rfl
    | lose k => rfl
    | other p =>
      dsimp only [step, receive]
      rw [sent_map_wrote, List.nil_append]
      rfl
    | deliver p =>
      have hpasses : senderPasses (.deliver p :: es) = senderPasses es := rfl
      rw [hpasses]
      cases hflight : s.inFlight with
      | nil =>
        rw [step_deliver_nil hflight]
        rfl
      | cons d inFlight =>
        rw [step_deliver_cons hflight]
        dsimp only [receive]
        rw [sent_map_wrote, List.nil_append]

/-- When every packet is taken, the last frame sent is the last one read. -/
theorem getLast?_sent (h : c.Ready) {es : List BridgeEvent}
    (htaken : ∀ p ∈ senderPasses es, 0 ≤ p.input.sents c.rx) :
    (sent (trace c.step c.start es)).getLast?
      = (framesRead c.rx ((senderPasses es).map Pass.input)).getLast? := by
  have hstream := (mainPasses_input (n := c.start.sender) h.rx rfl rfl (senderPasses es)).2
  rw [sent_trace, hstream, List.getLast?_map]
  refine lastSent_eq_of_sent (streamed_run h.rx h.device h.socket) ?_
  intro before e bytes hpre _ _
  obtain ⟨p, hp, rfl⟩ := List.mem_map.mp
    (hpre.subset (List.mem_append_right before (List.mem_singleton_self e)))
  exact htaken p hp

end

end Bridge

namespace Bridge

/-- A pass gives at most one packet of the stream to `sendto`. -/
theorem length_sentBy {c : Bridge} {s : BridgeState} {r : Relay.State (List UInt8)}
    (hsim : Sim c s r) (hrx : (c.source.ports c.rx).mode = dmxModeRx) (p : Pass) :
    (c.sentBy s p).length ≤ 1 := by
  obtain ⟨-, hstream, -⟩ := mainPass_rx hrx hsim.device p
  refine (List.length_filter_le _ _).trans ?_
  rw [hstream]
  rcases (@inputPort_spec c.source p.input.t (p.input.sents c.rx) c.rx _ hsim.feeds.streaming
    (p.input.reads c.rx)).2 with hquiet | ⟨d, hattempt⟩
  · rw [hquiet.unchanged]
    exact Nat.zero_le 1
  · rw [hattempt.datagram, List.length_singleton]

end Bridge

/-- **The console's levels arrive.** When nothing is lost and nothing is on the way, the last frame
written to the TX port shows the last frame read from the other node's RX port, or the port has
timed out and is blank, however the passes of the two nodes fall. -/
theorem bridge_coherent {c : Bridge} {q : Nat} {es : List BridgeEvent} (h : c.Joined)
    (hes : Along c.step c.Elsewhere c.start es) (hlossless : c.Lossless q es)
    (harrived : (finalState c.step c.start es).inFlight = []) {frame : List UInt8}
    (hread : (framesRead c.rx ((Bridge.senderPasses es).map Pass.input)).getLast? = some frame) :
    Bridge.ShowsLast (Bridge.written (trace c.step c.start es))
      ((finalState c.step c.start es).receiver.out c.tx) frame := by
  have hstart := Bridge.sim_start h.toReady
  obtain ⟨hsim, -, -, hsent⟩ := Bridge.sim_run hstart h.rx hes
  have hcurrent := Bridge.current_run h hstart hes hlossless.paced hlossless.network
    (Bridge.current_start h hlossless.paced)
  refine hcurrent.shows frame ?_
  have hqueue : (finalState Relay.step Relay.State.initial
      (c.allRelayEvents c.start es)).queue = [] := by
    rw [hsim.queue, harrived]
    rfl
  rw [Relay.register_of_lossless (Bridge.lossless_allRelayEvents hlossless.network c.start) hqueue,
    hsent, Bridge.getLast?_sent h.toReady hlossless.taken, hread]

/-- A node whose port 0 is read, and one whose port 0 is written, on the same universe. -/
def oneUniverse : Bridge where
  source := rxConfig
  sourceBoot := bootOk
  rx := 0
  sink := configDefaults
  sinkBoot := bootOk
  tx := 0

/-- The two example nodes share universe 1 over a group that the receiver has joined. -/
theorem oneUniverse_joined : oneUniverse.Joined where
  rx := rfl
  device := by decide
  socket := by decide
  protocol := rfl
  init := by decide
  sinkDevice := by decide
  mode := rfl
  same := rfl
  first := rfl

/-- One frame is read, sent and received. -/
def oneFrameRun : List BridgeEvent :=
  [.send { passAt 1000 .error with input := rxCycle 1000 (rxFrame 10) 127 },
    .deliver (passAt 1010 .error)]

/-- `bridge_inOrder` on the run that carries one frame across. -/
theorem oneFrameRun_inOrder :
    ∃ shown, List.Forall₂ Bridge.Shows
        (Bridge.written (trace oneUniverse.step oneUniverse.start oneFrameRun)) shown ∧
      shown.reduceOption.Sublist
        (Bridge.sent (trace oneUniverse.step oneUniverse.start oneFrameRun)) :=
  bridge_inOrder oneUniverse_joined.toReady ⟨trivial, trivial, trivial⟩

/-- At the end of that run nothing is in flight. -/
theorem oneFrameRun_arrived :
    (finalState oneUniverse.step oneUniverse.start oneFrameRun).inFlight = [] := by
  set p : Pass := { passAt 1000 .error with input := rxCycle 1000 (rxFrame 10) 127 } with hp
  have hlength := Bridge.length_sentBy (Bridge.sim_start oneUniverse_joined.toReady) rfl p
  have hsent : (oneUniverse.step oneUniverse.start (.send p)).1.inFlight
      = oneUniverse.sentBy oneUniverse.start p := List.nil_append _
  rw [← hsent] at hlength
  rw [oneFrameRun, ← hp, finalState_cons, finalState_cons, finalState_nil]
  -- the one packet there may be is delivered
  rcases hflight : (oneUniverse.step oneUniverse.start (.send p)).1.inFlight with
    _ | ⟨d, _ | ⟨d', inFlight⟩⟩
  · simp only [Bridge.step] at hflight ⊢
    rw [hflight]
  · simp only [Bridge.step] at hflight ⊢
    rw [hflight]
    rfl
  · rw [hflight] at hlength
    simp at hlength

/-- `bridge_coherent` on the same run: the sink shows the one level sent. -/
theorem oneFrameRun_coherent :
    Bridge.ShowsLast (Bridge.written (trace oneUniverse.step oneUniverse.start oneFrameRun))
      ((finalState oneUniverse.step oneUniverse.start oneFrameRun).receiver.out 0) [10] := by
  have hes : Along oneUniverse.step oneUniverse.Elsewhere oneUniverse.start oneFrameRun :=
    ⟨trivial, trivial, trivial⟩
  refine bridge_coherent (q := 0) oneUniverse_joined hes ⟨?_, ?_, ?_⟩ oneFrameRun_arrived rfl
  · intro e he k
    rcases List.mem_pair.mp he with rfl | rfl
    · exact nofun
    · exact nofun
  · intro p hp
    rw [List.mem_singleton.mp hp]
    show (0 : Int) ≤ 127
    decide
  · refine ⟨List.pairwise_singleton _ _, fun p hp => ?_, fun p hp => ?_⟩
    · rw [List.mem_singleton.mp hp]
      show 0 * 2 ^ 32 < 1010 ∧ 1010 < (0 + 1) * 2 ^ 32
      decide
    · rw [List.mem_singleton.mp hp]
      exact openedOk_succeed 0

end SN110
