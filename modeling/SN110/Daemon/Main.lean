import SN110.Daemon.Input
import SN110.Daemon.Freshness
import SN110.Daemon.Isolation
import SN110.Daemon.Multicast
import SN110.Daemon.Receivers
import SN110.Artnet.Receive
import SN110.Shownet.Receive

/-!
# The daemon (`main`)

One pass of `main`'s loop polls the socket of the active protocol, hands a packet to its handler,
and after `usleep` runs `dmx_output_cycle` and `dmx_input_cycle`. A run of the daemon is a list of
passes from `mainStart`. The debug dump only reads the state and is left out.

* `main_refines`: the daemon is the event loop of `Daemon/Loop` and the input cycles of
  `Daemon/Input`, side by side on the same descriptors.
* `main_writes`: what each pass writes. A packet that is applied to a port is written to the
  port's device by the end of its pass.
-/

namespace SN110

open Run

/-! ## Start-up -/

/-- `artnet_init`, on what the kernel answers. -/
def artnetInit (k : InitAnswers) : Int :=
  if k.socket < 0 then -1
  else if k.bind < 0 then -1
  else k.socket

/-- `shownet_init`, which makes the same calls for its own port. -/
def shownetInit (k : InitAnswers) : Int :=
  if k.socket < 0 then -1
  else if k.bind < 0 then -1
  else k.socket

/-- `sacn_sock`, `artnet_sock` and `shownet_sock`. -/
structure Sockets where
  sacn : Int
  artnet : Int
  shownet : Int

/-- The socket of the active protocol is opened, and no other. -/
def initSockets (cfg : NodeConfig) (k : InitAnswers) : Sockets where
  sacn := (initSacn cfg k).1
  artnet := if cfg.activeProtocol = protoArtnet then artnetInit k else -1
  shownet := if cfg.activeProtocol = protoShownet then shownetInit k else -1

/-- What the kernel answers before the loop: to the protocol's socket, to opening the port devices
and to the sockets of the transmitters. -/
structure Boot where
  init : InitAnswers
  opened : Port → Int
  txSockets : Port → Int

/-- What `main` keeps from one pass to the next. `dmx_fds` is in `out`. -/
structure Node where
  sockets : Sockets
  stats : RecvStats
  out : DaemonState
  input : InputState

/-- The state in which `main` enters its loop. -/
def mainStart (cfg : NodeConfig) (b : Boot) : Node where
  sockets := initSockets cfg b.init
  stats := RecvStats.zero
  out := initialState cfg b.opened
  input := inputStart cfg b.opened b.txSockets

/-! ## One pass -/

/-- What one pass gets from outside: what `recv` returns on each socket, what the packets on the
stack hold before, the clock readings of the handler that is called, the reading and the opens of
the output cycle, and the input cycle. -/
structure Pass where
  sacn : Received sacnMaxPacketLen
  sacnPkt : SacnPacket
  artnet : Received artnetBufLen
  artnetFrom : SockAddrIn
  artnetPkt : ArtnetDmxPacket
  shownet : Received shownetBufLen
  shownetPkt : ShownetFields
  clk : HandlerClock
  outMs : Nat
  opens : Port → Opens
  input : InputCycle

/-- What the daemon does to the outside. -/
inductive Effect where
  | dmx (c : Syscall)
  | reply (s : Sent)
  | stream (d : Datagram)

/-- The call on a DMX device, if it is one. -/
def Effect.dmx? : Effect → Option Syscall
  | .dmx c => some c
  | _ => none

/-- The datagram of a transmitter, if it is one. -/
def Effect.stream? : Effect → Option Datagram
  | .stream d => some d
  | _ => none

/-- `shownet_receive` has bounded the length of a packet that it delivers. -/
def ShownetFields.packet (pkt : ShownetFields) (h : pkt.dmxLength.toNat ≤ dmxUniverseSize) :
    ShownetPacket where
  netSlot := pkt.netSlot
  dmxData := pkt.dmxData
  dmxLength := pkt.dmxLength
  dmxLength_le := h

/-- The Art-Net part of the pass, and the reply it sends. -/
def pollArtnet (cfg : NodeConfig) (sock : Int) (p : Pass) (st : DaemonState) :
    DaemonState × List Sent :=
  if sock ≥ 0 then
    let res := artnetReceive p.artnet p.artnetFrom p.artnetPkt
    (if res.1 = 0 then handleArtnetPacket cfg res.2.1 p.clk st else st, res.2.2.toList)
  else (st, [])

/-- The ShowNet part of the pass. -/
def pollShownet (cfg : NodeConfig) (sock : Int) (p : Pass) (st : DaemonState) : DaemonState :=
  if sock ≥ 0 then
    if h : (shownetReceive p.shownet p.shownetPkt).1 = 0 then
      handleShownetPacket cfg
        ((shownetReceive p.shownet p.shownetPkt).2.packet (shownetReceive_dmxLength h)) p.clk st
    else st
  else st

/-- The input cycle uses the descriptors that the output cycle has left. -/
def shareFds (out : DaemonState) (input : InputState) : InputState := fun i =>
  { input i with fd := (out i).fd }

/-- One pass of `main`'s loop. -/
def mainPass (cfg : NodeConfig) (n : Node) (p : Pass) : Node × List Effect :=
  let polledSacn := pollSacn cfg n.sockets.sacn p.sacn n.stats p.sacnPkt p.clk n.out
  let stats := if n.sockets.sacn ≥ 0 then (sacnReceive p.sacn n.stats p.sacnPkt).2.2 else n.stats
  let polledArtnet := pollArtnet cfg n.sockets.artnet p polledSacn
  let polled := pollShownet cfg n.sockets.shownet p polledArtnet.1
  let output := dmxOutputCycle cfg p.outMs p.opens polled
  let input := dmxInputCycle cfg (shareFds output.1 n.input) p.input
  ({ sockets := n.sockets, stats := stats, out := output.1, input := input.1 },
    polledArtnet.2.map .reply ++ output.2.map .dmx ++ input.2.map .stream)

/-! ## The events of a pass -/

/-- The packet that the pass hands to `handle_sacn_packet`. -/
def sacnEvents (n : Node) (p : Pass) : List Event :=
  if n.sockets.sacn ≥ 0 ∧ (sacnReceive p.sacn n.stats p.sacnPkt).1 = 0 then
    [.sacn (sacnReceive p.sacn n.stats p.sacnPkt).2.1 p.clk]
  else []

/-- The packet that the pass hands to `handle_artnet_packet`. -/
def artnetEvents (n : Node) (p : Pass) : List Event :=
  if n.sockets.artnet ≥ 0 ∧ (artnetReceive p.artnet p.artnetFrom p.artnetPkt).1 = 0 then
    [.artnet (artnetReceive p.artnet p.artnetFrom p.artnetPkt).2.1 p.clk]
  else []

/-- The packet that the pass hands to `handle_shownet_packet`. -/
def shownetEvents (n : Node) (p : Pass) : List Event :=
  if h : n.sockets.shownet ≥ 0 ∧ (shownetReceive p.shownet p.shownetPkt).1 = 0 then
    [.shownet ((shownetReceive p.shownet p.shownetPkt).2.packet (shownetReceive_dmxLength h.2))
      p.clk]
  else []

/-- The packets of a pass. -/
def packetEvents (n : Node) (p : Pass) : List Event :=
  sacnEvents n p ++ artnetEvents n p ++ shownetEvents n p

/-- The events of a pass: its packets and its output cycle. -/
def passEvents (n : Node) (p : Pass) : List Event :=
  packetEvents n p ++ [.outputCycle p.outMs p.opens]

/-- The events of a run. -/
def mainEvents (cfg : NodeConfig) (n : Node) : List Pass → List Event
  | [] => []
  | p :: ps => passEvents n p ++ mainEvents cfg (mainPass cfg n p).1 ps

section

variable {cfg : NodeConfig} {n : Node} {p : Pass}

/-- The sACN events of a pass are its `pollSacn`. -/
theorem finalState_sacnEvents :
    finalState (step cfg) n.out (sacnEvents n p)
      = pollSacn cfg n.sockets.sacn p.sacn n.stats p.sacnPkt p.clk n.out := by
  unfold sacnEvents pollSacn
  -- the socket is open or not, and the datagram is a packet or not
  by_cases hsock : n.sockets.sacn ≥ 0
  · by_cases hret : (sacnReceive p.sacn n.stats p.sacnPkt).1 = 0
    · rw [if_pos ⟨hsock, hret⟩, if_pos hsock]
      dsimp only
      rw [if_pos hret]
      rfl
    · rw [if_neg fun h => hret h.2, if_pos hsock]
      dsimp only
      rw [if_neg hret]
      rfl
  · rw [if_neg fun h => hsock h.1, if_neg hsock]
    rfl

/-- The Art-Net events of a pass are its `pollArtnet`. -/
theorem finalState_artnetEvents (st : DaemonState) :
    finalState (step cfg) st (artnetEvents n p)
      = (pollArtnet cfg n.sockets.artnet p st).1 := by
  unfold artnetEvents pollArtnet
  by_cases hsock : n.sockets.artnet ≥ 0
  · by_cases hret : (artnetReceive p.artnet p.artnetFrom p.artnetPkt).1 = 0
    · rw [if_pos ⟨hsock, hret⟩, if_pos hsock]
      dsimp only
      rw [if_pos hret]
      rfl
    · rw [if_neg fun h => hret h.2, if_pos hsock]
      dsimp only
      rw [if_neg hret]
      rfl
  · rw [if_neg fun h => hsock h.1, if_neg hsock]
    rfl

/-- The ShowNet events of a pass are its `pollShownet`. -/
theorem finalState_shownetEvents (st : DaemonState) :
    finalState (step cfg) st (shownetEvents n p) = pollShownet cfg n.sockets.shownet p st := by
  unfold shownetEvents pollShownet
  by_cases hsock : n.sockets.shownet ≥ 0
  · by_cases hret : (shownetReceive p.shownet p.shownetPkt).1 = 0
    · rw [dif_pos ⟨hsock, hret⟩, if_pos hsock, dif_pos hret]
      rfl
    · rw [dif_neg fun h => hret h.2, if_pos hsock, dif_neg hret]
      rfl
  · rw [dif_neg fun h => hsock h.1, if_neg hsock]
    rfl

/-- A packet of a pass comes through an open socket and is stamped with the pass's readings. -/
theorem packetEvents_cases {e : Event} (he : e ∈ packetEvents n p) :
    (n.sockets.sacn ≥ 0 ∧ ∃ pkt, e = .sacn pkt p.clk) ∨
      (n.sockets.artnet ≥ 0 ∧ ∃ pkt, e = .artnet pkt p.clk) ∨
      (n.sockets.shownet ≥ 0 ∧ ∃ pkt, e = .shownet pkt p.clk) := by
  unfold packetEvents sacnEvents artnetEvents shownetEvents at he
  simp only [List.mem_append] at he
  -- one socket after the other
  rcases he with (he | he) | he
  · split_ifs at he with h
    · exact Or.inl ⟨h.1, _, List.mem_singleton.mp he⟩
    · cases he
  · split_ifs at he with h
    · exact Or.inr (Or.inl ⟨h.1, _, List.mem_singleton.mp he⟩)
    · cases he
  · split_ifs at he with h
    · exact Or.inr (Or.inr ⟨h.1, _, List.mem_singleton.mp he⟩)
    · cases he

/-- The events of a pass's sockets are packets, no output cycle. -/
theorem isCycle_of_mem_packetEvents {e : Event} (h : e ∈ packetEvents n p) :
    e.isCycle = false := by
  rcases packetEvents_cases h with ⟨-, pkt, rfl⟩ | ⟨-, pkt, rfl⟩ | ⟨-, pkt, rfl⟩ <;> rfl

/-- Packets write nothing: only the output cycle does. -/
theorem trace_packetEvents (st : DaemonState) : trace (step cfg) st (packetEvents n p) = [] := by
  have hsilent : ∀ es : List Event, (∀ e ∈ es, e.isCycle = false) → ∀ st,
      trace (step cfg) st es = [] := by
    intro es
    induction es with
    | nil => exact fun _ _ => rfl
    | cons e es ih =>
      intro h st
      rw [List.forall_mem_cons] at h
      rw [trace_cons, step_silent h.1, ih h.2, List.append_nil]
  exact hsilent _ (fun _ => isCycle_of_mem_packetEvents) st

/-- Of what a pass does, the output cycle's calls are the DMX. -/
theorem filterMap_dmx (replies : List Sent) (calls : List Syscall) (sent : List Datagram) :
    (replies.map Effect.reply ++ calls.map Effect.dmx ++ sent.map Effect.stream).filterMap
        Effect.dmx?
      = calls := by
  have hreplies : replies.filterMap (Effect.dmx? ∘ .reply) = [] :=
    List.filterMap_eq_nil_iff.mpr fun _ _ => rfl
  have hsent : sent.filterMap (Effect.dmx? ∘ .stream) = [] :=
    List.filterMap_eq_nil_iff.mpr fun _ _ => rfl
  have hcalls : calls.filterMap (Effect.dmx? ∘ .dmx) = calls := List.filterMap_some
  simp only [List.filterMap_append, List.filterMap_map, hreplies, hsent, hcalls, List.nil_append,
    List.append_nil]

/-- And the input cycle's datagrams are the stream. -/
theorem filterMap_stream (replies : List Sent) (calls : List Syscall) (sent : List Datagram) :
    (replies.map Effect.reply ++ calls.map Effect.dmx ++ sent.map Effect.stream).filterMap
        Effect.stream?
      = sent := by
  have hreplies : replies.filterMap (Effect.stream? ∘ .reply) = [] :=
    List.filterMap_eq_nil_iff.mpr fun _ _ => rfl
  have hcalls : calls.filterMap (Effect.stream? ∘ .dmx) = [] :=
    List.filterMap_eq_nil_iff.mpr fun _ _ => rfl
  have hsent : sent.filterMap (Effect.stream? ∘ .stream) = sent := List.filterMap_some
  simp only [List.filterMap_append, List.filterMap_map, hreplies, hsent, hcalls, List.nil_append]

/-- **The output half of a pass** is the run of its events. -/
theorem mainPass_out :
    (mainPass cfg n p).1.out = finalState (step cfg) n.out (passEvents n p) ∧
      (mainPass cfg n p).2.filterMap Effect.dmx? = trace (step cfg) n.out (passEvents n p) := by
  have hpolled : finalState (step cfg) n.out (packetEvents n p)
      = pollShownet cfg n.sockets.shownet p (pollArtnet cfg n.sockets.artnet p
          (pollSacn cfg n.sockets.sacn p.sacn n.stats p.sacnPkt p.clk n.out)).1 := by
    rw [packetEvents, finalState_append, finalState_append, finalState_sacnEvents,
      finalState_artnetEvents, finalState_shownetEvents]
  rw [passEvents, finalState_append, trace_append, trace_packetEvents, List.nil_append, hpolled]
  refine ⟨rfl, ?_⟩
  unfold mainPass
  dsimp only
  rw [filterMap_dmx, trace_cons, trace_nil, List.append_nil]
  rfl

end

/-! ## The output half of a run -/

/-- The output half of a run is the run of its events. -/
theorem mainPasses_out (cfg : NodeConfig) (n : Node) (ps : List Pass) :
    (finalState (mainPass cfg) n ps).out = finalState (step cfg) n.out (mainEvents cfg n ps) ∧
      (trace (mainPass cfg) n ps).filterMap Effect.dmx?
        = trace (step cfg) n.out (mainEvents cfg n ps) := by
  induction ps generalizing n with
  | nil => exact ⟨rfl, rfl⟩
  | cons p ps ih =>
    obtain ⟨hout, hcalls⟩ := @mainPass_out cfg n p
    obtain ⟨hrest, hrestCalls⟩ := ih (mainPass cfg n p).1
    rw [hout] at hrest hrestCalls
    rw [finalState_cons, trace_cons, List.filterMap_append, mainEvents, finalState_append,
      trace_append, hrest, hrestCalls, hcalls]
    exact ⟨rfl, rfl⟩

/-- At most one of the three sockets is open. -/
structure Sockets.OneOpen (s : Sockets) : Prop where
  sacn_artnet : s.sacn < 0 ∨ s.artnet < 0
  sacn_shownet : s.sacn < 0 ∨ s.shownet < 0
  artnet_shownet : s.artnet < 0 ∨ s.shownet < 0

/-- A node of another protocol opens no sACN socket. -/
theorem initSockets_sacn {cfg : NodeConfig} (h : cfg.activeProtocol ≠ protoSacn)
    (k : InitAnswers) : (initSockets cfg k).sacn < 0 := by
  dsimp only [initSockets, initSacn]
  rw [if_neg h]
  exact Int.negSucc_lt_zero 0

/-- A node of another protocol opens no Art-Net socket. -/
theorem initSockets_artnet {cfg : NodeConfig} (h : cfg.activeProtocol ≠ protoArtnet)
    (k : InitAnswers) : (initSockets cfg k).artnet < 0 := by
  dsimp only [initSockets]
  rw [if_neg h]
  exact Int.negSucc_lt_zero 0

/-- A node of another protocol opens no ShowNet socket. -/
theorem initSockets_shownet {cfg : NodeConfig} (h : cfg.activeProtocol ≠ protoShownet)
    (k : InitAnswers) : (initSockets cfg k).shownet < 0 := by
  dsimp only [initSockets]
  rw [if_neg h]
  exact Int.negSucc_lt_zero 0

/-- So `initSockets` opens one socket at most. -/
theorem initSockets_oneOpen (cfg : NodeConfig) (k : InitAnswers) :
    (initSockets cfg k).OneOpen := by
  by_cases hsacn : cfg.activeProtocol = protoSacn
  · have hartnet := @initSockets_artnet cfg (by rw [hsacn]; decide) k
    have hshownet := @initSockets_shownet cfg (by rw [hsacn]; decide) k
    exact ⟨Or.inr hartnet, Or.inr hshownet, Or.inl hartnet⟩
  have hsacnClosed := initSockets_sacn hsacn k
  by_cases hartnet : cfg.activeProtocol = protoArtnet
  · exact ⟨Or.inl hsacnClosed, Or.inl hsacnClosed,
      Or.inr (initSockets_shownet (by rw [hartnet]; decide) k)⟩
  · exact ⟨Or.inl hsacnClosed, Or.inl hsacnClosed, Or.inl (initSockets_artnet hartnet k)⟩

/-- A pass leaves the sockets alone. -/
@[simp] theorem mainPass_sockets (cfg : NodeConfig) (n : Node) (p : Pass) :
    (mainPass cfg n p).1.sockets = n.sockets := by
  dsimp only [mainPass]

/-- With one socket open at most, a pass hands on at most one packet. -/
theorem length_packetEvents {n : Node} (h : n.sockets.OneOpen) (p : Pass) :
    (packetEvents n p).length ≤ 1 := by
  have hsacn : n.sockets.sacn < 0 → sacnEvents n p = [] := fun hneg =>
    if_neg fun hopen => absurd hopen.1 (not_le.mpr hneg)
  have hartnet : n.sockets.artnet < 0 → artnetEvents n p = [] := fun hneg =>
    if_neg fun hopen => absurd hopen.1 (not_le.mpr hneg)
  have hshownet : n.sockets.shownet < 0 → shownetEvents n p = [] := fun hneg =>
    dif_neg fun hopen => absurd hopen.1 (not_le.mpr hneg)
  have hone : (sacnEvents n p).length ≤ 1 ∧ (artnetEvents n p).length ≤ 1 ∧
      (shownetEvents n p).length ≤ 1 := by
    unfold sacnEvents artnetEvents shownetEvents
    refine ⟨?_, ?_, ?_⟩
    all_goals split_ifs <;> simp
  obtain ⟨hsacnOne, hartnetOne, hshownetOne⟩ := hone
  -- two of the three protocols are silent
  unfold packetEvents
  rcases h.sacn_artnet with h1 | h1 <;> rcases h.sacn_shownet with h2 | h2 <;>
    rcases h.artnet_shownet with h3 | h3 <;> simp [*]

/-! ## The input half of a run -/

/-- The datagrams that a list of effects sends for a port. -/
def streamOf (i : Port) (es : List Effect) : List Datagram := ofPort i (es.filterMap Effect.stream?)

theorem streamOf_append (i : Port) (xs ys : List Effect) :
    streamOf i (xs ++ ys) = streamOf i xs ++ streamOf i ys := by
  unfold streamOf ofPort
  rw [List.filterMap_append, List.filter_append]

/-- What a pass streams for a port is what the loop's body of the input cycle streams. -/
theorem streamOf_mainPass (cfg : NodeConfig) (n : Node) (p : Pass) (i : Port) :
    streamOf i (mainPass cfg n p).2
      = (inputPort cfg p.input.t (p.input.reads i) (p.input.sents i) i
          (shareFds (mainPass cfg n p).1.out n.input i)).2 := by
  rw [← (dmxInputCycle_apply cfg (shareFds (mainPass cfg n p).1.out n.input) p.input i).2]
  unfold streamOf mainPass
  dsimp only
  rw [filterMap_stream]

/-- An input cycle streams nothing for a port that is not in RX mode. -/
theorem inputPort_not_rx {cfg : NodeConfig} {i : Port} (h : (cfg.ports i).mode ≠ dmxModeRx)
    (t : UInt32) (read : ReadFrame) (sent : Int) (p : InPort) :
    inputPort cfg t read sent i p = (p, []) := by
  unfold inputPort
  split_ifs <;> rfl

theorem sendFrame_fd (t : UInt32) (sent : Int) (i : Port) (dmxData : List UInt8) (n : Nat)
    (p : InPort) : (sendFrame t sent i dmxData n p).1.fd = p.fd := by
  dsimp only [sendFrame]

/-- An input cycle keeps the descriptors. -/
theorem inputPort_fd (cfg : NodeConfig) (t : UInt32) (read : ReadFrame) (sent : Int) (i : Port)
    (p : InPort) : (inputPort cfg t read sent i p).1.fd = p.fd := by
  -- no branch of the cycle touches the descriptor
  cases read with
  | nothing =>
    simp only [inputPort]
    split_ifs
    · rfl
    · rfl
    · rfl
    · rw [sendFrame_fd]
    · rfl
  | frame bytes hpos hle =>
    simp only [inputPort]
    split_ifs
    · rfl
    · rfl
    · rfl
    · rfl
    · rw [sendFrame_fd, storeFrame]

/-- The two halves of a pass agree on the descriptor of an RX port: no output cycle touches it. -/
theorem shareFds_rx {cfg : NodeConfig} {n : Node} {p : Pass} {i : Port}
    (hrx : (cfg.ports i).mode = dmxModeRx) (hfd : (n.out i).fd = (n.input i).fd) :
    shareFds (mainPass cfg n p).1.out n.input i = n.input i := by
  have htx : (cfg.ports i).mode ≠ dmxModeTx := by
    rw [hrx]
    decide
  have hout : (mainPass cfg n p).1.out i = n.out i := by
    rw [mainPass_out.1]
    exact (framesTo_not_tx htx n.out (passEvents n p)).1
  unfold shareFds
  rw [hout, hfd]

/-- A pass, at an RX port, is its input cycle. -/
theorem mainPass_rx {cfg : NodeConfig} {n : Node} {i : Port}
    (hrx : (cfg.ports i).mode = dmxModeRx) (hfd : (n.out i).fd = (n.input i).fd) (p : Pass) :
    (mainPass cfg n p).1.input i
        = (inputPort cfg p.input.t (p.input.reads i) (p.input.sents i) i (n.input i)).1 ∧
      streamOf i (mainPass cfg n p).2
        = (inputPort cfg p.input.t (p.input.reads i) (p.input.sents i) i (n.input i)).2 ∧
      ((mainPass cfg n p).1.out i).fd = ((mainPass cfg n p).1.input i).fd := by
  have hshare := @shareFds_rx cfg n p i hrx hfd
  have hinput : (mainPass cfg n p).1.input i
      = (inputPort cfg p.input.t (p.input.reads i) (p.input.sents i) i (n.input i)).1 := by
    rw [← hshare]
    exact (dmxInputCycle_apply cfg _ p.input i).1
  refine ⟨hinput, ?_, ?_⟩
  · rw [streamOf_mainPass, hshare]
  · rw [hinput, inputPort_fd]
    exact congrArg InPort.fd hshare

/-- **The input half of a run**, at an RX port: the run of its input cycles. -/
theorem mainPasses_input {cfg : NodeConfig} {n : Node} {i : Port} {st : InputState}
    (hrx : (cfg.ports i).mode = dmxModeRx) (hst : n.input i = st i)
    (hfd : (n.out i).fd = (n.input i).fd) (ps : List Pass) :
    (finalState (mainPass cfg) n ps).input i
        = finalState (dmxInputCycle cfg) st (ps.map Pass.input) i ∧
      streamOf i (trace (mainPass cfg) n ps)
        = ofPort i (trace (dmxInputCycle cfg) st (ps.map Pass.input)) := by
  induction ps generalizing n st with
  | nil => exact ⟨hst, rfl⟩
  | cons p ps ih =>
    obtain ⟨hinput, hstream, hnextFd⟩ := mainPass_rx hrx hfd p
    obtain ⟨hnext, hsent⟩ := dmxInputCycle_apply cfg st p.input i
    rw [hst] at hinput hstream
    obtain ⟨hfinal, hrest⟩ := ih (hinput.trans hnext.symm) hnextFd
    -- the passes and the input cycles go on in step
    refine ⟨hfinal, ?_⟩
    rw [trace_cons, streamOf_append, hrest, hstream, ← hsent, List.map_cons, trace_cons, ofPort,
      ofPort, ofPort, List.filter_append]

/-- A run streams nothing for a port that is not in RX mode. -/
theorem mainPasses_not_rx {cfg : NodeConfig} {i : Port} (h : (cfg.ports i).mode ≠ dmxModeRx)
    (n : Node) (ps : List Pass) : streamOf i (trace (mainPass cfg) n ps) = [] := by
  induction ps generalizing n with
  | nil => rfl
  | cons p ps ih =>
    rw [trace_cons, streamOf_append, ih, streamOf_mainPass, inputPort_not_rx h, List.append_nil]

/-- A port that is not RX sends nothing. -/
theorem inputCycles_not_rx {cfg : NodeConfig} {i : Port} (h : (cfg.ports i).mode ≠ dmxModeRx)
    (st : InputState) (es : List InputCycle) :
    ofPort i (trace (dmxInputCycle cfg) st es) = [] := by
  induction es generalizing st with
  | nil => rfl
  | cons e es ih =>
    have hnow := (dmxInputCycle_apply cfg st e i).2
    rw [inputPort_not_rx h] at hnow
    have hlater := ih (dmxInputCycle cfg st e).1
    unfold ofPort at hnow hlater ⊢
    rw [trace_cons, List.filter_append, hnow, hlater, List.append_nil]

/-! ## The whole daemon -/

/-- A pass of the run hands on at most one packet, before its output cycle. -/
def OnePacket (n : Node) (p : Pass) : Prop :=
  ∃ packets : List Event, passEvents n p = packets ++ [.outputCycle p.outMs p.opens] ∧
    packets.length ≤ 1 ∧ ∀ e ∈ packets, e.isCycle = false

/-- A run of the daemon is a run of the event loop and a run of the input cycles. -/
structure RunsLoops (cfg : NodeConfig) (b : Boot) (ps : List Pass) : Prop where
  out : (finalState (mainPass cfg) (mainStart cfg b) ps).out
    = finalState (step cfg) (initialState cfg b.opened) (mainEvents cfg (mainStart cfg b) ps)
  calls : (trace (mainPass cfg) (mainStart cfg b) ps).filterMap Effect.dmx?
    = trace (step cfg) (initialState cfg b.opened) (mainEvents cfg (mainStart cfg b) ps)
  polled : Along (mainPass cfg) OnePacket (mainStart cfg b) ps
  streamed : ∀ i, streamOf i (trace (mainPass cfg) (mainStart cfg b) ps)
    = ofPort i (trace (dmxInputCycle cfg) (inputStart cfg b.opened b.txSockets)
        (ps.map Pass.input))
  input : ∀ i, (cfg.ports i).mode = dmxModeRx →
    (finalState (mainPass cfg) (mainStart cfg b) ps).input i
      = finalState (dmxInputCycle cfg) (inputStart cfg b.opened b.txSockets)
          (ps.map Pass.input) i

/-- In every pass of a run at most one packet is taken. -/
theorem along_onePacket {cfg : NodeConfig} {n : Node} (h : n.sockets.OneOpen) (ps : List Pass) :
    Along (mainPass cfg) OnePacket n ps := by
  induction ps generalizing n with
  | nil => trivial
  | cons p ps ih =>
    refine ⟨⟨packetEvents n p, rfl, length_packetEvents h p,
      fun _ => isCycle_of_mem_packetEvents⟩, ih ?_⟩
    rwa [mainPass_sockets]

/-- **`main` refines its two loops.** Whatever arrives on the sockets and whatever the devices
return, the daemon writes to the DMX devices what the event loop writes on the packets it has
accepted, at most one a pass, and streams for every port what the input cycles alone stream,
although both loops share the descriptors. -/
theorem main_refines (cfg : NodeConfig) (b : Boot) (ps : List Pass) : RunsLoops cfg b ps := by
  obtain ⟨hout, hcalls⟩ := mainPasses_out cfg (mainStart cfg b) ps
  have hstart : ∀ i, ((mainStart cfg b).out i).fd = ((mainStart cfg b).input i).fd :=
    fun _ => rfl
  refine ⟨hout, hcalls, along_onePacket (initSockets_oneOpen cfg b.init) ps, fun i => ?_,
    fun i hrx => (mainPasses_input hrx rfl (hstart i) ps).1⟩
  by_cases hrx : (cfg.ports i).mode = dmxModeRx
  · exact (mainPasses_input hrx rfl (hstart i) ps).2
  · rw [mainPasses_not_rx hrx, inputCycles_not_rx hrx]

/-! ## What a pass writes -/

/-- The frames that a list of effects writes to a port. -/
def writesOf (i : Port) (es : List Effect) : List Slots :=
  (es.filterMap Effect.dmx?).filterMap (frameTo i)

/-- The pass has a packet that is applied to the port. -/
def AppliesTo (cfg : NodeConfig) (i : Port) (n : Node) (p : Pass) : Prop :=
  ∃ e ∈ packetEvents n p, (e.appliedAt cfg i n.out).isSome

instance (cfg : NodeConfig) (i : Port) (n : Node) (p : Pass) :
    Decidable (AppliesTo cfg i n p) := by
  unfold AppliesTo
  infer_instance

/-- What a pass has to write to a port: the levels after its packet, or a blank frame when the port
has timed out, or nothing. -/
def dueWrites (cfg : NodeConfig) (i : Port) (n : Node) (p : Pass) : List Slots :=
  if AppliesTo cfg i n p then
    [(finalState (step cfg) n.out (packetEvents n p) i).out.data]
  else if timedOut cfg (nowMs p.outMs) (n.out i).out = true then [blankFrame]
  else []

/-- A pass writes what it has to, and leaves nothing to be sent. -/
structure PassWrites (cfg : NodeConfig) (i : Port) (n : Node) (p : Pass) : Prop where
  writes : writesOf i (mainPass cfg n p).2 = dueWrites cfg i n p
  sent : ¬ ((mainPass cfg n p).1.out i).Pending

/-- The passes of a run stamp their packets one after the other, between two moments at which the
counter is 0, and the device of the port opens. -/
structure Paced (i : Port) (q : Nat) (ps : List Pass) : Prop where
  increasing : ps.Pairwise fun p p' => p.clk.store i < p'.clk.store i
  epoch : ∀ p ∈ ps, q * 2 ^ 32 < p.clk.store i ∧ p.clk.store i < (q + 1) * 2 ^ 32
  opens : ∀ p ∈ ps, (p.opens i).Succeed

/-- Nothing is left to be sent to an open port, and what was sent last is older than what the passes
`ps` will stamp. -/
structure Settled (i : Port) (ps : List Pass) (s : PortState) : Prop where
  device : 0 ≤ s.fd
  sent : ¬ s.out.lastUpdateMs > s.lastWrite
  older : ∀ p ∈ ps, s.lastWrite < nowMs (p.clk.store i)

section

variable {cfg : NodeConfig} {i : Port} {n : Node} {p : Pass} {ps : List Pass}

theorem Settled.of_cons {st : PortState} (h : Settled i (p :: ps) st) : Settled i ps st :=
  ⟨h.device, h.sent, fun p' hp' => h.older p' (List.mem_cons_of_mem p hp')⟩

theorem Paced.of_cons {q : Nat} (h : Paced i q (p :: ps)) : Paced i q ps :=
  ⟨h.increasing.of_cons, fun p' hp' => h.epoch p' (List.mem_cons_of_mem p hp'),
    fun p' hp' => h.opens p' (List.mem_cons_of_mem p hp')⟩

/-- Every packet of a pass is stamped with the pass's own reading. -/
theorem applied_stamp {e : Event} {st : DaemonState} {u : Nat} (he : e ∈ packetEvents n p)
    (h : e.appliedAt cfg i st = some u) : u = p.clk.store i := by
  rcases packetEvents_cases he with ⟨-, pkt, rfl⟩ | ⟨-, pkt, rfl⟩ | ⟨-, pkt, rfl⟩
  · exact (Option.ite_some_none_eq_some.mp h).2.symm
  · exact (Option.ite_some_none_eq_some.mp h).2.symm
  · exact (Option.ite_some_none_eq_some.mp h).2.symm

/-- What the packets of a pass do to a port. -/
theorem polled_cases (hone : n.sockets.OneOpen) :
    (AppliesTo cfg i n p ∧ ∃ f : DmxFrame,
        finalState (step cfg) n.out (packetEvents n p) i = { n.out i with out := f } ∧
          f.lastUpdateMs = nowMs (p.clk.store i)) ∨
      (¬ AppliesTo cfg i n p ∧ finalState (step cfg) n.out (packetEvents n p) i = n.out i) := by
  have hlength := length_packetEvents hone p
  unfold AppliesTo
  rcases hevents : packetEvents n p with _ | ⟨e, _ | ⟨e', es⟩⟩
  · exact Or.inr ⟨by simp, rfl⟩
  · have he : e ∈ packetEvents n p := hevents ▸ List.mem_singleton_self e
    rw [finalState_cons, finalState_nil]
    cases happlied : e.appliedAt cfg i n.out with
    | none => exact Or.inr ⟨by simp [happlied],
        step_of_not_applied (isCycle_of_mem_packetEvents he) happlied⟩
    | some u =>
      obtain ⟨f, hf, hstamp⟩ := step_of_applied happlied
      exact Or.inl ⟨⟨e, List.mem_singleton_self e, by simp [happlied]⟩, f, hf,
        hstamp.trans (congrArg nowMs (applied_stamp he happlied))⟩
  · rw [hevents] at hlength
    simp at hlength

/-- The output cycle of a pass, at one port. -/
theorem mainPass_port :
    (mainPass cfg n p).1.out i
        = (outputPort cfg (nowMs p.outMs) (p.opens i) i
            (finalState (step cfg) n.out (packetEvents n p) i)).1 ∧
      writesOf i (mainPass cfg n p).2
        = (outputPort cfg (nowMs p.outMs) (p.opens i) i
            (finalState (step cfg) n.out (packetEvents n p) i)).2.filterMap (frameTo i) := by
  obtain ⟨hout, hcalls⟩ := @mainPass_out cfg n p
  obtain ⟨hst, hframes⟩ := dmxOutputCycle_apply cfg p.outMs p.opens
    (finalState (step cfg) n.out (packetEvents n p)) i
  unfold writesOf
  rw [hout, hcalls, passEvents, finalState_concat, trace_append, trace_packetEvents,
    List.nil_append, trace_cons, trace_nil, List.append_nil]
  exact ⟨hst, hframes⟩

/-- A pass with a packet for the port sends it. -/
theorem settled_of_applies (htx : (cfg.ports i).mode = dmxModeTx) {q : Nat}
    (hpaced : Paced i q (p :: ps)) (h : Settled i (p :: ps) (n.out i))
    (happlies : AppliesTo cfg i n p) {f : DmxFrame}
    (hpolled : finalState (step cfg) n.out (packetEvents n p) i = { n.out i with out := f })
    (hstamp : f.lastUpdateMs = nowMs (p.clk.store i)) :
    PassWrites cfg i n p ∧ Settled i ps ((mainPass cfg n p).1.out i) := by
  obtain ⟨hout, hwrites⟩ := @mainPass_port cfg i n p
  have hopens := hpaced.opens p List.mem_cons_self
  obtain ⟨port, hport⟩ : ∃ port, port = finalState (step cfg) n.out (packetEvents n p) i :=
    ⟨_, rfl⟩
  rw [← hport] at hout hwrites hpolled
  have hdevice : 0 ≤ port.fd := by
    rw [hpolled]
    exact h.device
  have hport_stamp : port.out.lastUpdateMs = nowMs (p.clk.store i) := by
    rw [hpolled]
    exact hstamp
  -- the stamp of the packet is past the last one sent
  have hfresh : port.out.lastUpdateMs > port.lastWrite := by
    rw [hport_stamp, hpolled]
    exact h.older p List.mem_cons_self
  rw [outputPort_fresh hdevice htx hfresh] at hout hwrites
  dsimp only at hout hwrites
  refine ⟨⟨?_, ?_⟩, ?_, ?_, ?_⟩
  · rw [hwrites, dmxTxWrite_frameTo i _ _ hopens, dueWrites, if_pos happlies, ← hport]
  · rw [hout]
    exact fun hpending => UInt32.lt_irrefl port.out.lastUpdateMs hpending.2
  · rw [hout]
    exact dmxTxWrite_fd_nonneg i _ _ hopens
  · rw [hout]
    exact UInt32.lt_irrefl port.out.lastUpdateMs
  · intro p' hp'
    rw [hout]
    dsimp only
    rw [hport_stamp]
    exact nowMs_lt_nowMs (hpaced.epoch p List.mem_cons_self).1
      (List.rel_of_pairwise_cons hpaced.increasing hp')
      (hpaced.epoch p' (List.mem_cons_of_mem p hp')).2

/-- A pass without one leaves the port alone, or blanks it. -/
theorem settled_of_not_applies (htx : (cfg.ports i).mode = dmxModeTx) {q : Nat}
    (hpaced : Paced i q (p :: ps)) (h : Settled i (p :: ps) (n.out i))
    (hnot : ¬ AppliesTo cfg i n p)
    (hpolled : finalState (step cfg) n.out (packetEvents n p) i = n.out i) :
    PassWrites cfg i n p ∧ Settled i ps ((mainPass cfg n p).1.out i) := by
  obtain ⟨hout, hwrites⟩ := @mainPass_port cfg i n p
  have hopens := hpaced.opens p List.mem_cons_self
  have hdue : dueWrites cfg i n p
      = if timedOut cfg (nowMs p.outMs) (n.out i).out = true then [blankFrame] else [] :=
    if_neg hnot
  have holder : ∀ p' ∈ ps, (n.out i).lastWrite < nowMs (p'.clk.store i) := fun p' hp' =>
    h.older p' (List.mem_cons_of_mem p hp')
  rw [hpolled, outputPort_stale h.device htx h.sent] at hout hwrites
  split_ifs at hout hwrites with hold
  · -- the frame is blanked and its stamp reset
    have hzero : ¬ (0 : UInt32) > (n.out i).lastWrite := UInt32.not_lt_zero
    refine ⟨⟨?_, ?_⟩, ?_, ?_, ?_⟩
    · rw [hwrites, dmxTxWrite_frameTo i _ _ hopens, hdue, if_pos hold]
    · rw [hout]
      exact fun hpending => hzero hpending.2
    · rw [hout]
      exact dmxTxWrite_fd_nonneg i _ _ hopens
    · rw [hout]
      exact hzero
    · rw [hout]
      exact holder
  · refine ⟨⟨?_, ?_⟩, ?_, ?_, ?_⟩
    · rw [hwrites, hdue, if_neg hold]
      rfl
    · rw [hout]
      exact fun hpending => h.sent hpending.2
    · rw [hout]
      exact h.device
    · rw [hout]
      exact h.sent
    · rw [hout]
      exact holder

/-- **The step lemma.** -/
theorem settled_mainPass (htx : (cfg.ports i).mode = dmxModeTx) (hone : n.sockets.OneOpen)
    {q : Nat} (hpaced : Paced i q (p :: ps)) (h : Settled i (p :: ps) (n.out i)) :
    PassWrites cfg i n p ∧ Settled i ps ((mainPass cfg n p).1.out i) := by
  rcases @polled_cases cfg i _ p hone with
    ⟨happlies, f, hpolled, hstamp⟩ | ⟨hnot, hpolled⟩
  · exact settled_of_applies htx hpaced h happlies hpolled hstamp
  · exact settled_of_not_applies htx hpaced h hnot hpolled

/-- Every pass of a paced run writes what the law says. -/
theorem along_passWrites (htx : (cfg.ports i).mode = dmxModeTx) (hone : n.sockets.OneOpen)
    {q : Nat} (hpaced : Paced i q ps) (h : Settled i ps (n.out i)) :
    Along (mainPass cfg) (PassWrites cfg i) n ps := by
  induction ps generalizing n with
  | nil => trivial
  | cons p ps ih =>
    obtain ⟨hwrites, hsettled⟩ := settled_mainPass htx hone hpaced h
    refine ⟨hwrites, ih ?_ hpaced.of_cons hsettled⟩
    rwa [mainPass_sockets]

/-- `main` enters its loop with nothing to send. -/
theorem settled_mainStart {b : Boot} {q : Nat} (htx : (cfg.ports i).mode = dmxModeTx)
    (hopened : 0 ≤ b.opened i) (hpaced : Paced i q ps) :
    Settled i ps ((mainStart cfg b).out i) where
  device := by
    simp only [mainStart, initialState, htx]
    exact hopened
  sent := UInt32.lt_irrefl 0
  older := fun p hp => nowMs_pos (hpaced.epoch p hp).1 (hpaced.epoch p hp).2

end

/-- **What the daemon writes.** In a run whose packets are stamped one after the other, a pass with
a packet for a TX port writes the port's levels once, a pass without one writes a blank frame or
nothing, and no pass leaves anything to be sent. -/
theorem main_writes {cfg : NodeConfig} {b : Boot} {i : Port} {q : Nat} {ps : List Pass}
    (htx : (cfg.ports i).mode = dmxModeTx) (hopened : 0 ≤ b.opened i) (hpaced : Paced i q ps) :
    Along (mainPass cfg) (PassWrites cfg i) (mainStart cfg b) ps := by
  exact along_passWrites htx (initSockets_oneOpen cfg b.init) hpaced
    (settled_mainStart htx hopened hpaced)

/-- A pass in which all readings are the same, `recv` on the sACN socket returns `r`, the opens
succeed and no frame is read. -/
def passAt (ms : Nat) (r : Received sacnMaxPacketLen) : Pass where
  sacn := r
  sacnPkt := blankSacnPacket
  artnet := .error
  artnetFrom := { addr := 0, port := 0 }
  artnetPkt := artnetLevel 0 0
  shownet := .error
  shownetPkt := { netSlot := 0, dmxData := blankFrame, dmxLength := 0 }
  clk := HandlerClock.at ms
  outMs := ms
  opens := openedOk
  input := { t := nowMs ms, reads := fun _ => .nothing, sents := fun _ => 0 }

/-- All calls of the start-up succeed. -/
def bootOk : Boot where
  init := grantAll
  opened := fun _ => 3
  txSockets := fun _ => 5

/-- A packet of one slot for universe 1, which is that of port 0. -/
def onePacket : Pass :=
  passAt 1000 (.datagram sacnMaxPacketLen
    (sacnTxBuildPacket { sampleTx with dmxUniverse := 1 } [255] 1 638).2)

/-- One packet, and a pass without one. -/
def onePacketRun : List Pass := [onePacket, passAt 1023 .error]

/-- The passes of the example run are paced. -/
theorem paced_onePacketRun : Paced 0 0 onePacketRun := by
  refine ⟨?_, ?_, ?_⟩
  · refine .cons (fun p hp => ?_) (.cons (fun p hp => ?_) .nil)
    · rw [List.mem_singleton.mp hp]
      show 1000 < 1023
      decide
    · cases hp
  · intro p hp
    rcases List.mem_pair.mp hp with rfl | rfl
    · show 0 * 2 ^ 32 < 1000 ∧ 1000 < (0 + 1) * 2 ^ 32
      decide
    · show 0 * 2 ^ 32 < 1023 ∧ 1023 < (0 + 1) * 2 ^ 32
      decide
  · intro p hp
    rcases List.mem_pair.mp hp with rfl | rfl
    · exact openedOk_succeed 0
    · exact openedOk_succeed 0

/-- What a pass hands on when a datagram arrives that is parsed. -/
theorem sacnEvents_datagram {n : Node} {p : Pass} {bytes : List UInt8} (hopen : n.sockets.sacn ≥ 0)
    (hsacn : p.sacn = .datagram sacnMaxPacketLen bytes) (hlen : bytes.length ≤ sacnMaxPacketLen)
    (hok : (sacnParse bytes bytes.length p.sacnPkt).1 = 0) :
    sacnEvents n p = [.sacn (sacnParse bytes bytes.length p.sacnPkt).2 p.clk] := by
  obtain ⟨hret, hpkt⟩ := sacnReceive_datagram hlen n.stats p.sacnPkt
  rw [← hsacn] at hret hpkt
  unfold sacnEvents
  rw [if_pos ⟨hopen, hret.trans hok⟩, hpkt]

/-- The port takes the packet. -/
theorem onePacket_applies :
    AppliesTo configDefaults 0 (mainStart configDefaults bootOk) onePacket := by
  obtain ⟨⟨hret, hlength⟩, -, hok, -, -, hpriority, -, huniverse, hstart, -⟩ :=
    (sacnTx_roundTrip { sampleTx with dmxUniverse := 1 } [255] 1 (by decide) (by decide) 638
      blankSacnPacket).1 (by decide)
  have hsacn : onePacket.sacn = .datagram sacnMaxPacketLen
    (sacnTxBuildPacket { sampleTx with dmxUniverse := 1 } [255] 1 638).2 := rfl
  -- from here on the packet is a variable
  generalize (sacnTxBuildPacket { sampleTx with dmxUniverse := 1 } [255] 1 638).2 = bytes at *
  have hcount : (126 : Int) + (1 : Nat) = bytes.length := by
    rw [hlength]
    rfl
  rw [hret, hcount] at hok hpriority huniverse hstart
  have hevents := sacnEvents_datagram (n := mainStart configDefaults bootOk) (by decide) hsacn
    (hlength.le.trans (by decide)) hok
  refine ⟨.sacn (sacnParse bytes bytes.length blankSacnPacket).2 onePacket.clk, ?_, ?_⟩
  · refine List.mem_append_left _ (List.mem_append_left _ ?_)
    rw [hevents]
    exact List.mem_singleton_self _
  · have haccepts : sacnAccepts (sacnParse bytes bytes.length blankSacnPacket).2 onePacket.clk 0
        ((mainStart configDefaults bootOk).out 0).out = true :=
      decide_eq_true (Or.inl (by rw [hpriority]; exact UInt8.zero_le))
    rw [Event.appliedAt, if_pos ⟨hstart, ⟨huniverse.symm, rfl⟩, haccepts⟩]
    rfl

/-- Its levels are written at once. -/
theorem onePacketRun_writes :
    Along (mainPass configDefaults) (PassWrites configDefaults 0)
        (mainStart configDefaults bootOk) onePacketRun ∧
      (writesOf 0 (mainPass configDefaults (mainStart configDefaults bootOk) onePacket).2).length
        = 1 := by
  have hwrites := @main_writes configDefaults bootOk 0 0 onePacketRun rfl (by decide)
    paced_onePacketRun
  refine ⟨hwrites, ?_⟩
  rw [hwrites.1.writes, dueWrites, if_pos onePacket_applies]
  rfl

end SN110
