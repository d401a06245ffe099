import SN110.Sacn.Packet
import SN110.Artnet.Packet
import SN110.Shownet.Packet

/-!
# The daemon's state and its packet handlers (`main.c`)

The output path keeps three arrays indexed by the port: the global `g_dmx_out` and `main`'s
locals `dmx_last_write` and `dmx_fds`. `PortState` is one index of the three, and the state
of the daemon is a `PortState` for each port. The counters that only the debug dump reads
(`g_sacn_rx_count` and the like) are left out.

The three `handle_*_packet` functions share one loop: every TX port on the packet's universe
gets the packet, unless the handler's own test refuses it. Each handler is that loop
(`applyToPorts`) at its own universe, test and update.

The clock is an input. `now_ms()` is called afresh at each place, so a handler receives the
milliseconds read at its two call sites for each port, and `nowMs` cuts them to 32 bits.
-/

namespace SN110

/-! ## State -/

/-- `g_dmx_out[i]`, `dmx_last_write[i]` and `dmx_fds[i]`. -/
structure PortState where
  out : DmxFrame
  lastWrite : UInt32
  fd : Int

abbrev DaemonState := Port → PortState

/-- Storing into `g_dmx_out[port]`. -/
def DaemonState.setOut (st : DaemonState) (port : Port) (f : DmxFrame) : DaemonState :=
  Function.update st port { st port with out := f }

@[simp] theorem DaemonState.setOut_self (st : DaemonState) (port : Port) (f : DmxFrame) :
    st.setOut port f port = { st port with out := f } := Function.update_self ..

@[simp] theorem DaemonState.setOut_of_ne (st : DaemonState) {port i : Port} (f : DmxFrame)
    (h : i ≠ port) : st.setOut port f i = st i := Function.update_of_ne h ..

/-! ## The clock -/

/-- `now_ms()`: milliseconds since the epoch as an unsigned 32-bit number. -/
def nowMs (ms : Nat) : UInt32 := UInt32.ofNat ms

/-- The times at which one handler call reads the clock, for each port: in the timeout test
and when it stamps the frame. -/
structure HandlerClock where
  check : Port → Nat
  store : Port → Nat

/-- A handler call whose readings all fall in the same millisecond. -/
def HandlerClock.at (ms : Nat) : HandlerClock where
  check := fun _ => ms
  store := fun _ => ms

/-! ## The loop over the ports -/

/-- `for (port = 0; port < DMX_MAX_PORTS; port++) body`. -/
def forPorts {σ : Type*} (body : Port → σ → σ) (s : σ) : σ := body 1 (body 0 s)

/-- The test every handler makes before it looks at a port's frame. -/
def Routed (cfg : NodeConfig) (dmxUniverse : UInt16) (port : Port) : Prop :=
  (cfg.ports port).dmxUniverse = dmxUniverse ∧ (cfg.ports port).mode = dmxModeTx

instance (cfg : NodeConfig) (dmxUniverse : UInt16) (port : Port) :
    Decidable (Routed cfg dmxUniverse port) := by
  unfold Routed
  infer_instance

/-- The body of the handlers' loop: skip a port on another universe or not in TX mode, and
give the others the new frame if the handler accepts it over the one they hold. -/
def offerToPort (cfg : NodeConfig) (dmxUniverse : UInt16) (accept : Port → DmxFrame → Bool)
    (update : Port → DmxFrame → DmxFrame) (port : Port) (st : DaemonState) : DaemonState :=
  if Routed cfg dmxUniverse port ∧ accept port (st port).out = true then
    st.setOut port (update port (st port).out)
  else st

/-- The handlers' loop. -/
def applyToPorts (cfg : NodeConfig) (dmxUniverse : UInt16) (accept : Port → DmxFrame → Bool)
    (update : Port → DmxFrame → DmxFrame) (st : DaemonState) : DaemonState :=
  forPorts (offerToPort cfg dmxUniverse accept update) st

/-! ## The handlers -/

/-- The merge test of `handle_sacn_packet`: a packet of lower priority is accepted only when
the stored frame is older than the source timeout. -/
def sacnAccepts (pkt : SacnPacket) (clk : HandlerClock) (port : Port) (f : DmxFrame) : Bool :=
  decide (pkt.priority ≥ f.priority ∨ nowMs (clk.check port) - f.lastUpdateMs > sacnTimeoutMs)

/-- What an accepted sACN packet makes of a port's frame. -/
def sacnStore (pkt : SacnPacket) (clk : HandlerClock) (port : Port) (f : DmxFrame) : DmxFrame :=
  -- past `dmx_length` the copy keeps what the frame held
  { data := memcpySlots f.data pkt.dmxData pkt.dmxLength.toNat
    length := pkt.dmxLength
    priority := pkt.priority
    sequence := pkt.sequence
    lastUpdateMs := nowMs (clk.store port) }

/-- `handle_sacn_packet`. -/
def handleSacnPacket (cfg : NodeConfig) (pkt : SacnPacket) (clk : HandlerClock)
    (st : DaemonState) : DaemonState :=
  if pkt.startCode ≠ 0 then st
  else applyToPorts cfg pkt.dmxUniverse (sacnAccepts pkt clk) (sacnStore pkt clk) st

/-- What an Art-Net packet makes of a port's frame. -/
def artnetStore (pkt : ArtnetDmxPacket) (clk : HandlerClock) (port : Port) (f : DmxFrame) :
    DmxFrame :=
  { f with
    data := memcpySlots f.data pkt.dmxData pkt.dmxLength.toNat
    length := pkt.dmxLength
    sequence := pkt.sequence
    lastUpdateMs := nowMs (clk.store port) }

/-- `handle_artnet_packet`. -/
def handleArtnetPacket (cfg : NodeConfig) (pkt : ArtnetDmxPacket) (clk : HandlerClock)
    (st : DaemonState) : DaemonState :=
  applyToPorts cfg pkt.dmxUniverse (fun _ _ => true) (artnetStore pkt clk) st

/-- `(pkt->net_slot - 1) / DMX_UNIVERSE_SIZE` as C computes it: in `int`, rounding towards
zero, so that slot 0 falls into universe 0 with the slots 1 to 512. -/
def shownetUniverse (netSlot : UInt16) : UInt16 :=
  UInt16.ofInt (Int.tdiv ((netSlot.toNat : Int) - 1) 512)

/-- What a ShowNet packet makes of a port's frame. -/
def shownetStore (pkt : ShownetPacket) (clk : HandlerClock) (port : Port) (f : DmxFrame) :
    DmxFrame :=
  { f with
    data := memcpySlots f.data pkt.dmxData pkt.dmxLength.toNat
    length := pkt.dmxLength
    lastUpdateMs := nowMs (clk.store port) }

/-- `handle_shownet_packet`. -/
def handleShownetPacket (cfg : NodeConfig) (pkt : ShownetPacket) (clk : HandlerClock)
    (st : DaemonState) : DaemonState :=
  applyToPorts cfg (shownetUniverse pkt.netSlot) (fun _ _ => true) (shownetStore pkt clk) st

/-! ## What one handler call does to one port -/

/-- A loop over the ports whose body for one port leaves what belongs to the other alone acts
on each port as that port's own body. `view` is what belongs to a port. -/
theorem forPorts_view {σ τ : Type*} (body : Port → σ → σ) (view : Port → σ → τ)
    (act : Port → τ → τ) (hother : ∀ port i s, i ≠ port → view i (body port s) = view i s)
    (hself : ∀ i s, view i (body i s) = act i (view i s)) (s : σ) (i : Port) :
    view i (forPorts body s) = act i (view i s) := by
  unfold forPorts
  match i with
  | 0 => rw [hother 1 0 _ (by decide), hself]
  | 1 => rw [hself, hother 0 1 _ (by decide)]

/-- A port that the packet is routed to and accepted at gets the new frame; nothing else of
any port changes. -/
theorem applyToPorts_apply (cfg : NodeConfig) (u : UInt16) (accept : Port → DmxFrame → Bool)
    (update : Port → DmxFrame → DmxFrame) (st : DaemonState) (i : Port) :
    applyToPorts cfg u accept update st i =
      if Routed cfg u i ∧ accept i (st i).out = true then
        { st i with out := update i (st i).out }
      else st i := by
  refine forPorts_view (offerToPort cfg u accept update) (fun i (st : DaemonState) => st i)
    (fun i p => if Routed cfg u i ∧ accept i p.out = true then
      { p with out := update i p.out } else p) ?_ ?_ st i
  · intro port i st hne
    unfold offerToPort
    split_ifs
    · exact st.setOut_of_ne _ hne
    · rfl
  · intro i st
    unfold offerToPort
    split_ifs
    · exact st.setOut_self i _
    · rfl

end SN110
