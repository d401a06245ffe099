import SN110.Sacn.Send
import SN110.Sacn.Multicast
import SN110.Daemon.Handlers
import SN110.Minilib.Text
import SN110.Lib.Checked
import SN110.Lib.Run

/-!
# The input cycle (`main.c`)

`dmx_input_cycle` reads every RX port and sends what it reads, when it has changed or the last
packet is old. The state is an `InPort` for each port: `g_dmx_in`, `g_dmx_in_last_send`,
`g_sacn_tx`, `g_sacn_tx_active` and the port's descriptor. The counters are left out.

What the cycle does to the network is a list of `Datagram`s, each with what `sendto` returned and
the reading of the clock.
-/

namespace SN110

open Run Checked

/-- `SACN_KEEPALIVE_MS`. -/
abbrev sacnKeepaliveMs : UInt32 := 900

/-- What `read_frame` returns: nothing, or the bytes of a frame. -/
inductive ReadFrame where
  | nothing
  | frame (bytes : List UInt8) (pos : 0 < bytes.length) (length_le : bytes.length ≤ 512)

/-- The frame read, if there is one. -/
def ReadFrame.bytes? : ReadFrame → Option (List UInt8)
  | .nothing => none
  | .frame bytes _ _ => some bytes

/-- `g_dmx_in[i]`, `g_dmx_in_last_send[i]`, `g_sacn_tx[i]`, `g_sacn_tx_active[i]` and
`dmx_fds[i]`. -/
structure InPort where
  frame : DmxFrame
  lastSend : UInt32
  tx : SacnTx
  active : Bool
  fd : Int

abbrev InputState := Port → InPort

/-- A call of `sendto`: the port and the clock reading of the cycle it is made in, the packet and
the result. The packet goes to the group of the port's universe. -/
structure Datagram where
  port : Port
  t : UInt32
  dest : UInt32
  bytes : List UInt8
  sent : Int

/-- The frame that a datagram carries: the channels, behind the header. -/
def Datagram.frame (d : Datagram) : List UInt8 := d.bytes.drop 126

/-- `sacn_tx_send` and what follows it in both places: a success is stamped. -/
def sendFrame (t : UInt32) (sent : Int) (port : Port) (dmxData : List UInt8) (n : Nat)
    (p : InPort) : InPort × List Datagram :=
  let r := sacnTxSend p.tx dmxData n sent
  ({ p with tx := r.tx, lastSend := if r.ret = 0 then t else p.lastSend },
    r.packet.toList.map fun packet =>
      { port := port, t := t, dest := sacnMulticastAddr p.tx.dmxUniverse, bytes := packet,
        sent := sent })

/-- The frame stored for a port. -/
def InPort.stored (p : InPort) : List UInt8 := p.frame.data.toList.take p.frame.length.toNat

/-- The last packet of a port that has a frame is too old. -/
def KeepaliveDue (t : UInt32) (p : InPort) : Prop :=
  p.frame.length > 0 ∧ t - p.lastSend > sacnKeepaliveMs

instance (t : UInt32) (p : InPort) : Decidable (KeepaliveDue t p) := by
  unfold KeepaliveDue
  infer_instance

/-- The frame read is the stored one, by `memcmp`, and the last packet is not too old. -/
def Repeats (t : UInt32) (p : InPort) (bytes : List UInt8) : Prop :=
  bytes.length = p.frame.length.toNat ∧ bytes = p.frame.data.toList.take bytes.length ∧
    t - p.lastSend < sacnKeepaliveMs

instance (t : UInt32) (p : InPort) (bytes : List UInt8) : Decidable (Repeats t p bytes) := by
  unfold Repeats
  infer_instance

/-- The frame read takes the place of the stored one. -/
def storeFrame (t : UInt32) (bytes : List UInt8) (p : InPort) : InPort :=
  { p with
    frame := { p.frame with
      data := overlay p.frame.data bytes
      length := UInt16.ofNat bytes.length
      lastUpdateMs := t } }

/-- The body of `dmx_input_cycle`'s loop, at one port. -/
def inputPort (cfg : NodeConfig) (t : UInt32) (read : ReadFrame) (sent : Int) (port : Port)
    (p : InPort) : InPort × List Datagram :=
  if p.fd < 0 then (p, [])
  else if (cfg.ports port).mode ≠ dmxModeRx then (p, [])
  else if p.active = false then (p, [])
  else
    match read with
    | .nothing =>
      if KeepaliveDue t p then
        sendFrame t sent port p.frame.data.toList p.frame.length.toNat p
      else (p, [])
    | .frame bytes _ _ =>
      if Repeats t p bytes then (p, [])
      else sendFrame t sent port bytes bytes.length (storeFrame t bytes p)

/-- One round of `dmx_input_cycle`'s loop, on the state and the datagrams so far. -/
def inputRound (cfg : NodeConfig) (t : UInt32) (reads : Port → ReadFrame) (sents : Port → Int)
    (port : Port) (s : InputState × List Datagram) : InputState × List Datagram :=
  let r := inputPort cfg t (reads port) (sents port) port (s.1 port)
  (Function.update s.1 port r.1, s.2 ++ r.2)

/-- A call of `dmx_input_cycle`: the reading of the clock, and what `read_frame` and `sendto` return
for each port. -/
structure InputCycle where
  t : UInt32
  reads : Port → ReadFrame
  sents : Port → Int

/-- `dmx_input_cycle`. -/
def dmxInputCycle (cfg : NodeConfig) (st : InputState) (e : InputCycle) :
    InputState × List Datagram :=
  forPorts (inputRound cfg e.t e.reads e.sents) (st, [])

/-- The source name of a port: `"SN110 Port %d"`. -/
def sourceName (i : Port) : List UInt8 := ascii "SN110 Port " ++ utoa i.val

/-- A transmitter that has not been set up. -/
def zeroTx : SacnTx where
  sequence := 0
  dmxUniverse := 0
  cid := Vector.replicate 16 0
  sourceName := Vector.replicate 64 0
  priority := 0
  sourceName_nul := nul_replicate

/-- The state in which `main` enters its loop: `opened` and `sockets` are what opening the devices
and the transmitters' sockets returned. -/
def inputStart (cfg : NodeConfig) (opened sockets : Port → Int) : InputState := fun i =>
  let fd := if (cfg.ports i).mode = dmxModeOff then -1 else opened i
  let init := sacnTxInit (cfg.ports i).dmxUniverse (sourceName i) (sockets i)
  let ready := 0 ≤ fd ∧ (cfg.ports i).mode = dmxModeRx
  { frame := DmxFrame.zero
    lastSend := 0
    tx := if ready then init.2 else zeroTx
    active := decide (ready ∧ init.1 = 0)
    fd := fd }

/-! ## What one cycle does to one port -/

theorem port_of_mem_sendFrame {t : UInt32} {sent : Int} {port : Port} {dmxData : List UInt8}
    {n : Nat} {p : InPort} {d : Datagram} (h : d ∈ (sendFrame t sent port dmxData n p).2) :
    d.port = port := by
  obtain ⟨packet, -, rfl⟩ := List.mem_map.mp h
  rfl

theorem port_of_mem_inputPort {cfg : NodeConfig} {t : UInt32} {read : ReadFrame} {sent : Int}
    {port : Port} {p : InPort} {d : Datagram} (h : d ∈ (inputPort cfg t read sent port p).2) :
    d.port = port := by
  cases read with
  | nothing =>
    simp only [inputPort] at h
    split_ifs at h
    · cases h
    · cases h
    · cases h
    · exact port_of_mem_sendFrame h
    · cases h
  | frame bytes hpos hle =>
    simp only [inputPort] at h
    split_ifs at h
    · cases h
    · cases h
    · cases h
    · cases h
    · exact port_of_mem_sendFrame h

/-- The datagrams of one port. -/
def ofPort (i : Port) (ds : List Datagram) : List Datagram := ds.filter fun d => d.port = i

theorem ofPort_inputPort_self (cfg : NodeConfig) (t : UInt32) (read : ReadFrame) (sent : Int)
    (i : Port) (p : InPort) :
    ofPort i (inputPort cfg t read sent i p).2 = (inputPort cfg t read sent i p).2 :=
  List.filter_eq_self.mpr fun _ hd => decide_eq_true (port_of_mem_inputPort hd)

theorem ofPort_inputPort_of_ne {i port : Port} (h : port ≠ i) (cfg : NodeConfig) (t : UInt32)
    (read : ReadFrame) (sent : Int) (p : InPort) :
    ofPort i (inputPort cfg t read sent port p).2 = [] := by
  refine List.filter_eq_nil_iff.mpr fun d hd => ?_
  rw [port_of_mem_inputPort hd]
  simpa using h

/-- **One cycle, one port.** The cycle acts on each port as the loop's body at that port, on the
state and on the datagrams of the port. -/
theorem dmxInputCycle_apply (cfg : NodeConfig) (st : InputState) (e : InputCycle) (i : Port) :
    (dmxInputCycle cfg st e).1 i = (inputPort cfg e.t (e.reads i) (e.sents i) i (st i)).1 ∧
      ofPort i (dmxInputCycle cfg st e).2
        = (inputPort cfg e.t (e.reads i) (e.sents i) i (st i)).2 := by
  have h := forPorts_view (inputRound cfg e.t e.reads e.sents)
    (fun i (s : InputState × List Datagram) => (s.1 i, ofPort i s.2))
    (fun i p => ((inputPort cfg e.t (e.reads i) (e.sents i) i p.1).1,
      p.2 ++ (inputPort cfg e.t (e.reads i) (e.sents i) i p.1).2)) ?_ ?_ (st, []) i
  · obtain ⟨hst, hsent⟩ := Prod.mk.inj h
    exact ⟨hst, hsent⟩
  · intro port i s hne
    simp only [inputRound, Function.update_of_ne hne]
    rw [ofPort, List.filter_append, ← ofPort, ← ofPort, ofPort_inputPort_of_ne hne.symm,
      List.append_nil]
  · intro i s
    simp only [inputRound, Function.update_self]
    rw [ofPort, List.filter_append, ← ofPort, ← ofPort, ofPort_inputPort_self]

end SN110
