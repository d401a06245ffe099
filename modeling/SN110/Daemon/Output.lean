import SN110.Daemon.Handlers

/-!
# The output cycle (`main.c`)

`dmx_output_cycle` sends every TX port its fresh frame, or blanks it when its source has been
silent for the hold time. What it does to the devices is a list of system calls, each with the
result the kernel gave where the code uses one; `frameTo` reads off the frames written to one
port. The result of `write` is not recorded, since `dmx_tx_write` ignores it.
-/

namespace SN110

/-- A system call on the DMX devices. `/dev/dmx0` and `/dev/dmx1` are named by their port. -/
inductive Syscall where
  | close (fd : Int)
  | open (port : Port) (fd : Int)
  | write (port : Port) (fd : Int) (data : Slots)

/-- The frame a system call writes to port `i`, if it is such a call. -/
def frameTo (i : Port) : Syscall → Option Slots
  | .write port _ data => if port = i then some data else none
  | _ => none

/-- What the two `open` calls of one `dmx_tx_write` return. -/
structure Opens where
  first : Int
  again : Int

/-- Both calls return a descriptor. -/
def Opens.Succeed (o : Opens) : Prop := 0 ≤ o.first ∧ 0 ≤ o.again

instance (o : Opens) : Decidable o.Succeed := by
  unfold Opens.Succeed
  infer_instance

/-- `dmx_tx_write`: the new `fds[port]` and the calls made. When the first `open` fails the
frame is not sent and `fds[port]` keeps the descriptor just closed. -/
def dmxTxWrite (port : Port) (fd : Int) (data : Slots) (o : Opens) : Int × List Syscall :=
  let closed := if fd ≥ 0 then [Syscall.close fd] else []
  if o.first < 0 then (fd, closed ++ [.open port o.first])
  else
    (o.again, closed ++ [.open port o.first, .write port o.first data, .close o.first,
      .open port o.again])

/-- The blank frame, `memset(frame, 0, DMX_UNIVERSE_SIZE)`. -/
def blankFrame : Slots := Vector.replicate dmxUniverseSize 0

/-- `timed_out`, tested at time `t` on a port without fresh data. -/
def timedOut (cfg : NodeConfig) (t : UInt32) (f : DmxFrame) : Bool :=
  decide (f.lastUpdateMs > 0 ∧ t - f.lastUpdateMs > cfg.dmxHoldTime.toUInt32 * 1000)

/-- The body of `dmx_output_cycle`'s loop, at one port. -/
def outputPort (cfg : NodeConfig) (t : UInt32) (o : Opens) (port : Port) (p : PortState) :
    PortState × List Syscall :=
  if p.fd < 0 then (p, [])
  else if (cfg.ports port).mode ≠ dmxModeTx then (p, [])
  else if p.out.lastUpdateMs > p.lastWrite then
    let sent := dmxTxWrite port p.fd p.out.data o
    ({ p with lastWrite := p.out.lastUpdateMs, fd := sent.1 }, sent.2)
  else if timedOut cfg t p.out = true then
    let out := { p.out with data := blankFrame, lastUpdateMs := 0, priority := 0 }
    let sent := dmxTxWrite port p.fd blankFrame o
    ({ p with out := out, fd := sent.1 }, sent.2)
  else (p, [])

/-- One round of `dmx_output_cycle`'s loop, on the state and the calls made so far. -/
def outputRound (cfg : NodeConfig) (t : UInt32) (opens : Port → Opens) (port : Port)
    (s : DaemonState × List Syscall) : DaemonState × List Syscall :=
  let r := outputPort cfg t (opens port) port (s.1 port)
  (Function.update s.1 port r.1, s.2 ++ r.2)

/-- `dmx_output_cycle`, its clock read at `ms`. -/
def dmxOutputCycle (cfg : NodeConfig) (ms : Nat) (opens : Port → Opens) (st : DaemonState) :
    DaemonState × List Syscall :=
  forPorts (outputRound cfg (nowMs ms) opens) (st, [])

/-! ## What one cycle does to one port -/

@[simp] theorem frameTo_write_self (i : Port) (fd : Int) (data : Slots) :
    frameTo i (.write i fd data) = some data := if_pos rfl

@[simp] theorem frameTo_open (i port : Port) (fd : Int) : frameTo i (.open port fd) = none := rfl

@[simp] theorem frameTo_close (i : Port) (fd : Int) : frameTo i (.close fd) = none := rfl

/-- A port's write shows nothing on another. -/
theorem dmxTxWrite_frameTo_of_ne {i port : Port} (h : port ≠ i) (fd : Int) (data : Slots)
    (o : Opens) : (dmxTxWrite port fd data o).2.filterMap (frameTo i) = [] := by
  unfold dmxTxWrite
  split_ifs <;> simp [frameTo, h]

/-- When its first `open` succeeds, `dmx_tx_write` writes its frame once. -/
theorem dmxTxWrite_frameTo (i : Port) (fd : Int) (data : Slots) {o : Opens}
    (ho : o.Succeed) : (dmxTxWrite i fd data o).2.filterMap (frameTo i) = [data] := by
  have hfirst : ¬ o.first < 0 := not_lt.mpr ho.1
  unfold dmxTxWrite
  split_ifs <;> simp [List.filterMap_cons]

/-- With its opens succeeding, a write leaves the device open. -/
theorem dmxTxWrite_fd_nonneg (i : Port) (fd : Int) (data : Slots) {o : Opens}
    (ho : o.Succeed) : 0 ≤ (dmxTxWrite i fd data o).1 := by
  have hfirst : ¬ o.first < 0 := not_lt.mpr ho.1
  unfold dmxTxWrite
  rw [if_neg hfirst]
  exact ho.2

/-- A port's round shows nothing on another. -/
theorem outputPort_frameTo_of_ne {i port : Port} (h : port ≠ i) (cfg : NodeConfig) (t : UInt32)
    (o : Opens) (p : PortState) :
    (outputPort cfg t o port p).2.filterMap (frameTo i) = [] := by
  unfold outputPort
  split_ifs
  all_goals first
    | rfl
    | exact dmxTxWrite_frameTo_of_ne h _ _ _

/-- **One cycle, one port.** The cycle acts on each port as the loop's body at that port, on
the state and on the frames written there. -/
theorem dmxOutputCycle_apply (cfg : NodeConfig) (ms : Nat) (opens : Port → Opens)
    (st : DaemonState) (i : Port) :
    (dmxOutputCycle cfg ms opens st).1 i
        = (outputPort cfg (nowMs ms) (opens i) i (st i)).1 ∧
      (dmxOutputCycle cfg ms opens st).2.filterMap (frameTo i)
        = (outputPort cfg (nowMs ms) (opens i) i (st i)).2.filterMap (frameTo i) := by
  -- a port's share of the loop's state is its `PortState` and the frames written to it so far;
  -- the calls of the other port are filtered out of that share
  have h := forPorts_view (outputRound cfg (nowMs ms) opens)
    (fun i (s : DaemonState × List Syscall) => (s.1 i, s.2.filterMap (frameTo i)))
    (fun i p => ((outputPort cfg (nowMs ms) (opens i) i p.1).1,
      p.2 ++ (outputPort cfg (nowMs ms) (opens i) i p.1).2.filterMap (frameTo i)))
    ?_ ?_ (st, []) i
  · obtain ⟨hst, hframes⟩ := Prod.mk.inj h
    rw [List.filterMap_nil, List.nil_append] at hframes
    exact ⟨hst, hframes⟩
  · intro port i s hne
    simp only [outputRound, Function.update_of_ne hne, List.filterMap_append,
      outputPort_frameTo_of_ne hne.symm, List.append_nil]
  · intro i s
    simp only [outputRound, Function.update_self, List.filterMap_append]

/-! ## The branches of the loop's body

What a cycle does at a TX port whose device is open: send the fresh frame, blank the port,
or nothing. -/

section Branches

variable {cfg : NodeConfig} {t : UInt32} {o : Opens} {i : Port} {p : PortState}

/-- A port that is not TX does nothing in a cycle. -/
theorem outputPort_idle (h : (cfg.ports i).mode ≠ dmxModeTx) :
    outputPort cfg t o i p = (p, []) := by
  unfold outputPort
  split_ifs <;> rfl

/-- With levels newer than its last write, a port writes them. -/
theorem outputPort_fresh (hfd : 0 ≤ p.fd) (htx : (cfg.ports i).mode = dmxModeTx)
    (hfresh : p.out.lastUpdateMs > p.lastWrite) :
    outputPort cfg t o i p =
      ({ p with lastWrite := p.out.lastUpdateMs, fd := (dmxTxWrite i p.fd p.out.data o).1 },
        (dmxTxWrite i p.fd p.out.data o).2) := by
  unfold outputPort
  rw [if_neg (not_lt.mpr hfd), if_neg (not_not.mpr htx), if_pos hfresh]

/-- Without, it blanks when the hold time is over, and does nothing otherwise. -/
theorem outputPort_stale (hfd : 0 ≤ p.fd) (htx : (cfg.ports i).mode = dmxModeTx)
    (hstale : ¬ p.out.lastUpdateMs > p.lastWrite) :
    outputPort cfg t o i p =
      if timedOut cfg t p.out = true then
        ({ p with
            out := { p.out with data := blankFrame, lastUpdateMs := 0, priority := 0 }
            fd := (dmxTxWrite i p.fd blankFrame o).1 },
          (dmxTxWrite i p.fd blankFrame o).2)
      else (p, []) := by
  unfold outputPort
  rw [if_neg (not_lt.mpr hfd), if_neg (not_not.mpr htx), if_neg hstale]

end Branches

/-- The port's device is open and its frame has not been sent. -/
def PortState.Pending (p : PortState) : Prop := 0 ≤ p.fd ∧ p.out.lastUpdateMs > p.lastWrite

instance (p : PortState) : Decidable p.Pending := by
  unfold PortState.Pending
  infer_instance

/-- The branch of the loop's body: leave the port, send its frame, or blank it. -/
inductive PortAction where
  | leave
  | send
  | blank

/-- The branch a cycle takes at a port. -/
def portAction (cfg : NodeConfig) (t : UInt32) (port : Port) (p : PortState) : PortAction :=
  if p.fd < 0 then .leave
  else if (cfg.ports port).mode ≠ dmxModeTx then .leave
  else if p.out.lastUpdateMs > p.lastWrite then .send
  else if timedOut cfg t p.out = true then .blank
  else .leave

/-- The loop's body is what its branch does. -/
theorem outputPort_eq (cfg : NodeConfig) (t : UInt32) (o : Opens) (i : Port) (p : PortState) :
    outputPort cfg t o i p =
      match portAction cfg t i p with
      | .leave => (p, [])
      | .send =>
        ({ p with lastWrite := p.out.lastUpdateMs, fd := (dmxTxWrite i p.fd p.out.data o).1 },
          (dmxTxWrite i p.fd p.out.data o).2)
      | .blank =>
        ({ p with
            out := { p.out with data := blankFrame, lastUpdateMs := 0, priority := 0 }
            fd := (dmxTxWrite i p.fd blankFrame o).1 },
          (dmxTxWrite i p.fd blankFrame o).2) := by
  unfold outputPort portAction
  split_ifs <;> rfl

/-- A frame is sent when its device is open and its stamp past the last one sent. -/
theorem portAction_send {cfg : NodeConfig} {t : UInt32} {i : Port} {p : PortState}
    (h : portAction cfg t i p = .send) : 0 ≤ p.fd ∧ p.out.lastUpdateMs > p.lastWrite := by
  unfold portAction at h
  split_ifs at h with hclosed _ hfresh
  exact ⟨not_lt.mp hclosed, hfresh⟩

end SN110
