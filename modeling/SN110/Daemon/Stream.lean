import SN110.Daemon.Input
import SN110.Config.Defaults

/-!
# The stream of an RX port

What `dmx_input_cycle` sends for a port over a run. The stored frame is always the last frame read,
whether or not its packet was taken: this makes the stream a faithful one, and it is also what hides
a frame whose packet was lost.

* `inputPort_spec`: one cycle, one port.
* `streamed_run`: the transmitter counts the packets sent, the port stores the last frame read.
* `streamLaw`: the packets of a run.
* `attemptsChanges_iff`: the runs that leave out no changed frame.

## The invariant

`Streaming` holds of the port in every cycle: its device and its transmitter's socket are open, and
the stored length is within the universe. A cycle of such a port is `Quiet` or an `Attempt`
(`inputPort_spec`), and `Streamed` follows the whole run with this: the sequence number is the
number of packets sent, the stored frame is the last one read, the time of the last packet is the
one that is kept. The properties of the stream are read off it, appending one cycle at a time.
-/

namespace SN110

open Run Checked

/-! ## One cycle -/

/-- The port is read and sent. -/
structure Streaming (cfg : NodeConfig) (i : Port) (p : InPort) : Prop where
  rx : (cfg.ports i).mode = dmxModeRx
  device : 0 ≤ p.fd
  active : p.active = true
  length_le : p.frame.length.toNat ≤ 512

/-- A cycle that leaves the port as it was and sends nothing. -/
structure Quiet (t : UInt32) (read : ReadFrame) (p : InPort) (r : InPort × List Datagram) :
    Prop where
  unchanged : r = (p, [])
  repeated : ∀ bytes, read.bytes? = some bytes → bytes = p.stored ∧ t - p.lastSend < sacnKeepaliveMs
  young : read.bytes? = none → p.stored ≠ [] → t - p.lastSend ≤ sacnKeepaliveMs

/-- A cycle that gives one packet to `sendto`. -/
structure Attempt (t : UInt32) (read : ReadFrame) (sent : Int) (p : InPort)
    (r : InPort × List Datagram) (d : Datagram) : Prop where
  datagram : r.2 = [d]
  changed : ∀ bytes, read.bytes? = some bytes →
    ¬ (bytes = p.stored ∧ t - p.lastSend < sacnKeepaliveMs)
  time : d.t = t
  result : d.sent = sent
  frame : d.frame = r.1.stored
  carries : Carries d.bytes p.tx.sequence p.tx.dmxUniverse r.1.stored
  stored : r.1.stored = read.bytes?.getD p.stored
  stored_ne : r.1.stored ≠ []
  sequence : r.1.tx.sequence = if sent < 0 then p.tx.sequence else p.tx.sequence + 1
  lastSend : r.1.lastSend = if sent < 0 then p.lastSend else t

section

variable {cfg : NodeConfig} {t : UInt32} {sent : Int} {i : Port} {p : InPort}
  {bytes : List UInt8}

/-- What the device's last frame holds is as long as its length field says. -/
theorem length_stored (h : p.frame.length.toNat ≤ 512) :
    p.stored.length = p.frame.length.toNat := by
  unfold InPort.stored
  rw [List.length_take, Vector.length_toList]
  exact Nat.min_eq_left h

/-- A read repeats the last frame when it has its bytes and the keep-alive interval has not
passed. -/
theorem repeats_iff (h : p.frame.length.toNat ≤ 512) :
    Repeats t p bytes ↔ bytes = p.stored ∧ t - p.lastSend < sacnKeepaliveMs := by
  unfold Repeats
  constructor
  · rintro ⟨hlen, hbytes, hrecent⟩
    rw [hlen] at hbytes
    exact ⟨hbytes, hrecent⟩
  · rintro ⟨rfl, hrecent⟩
    have hlen := length_stored h
    refine ⟨hlen, ?_, hrecent⟩
    rw [hlen]
    rfl

/-- Something is stored exactly while the length field is not 0. -/
theorem stored_ne_nil_iff (h : p.frame.length.toNat ≤ 512) :
    p.stored ≠ [] ↔ p.frame.length > 0 := by
  rw [← List.length_pos_iff, length_stored h, gt_iff_lt, UInt16.lt_iff_toNat_lt]
  rfl

/-- A read of at most 512 bytes is stored with its length. -/
theorem length_storeFrame (h : bytes.length ≤ 512) :
    (storeFrame t bytes p).frame.length.toNat = bytes.length := by
  show (UInt16.ofNat bytes.length).toNat = _
  rw [UInt16.toNat_ofNat']
  omega

@[simp] theorem storeFrame_tx : (storeFrame t bytes p).tx = p.tx := by
  dsimp only [storeFrame]

@[simp] theorem storeFrame_fd : (storeFrame t bytes p).fd = p.fd := by
  dsimp only [storeFrame]

@[simp] theorem storeFrame_active : (storeFrame t bytes p).active = p.active := by
  dsimp only [storeFrame]

@[simp] theorem storeFrame_lastSend : (storeFrame t bytes p).lastSend = p.lastSend := by
  dsimp only [storeFrame]

/-- A port that streams still does after a read. -/
theorem streaming_storeFrame (h : Streaming cfg i p) (hle : bytes.length ≤ 512) :
    Streaming cfg i (storeFrame t bytes p) := by
  have hlength : (storeFrame t bytes p).frame.length.toNat ≤ 512 :=
    (length_storeFrame hle).trans_le hle
  refine ⟨h.rx, ?_, ?_, hlength⟩
  · rw [storeFrame_fd]
    exact h.device
  · rw [storeFrame_active]
    exact h.active

/-- What is stored is the frame read. -/
theorem stored_storeFrame (h : bytes.length ≤ 512) : (storeFrame t bytes p).stored = bytes := by
  unfold InPort.stored
  rw [length_storeFrame h]
  apply List.ext_getElem
  · rw [List.length_take, Vector.length_toList]
    exact Nat.min_eq_left h
  · intro k hk hk'
    rw [List.getElem_take, Vector.getElem_toList]
    have hk512 : k < dmxUniverseSize := hk'.trans_le h
    show (overlay p.frame.data bytes)[k] = _
    rw [getElem_overlay _ _ hk512, dif_pos hk']

/-- The packet that a port sends. -/
def portDatagram (t : UInt32) (sent : Int) (i : Port) (dmxData : List UInt8) (n : Nat)
    (p : InPort) : Datagram where
  port := i
  t := t
  dest := sacnMulticastAddr p.tx.dmxUniverse
  bytes := framePacket p.tx dmxData n
  sent := sent

theorem portDatagram_bytes {dmxData : List UInt8} {n : Nat} :
    (portDatagram t sent i dmxData n p).bytes = framePacket p.tx dmxData n := rfl

/-- A port's datagram carries the levels given to it. -/
theorem frame_portDatagram {dmxData : List UInt8} {n : Nat} (hdata : n ≤ dmxData.length) :
    (portDatagram t sent i dmxData n p).frame = dmxData.take n := by
  unfold Datagram.frame
  rw [portDatagram_bytes, drop_framePacket hdata]

/-- A send puts one datagram on the network, and only a successful one moves the sequence and the
time. -/
theorem sendFrame_eq {dmxData : List UInt8} {n : Nat} (hn : n ≤ 512) :
    sendFrame t sent i dmxData n p =
      (if sent < 0 then p
        else { p with tx := { p.tx with sequence := p.tx.sequence + 1 }, lastSend := t },
        [portDatagram t sent i dmxData n p]) := by
  unfold sendFrame
  rw [sacnTxSend_eq hn]
  split_ifs <;> rfl

/-- Sending leaves the stored frame alone. -/
theorem attempt_sendFrame {read : ReadFrame} {q : InPort} {dmxData : List UInt8} {n : Nat}
    (hn : n ≤ 512) (hdata : n ≤ dmxData.length) (hstored : dmxData.take n = q.stored)
    (hread : q.stored = read.bytes?.getD p.stored) (hne : q.stored ≠ []) (htx : q.tx = p.tx)
    (hlast : q.lastSend = p.lastSend)
    (hchanged : ∀ bytes, read.bytes? = some bytes →
      ¬ (bytes = p.stored ∧ t - p.lastSend < sacnKeepaliveMs)) :
    Attempt t read sent p (sendFrame t sent i dmxData n q)
      (portDatagram t sent i dmxData n q) := by
  have hkept : (sendFrame t sent i dmxData n q).1.stored = q.stored := by
    rw [sendFrame_eq hn]
    dsimp only
    split_ifs <;> rfl
  refine ⟨?_, hchanged, rfl, rfl, ?_, ?_, hkept.trans hread, hkept ▸ hne, ?_, ?_⟩
  · rw [sendFrame_eq hn]
  · rw [hkept, ← hstored, frame_portDatagram hdata]
  · rw [hkept, ← hstored, ← htx, portDatagram_bytes]
    exact carries_framePacket hn hdata
  · rw [sendFrame_eq hn, ← htx]
    dsimp only
    split_ifs <;> rfl
  · rw [sendFrame_eq hn, ← hlast]
    dsimp only
    split_ifs <;> rfl

/-- A port that streams still does after a send, to the same universe. -/
theorem streaming_sendFrame {dmxData : List UInt8} {n : Nat} (hn : n ≤ 512)
    (h : Streaming cfg i p) :
    Streaming cfg i (sendFrame t sent i dmxData n p).1 ∧
      (sendFrame t sent i dmxData n p).1.tx.dmxUniverse = p.tx.dmxUniverse := by
  rw [sendFrame_eq hn]
  dsimp only
  split_ifs
  · exact ⟨h, rfl⟩
  · exact ⟨⟨h.rx, h.device, h.active, h.length_le⟩, rfl⟩

/-- A cycle that reads nothing. -/
theorem inputPort_nothing (h : Streaming cfg i p) :
    inputPort cfg t .nothing sent i p =
      if KeepaliveDue t p then
        sendFrame t sent i p.frame.data.toList p.frame.length.toNat p
      else (p, []) := by
  simp only [inputPort]
  rw [if_neg (not_lt.mpr h.device), if_neg (not_not_intro h.rx), if_neg (by simp [h.active])]

/-- A cycle that reads a frame. -/
theorem inputPort_frame (h : Streaming cfg i p) (hpos : 0 < bytes.length)
    (hle : bytes.length ≤ 512) :
    inputPort cfg t (.frame bytes hpos hle) sent i p =
      if Repeats t p bytes then (p, [])
      else sendFrame t sent i bytes bytes.length (storeFrame t bytes p) := by
  simp only [inputPort]
  rw [if_neg (not_lt.mpr h.device), if_neg (not_not_intro h.rx), if_neg (by simp [h.active])]

/-- **What one cycle does to a streaming port**: nothing, or it gives the frame that is then the
stored one to `sendto`. -/
theorem inputPort_spec (h : Streaming cfg i p) (read : ReadFrame) :
    (Streaming cfg i (inputPort cfg t read sent i p).1 ∧
        (inputPort cfg t read sent i p).1.tx.dmxUniverse = p.tx.dmxUniverse) ∧
      (Quiet t read p (inputPort cfg t read sent i p) ∨
        ∃ d, Attempt t read sent p (inputPort cfg t read sent i p) d) := by
  -- without a frame the stored one may be due, with one it may repeat the stored one
  cases read with
  | nothing =>
    rw [inputPort_nothing h]
    split_ifs with hdue
    · -- the stored frame once more
      refine ⟨streaming_sendFrame h.length_le h, Or.inr ⟨_, attempt_sendFrame h.length_le ?_ rfl rfl
        ((stored_ne_nil_iff h.length_le).mpr hdue.1) rfl rfl fun _ hsome => ?_⟩⟩
      · rw [Vector.length_toList]
        exact h.length_le
      · cases hsome
    · refine ⟨⟨h, rfl⟩, Or.inl ⟨rfl, fun _ hsome => ?_, fun _ hne => ?_⟩⟩
      · cases hsome
      have hpos := (stored_ne_nil_iff h.length_le).mp hne
      exact UInt32.not_lt.mp fun hold => hdue ⟨hpos, hold⟩
  | frame bytes hpos hle =>
    rw [inputPort_frame h]
    split_ifs with hrepeat
    · refine ⟨⟨h, rfl⟩, Or.inl ⟨rfl, fun b hb => ?_, fun hnone => ?_⟩⟩
      · obtain rfl := Option.some.inj hb
        exact (repeats_iff h.length_le).mp hrepeat
      · cases hnone
    · -- the new frame
      have hstored : (storeFrame t bytes p).stored = bytes := stored_storeFrame hle
      refine ⟨streaming_sendFrame hle (streaming_storeFrame h hle), Or.inr ⟨_, attempt_sendFrame
        hle le_rfl ?_ ?_ ?_ storeFrame_tx storeFrame_lastSend fun b hb => ?_⟩⟩
      · rw [hstored, List.take_length]
      · exact hstored
      · rw [hstored]
        exact List.length_pos_iff.mp hpos
      · obtain rfl := Option.some.inj hb
        rwa [← repeats_iff h.length_le]

end

/-! ## Runs -/

/-- The frames read on a port. -/
def framesRead (i : Port) (es : List InputCycle) : List (List UInt8) :=
  es.filterMap fun e => (e.reads i).bytes?

/-- The packets of a port that `sendto` takes in one cycle. -/
def sentIn (cfg : NodeConfig) (i : Port) (st : InputState) (e : InputCycle) : List Datagram :=
  (ofPort i (dmxInputCycle cfg st e).2).filter fun d => 0 ≤ d.sent

/-- The packets of a port that `sendto` has taken. -/
def sentPackets (cfg : NodeConfig) (i : Port) (st : InputState) (es : List InputCycle) :
    List Datagram :=
  (ofPort i (trace (dmxInputCycle cfg) st es)).filter fun d => 0 ≤ d.sent

/-- When the last packet was sent, or zero. -/
def lastSendTime (sent : List Datagram) : UInt32 := (sent.getLast?.map Datagram.t).getD 0

/-- What a run leaves of the packets sent and the frames read. -/
structure Streamed (cfg : NodeConfig) (i : Port) (st : InputState) (es : List InputCycle)
    (p : InPort) : Prop where
  streaming : Streaming cfg i p
  dmxUniverse : p.tx.dmxUniverse = (cfg.ports i).dmxUniverse
  sequence : p.tx.sequence = UInt8.ofNat (sentPackets cfg i st es).length
  stored : p.stored = (framesRead i es).getLast?.getD []
  lastSend : p.lastSend = lastSendTime (sentPackets cfg i st es)

section

variable {cfg : NodeConfig} {i : Port} {st : InputState} {es : List InputCycle} {e : InputCycle}
  {p : InPort}

/-- One more cycle reads at most one more frame. -/
theorem framesRead_concat :
    framesRead i (es ++ [e]) = framesRead i es ++ (e.reads i).bytes?.toList := by
  unfold framesRead
  rw [List.filterMap_append]
  cases h : (e.reads i).bytes? with
  | none => simp [h]
  | some bytes => simp [h]

/-- The last frame read is that of the last cycle, or the one before it where it read none. -/
theorem getLast?_framesRead_concat :
    (framesRead i (es ++ [e])).getLast?.getD []
      = (e.reads i).bytes?.getD ((framesRead i es).getLast?.getD []) := by
  rw [framesRead_concat]
  cases (e.reads i).bytes? with
  | none => simp
  | some bytes => simp

/-- One more cycle sends what it sends from the state reached. -/
theorem sentPackets_concat :
    sentPackets cfg i st (es ++ [e])
      = sentPackets cfg i st es ++ sentIn cfg i (finalState (dmxInputCycle cfg) st es) e := by
  unfold sentPackets sentIn ofPort
  rw [trace_append, List.filter_append, List.filter_append]
  simp

/-- What a cycle sends on a port are the port's datagrams that the network took. -/
theorem sentIn_eq :
    sentIn cfg i st e
      = (inputPort cfg e.t (e.reads i) (e.sents i) i (st i)).2.filter fun d => 0 ≤ d.sent := by
  unfold sentIn
  rw [(dmxInputCycle_apply cfg st e i).2]

/-- A quiet cycle sends nothing. -/
theorem sentIn_of_quiet
    (h : Quiet e.t (e.reads i) (st i) (inputPort cfg e.t (e.reads i) (e.sents i) i (st i))) :
    sentIn cfg i st e = [] := by
  rw [sentIn_eq, h.unchanged]
  rfl

/-- A cycle that tries to send sends its datagram, or nothing where the network refuses it. -/
theorem sentIn_of_attempt {d : Datagram}
    (h : Attempt e.t (e.reads i) (e.sents i) (st i)
      (inputPort cfg e.t (e.reads i) (e.sents i) i (st i)) d) :
    sentIn cfg i st e = if e.sents i < 0 then [] else [d] := by
  rw [sentIn_eq, h.datagram, List.filter_singleton, h.result]
  split_ifs with hneg
  · rw [decide_eq_false (not_le.mpr hneg)]
    rfl
  · rw [decide_eq_true (not_lt.mp hneg)]
    rfl

/-- The cases of `inputPort_spec`, for a cycle of a run. -/
theorem inputCycle_cases (h : Streaming cfg i (st i)) (e : InputCycle) :
    Quiet e.t (e.reads i) (st i) (inputPort cfg e.t (e.reads i) (e.sents i) i (st i)) ∨
      ∃ d, Attempt e.t (e.reads i) (e.sents i) (st i)
        (inputPort cfg e.t (e.reads i) (e.sents i) i (st i)) d :=
  (inputPort_spec h (e.reads i)).2

/-- A frame read is never empty. -/
theorem ne_nil_of_bytes? {read : ReadFrame} {bytes : List UInt8} (h : read.bytes? = some bytes) :
    bytes ≠ [] := by
  cases read with
  | nothing => cases h
  | frame bytes' hpos hle =>
    obtain rfl := Option.some.inj h
    exact List.length_pos_iff.mp hpos

/-- An empty read is not counted as a frame. -/
theorem ne_nil_of_getLast?_framesRead {frame : List UInt8}
    (h : (framesRead i es).getLast? = some frame) : frame ≠ [] := by
  obtain ⟨e, -, he⟩ := List.mem_filterMap.mp (List.mem_of_getLast? h)
  exact ne_nil_of_bytes? he

/-- A frame that is stored is the last one read. -/
theorem Streamed.getLast?_framesRead (h : Streamed cfg i st es p) (hne : p.stored ≠ []) :
    (framesRead i es).getLast? = some p.stored := by
  rw [h.stored] at hne ⊢
  cases hlast : (framesRead i es).getLast? with
  | none => exact absurd (by rw [hlast]; rfl) hne
  | some frame => rfl

/-- One more cycle. -/
theorem Streamed.concat (h : Streamed cfg i st es (finalState (dmxInputCycle cfg) st es i)) :
    Streamed cfg i st (es ++ [e]) (finalState (dmxInputCycle cfg) st (es ++ [e]) i) := by
  set p := finalState (dmxInputCycle cfg) st es i with hp
  have hnext : finalState (dmxInputCycle cfg) st (es ++ [e]) i
      = (inputPort cfg e.t (e.reads i) (e.sents i) i p).1 := by
    rw [finalState_concat, (dmxInputCycle_apply cfg _ e i).1]
  obtain ⟨⟨hstreaming, huniverse⟩, hcycle⟩ :=
    inputPort_spec h.streaming (e.reads i)
  have hsent : sentPackets cfg i st (es ++ [e])
      = sentPackets cfg i st es ++ sentIn cfg i (finalState (dmxInputCycle cfg) st es) e :=
    sentPackets_concat
  rw [hnext]
  -- the sequence number, the stored frame and the time of the last send, each in both cases
  refine ⟨hstreaming, huniverse.trans h.dmxUniverse, ?_, ?_, ?_⟩
  · rcases hcycle with hquiet | ⟨d, hattempt⟩
    · rw [hsent, sentIn_of_quiet hquiet, List.append_nil, hquiet.unchanged, h.sequence]
    · rw [hsent, sentIn_of_attempt hattempt, hattempt.sequence]
      split_ifs
      · rw [List.append_nil, h.sequence]
      · -- the number wraps with the counter
        rw [List.length_append, List.length_singleton, UInt8.ofNat_add, ← h.sequence]
        rfl
  · rw [getLast?_framesRead_concat, ← h.stored]
    rcases hcycle with hquiet | ⟨d, hattempt⟩
    · rw [hquiet.unchanged]
      cases hread : (e.reads i).bytes? with
      | none => rfl
      | some bytes => exact (hquiet.repeated bytes hread).1.symm
    · exact hattempt.stored
  · rcases hcycle with hquiet | ⟨d, hattempt⟩
    · rw [hsent, sentIn_of_quiet hquiet, List.append_nil, hquiet.unchanged, h.lastSend]
    · rw [hsent, sentIn_of_attempt hattempt, hattempt.lastSend]
      split_ifs
      · rw [List.append_nil, h.lastSend]
      · rw [lastSendTime, List.getLast?_concat, ← hattempt.time]
        rfl

/-- The port as `main` leaves it before its loop. -/
theorem streamed_inputStart {opened sockets : Port → Int}
    (hrx : (cfg.ports i).mode = dmxModeRx) (hopened : 0 ≤ opened i) (hsocket : 0 ≤ sockets i) :
    Streamed cfg i (inputStart cfg opened sockets) [] (inputStart cfg opened sockets i) := by
  have hfd : (if (cfg.ports i).mode = dmxModeOff then -1 else opened i) = opened i :=
    if_neg (by rw [hrx]; decide)
  have hready : 0 ≤ opened i ∧ (cfg.ports i).mode = dmxModeRx := ⟨hopened, hrx⟩
  have hinit : (sacnTxInit (cfg.ports i).dmxUniverse (sourceName i) (sockets i)).1 = 0 :=
    if_neg (not_lt.mpr hsocket)
  have htx : (inputStart cfg opened sockets i).tx
      = (sacnTxInit (cfg.ports i).dmxUniverse (sourceName i) (sockets i)).2 := by
    unfold inputStart
    dsimp only
    rw [hfd, if_pos hready]
  -- the device is open, the transmitter was made, and nothing is stored
  refine ⟨⟨hrx, ?_, ?_, ?_⟩, ?_, ?_, rfl, rfl⟩
  · show 0 ≤ if (cfg.ports i).mode = dmxModeOff then -1 else opened i
    rwa [hfd]
  · unfold inputStart
    dsimp only
    rw [hfd]
    exact decide_eq_true ⟨hready, hinit⟩
  · exact Nat.zero_le 512
  · rw [htx]
    rfl
  · rw [htx]
    rfl

/-- **Every run**: the transmitter counts the packets sent, and the port stores the last frame
read. -/
theorem streamed_run {opened sockets : Port → Int}
    (hrx : (cfg.ports i).mode = dmxModeRx) (hopened : 0 ≤ opened i) (hsocket : 0 ≤ sockets i)
    (es : List InputCycle) :
    Streamed cfg i (inputStart cfg opened sockets) es
      (finalState (dmxInputCycle cfg) (inputStart cfg opened sockets) es i) := by
  induction es using List.reverseRecOn with
  | nil => exact streamed_inputStart hrx hopened hsocket
  | append_singleton es e ih => exact ih.concat

end

/-! ## The stream -/

/-- Every packet sent has the next sequence number, and carries a frame that has been read. -/
def PacketsInOrder (cfg : NodeConfig) (i : Port) (st : InputState) (es : List InputCycle) : Prop :=
  ∀ before e, before ++ [e] <+: es →
    sentIn cfg i (finalState (dmxInputCycle cfg) st before) e = [] ∨
      ∃ d frame, sentIn cfg i (finalState (dmxInputCycle cfg) st before) e = [d] ∧
        frame ∈ framesRead i (before ++ [e]) ∧
        Carries d.bytes (UInt8.ofNat (sentPackets cfg i st before).length)
          (cfg.ports i).dmxUniverse frame

/-- Once a frame has been read, the last packet carries the last frame and is not old. -/
def UpToDate (cfg : NodeConfig) (i : Port) (st : InputState) (es : List InputCycle) : Prop :=
  ∀ before e frame, before ++ [e] <+: es → (framesRead i (before ++ [e])).getLast? = some frame →
    ∃ d sequence, (sentPackets cfg i st (before ++ [e])).getLast? = some d ∧
      Carries d.bytes sequence (cfg.ports i).dmxUniverse frame ∧
      e.t - d.t ≤ sacnKeepaliveMs ∧
      ((before ++ [e]).Pairwise (fun a b => a.t ≤ b.t) →
        d.t ≤ e.t ∧ e.t.toNat - d.t.toNat ≤ sacnKeepaliveMs.toNat)

section

variable {cfg : NodeConfig} {i : Port} {st : InputState} {es : List InputCycle} {e : InputCycle}

/-- The packets of one more cycle of a run. -/
theorem sentIn_of_streamed (h : Streamed cfg i st es (finalState (dmxInputCycle cfg) st es i)) :
    sentIn cfg i (finalState (dmxInputCycle cfg) st es) e = [] ∨
      ∃ d frame, sentIn cfg i (finalState (dmxInputCycle cfg) st es) e = [d] ∧
        frame ∈ framesRead i (es ++ [e]) ∧
        Carries d.bytes (UInt8.ofNat (sentPackets cfg i st es).length)
          (cfg.ports i).dmxUniverse frame := by
  obtain hquiet | ⟨d, hattempt⟩ := inputCycle_cases h.streaming e
  · exact Or.inl (sentIn_of_quiet hquiet)
  · rw [sentIn_of_attempt hattempt]
    split_ifs
    · exact Or.inl rfl
    · have hlast := (h.concat (e := e)).getLast?_framesRead
      rw [finalState_concat, (dmxInputCycle_apply cfg _ e i).1] at hlast
      have hcarries := hattempt.carries
      rw [h.sequence, h.dmxUniverse] at hcarries
      exact Or.inr ⟨d, _, rfl, List.mem_of_getLast? (hlast hattempt.stored_ne), hcarries⟩

/-- The packets of a run are sent at the times of its cycles. -/
theorem exists_cycle_of_mem_sentPackets
    (h : ∀ before, before <+: es → Streaming cfg i (finalState (dmxInputCycle cfg) st before i))
    {d : Datagram} (hd : d ∈ sentPackets cfg i st es) : ∃ e ∈ es, d.t = e.t := by
  induction es using List.reverseRecOn with
  | nil => cases hd
  | append_singleton es e ih =>
    rw [sentPackets_concat, List.mem_append] at hd
    rcases hd with hd | hd
    · obtain ⟨e', he', ht⟩ := ih (fun b hb => h b (hb.trans (List.prefix_append es [e]))) hd
      exact ⟨e', List.mem_append_left [e] he', ht⟩
    · refine ⟨e, by simp, ?_⟩
      obtain hquiet | ⟨d', hattempt⟩ := inputCycle_cases (h es (List.prefix_append es [e])) e
      · rw [sentIn_of_quiet hquiet] at hd
        cases hd
      · rw [sentIn_of_attempt hattempt] at hd
        split_ifs at hd
        · cases hd
        · obtain rfl := List.mem_singleton.mp hd
          exact hattempt.time

/-- The last packet sent carries the stored frame, if there is one. -/
def Current (cfg : NodeConfig) (i : Port) (sent : List Datagram) (p : InPort) : Prop :=
  p.stored ≠ [] → ∃ d sequence, sent.getLast? = some d ∧
    Carries d.bytes sequence (cfg.ports i).dmxUniverse p.stored

/-- A cycle whose packet is taken leaves the stream current, and the last packet young. -/
theorem current_concat (h : Streamed cfg i st es (finalState (dmxInputCycle cfg) st es i))
    (hcurrent : Current cfg i (sentPackets cfg i st es) (finalState (dmxInputCycle cfg) st es i))
    (hsent : 0 ≤ e.sents i) :
    Current cfg i (sentPackets cfg i st (es ++ [e]))
        (finalState (dmxInputCycle cfg) st (es ++ [e]) i) ∧
      ∀ frame d, (framesRead i (es ++ [e])).getLast? = some frame →
        (sentPackets cfg i st (es ++ [e])).getLast? = some d → e.t - d.t ≤ sacnKeepaliveMs := by
  obtain hquiet | ⟨d, hattempt⟩ := inputCycle_cases h.streaming e
  -- a quiet cycle: the last packet still shows the stored frame and is young enough
  · rw [sentPackets_concat, sentIn_of_quiet hquiet, List.append_nil, finalState_concat,
      (dmxInputCycle_apply cfg _ e i).1, hquiet.unchanged]
    refine ⟨hcurrent, fun frame d hframe hlast => ?_⟩
    have htime : d.t = (finalState (dmxInputCycle cfg) st es i).lastSend := by
      rw [h.lastSend, lastSendTime, hlast]
      rfl
    rw [htime]
    cases hread : (e.reads i).bytes? with
    | none =>
      refine hquiet.young hread fun hnil => ?_
      rw [framesRead_concat, hread, Option.toList_none, List.append_nil] at hframe
      rw [h.stored, hframe] at hnil
      exact ne_nil_of_getLast?_framesRead hframe hnil
    | some bytes => exact UInt32.le_of_lt (hquiet.repeated bytes hread).2
  -- a cycle that sends: its packet is the last one, and of this moment
  · have hlast : (sentPackets cfg i st (es ++ [e])).getLast? = some d := by
      rw [sentPackets_concat, sentIn_of_attempt hattempt, if_neg (not_lt.mpr hsent),
        List.getLast?_concat]
    have hcarries := hattempt.carries
    rw [h.dmxUniverse] at hcarries
    rw [finalState_concat, (dmxInputCycle_apply cfg _ e i).1]
    refine ⟨fun _ => ⟨d, _, hlast, hcarries⟩, fun frame d' _ hd' => ?_⟩
    obtain rfl := Option.some.inj (hlast.symm.trans hd')
    rw [hattempt.time, UInt32.sub_self]
    decide

end

/-- **The stream of an RX port.** In every run the packets sent are numbered without a gap and each
carries a frame that has been read; in a run in which none is lost, the last one is up to date. -/
theorem streamLaw (cfg : NodeConfig) (i : Port) (opened sockets : Port → Int)
    (es : List InputCycle) (hrx : (cfg.ports i).mode = dmxModeRx) (hopened : 0 ≤ opened i)
    (hsocket : 0 ≤ sockets i) :
    PacketsInOrder cfg i (inputStart cfg opened sockets) es ∧
      ((∀ e ∈ es, 0 ≤ e.sents i) → UpToDate cfg i (inputStart cfg opened sockets) es) := by
  set st := inputStart cfg opened sockets with hst
  have hrun : ∀ xs, Streamed cfg i st xs (finalState (dmxInputCycle cfg) st xs i) :=
    streamed_run hrx hopened hsocket
  refine ⟨fun before e _ => sentIn_of_streamed (hrun before), fun htaken => ?_⟩
  -- while no packet is refused, the last one shows what is stored
  have hcurrent : ∀ xs, xs <+: es →
      Current cfg i (sentPackets cfg i st xs) (finalState (dmxInputCycle cfg) st xs i) := by
    intro xs
    induction xs using List.reverseRecOn with
    | nil => exact fun _ hne => absurd rfl hne
    | append_singleton xs e ih =>
      intro hpre
      have hsent := htaken e (hpre.subset (by simp))
      exact (current_concat (hrun xs) (ih ((List.prefix_append xs [e]).trans hpre)) hsent).1
  intro before e frame hpre hframe
  have hbefore := hcurrent before ((List.prefix_append before [e]).trans hpre)
  have hsent := htaken e (hpre.subset (by simp))
  obtain ⟨hnext, hyoung⟩ := current_concat (hrun before) hbefore hsent
  have hstored : (finalState (dmxInputCycle cfg) st (before ++ [e]) i).stored = frame := by
    rw [(hrun (before ++ [e])).stored, hframe]
    rfl
  rw [Current, hstored] at hnext
  obtain ⟨d, sequence, hlast, hcarries⟩ := hnext (ne_nil_of_getLast?_framesRead hframe)
  have hage := hyoung frame d hframe hlast
  refine ⟨d, sequence, hlast, hcarries, hage, fun hclock => ?_⟩
  obtain ⟨e', he', ht⟩ := exists_cycle_of_mem_sentPackets
    (fun xs _ => (hrun xs).streaming) (List.mem_of_getLast? hlast)
  have hle : d.t ≤ e.t := by
    rw [ht]
    rcases List.mem_append.mp he' with he' | he'
    · exact (List.pairwise_append.mp hclock).2.2 e' he' e (by simp)
    · rw [List.mem_singleton.mp he']
      exact UInt32.le_refl e.t
  refine ⟨hle, ?_⟩
  rw [← UInt32.toNat_sub_of_le e.t d.t hle]
  exact UInt32.le_iff_toNat_le.mp hage

/-- Both ports receive. -/
def rxConfig : NodeConfig :=
  { configDefaults with ports := fun i => { configDefaults.ports i with mode := dmxModeRx } }

/-- A frame of one channel. -/
def rxFrame (level : UInt8) : ReadFrame := .frame [level] (by simp) (by simp)

/-- A cycle in which both ports read the same. -/
def rxCycle (t : UInt32) (read : ReadFrame) (sent : Int) : InputCycle where
  t := t
  reads := fun _ => read
  sents := fun _ => sent

/-- A frame, and silence until it has to be repeated. -/
def rxRun : List InputCycle :=
  [rxCycle 1000 (rxFrame 10) 127, rxCycle 1500 .nothing 127, rxCycle 2000 .nothing 127]

/-- The packets of the example run come in order and up to date. -/
theorem streamLaw_rxRun :
    PacketsInOrder rxConfig 0 (inputStart rxConfig (fun _ => 3) fun _ => 4) rxRun ∧
      UpToDate rxConfig 0 (inputStart rxConfig (fun _ => 3) fun _ => 4) rxRun := by
  obtain ⟨horder, hdate⟩ :=
    streamLaw rxConfig 0 (fun _ => 3) (fun _ => 4) rxRun rfl (by decide) (by decide)
  exact ⟨horder, hdate (by simp [rxRun, rxCycle])⟩

/-! ## Changed frames -/

/-- The last frame sent. -/
def lastSent (cfg : NodeConfig) (i : Port) (st : InputState) (es : List InputCycle) :
    Option (List UInt8) :=
  (sentPackets cfg i st es).getLast?.map Datagram.frame

/-- A frame that is not the last one sent is given to `sendto`, whether or not `sendto` takes
it. -/
def AttemptsChanges (cfg : NodeConfig) (i : Port) (st : InputState) (es : List InputCycle) :
    Prop :=
  ∀ before e bytes, before ++ [e] <+: es → (e.reads i).bytes? = some bytes →
    lastSent cfg i st before ≠ some bytes →
    ∃ d ∈ ofPort i (dmxInputCycle cfg (finalState (dmxInputCycle cfg) st before) e).2,
      d.frame = bytes

/-- The cycle after `es` reads once more a frame that was lost, soon after the last packet. -/
def RepeatsLost (cfg : NodeConfig) (i : Port) (st : InputState) (es : List InputCycle)
    (e : InputCycle) : Prop :=
  ∃ bytes, (e.reads i).bytes? = some bytes ∧ (framesRead i es).getLast? = some bytes ∧
    lastSent cfg i st es ≠ some bytes ∧
    e.t - lastSendTime (sentPackets cfg i st es) < sacnKeepaliveMs

/-- Every frame that is not the last one sent gets sent. -/
def SendsChanges (cfg : NodeConfig) (i : Port) (st : InputState) (es : List InputCycle) : Prop :=
  ∀ before e bytes, before ++ [e] <+: es → (e.reads i).bytes? = some bytes →
    lastSent cfg i st before ≠ some bytes → 0 ≤ e.sents i

section

variable {cfg : NodeConfig} {i : Port} {st : InputState} {es : List InputCycle} {e : InputCycle}
  {bytes : List UInt8}

/-- A frame is given to `sendto` unless it is the stored one, read soon after the last packet. -/
theorem attempts_iff (h : Streaming cfg i (st i)) (hread : (e.reads i).bytes? = some bytes) :
    (∃ d ∈ ofPort i (dmxInputCycle cfg st e).2, d.frame = bytes) ↔
      ¬ (bytes = (st i).stored ∧ e.t - (st i).lastSend < sacnKeepaliveMs) := by
  rw [(dmxInputCycle_apply cfg st e i).2]
  obtain hquiet | ⟨d, hattempt⟩ := inputCycle_cases h e
  · refine iff_of_false ?_ (not_not_intro (hquiet.repeated bytes hread))
    rintro ⟨d, hd, -⟩
    rw [hquiet.unchanged] at hd
    cases hd
  · refine iff_of_true ⟨d, ?_, ?_⟩ (hattempt.changed bytes hread)
    · rw [hattempt.datagram]
      exact List.mem_singleton_self d
    · rw [hattempt.frame, hattempt.stored, hread, Option.getD_some]

/-- The stored frame of a run is the last one read. -/
theorem stored_eq_iff (h : Streamed cfg i st es (finalState (dmxInputCycle cfg) st es i))
    (hread : (e.reads i).bytes? = some bytes) :
    bytes = (finalState (dmxInputCycle cfg) st es i).stored ↔
      (framesRead i es).getLast? = some bytes := by
  rw [h.stored]
  cases (framesRead i es).getLast? with
  | none => exact iff_of_false (ne_nil_of_bytes? hread) (by simp)
  | some frame =>
    rw [Option.getD_some, Option.some_inj]
    exact eq_comm

/-- A run leaves out no changed frame as long as no lost frame is repeated. -/
theorem attemptsChanges_iff_of_streamed
    (hrun : ∀ xs, Streamed cfg i st xs (finalState (dmxInputCycle cfg) st xs i)) :
    AttemptsChanges cfg i st es ↔
      ∀ before e, before ++ [e] <+: es → ¬ RepeatsLost cfg i st before e := by
  constructor
  · rintro h before e hpre ⟨bytes, hread, hlast, hchanged, hrecent⟩
    refine (attempts_iff (hrun before).streaming hread).mp
      (h before e bytes hpre hread hchanged) ⟨?_, ?_⟩
    · exact (stored_eq_iff (hrun before) hread).mpr hlast
    · rwa [(hrun before).lastSend]
  · intro h before e bytes hpre hread hchanged
    refine (attempts_iff (hrun before).streaming hread).mpr fun ⟨hstored, hrecent⟩ => ?_
    rw [(hrun before).lastSend] at hrecent
    exact h before e hpre
      ⟨bytes, hread, (stored_eq_iff (hrun before) hread).mp hstored, hchanged, hrecent⟩

/-- A packet that is not taken is not the last one sent. -/
theorem sentPackets_of_lost (h : Streamed cfg i st es (finalState (dmxInputCycle cfg) st es i))
    (hlost : e.sents i < 0) : sentPackets cfg i st (es ++ [e]) = sentPackets cfg i st es := by
  rw [sentPackets_concat]
  obtain hquiet | ⟨d, hattempt⟩ := inputCycle_cases h.streaming e
  · rw [sentIn_of_quiet hquiet, List.append_nil]
  · rw [sentIn_of_attempt hattempt, if_pos hlost, List.append_nil]

/-- A cycle that sends what has changed leaves the last frame read sent. -/
theorem lastSent_concat (h : Streamed cfg i st es (finalState (dmxInputCycle cfg) st es i))
    (hlast : lastSent cfg i st es = (framesRead i es).getLast?)
    (hsend : ∀ bytes, (e.reads i).bytes? = some bytes → lastSent cfg i st es ≠ some bytes →
      0 ≤ e.sents i) :
    lastSent cfg i st (es ++ [e]) = (framesRead i (es ++ [e])).getLast? := by
  have hread : (framesRead i (es ++ [e])).getLast?
      = (e.reads i).bytes?.or (lastSent cfg i st es) := by
    rw [framesRead_concat, hlast]
    cases (e.reads i).bytes? <;> simp
  rw [hread, lastSent, sentPackets_concat]
  -- the last level sent is the last one read, also where nothing is sent
  obtain hquiet | ⟨d, hattempt⟩ := inputCycle_cases h.streaming e
  · rw [sentIn_of_quiet hquiet, List.append_nil, ← lastSent]
    cases hbytes : (e.reads i).bytes? with
    | none => rfl
    | some bytes =>
      rw [hlast]
      exact (stored_eq_iff h hbytes).mp (hquiet.repeated bytes hbytes).1
  · rw [sentIn_of_attempt hattempt]
    split_ifs with hlost
    · -- a lost packet repeats the last one, or the cycle would have had to send it
      rw [List.append_nil, ← lastSent]
      cases hbytes : (e.reads i).bytes? with
      | none => rfl
      | some bytes =>
        exact not_not.mp fun hne => absurd hlost (not_lt.mpr (hsend bytes hbytes hne))
    · rw [List.getLast?_concat, Option.map_some, hattempt.frame, hattempt.stored]
      cases hbytes : (e.reads i).bytes? with
      | some bytes => rfl
      | none =>
        have hne := hattempt.stored_ne
        rw [hattempt.stored, hbytes] at hne
        rw [Option.none_or, hlast]
        exact (h.getLast?_framesRead hne).symm

/-- As long as every changed frame gets sent, the last frame read is the last one sent. -/
theorem lastSent_eq_of_sent
    (hrun : ∀ xs, Streamed cfg i st xs (finalState (dmxInputCycle cfg) st xs i))
    (hsend : SendsChanges cfg i st es) : lastSent cfg i st es = (framesRead i es).getLast? := by
  suffices ∀ xs, xs <+: es → lastSent cfg i st xs = (framesRead i xs).getLast? from
    this es List.prefix_rfl
  intro xs
  induction xs using List.reverseRecOn with
  | nil => exact fun _ => rfl
  | append_singleton xs e ih =>
    intro hpre
    have hbefore := ih ((List.prefix_append xs [e]).trans hpre)
    exact lastSent_concat (hrun xs) hbefore fun bytes => hsend xs e bytes hpre

/-- **When no cycle can repeat a lost frame**, at any point of a run: when every changed frame gets
sent. -/
theorem not_repeatsLost_iff
    (hrun : ∀ xs, Streamed cfg i st xs (finalState (dmxInputCycle cfg) st xs i)) :
    (∀ before, before <+: es → ∀ next, ¬ RepeatsLost cfg i st before next) ↔
      SendsChanges cfg i st es := by
  constructor
  · intro h before e bytes hpre hread hchanged
    refine not_lt.mp fun hlost => ?_
    have hsent := sentPackets_of_lost (hrun before) hlost
    -- the lost frame once more, at the time of the last packet
    refine h (before ++ [e]) hpre
      { e with t := lastSendTime (sentPackets cfg i st (before ++ [e])) }
      ⟨bytes, hread, ?_, ?_, ?_⟩
    · rw [framesRead_concat, hread]
      simp
    · rwa [lastSent, hsent]
    · rw [UInt32.sub_self]
      decide
  · rintro h before hpre next ⟨bytes, -, hlast, hchanged, -⟩
    refine hchanged (Eq.trans (lastSent_eq_of_sent hrun ?_) hlast)
    exact fun xs e bytes hxs => h xs e bytes (hxs.trans hpre)

end

/-- **Which runs leave out no changed frame**: those in which no lost frame is repeated. -/
theorem attemptsChanges_iff (cfg : NodeConfig) (i : Port) (opened sockets : Port → Int)
    (es : List InputCycle) (hrx : (cfg.ports i).mode = dmxModeRx) (hopened : 0 ≤ opened i)
    (hsocket : 0 ≤ sockets i) :
    AttemptsChanges cfg i (inputStart cfg opened sockets) es ↔
      ∀ before e, before ++ [e] <+: es →
        ¬ RepeatsLost cfg i (inputStart cfg opened sockets) before e :=
  attemptsChanges_iff_of_streamed (streamed_run hrx hopened hsocket)

/-- In the example run every change is tried at once: the network takes each packet. -/
theorem attemptsChanges_rxRun :
    AttemptsChanges rxConfig 0 (inputStart rxConfig (fun _ => 3) fun _ => 4) rxRun := by
  refine (attemptsChanges_iff rxConfig 0 (fun _ => 3) (fun _ => 4) rxRun rfl (by decide)
    (by decide)).mpr fun before e hpre => ?_
  -- every packet of the run is taken
  refine (not_repeatsLost_iff (streamed_run rfl (by decide) (by decide))).mpr
    (fun xs e' bytes hxs _ _ => ?_) before ((List.prefix_append before [e]).trans hpre) e
  have htaken : ∀ e ∈ rxRun, 0 ≤ e.sents 0 := by simp [rxRun, rxCycle]
  exact htaken e' (hxs.subset (by simp))

/-- A frame whose packet is lost, and which is read once more 23 ms later, is left out. -/
theorem attemptsChanges_lost :
    ¬ AttemptsChanges rxConfig 0 (inputStart rxConfig (fun _ => 3) fun _ => 4)
      [rxCycle 1000 (rxFrame 10) 127, rxCycle 1023 (rxFrame 20) (-1),
        rxCycle 1046 (rxFrame 20) 127] := by
  set st := inputStart rxConfig (fun _ => 3) fun _ => 4 with hst
  have hrun : ∀ xs, Streamed rxConfig 0 st xs (finalState (dmxInputCycle rxConfig) st xs 0) :=
    streamed_run rfl (by decide) (by decide)
  have hfirst : lastSent rxConfig 0 st [rxCycle 1000 (rxFrame 10) 127] = some [10] := by
    refine lastSent_concat (hrun []) rfl fun _ _ _ => ?_
    decide
  obtain ⟨d, hlast, -⟩ := Option.map_eq_some_iff.mp hfirst
  have htime : d.t = 1000 := by
    obtain ⟨e, he, ht⟩ := exists_cycle_of_mem_sentPackets (fun xs _ => (hrun xs).streaming)
      (List.mem_of_getLast? hlast)
    rw [ht, List.mem_singleton.mp he]
    rfl
  -- the second packet is refused, so the last one sent still has the first level
  have hlost : sentPackets rxConfig 0 st
      ([rxCycle 1000 (rxFrame 10) 127] ++ [rxCycle 1023 (rxFrame 20) (-1)])
      = sentPackets rxConfig 0 st [rxCycle 1000 (rxFrame 10) 127] :=
    sentPackets_of_lost (hrun _) (by decide)
  rw [attemptsChanges_iff_of_streamed hrun]
  intro h
  -- the third cycle reads the same frame again and takes it for a repetition
  refine h ([rxCycle 1000 (rxFrame 10) 127] ++ [rxCycle 1023 (rxFrame 20) (-1)])
    (rxCycle 1046 (rxFrame 20) 127) List.prefix_rfl ⟨[20], rfl, rfl, ?_, ?_⟩
  · rw [lastSent, hlost, ← lastSent, hfirst]
    decide
  · rw [hlost, lastSendTime, hlast, Option.map_some, htime]
    decide

end SN110
