import SN110.Lib.Merging
import SN110.Daemon.Main
import SN110.Daemon.Levels

/-!
# The daemon as a merging output

What `main` does for a TX port, without descriptors, arrays and clocks of 32 bits, is what a merging
output does: `Merging.step` on the packets that reach the port, those of Art-Net and ShowNet under
rank 0, with `SACN_TIMEOUT_MS` as its takeover time.

* `Merged` ties a stored frame to the updates that are live.
* `main_merges`: in every run whose readings go forward within one epoch of the counter, the daemon
  writes to the port what the output shows, and nothing else.

## The invariant

`Merged f live` says of a stored frame that its levels are those of the live updates, and its rank
and its time those of the leading one. A packet keeps it (`offer_step`) because the comparisons of
the handlers on 32-bit times are those of the output on its own clock: `Clocked` keeps the
differences below the wrap of the counter, and `Leading` says that the leading update is no later
than the readings to come. A pass is then one round (`merges_mainPass`), and a run follows by
induction.
-/

namespace SN110

open Run

/-! ## The abstract output -/

abbrev SlotUpdate := Merging.Update (Fin dmxUniverseSize) UInt8 UInt8

abbrev SlotOffer := Merging.Offer (Fin dmxUniverseSize) UInt8 UInt8

abbrev SlotRound := Merging.Round (Fin dmxUniverseSize) UInt8 UInt8

/-- The levels of the first `length` slots. -/
def slotLevels (data : Slots) (length : UInt16) (c : Fin dmxUniverseSize) : Option UInt8 :=
  if c.val < length.toNat then some (data.get c) else none

/-- What an event offers port `i`. -/
def Event.offer (cfg : NodeConfig) (i : Port) : Event → Option SlotOffer
  | .sacn pkt clk =>
    if pkt.startCode = 0 ∧ Routed cfg pkt.dmxUniverse i then
      some { levels := slotLevels pkt.dmxData pkt.dmxLength, rank := pkt.priority,
             time := clk.store i, asked := clk.check i }
    else none
  | .artnet pkt clk =>
    if Routed cfg pkt.dmxUniverse i then
      some { levels := slotLevels pkt.dmxData pkt.dmxLength, rank := 0, time := clk.store i,
             asked := clk.store i }
    else none
  | .shownet pkt clk =>
    if Routed cfg (shownetUniverse pkt.netSlot) i then
      some { levels := slotLevels pkt.dmxData pkt.dmxLength, rank := 0, time := clk.store i,
             asked := clk.store i }
    else none
  | .outputCycle .. => none

/-- A pass, as port `i` sees it. -/
def passRound (cfg : NodeConfig) (i : Port) (n : Node) (p : Pass) : SlotRound where
  offer := (packetEvents n p).findSome? (Event.offer cfg i)
  tick := p.outMs

def mergeTiming (cfg : NodeConfig) : Merging.Timing where
  takeover := sacnTimeoutMs.toNat
  hold := cfg.dmxHoldTime.toNat * 1000

/-- A frame of an abstract output. -/
def slotsOf (levels : Fin dmxUniverseSize → UInt8) : Slots := Vector.ofFn levels

/-- What the abstract output makes of a run. -/
abbrev mergeStep (cfg : NodeConfig) (live : List SlotUpdate) (r : SlotRound) :
    List SlotUpdate × List (Fin dmxUniverseSize → UInt8) :=
  Merging.step (mergeTiming cfg) 0 live r

/-! ## Clocks -/

/-- The readings of the clock that a pass makes for a port. -/
def portReadings (i : Port) (p : Pass) : List Nat := [p.clk.check i, p.clk.store i, p.outMs]

/-- The readings for the port go forward, between two moments at which the counter is 0, no two
passes store in one millisecond, and the device of the port opens. -/
structure Clocked (i : Port) (q : Nat) (ps : List Pass) : Prop extends Paced i q ps where
  forward : (ps.flatMap (portReadings i)).Pairwise (· ≤ ·)
  within : ∀ p ∈ ps, ∀ r ∈ portReadings i p, q * 2 ^ 32 < r ∧ r < (q + 1) * 2 ^ 32

/-- Less than 2^32 ms apart, the wrapping difference compares like the moments themselves. -/
theorem nowMs_sub_gt_iff {a b : Nat} (hle : b ≤ a) (hlt : a - b < 2 ^ 32) (age : UInt32) :
    nowMs a - nowMs b > age ↔ age.toNat < a - b := by
  have hsub := nowMs_sub_toNat a b
  rw [gt_iff_lt, UInt32.lt_iff_toNat_lt]
  omega

section

variable {cfg : NodeConfig} {i : Port} {n : Node} {p : Pass} {ps : List Pass} {q : Nat}
  {live : List SlotUpdate}

theorem Clocked.of_cons (h : Clocked i q (p :: ps)) : Clocked i q ps where
  toPaced := h.toPaced.of_cons
  forward := by
    have hforward := h.forward
    rw [List.flatMap_cons, List.pairwise_append] at hforward
    exact hforward.2.1
  within := fun p' hp' => h.within p' (List.mem_cons_of_mem p hp')

/-- The readings of a pass, in their order and before those of the passes behind it. -/
theorem Clocked.head (h : Clocked i q (p :: ps)) :
    p.clk.check i ≤ p.clk.store i ∧ p.clk.store i ≤ p.outMs ∧
      ∀ p' ∈ ps, ∀ r ∈ portReadings i p', p.clk.store i ≤ r := by
  have hforward := h.forward
  rw [List.flatMap_cons, List.pairwise_append] at hforward
  obtain ⟨hpass, -, hlater⟩ := hforward
  simp only [portReadings, List.pairwise_cons, List.mem_cons, List.not_mem_nil, or_false,
    forall_eq_or_imp, forall_eq] at hpass
  refine ⟨hpass.1.1, hpass.2.1, fun p' hp' r hr => ?_⟩
  exact hlater _ (by simp [portReadings]) r (List.mem_flatMap.mpr ⟨p', hp', hr⟩)

/-- The leading update is no later than what the passes read, and of their epoch. -/
def Leading (i : Port) (q : Nat) (ps : List Pass) (live : List SlotUpdate) : Prop :=
  ∀ u ∈ live.head?, q * 2 ^ 32 < u.time ∧ u.time < (q + 1) * 2 ^ 32 ∧
    ∀ p ∈ ps, ∀ r ∈ portReadings i p, u.time ≤ r

theorem Leading.of_cons (h : Leading i q (p :: ps) live) : Leading i q ps live := fun u hu =>
  ⟨(h u hu).1, (h u hu).2.1, fun p' hp' => (h u hu).2.2 p' (List.mem_cons_of_mem p hp')⟩

theorem leading_nil : Leading i q ps [] := by
  intro u hu
  cases hu

/-- How old the leading update is at a reading of the pass. -/
theorem Leading.age (h : Leading i q (p :: ps) live) (hclocked : Clocked i q (p :: ps))
    {u : SlotUpdate} (hu : u ∈ live.head?) {r : Nat} (hr : r ∈ portReadings i p) (age : UInt32) :
    nowMs r - nowMs u.time > age ↔ age.toNat < r - u.time := by
  obtain ⟨hlow, -, hle⟩ := h u hu
  have hhigh := (hclocked.within p List.mem_cons_self r hr).2
  exact nowMs_sub_gt_iff (hle p List.mem_cons_self r hr) (by omega) age

/-! ## A stored frame and the live updates -/

/-- The stored priority and stamp are those of the leading update; both are 0 when there is none. -/
def LeadIs (f : DmxFrame) : Option SlotUpdate → Prop
  | none => f.priority = 0 ∧ f.lastUpdateMs = 0
  | some u => f.priority = u.rank ∧ f.lastUpdateMs = nowMs u.time

/-- The frame shows the live updates. -/
structure Merged (f : DmxFrame) (live : List SlotUpdate) : Prop where
  levels : ∀ c : Fin dmxUniverseSize, f.data.get c = Merging.shown 0 live c
  lead : LeadIs f live.head?

/-- A merged frame shows what the updates kept leave in each slot. -/
theorem Merged.data (h : Merged f live) : f.data = slotsOf (Merging.shown 0 live) := by
  apply Vector.ext
  intro c hc
  rw [slotsOf, Vector.getElem_ofFn]
  exact h.levels ⟨c, hc⟩

/-- The update that a packet is joins the live ones. -/
theorem Merged.store {f f' : DmxFrame} (h : Merged f live) {data : Slots} {length : UInt16}
    {rank : UInt8} {time : Nat} (hdata : f'.data = memcpySlots f.data data length.toNat)
    (hrank : f'.priority = rank) (hstamp : f'.lastUpdateMs = nowMs time) :
    Merged f' (⟨slotLevels data length, rank, time⟩ :: live) where
  levels := by
    intro c
    have hcopy := getElem_memcpySlots f.data data length.toNat c.val c.isLt
    rw [hdata, Merging.shown_cons, ← h.levels c]
    refine hcopy.trans ?_
    show _ = (slotLevels data length c).getD (f.data.get c)
    unfold slotLevels
    split_ifs <;> rfl
  lead := ⟨hrank, hstamp⟩

theorem blankFrame_eq : blankFrame = slotsOf fun _ => 0 := by
  apply Vector.ext
  intro c hc
  rw [slotsOf, Vector.getElem_ofFn]
  exact blankFrame_apply ⟨c, hc⟩

/-- A frame blanked with priority and time cleared merges no update. -/
theorem merged_blank (f : DmxFrame) :
    Merged { f with data := blankFrame, lastUpdateMs := 0, priority := 0 } [] where
  levels := fun c => blankFrame_apply c
  lead := ⟨rfl, rfl⟩

/-! ## One packet -/

/-- Without sACN no packet has a rank. -/
def Unranked (n : Node) (live : List SlotUpdate) : Prop :=
  n.sockets.sacn < 0 → ∀ u ∈ live.head?, u.rank = 0

/-- On a node without an sACN socket every offer of rank 0 is taken. -/
theorem Unranked.takes (h : Unranked n live) (hclosed : n.sockets.sacn < 0) {o : SlotOffer}
    (hzero : o.rank = 0) : Merging.Takes (mergeTiming cfg) live o := by
  intro u hu
  rw [h hclosed u hu, hzero]
  exact Or.inl (UInt8.le_refl 0)

/-- Where no update had a rank, the frame's priority is 0. -/
theorem Merged.priority_eq_zero {f : DmxFrame} (h : Merged f live)
    (hzero : ∀ u ∈ live.head?, u.rank = 0) : f.priority = 0 := by
  cases live with
  | nil => exact h.lead.1
  | cons u live =>
    have hprio : f.priority = u.rank := h.lead.1
    rw [hprio, hzero u rfl]

/-- The sACN socket is open for an sACN packet, and closed for the others. -/
def Event.ComesThrough (n : Node) : Event → Prop
  | .sacn _ _ => 0 ≤ n.sockets.sacn
  | .artnet _ _ | .shownet _ _ => n.sockets.sacn < 0
  | .outputCycle .. => False

/-- An event of a pass comes through the one socket that is open. -/
theorem comesThrough_of_mem {e : Event} (hone : n.sockets.OneOpen) (he : e ∈ packetEvents n p) :
    e.ComesThrough n := by
  rcases packetEvents_cases he with ⟨hopen, pkt, rfl⟩ | ⟨hopen, pkt, rfl⟩ | ⟨hopen, pkt, rfl⟩
  · exact hopen
  · exact hone.sacn_artnet.resolve_right (not_lt.mpr hopen)
  · exact hone.sacn_shownet.resolve_right (not_lt.mpr hopen)

/-- The readings that a pass hands to its packets. -/
def Event.ReadBy (p : Pass) : Event → Prop
  | .sacn _ clk | .artnet _ clk | .shownet _ clk => clk = p.clk
  | .outputCycle .. => False

/-- An event of a pass is what the pass read. -/
theorem readBy_of_mem {e : Event} (he : e ∈ packetEvents n p) : e.ReadBy p := by
  rcases packetEvents_cases he with ⟨-, pkt, rfl⟩ | ⟨-, pkt, rfl⟩ | ⟨-, pkt, rfl⟩ <;> rfl

/-- The times and the rank of an offer. -/
theorem offer_reads {e : Event} {o : SlotOffer} (hcomes : e.ComesThrough n) (hread : e.ReadBy p)
    (hclock : p.clk.check i ≤ p.clk.store i) (ho : e.offer cfg i = some o) :
    o.time = p.clk.store i ∧ o.asked ≤ o.time ∧ (n.sockets.sacn < 0 → o.rank = 0) := by
  -- each handler stamps with the pass's own clock
  cases e with
  | sacn pkt clk =>
    obtain rfl : clk = p.clk := hread
    obtain ⟨-, rfl⟩ := Option.ite_some_none_eq_some.mp ho
    exact ⟨rfl, hclock, fun hclosed => absurd hcomes (not_le.mpr hclosed)⟩
  | artnet pkt clk =>
    obtain rfl : clk = p.clk := hread
    obtain ⟨-, rfl⟩ := Option.ite_some_none_eq_some.mp ho
    exact ⟨rfl, Nat.le_refl _, fun _ => rfl⟩
  | shownet pkt clk =>
    obtain rfl : clk = p.clk := hread
    obtain ⟨-, rfl⟩ := Option.ite_some_none_eq_some.mp ho
    exact ⟨rfl, Nat.le_refl _, fun _ => rfl⟩
  | outputCycle ms opens => exact hcomes.elim

/-- The merge test of `handle_sacn_packet` takes what the output takes. -/
theorem sacnAccepts_iff_takes {f : DmxFrame} (h : Merged f live)
    (hlead : Leading i q (p :: ps) live) (hclocked : Clocked i q (p :: ps)) (pkt : SacnPacket)
    {o : SlotOffer} (hrank : o.rank = pkt.priority) (hasked : o.asked = p.clk.check i) :
    sacnAccepts pkt p.clk i f = true ↔ Merging.Takes (mergeTiming cfg) live o := by
  unfold sacnAccepts
  rw [decide_eq_true_iff]
  cases live with
  -- with no update the frame has priority 0, and any packet is taken
  | nil =>
    have hzero : f.priority = 0 := h.lead.1
    rw [hzero]
    exact iff_of_true (Or.inl (UInt8.zero_le)) (Merging.takes_nil o)
  | cons u live =>
    have hage := hlead.age hclocked (u := u) rfl (r := p.clk.check i)
      (by simp [portReadings]) sacnTimeoutMs
    obtain ⟨hprio, hstamp⟩ : f.priority = u.rank ∧ f.lastUpdateMs = nowMs u.time := h.lead
    rw [Merging.takes_cons, hprio, hstamp, hage, hrank, hasked]
    rfl

/-- **One packet.** It is applied exactly when the output takes what it offers, and what is stored
then shows it over the others. -/
theorem offer_step {e : Event} {st : DaemonState} (h : Merged (st i).out live)
    (hlead : Leading i q (p :: ps) live) (hclocked : Clocked i q (p :: ps))
    (hunranked : Unranked n live) (hcomes : e.ComesThrough n) (hread : e.ReadBy p) :
    ((e.appliedAt cfg i st).isSome = true ↔
        ∃ o, e.offer cfg i = some o ∧ Merging.Takes (mergeTiming cfg) live o) ∧
      ∀ o, e.offer cfg i = some o → Merging.Takes (mergeTiming cfg) live o →
        Merged ((step cfg st e).1 i).out (o.toUpdate :: live) := by
  cases e with
  -- an sACN packet offers its levels when it is routed here with start code 0
  | sacn pkt clk =>
    obtain rfl : clk = p.clk := hread
    by_cases hroute : pkt.startCode = 0 ∧ Routed cfg pkt.dmxUniverse i
    · have htakes : sacnAccepts pkt p.clk i (st i).out = true ↔ _ :=
        @sacnAccepts_iff_takes cfg i p ps q live _ h hlead hclocked pkt
          { levels := slotLevels pkt.dmxData pkt.dmxLength, rank := pkt.priority,
            time := p.clk.store i, asked := p.clk.check i } rfl rfl
      simp only [Event.appliedAt, Event.offer, if_pos hroute, Option.some_inj, exists_eq_left']
      refine ⟨?_, ?_⟩
      · rw [← htakes, Option.isSome_ite]
        exact ⟨fun h => h.2.2, fun h => ⟨hroute.1, hroute.2, h⟩⟩
      · rintro o rfl hyes
        simp only [step, handleSacnPacket_apply, if_pos (show pkt.startCode = 0 ∧
          Routed cfg pkt.dmxUniverse i ∧ _ from ⟨hroute.1, hroute.2, htakes.mpr hyes⟩)]
        exact h.store rfl rfl rfl
    · have hnone : (Event.sacn pkt p.clk).appliedAt cfg i st = none :=
        if_neg fun h => hroute ⟨h.1, h.2.1⟩
      simp only [hnone, Event.offer, if_neg hroute]
      simp
  -- an Art-Net packet has no priority, and on this node no update has one
  | artnet pkt clk =>
    obtain rfl : clk = p.clk := hread
    by_cases hroute : Routed cfg pkt.dmxUniverse i
    · simp only [Event.appliedAt, Event.offer, if_pos hroute, Option.some_inj, exists_eq_left']
      refine ⟨iff_of_true rfl (hunranked.takes hcomes rfl), ?_⟩
      rintro o rfl -
      have hprio : (artnetStore pkt p.clk i (st i).out).priority = 0 := by
        simp only [artnetStore]
        exact h.priority_eq_zero (hunranked hcomes)
      simp only [step, handleArtnetPacket_apply, if_pos hroute]
      exact h.store rfl hprio rfl
    · simp only [Event.appliedAt, Event.offer, if_neg hroute]
      simp
  | shownet pkt clk =>
    obtain rfl : clk = p.clk := hread
    by_cases hroute : Routed cfg (shownetUniverse pkt.netSlot) i
    · simp only [Event.appliedAt, Event.offer, if_pos hroute, Option.some_inj, exists_eq_left']
      refine ⟨iff_of_true rfl (hunranked.takes hcomes rfl), ?_⟩
      rintro o rfl -
      have hprio : (shownetStore pkt p.clk i (st i).out).priority = 0 := by
        simp only [shownetStore]
        exact h.priority_eq_zero (hunranked hcomes)
      simp only [step, handleShownetPacket_apply, if_pos hroute]
      exact h.store rfl hprio rfl
    · simp only [Event.appliedAt, Event.offer, if_neg hroute]
      simp
  | outputCycle ms opens => exact hcomes.elim

/-! ## One pass -/

/-- What a pass leaves in the stored frame. -/
theorem mainPass_frame (htx : (cfg.ports i).mode = dmxModeTx) (hone : n.sockets.OneOpen)
    (hsettled : Settled i (p :: ps) (n.out i)) :
    ((mainPass cfg n p).1.out i).out =
      if AppliesTo cfg i n p then (finalState (step cfg) n.out (packetEvents n p) i).out
      else if timedOut cfg (nowMs p.outMs) (n.out i).out = true then
        { (n.out i).out with data := blankFrame, lastUpdateMs := 0, priority := 0 }
      else (n.out i).out := by
  rw [(@mainPass_out cfg n p).1, passEvents, finalState_concat, outputPort_out]
  rcases @polled_cases cfg i n p hone with ⟨happlies, f, hpolled, hstamp⟩ | ⟨hnot, hpolled⟩
  · -- a frame that is to be sent does not time out
    have hfresh : (finalState (step cfg) n.out (packetEvents n p) i).out.lastUpdateMs
        > (finalState (step cfg) n.out (packetEvents n p) i).lastWrite := by
      rw [hpolled]
      dsimp only
      rw [hstamp]
      exact hsettled.older p List.mem_cons_self
    rw [if_pos happlies, if_neg]
    simp [Event.timesOut, hfresh]
  · have hsame : (Event.outputCycle p.outMs p.opens).timesOut cfg i
        (finalState (step cfg) n.out (packetEvents n p))
          = timedOut cfg (nowMs p.outMs) (n.out i).out := by
      simp [Event.timesOut, hpolled, hsettled.device, htx, hsettled.sent]
    rw [if_neg hnot, hsame, hpolled]

/-- A port is out of date when the output is. -/
theorem timedOut_iff {f : DmxFrame} (h : Merged f live) (hlead : Leading i q (p :: ps) live)
    (hclocked : Clocked i q (p :: ps)) :
    timedOut cfg (nowMs p.outMs) f = true ↔
      Merging.Outdated (mergeTiming cfg).hold p.outMs live := by
  unfold timedOut
  rw [decide_eq_true_iff]
  cases live with
  -- a stamp of 0 never times out
  | nil =>
    have hzero : f.lastUpdateMs = 0 := h.lead.2
    rw [hzero]
    exact iff_of_false (fun hpos => UInt32.lt_irrefl 0 hpos.1) (Merging.not_outdated_nil _ _)
  | cons u live =>
    have hstamp : f.lastUpdateMs = nowMs u.time := h.lead.2
    obtain ⟨hlow, hhigh, -⟩ := hlead u rfl
    have hage := @Leading.age i p ps q (u :: live) hlead hclocked u rfl p.outMs
      (by simp [portReadings]) (cfg.dmxHoldTime.toUInt32 * 1000)
    rw [Merging.outdated_cons, hstamp, hage, holdMs_toNat]
    exact and_iff_right (nowMs_pos hlow hhigh)

/-- What holds between two passes. -/
structure Merges (cfg : NodeConfig) (i : Port) (q : Nat) (n : Node) (ps : List Pass)
    (live : List SlotUpdate) : Prop where
  frame : Merged (n.out i).out live
  leading : Leading i q ps live
  unranked : Unranked n live
  ordered : Merging.Ordered (mergeTiming cfg) live
  settled : Settled i ps (n.out i)

/-- The offer of a pass, when it makes one, and what comes of it. -/
theorem passRound_offer (hone : n.sockets.OneOpen) (hclocked : Clocked i q (p :: ps))
    (h : Merges cfg i q n (p :: ps) live) :
    (AppliesTo cfg i n p ↔
        ∃ o, (passRound cfg i n p).offer = some o ∧ Merging.Takes (mergeTiming cfg) live o) ∧
      ∀ o, (passRound cfg i n p).offer = some o →
        (o.time = p.clk.store i ∧ o.asked ≤ o.time ∧ (n.sockets.sacn < 0 → o.rank = 0)) ∧
        (Merging.Takes (mergeTiming cfg) live o →
          Merged (finalState (step cfg) n.out (packetEvents n p) i).out (o.toUpdate :: live)) := by
  have hlength := length_packetEvents hone p
  unfold AppliesTo passRound
  -- with one socket open a pass has one event at most
  rcases hevents : packetEvents n p with _ | ⟨e, _ | ⟨e', es⟩⟩
  · simp
  · have he : e ∈ packetEvents n p := hevents ▸ List.mem_singleton_self e
    obtain ⟨hiff, hmerged⟩ := @offer_step cfg i n p ps q live e n.out h.frame h.leading hclocked
      h.unranked (comesThrough_of_mem hone he) (readBy_of_mem he)
    rw [List.findSome?_singleton, finalState_cons, finalState_nil]
    refine ⟨?_, fun o ho => ⟨?_, hmerged o ho⟩⟩
    · rw [← hiff]
      simp
    · exact offer_reads (comesThrough_of_mem hone he) (readBy_of_mem he) hclocked.head.1 ho
  · rw [hevents] at hlength
    simp at hlength

/-- In a clocked run the offers of a pass are younger than the updates kept. -/
theorem timely_passRound (hone : n.sockets.OneOpen) (hclocked : Clocked i q (p :: ps))
    (h : Merges cfg i q n (p :: ps) live) : (passRound cfg i n p).Timely live := by
  intro o ho
  obtain ⟨htime, hasked, -⟩ := ((passRound_offer hone hclocked h).2 o ho).1
  refine ⟨hasked, fun u hu => ?_⟩
  rw [htime]
  exact (h.leading u hu).2.2 p List.mem_cons_self _ (by simp [portReadings])

/-- A pass whose packet the output takes. -/
theorem merges_of_takes (htx : (cfg.ports i).mode = dmxModeTx) (hone : n.sockets.OneOpen)
    (hclocked : Clocked i q (p :: ps)) (h : Merges cfg i q n (p :: ps) live) {o : SlotOffer}
    (ho : (passRound cfg i n p).offer = some o) (htakes : Merging.Takes (mergeTiming cfg) live o) :
    writesOf i (mainPass cfg n p).2
        = (mergeStep cfg live (passRound cfg i n p)).2.map slotsOf ∧
      Merges cfg i q (mainPass cfg n p).1 ps (mergeStep cfg live (passRound cfg i n p)).1 := by
  obtain ⟨happlies, hoffer⟩ := passRound_offer hone hclocked h
  obtain ⟨⟨htime, -, hrank⟩, hmerged⟩ := hoffer o ho
  obtain ⟨hpass, hsettled⟩ := settled_mainPass htx hone hclocked.toPaced h.settled
  have hframe := mainPass_frame htx hone h.settled
  have hwrites := hpass.writes
  have hordered : Merging.Ordered (mergeTiming cfg) (mergeStep cfg live (passRound cfg i n p)).1 :=
    Merging.ordered_step h.ordered 0 (timely_passRound hone hclocked h)
  unfold dueWrites at hwrites
  rw [if_pos (happlies.mpr ⟨o, ho, htakes⟩)] at hframe hwrites
  rw [mergeStep, Merging.step_of_takes 0 ho htakes] at hordered ⊢
  -- the update taken is shown, leads, and is of the pass's epoch
  refine ⟨?_, ?_, ?_, ?_, hordered, hsettled⟩
  · rw [hwrites, (hmerged htakes).data]
    rfl
  · rw [hframe]
    exact hmerged htakes
  · intro u hu
    obtain rfl := Option.some.inj hu
    obtain ⟨hlow, hhigh⟩ := hclocked.epoch p List.mem_cons_self
    rw [htime]
    exact ⟨hlow, hhigh, hclocked.head.2.2⟩
  · intro hclosed u hu
    obtain rfl := Option.some.inj hu
    rw [mainPass_sockets] at hclosed
    exact hrank hclosed

/-- A pass without one: the output goes dark when it is out of date, and the port is blanked. -/
theorem merges_of_not_takes (htx : (cfg.ports i).mode = dmxModeTx) (hone : n.sockets.OneOpen)
    (hclocked : Clocked i q (p :: ps)) (h : Merges cfg i q n (p :: ps) live)
    (htaken : ¬ ∃ o, (passRound cfg i n p).offer = some o ∧
      Merging.Takes (mergeTiming cfg) live o) :
    writesOf i (mainPass cfg n p).2
        = (mergeStep cfg live (passRound cfg i n p)).2.map slotsOf ∧
      Merges cfg i q (mainPass cfg n p).1 ps (mergeStep cfg live (passRound cfg i n p)).1 := by
  obtain ⟨happlies, -⟩ := passRound_offer hone hclocked h
  obtain ⟨hpass, hsettled⟩ := settled_mainPass htx hone hclocked.toPaced h.settled
  have hframe := mainPass_frame htx hone h.settled
  have hwrites := hpass.writes
  have hordered : Merging.Ordered (mergeTiming cfg) (mergeStep cfg live (passRound cfg i n p)).1 :=
    Merging.ordered_step h.ordered 0 (timely_passRound hone hclocked h)
  have hage := @timedOut_iff cfg i p ps q live _ h.frame h.leading hclocked
  unfold dueWrites at hwrites
  rw [if_neg (fun h => htaken (happlies.mp h))] at hframe hwrites
  rw [mergeStep, Merging.step_of_not_takes 0 htaken, Merging.tickStep] at hordered ⊢
  -- nothing is taken: the hold time is over and the port goes dark, or nothing changes
  by_cases hout : Merging.Outdated (mergeTiming cfg).hold p.outMs live
  · rw [if_pos (hage.mpr hout)] at hframe hwrites
    rw [if_pos (show Merging.Outdated _ (passRound cfg i n p).tick live from hout)] at hordered ⊢
    refine ⟨?_, ?_, leading_nil, ?_, hordered, hsettled⟩
    · rw [hwrites]
      exact congrArg (fun frame => [frame]) blankFrame_eq
    · rw [hframe]
      exact merged_blank _
    · intro _ u hu
      cases hu
  · rw [if_neg (fun h => hout (hage.mp h))] at hframe hwrites
    rw [if_neg (show ¬ Merging.Outdated _ (passRound cfg i n p).tick live from hout)]
      at hordered ⊢
    refine ⟨?_, ?_, h.leading.of_cons, ?_, hordered, hsettled⟩
    · rw [hwrites]
      rfl
    · rw [hframe]
      exact h.frame
    · rw [Unranked, mainPass_sockets]
      exact h.unranked

/-- **One pass** is one round of the output. -/
theorem merges_mainPass (htx : (cfg.ports i).mode = dmxModeTx) (hone : n.sockets.OneOpen)
    (hclocked : Clocked i q (p :: ps)) (h : Merges cfg i q n (p :: ps) live) :
    writesOf i (mainPass cfg n p).2
        = (mergeStep cfg live (passRound cfg i n p)).2.map slotsOf ∧
      Merges cfg i q (mainPass cfg n p).1 ps (mergeStep cfg live (passRound cfg i n p)).1 := by
  by_cases htaken : ∃ o, (passRound cfg i n p).offer = some o ∧
      Merging.Takes (mergeTiming cfg) live o
  · obtain ⟨o, ho, htakes⟩ := htaken
    exact merges_of_takes htx hone hclocked h ho htakes
  · exact merges_of_not_takes htx hone hclocked h htaken

/-! ## A run -/

/-- What a pass hands on depends on the sockets alone. -/
theorem packetEvents_congr {n' : Node} (h : n.sockets = n'.sockets) (p : Pass) :
    packetEvents n p = packetEvents n' p := by
  -- the statistics do not decide what is received
  have hret : (sacnReceive p.sacn n.stats p.sacnPkt).1 = (sacnReceive p.sacn n'.stats p.sacnPkt).1 ∧
      (sacnReceive p.sacn n.stats p.sacnPkt).2.1 = (sacnReceive p.sacn n'.stats p.sacnPkt).2.1 := by
    unfold sacnReceive
    dsimp only
    split_ifs <;> exact ⟨rfl, rfl⟩
  obtain ⟨sockets, stats, out, input⟩ := n
  obtain ⟨sockets', stats', out', input'⟩ := n'
  obtain rfl : sockets = sockets' := h
  unfold packetEvents sacnEvents artnetEvents shownetEvents
  rw [hret.1, hret.2]

/-- What a pass offers is decided by the node's sockets. -/
theorem passRound_congr {n' : Node} (h : n.sockets = n'.sockets) (p : Pass) :
    passRound cfg i n p = passRound cfg i n' p := by
  unfold passRound
  rw [packetEvents_congr h]

/-- Over a run the node writes what merging the offers of its passes writes. -/
theorem merges_run {n₀ : Node} (htx : (cfg.ports i).mode = dmxModeTx)
    (hone : n₀.sockets.OneOpen) (hsockets : n.sockets = n₀.sockets) (hclocked : Clocked i q ps)
    (h : Merges cfg i q n ps live) :
    writesOf i (trace (mainPass cfg) n ps)
        = (trace (mergeStep cfg) live (ps.map (passRound cfg i n₀))).map slotsOf ∧
      Merges cfg i q (finalState (mainPass cfg) n ps) []
        (finalState (mergeStep cfg) live (ps.map (passRound cfg i n₀))) := by
  -- the invariant is `Merges`, with the updates kept so far
  induction ps generalizing n live with
  | nil => exact ⟨rfl, h⟩
  | cons p ps ih =>
    obtain ⟨hwrites, hnext⟩ := merges_mainPass htx (hsockets ▸ hone) hclocked h
    rw [passRound_congr hsockets] at hwrites hnext
    obtain ⟨hrest, hfinal⟩ := ih ((mainPass_sockets cfg n p).trans hsockets) hclocked.of_cons hnext
    refine ⟨?_, hfinal⟩
    rw [trace_cons, writesOf, List.filterMap_append, List.filterMap_append, List.map_cons,
      trace_cons, List.map_append, ← hwrites, ← hrest]
    rfl

/-- At start-up the frame merges no update, and its device is open. -/
theorem merges_mainStart {b : Boot} (htx : (cfg.ports i).mode = dmxModeTx)
    (hopened : 0 ≤ b.opened i) (hclocked : Clocked i q ps) :
    Merges cfg i q (mainStart cfg b) ps [] where
  frame := ⟨fun c => blankFrame_apply c, rfl, rfl⟩
  leading := leading_nil
  unranked := fun _ u hu => by cases hu
  ordered := List.isChain_nil
  settled := settled_mainStart htx hopened hclocked.toPaced

end

/-- The daemon does for port `i` what the abstract output does, round for pass. -/
structure MergesAs (cfg : NodeConfig) (b : Boot) (i : Port) (ps : List Pass) : Prop where
  written : writesOf i (trace (mainPass cfg) (mainStart cfg b) ps)
    = (trace (mergeStep cfg) [] (ps.map (passRound cfg i (mainStart cfg b)))).map slotsOf
  stored : ((finalState (mainPass cfg) (mainStart cfg b) ps).out i).out.data
    = slotsOf (Merging.shown 0
        (finalState (mergeStep cfg) [] (ps.map (passRound cfg i (mainStart cfg b)))))
  ordered : Merging.Ordered (mergeTiming cfg)
    (finalState (mergeStep cfg) [] (ps.map (passRound cfg i (mainStart cfg b))))

/-- **The daemon is a merging output.** In every run of `main` whose clock goes forward within one
epoch of its counter, what is written to a TX port is what the abstract output shows on the packets
for the port, whatever else arrives, and the levels that wait are those of its live updates, which
have followed one another by rank or after the takeover time. -/
theorem main_merges {cfg : NodeConfig} {b : Boot} {i : Port} {q : Nat} {ps : List Pass}
    (htx : (cfg.ports i).mode = dmxModeTx) (hopened : 0 ≤ b.opened i)
    (hclocked : Clocked i q ps) : MergesAs cfg b i ps := by
  obtain ⟨hwritten, hmerges⟩ := merges_run htx (initSockets_oneOpen cfg b.init)
    (show (mainStart cfg b).sockets = (mainStart cfg b).sockets from rfl) hclocked
    (merges_mainStart htx hopened hclocked)
  exact ⟨hwritten, hmerges.frame.data, hmerges.ordered⟩

/-- The clock of the example run does not wrap between its passes. -/
theorem clocked_onePacketRun : Clocked 0 0 onePacketRun := by
  have hreadings : onePacketRun.flatMap (portReadings 0)
      = [1000, 1000, 1000, 1023, 1023, 1023] := rfl
  refine ⟨paced_onePacketRun, ?_, ?_⟩
  · rw [hreadings]
    decide
  · intro p hp r hr
    have hmem : r ∈ onePacketRun.flatMap (portReadings 0) := List.mem_flatMap.mpr ⟨p, hp, hr⟩
    have hall : ∀ r ∈ [1000, 1000, 1000, 1023, 1023, 1023],
        0 * 2 ^ 32 < r ∧ r < (0 + 1) * 2 ^ 32 := by decide
    rw [hreadings] at hmem
    exact hall r hmem

/-- The packet's offer is taken. -/
theorem onePacketRun_merges :
    MergesAs configDefaults bootOk 0 onePacketRun ∧
      ∃ o, (passRound configDefaults 0 (mainStart configDefaults bootOk) onePacket).offer = some o ∧
        Merging.Takes (mergeTiming configDefaults) [] o := by
  have hmerges := @merges_mainStart configDefaults 0 onePacketRun 0 bootOk rfl (by decide)
    clocked_onePacketRun
  have hoffer := passRound_offer (initSockets_oneOpen configDefaults bootOk.init)
    clocked_onePacketRun hmerges
  exact ⟨main_merges rfl (by decide) clocked_onePacketRun, hoffer.1.mp onePacket_applies⟩

end SN110
