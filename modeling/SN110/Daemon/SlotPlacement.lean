import SN110.Daemon.Loop
import SN110.Config.Defaults

/-!
# Where ShowNet slots land

A ShowNet packet carries the levels of consecutive network slots, from `net_slot` on. Network
slot `n` is channel `(n - 1) % 512` of universe `(n - 1) / 512` (`SlotsPlaced`).
`handle_shownet_packet` takes the universe from the first slot and copies the levels to the
*start* of that universe, so a packet is placed right when it starts a universe, and otherwise
only where no TX port is there to see it (`StartsUniverse`).
-/

namespace SN110

/-- The universe of the packet's slot `k`, counted from its first. -/
def slotUniverse (netSlot : UInt16) (k : Nat) : Nat := (netSlot.toNat - 1 + k) / dmxUniverseSize

/-- The channel of the packet's slot `k` within its universe. -/
def slotChannel (netSlot : UInt16) (k : Nat) : Nat := (netSlot.toNat - 1 + k) % dmxUniverseSize

/-- The slots ShowNet numbers, 1 to `SHOWNET_MAX_SLOTS`. -/
def ValidSlot (netSlot : UInt16) : Prop := 1 ≤ netSlot.toNat ∧ netSlot.toNat ≤ shownetMaxSlots

instance (netSlot : UInt16) : Decidable (ValidSlot netSlot) := by
  unfold ValidSlot
  infer_instance

theorem slotChannel_lt (netSlot : UInt16) (k : Nat) : slotChannel netSlot k < dmxUniverseSize :=
  Nat.mod_lt _ (by decide)

/-- Every level of the packet is at its channel of the TX ports on its universe, and every other
channel is as before. -/
structure SlotsPlaced (cfg : NodeConfig) (pkt : ShownetPacket) (st st' : DaemonState) : Prop where
  placed : ∀ i, (cfg.ports i).mode = dmxModeTx → ∀ k, (hk : k < pkt.dmxLength.toNat) →
    (cfg.ports i).dmxUniverse.toNat = slotUniverse pkt.netSlot k →
    (st' i).out.data[(⟨slotChannel pkt.netSlot k, slotChannel_lt _ _⟩ : Fin dmxUniverseSize)]
      = pkt.dmxData[(⟨k, hk.trans_le pkt.dmxLength_le⟩ : Fin dmxUniverseSize)]
  kept : ∀ i c, (hc : c < dmxUniverseSize) →
    ((cfg.ports i).mode = dmxModeTx → ∀ k < pkt.dmxLength.toNat,
      (cfg.ports i).dmxUniverse.toNat = slotUniverse pkt.netSlot k →
      c ≠ slotChannel pkt.netSlot k) →
    (st' i).out.data[c] = (st i).out.data[c]

/-- Packets that start at `netSlot` and carry `m` slots are handled right, whatever the levels,
the clock and the state: placed slot by slot, or ignored when `netSlot` is no network slot. -/
def ShownetPlacement (cfg : NodeConfig) (netSlot : UInt16) (m : Nat) : Prop :=
  ∀ (pkt : ShownetPacket) (clk : HandlerClock) (st : DaemonState), pkt.netSlot = netSlot →
    pkt.dmxLength.toNat = m →
    if ValidSlot netSlot then SlotsPlaced cfg pkt st (handleShownetPacket cfg pkt clk st)
    else ∀ i, handleShownetPacket cfg pkt clk st i = st i

/-- No TX port is on universe `u`. -/
def NoPortOn (cfg : NodeConfig) (u : Nat) : Prop :=
  ∀ i, (cfg.ports i).mode = dmxModeTx → (cfg.ports i).dmxUniverse.toNat ≠ u

instance (cfg : NodeConfig) (u : Nat) : Decidable (NoPortOn cfg u) := by
  unfold NoPortOn
  infer_instance

/-- When the placement is right: the packet is empty, or starts a universe, or no TX port is on a
universe it reaches; and a packet outside the network slots has no port on the universe its
number falls into. -/
def StartsUniverse (cfg : NodeConfig) (netSlot : UInt16) (m : Nat) : Prop :=
  if ValidSlot netSlot then
    m = 0 ∨ slotChannel netSlot 0 = 0 ∨ ∀ k < m, NoPortOn cfg (slotUniverse netSlot k)
  else NoPortOn cfg (slotUniverse netSlot 0)

instance (cfg : NodeConfig) (netSlot : UInt16) (m : Nat) :
    Decidable (StartsUniverse cfg netSlot m) := by
  unfold StartsUniverse
  infer_instance

/-! ## The handler's universe -/

/-- The handler's division gives the universe of the packet's first slot. -/
theorem shownetUniverse_toNat (netSlot : UInt16) :
    (shownetUniverse netSlot).toNat = slotUniverse netSlot 0 := by
  have hlt := netSlot.toNat_lt
  unfold shownetUniverse slotUniverse
  have hdiv : Int.tdiv ((netSlot.toNat : Int) - 1) 512 = ((netSlot.toNat - 1) / 512 : Nat) := by
    -- slot 0: C divides -1 by 512 towards zero, and the truncated subtraction gives 0 as well
    rcases Nat.eq_zero_or_pos netSlot.toNat with hzero | hpos
    · rw [hzero]
      decide
    · rw [show (netSlot.toNat : Int) - 1 = ((netSlot.toNat - 1 : Nat) : Int) by omega,
        Int.ofNat_tdiv]
      rfl
  rw [hdiv, UInt16.ofInt, UInt16.toNat_ofNat', Nat.add_zero]
  show ((((netSlot.toNat - 1) / 512 : Nat) : Int) % 2 ^ 16).toNat % 2 ^ 16
    = (netSlot.toNat - 1) / 512
  omega

/-- A ShowNet packet goes to the TX ports on its slot's universe. -/
theorem routed_shownet_iff (cfg : NodeConfig) (netSlot : UInt16) (i : Port) :
    Routed cfg (shownetUniverse netSlot) i ↔
      (cfg.ports i).dmxUniverse.toNat = slotUniverse netSlot 0 ∧
        (cfg.ports i).mode = dmxModeTx := by
  unfold Routed
  rw [← UInt16.toNat_inj, shownetUniverse_toNat]

/-- What the handler leaves in a port's channel. -/
theorem handleShownetPacket_data (cfg : NodeConfig) (pkt : ShownetPacket) (clk : HandlerClock)
    (st : DaemonState) (i : Port) (c : Nat) (hc : c < dmxUniverseSize) :
    (handleShownetPacket cfg pkt clk st i).out.data[c] =
      if Routed cfg (shownetUniverse pkt.netSlot) i ∧ c < pkt.dmxLength.toNat then pkt.dmxData[c]
      else (st i).out.data[c] := by
  rw [handleShownetPacket_apply]
  by_cases hroute : Routed cfg (shownetUniverse pkt.netSlot) i
  · simp only [hroute, if_true, true_and, shownetStore, getElem_memcpySlots]
  · simp only [hroute, if_false, false_and]

/-! ## Right placement -/

/-- A packet that starts a universe is placed right. -/
theorem slotsPlaced_of_start {cfg : NodeConfig} {pkt : ShownetPacket}
    (hstart : slotChannel pkt.netSlot 0 = 0) (clk : HandlerClock) (st : DaemonState) :
    SlotsPlaced cfg pkt st (handleShownetPacket cfg pkt clk st) := by
  -- the packet is at most one universe long, so it ends where its universe does
  have hchannel : ∀ k < pkt.dmxLength.toNat, slotChannel pkt.netSlot k = k ∧
      slotUniverse pkt.netSlot k = slotUniverse pkt.netSlot 0 := by
    intro k hk
    have := pkt.dmxLength_le
    unfold slotChannel slotUniverse at *
    simp only [dmxUniverseSize] at *
    omega
  constructor
  · intro i htx k hk hu
    obtain ⟨hc, hu0⟩ := hchannel k hk
    have hroute : Routed cfg (shownetUniverse pkt.netSlot) i :=
      (routed_shownet_iff cfg pkt.netSlot i).mpr ⟨hu.trans hu0, htx⟩
    simp only [Fin.getElem_fin, hc]
    rw [handleShownetPacket_data, if_pos ⟨hroute, hk⟩]
  · intro i c hc hfree
    rw [handleShownetPacket_data, if_neg]
    rintro ⟨hroute, hlt⟩
    obtain ⟨hu, htx⟩ := (routed_shownet_iff cfg pkt.netSlot i).mp hroute
    obtain ⟨hch, hu0⟩ := hchannel c hlt
    exact hfree htx c hlt (hu.trans hu0.symm) hch.symm

/-- A packet that no TX port can see is placed right: nothing changes. -/
theorem slotsPlaced_of_unseen {cfg : NodeConfig} {pkt : ShownetPacket}
    (hunseen : ∀ k < pkt.dmxLength.toNat, NoPortOn cfg (slotUniverse pkt.netSlot k))
    (clk : HandlerClock) (st : DaemonState) :
    SlotsPlaced cfg pkt st (handleShownetPacket cfg pkt clk st) := by
  constructor
  · intro i htx k hk hu
    exact absurd hu (hunseen k hk i htx)
  · intro i c hc _
    rw [handleShownetPacket_data, if_neg]
    rintro ⟨hroute, hlt⟩
    obtain ⟨hu, htx⟩ := (routed_shownet_iff cfg pkt.netSlot i).mp hroute
    exact hunseen 0 (by omega) i htx hu

/-! ## Wrong placement -/

/-- A packet of `m` slots, all at full. -/
def fullPacket (netSlot : UInt16) (m : Nat) (hm : m ≤ dmxUniverseSize) : ShownetPacket where
  netSlot := netSlot
  dmxData := Vector.replicate dmxUniverseSize 255
  dmxLength := UInt16.ofNat m
  dmxLength_le := by
    rw [UInt16.toNat_ofNat']
    exact (Nat.mod_le _ _).trans hm

/-- The example packet has as many slots as it says. -/
theorem fullPacket_length (netSlot : UInt16) {m : Nat} (hm : m ≤ dmxUniverseSize) :
    (fullPacket netSlot m hm).dmxLength.toNat = m := by
  show (UInt16.ofNat m).toNat = m
  rw [UInt16.toNat_ofNat']
  exact Nat.mod_eq_of_lt (hm.trans_lt (by decide))

/-- A daemon that holds blank frames. -/
def blankState : DaemonState := fun _ => { out := DmxFrame.zero, lastWrite := 0, fd := 3 }

/-- The example port has 0 in every slot. -/
theorem blankState_data (i : Port) (c : Nat) (hc : c < dmxUniverseSize) :
    (blankState i).out.data[c] = 0 := by
  simp [blankState, DmxFrame.zero]

/-- The example packet has 255 in every slot. -/
theorem fullPacket_data {netSlot : UInt16} {m : Nat} (hm : m ≤ dmxUniverseSize) (k : Nat)
    (hk : k < dmxUniverseSize) : (fullPacket netSlot m hm).dmxData[k] = 255 := by
  simp [fullPacket]

/-- A full packet over blank frames that starts inside a universe is not placed right, if a TX
port is on a universe it reaches. -/
theorem not_slotsPlaced_of_inside {cfg : NodeConfig} {netSlot : UInt16} {m k : Nat} {i : Port}
    (hm : m ≤ dmxUniverseSize) (hinside : slotChannel netSlot 0 ≠ 0) (hk : k < m)
    (htx : (cfg.ports i).mode = dmxModeTx)
    (hu : (cfg.ports i).dmxUniverse.toNat = slotUniverse netSlot k) :
    ¬ SlotsPlaced cfg (fullPacket netSlot m hm) blankState
      (handleShownetPacket cfg (fullPacket netSlot m hm) (HandlerClock.at 1) blankState) := by
  intro h
  have hlen := fullPacket_length netSlot hm
  by_cases hfirst : (cfg.ports i).dmxUniverse.toNat = slotUniverse netSlot 0
  · -- the port is on the first slot's universe: its channel 0 is overwritten
    have hkept := h.kept i 0 (by decide) (by
      intro _ k' _ hu' hzero
      rw [hfirst] at hu'
      simp only [fullPacket] at hu' hzero
      unfold slotChannel slotUniverse at *
      simp only [dmxUniverseSize] at *
      omega)
    have hroute : Routed cfg (shownetUniverse (fullPacket netSlot m hm).netSlot) i :=
      (routed_shownet_iff cfg netSlot i).mpr ⟨hfirst, htx⟩
    rw [handleShownetPacket_data, if_pos ⟨hroute, by rw [hlen]; omega⟩, fullPacket_data,
      blankState_data] at hkept
    exact absurd hkept (by decide)
  · -- the port is on the next universe: it never gets its slots
    have hplaced := h.placed i htx k (by rw [hlen]; exact hk) hu
    have hroute : ¬ Routed cfg (shownetUniverse (fullPacket netSlot m hm).netSlot) i :=
      fun hr => hfirst ((routed_shownet_iff cfg netSlot i).mp hr).1
    rw [Fin.getElem_fin, Fin.getElem_fin, handleShownetPacket_data,
      if_neg (fun hr => hroute hr.1), blankState_data, fullPacket_data] at hplaced
    exact absurd hplaced (by decide)

/-- A packet that is routed to a port stamps its frame. -/
theorem handleShownetPacket_ne {cfg : NodeConfig} {netSlot : UInt16} {m : Nat} {i : Port}
    (hm : m ≤ dmxUniverseSize) (htx : (cfg.ports i).mode = dmxModeTx)
    (hu : (cfg.ports i).dmxUniverse.toNat = slotUniverse netSlot 0) :
    handleShownetPacket cfg (fullPacket netSlot m hm) (HandlerClock.at 1) blankState i
      ≠ blankState i := by
  intro h
  have hroute : Routed cfg (shownetUniverse (fullPacket netSlot m hm).netSlot) i :=
    (routed_shownet_iff cfg netSlot i).mpr ⟨hu, htx⟩
  rw [handleShownetPacket_apply, if_pos hroute] at h
  -- the frame was stamped 0 before and 1 after
  have hstamp : nowMs 1 = 0 := congrArg (fun p : PortState => p.out.lastUpdateMs) h
  exact absurd hstamp (by decide)

/-! ## The exact condition -/

/-- **Slot placement.** The packets that start at a slot and carry `m` slots are placed right,
whatever their levels and the state before, exactly when the packet is empty, starts a universe
or reaches no TX port's universe; and packets outside the network slots are ignored exactly when
no TX port is on the universe their number falls into. -/
theorem shownetPlacement_iff (cfg : NodeConfig) (netSlot : UInt16) (m : Nat)
    (hm : m ≤ dmxUniverseSize) :
    ShownetPlacement cfg netSlot m ↔ StartsUniverse cfg netSlot m := by
  constructor
  · intro h
    -- one packet shows the condition necessary: all slots at full, over blank frames
    have hfull := h (fullPacket netSlot m hm) (HandlerClock.at 1) blankState rfl
      (fullPacket_length netSlot hm)
    unfold StartsUniverse
    by_cases hvalid : ValidSlot netSlot
    · rw [if_pos hvalid] at hfull ⊢
      by_cases hempty : m = 0
      · exact Or.inl hempty
      by_cases hstart : slotChannel netSlot 0 = 0
      · exact Or.inr (Or.inl hstart)
      refine Or.inr (Or.inr fun k hk i htx hu => ?_)
      exact not_slotsPlaced_of_inside hm hstart hk htx hu hfull
    · rw [if_neg hvalid] at hfull ⊢
      intro i htx hu
      exact handleShownetPacket_ne hm htx hu (hfull i)
  · rintro h pkt clk st rfl rfl
    unfold StartsUniverse at h
    by_cases hvalid : ValidSlot pkt.netSlot
    · rw [if_pos hvalid] at h ⊢
      rcases h with hempty | hstart | hunseen
      · exact slotsPlaced_of_unseen (fun k hk => absurd hk (by omega)) clk st
      · exact slotsPlaced_of_start hstart clk st
      · exact slotsPlaced_of_unseen hunseen clk st
    · rw [if_neg hvalid] at h ⊢
      intro i
      rw [handleShownetPacket_apply, if_neg]
      intro hroute
      obtain ⟨hu, htx⟩ := (routed_shownet_iff cfg pkt.netSlot i).mp hroute
      exact h i htx hu

/-- A packet for slot 513, where universe 2 starts, is placed right for the default ports. -/
theorem shownetPlacement_slot_513 : ShownetPlacement configDefaults 513 512 :=
  (shownetPlacement_iff configDefaults 513 512 (by decide)).mpr (by decide)

/-- A packet with the level of network slot 514, channel 1 of universe 1, sets channel 0. -/
theorem shownet_slot_514_misplaced :
    ¬ SlotsPlaced configDefaults (fullPacket 514 1 (by decide)) blankState
      (handleShownetPacket configDefaults (fullPacket 514 1 (by decide)) (HandlerClock.at 1)
        blankState) :=
  not_slotsPlaced_of_inside (k := 0) (i := 0) (by decide) (by decide) (by decide) (by decide)
    (by decide)

end SN110
