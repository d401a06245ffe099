import SN110.Daemon.Loop
import SN110.Config.Defaults

/-!
# sACN priorities

`handle_sacn_packet` merges the sources of a universe by priority. What it compares a packet
with is the frame it stored last, so a source counts for as long as its packets are *applied*:
a packet is turned away exactly when one of higher priority was applied to the port in the
2500 ms before, and a packet that was itself turned away leaves no trace. The source timeout
of `dmx_output_cycle` clears the port's priority, and with it what was applied before; with a
hold time of 3 s or more that is never anything recent.

* `liveSources` is what the run has applied to a port since its last source timeout, and
  `appliedSources` what it has applied at all.
* `MergeInv` ties the stored priority and stamp to `liveSources`, and `sacnAccepts_iff` reads
  the merge test off it.
-/

namespace SN110

open Run

/-! ## What was applied -/

/-- An sACN packet applied to a port: when, and with what priority. -/
structure AppliedSource where
  time : Nat
  priority : UInt8

/-- The event blanks port `i`: an output cycle that finds its source timed out. -/
def Event.timesOut (cfg : NodeConfig) (i : Port) (st : DaemonState) : Event → Bool
  | .outputCycle ms _ =>
    decide (0 ≤ (st i).fd ∧ (cfg.ports i).mode = dmxModeTx ∧
      ¬ (st i).out.lastUpdateMs > (st i).lastWrite) && timedOut cfg (nowMs ms) (st i).out
  | _ => false

/-- Add an sACN packet that is applied to port `i` to the sources. -/
def noteApplied (cfg : NodeConfig) (i : Port) (st : DaemonState) (e : Event)
    (sources : List AppliedSource) : List AppliedSource :=
  match e with
  | .sacn pkt clk =>
    match e.appliedAt cfg i st with
    | none => sources
    | some _ => { time := clk.store i, priority := pkt.priority } :: sources
  | _ => sources

/-- As `noteApplied`, but a source timeout forgets the sources. -/
def noteLive (cfg : NodeConfig) (i : Port) (st : DaemonState) (e : Event)
    (sources : List AppliedSource) : List AppliedSource :=
  if e.timesOut cfg i st then [] else noteApplied cfg i st e sources

/-- The sACN packets applied to port `i` in the run. -/
def appliedSources (cfg : NodeConfig) (i : Port) (st : DaemonState) (es : List Event) :
    List AppliedSource :=
  history (step cfg) (noteApplied cfg i) st [] es

/-- The sACN packets applied to port `i` since its last source timeout. -/
def liveSources (cfg : NodeConfig) (i : Port) (st : DaemonState) (es : List Event) :
    List AppliedSource :=
  history (step cfg) (noteLive cfg i) st [] es

/-- One of the sources has a higher priority and was applied during the `SACN_TIMEOUT_MS`
before `t`. -/
def Outranked (sources : List AppliedSource) (priority : UInt8) (t : Nat) : Prop :=
  ∃ q ∈ sources, priority < q.priority ∧ t ≤ q.time + 2500

instance (sources : List AppliedSource) (priority : UInt8) (t : Nat) :
    Decidable (Outranked sources priority t) := by
  unfold Outranked
  infer_instance

/-- The event is an sACN packet or an output cycle. -/
def Event.isSacnOrCycle : Event → Bool
  | .sacn .. | .outputCycle .. => true
  | _ => false

/-- Every reading of the run is below the wrap of the 32-bit counter. -/
def NoWrap (es : List Event) : Prop := ∀ e ∈ es, ∀ r ∈ e.readings, r < 2 ^ 32

/-! ## What one event does to the frame -/

theorem outputPort_out (cfg : NodeConfig) (ms : Nat) (opens : Port → Opens) (st : DaemonState)
    (i : Port) :
    ((step cfg st (.outputCycle ms opens)).1 i).out =
      if (Event.outputCycle ms opens).timesOut cfg i st then
        { (st i).out with data := blankFrame, lastUpdateMs := 0, priority := 0 }
      else (st i).out := by
  simp only [step]
  rw [(dmxOutputCycle_apply cfg ms opens st i).1]
  -- the four branches of the port loop, in its order: only a timeout of a TX port writes the frame
  by_cases htx : (cfg.ports i).mode = dmxModeTx
  swap
  · simp [outputPort_idle htx, Event.timesOut, htx]
  by_cases hfd : 0 ≤ (st i).fd
  swap
  · rw [outputPort, if_pos (not_le.mp hfd)]
    simp [Event.timesOut, hfd]
  by_cases hfresh : (st i).out.lastUpdateMs > (st i).lastWrite
  · rw [outputPort_fresh hfd htx hfresh]
    simp only [Event.timesOut, hfresh, not_true, and_false, decide_false, Bool.false_and,
      Bool.false_eq_true, if_false]
  · rw [outputPort_stale hfd htx hfresh]
    simp only [Event.timesOut, hfd, htx, hfresh, not_false_eq_true, and_self, decide_true,
      Bool.true_and]
    split_ifs <;> rfl

theorem timesOut_iff {cfg : NodeConfig} {i : Port} {st : DaemonState} {ms : Nat}
    {opens : Port → Opens} (h : (Event.outputCycle ms opens).timesOut cfg i st = true) :
    timedOut cfg (nowMs ms) (st i).out = true := by
  simp only [Event.timesOut, Bool.and_eq_true] at h
  exact h.2

/-! ## The merge test -/

/-- A 32-bit difference of two readings that have not wrapped. -/
theorem nowMs_sub_gt {c k : Nat} {stamp : UInt32} (hc : c < 2 ^ 32) (hle : stamp.toNat ≤ c)
    (hk : k < 2 ^ 32) : nowMs c - stamp > UInt32.ofNat k ↔ stamp.toNat + k < c := by
  have hnow : (nowMs c).toNat = c := by
    rw [nowMs, UInt32.toNat_ofNat']
    omega
  -- neither side has wrapped, so the 32-bit difference is the difference of the readings
  rw [gt_iff_lt, UInt32.lt_iff_toNat_lt, UInt32.toNat_sub_of_le _ _ (by
    rw [UInt32.le_iff_toNat_le, hnow]; exact hle), hnow, UInt32.toNat_ofNat',
    Nat.mod_eq_of_lt hk]
  omega

/-- What the sources since the last timeout say about the stored frame. `now` bounds the
readings made so far. -/
structure MergeInv (f : DmxFrame) (sources : List AppliedSource) (now : Nat) : Prop where
  stamp_le : f.lastUpdateMs.toNat ≤ now
  /-- The stored frame is the last one applied, unless the port has been blanked. -/
  stored : f.priority = 0 ∨ ∃ q ∈ sources, q.priority = f.priority ∧ q.time = f.lastUpdateMs.toNat
  /-- No source is newer than the stored frame. -/
  newest : ∀ q ∈ sources, q.time ≤ f.lastUpdateMs.toNat
  /-- The sources that outrank the stored frame have timed out. -/
  outranked : ∀ q ∈ sources, f.priority < q.priority → q.time + 2500 < now

theorem MergeInv.mono {f : DmxFrame} {sources : List AppliedSource} {now now' : Nat}
    (h : MergeInv f sources now) (hle : now ≤ now') : MergeInv f sources now' where
  stamp_le := h.stamp_le.trans hle
  stored := h.stored
  newest := h.newest
  outranked := fun q hq hlt => (h.outranked q hq hlt).trans_le hle

/-- **The merge test.** Given the invariant, a packet is refused exactly when a live source of
higher priority was applied in the 2500 ms before. -/
theorem sacnAccepts_iff {f : DmxFrame} {sources : List AppliedSource} (pkt : SacnPacket)
    {clk : HandlerClock} {i : Port} (h : MergeInv f sources (clk.check i))
    (hwrap : clk.check i < 2 ^ 32) :
    sacnAccepts pkt clk i f = true ↔ ¬ Outranked sources pkt.priority (clk.check i) := by
  have hlate : nowMs (clk.check i) - f.lastUpdateMs > sacnTimeoutMs ↔
      f.lastUpdateMs.toNat + 2500 < clk.check i :=
    nowMs_sub_gt hwrap h.stamp_le (by decide)
  unfold sacnAccepts
  rw [decide_eq_true_iff, hlate]
  constructor
  · rintro hacc ⟨q, hq, hrank, hrecent⟩
    -- accepted for its priority: what outranks the packet outranks the stored frame, and is old;
    -- accepted for the stamp's age: every source is as old as the stored frame
    rcases hacc with hge | hold
    · have := h.outranked q hq (UInt8.lt_of_le_of_lt hge hrank)
      omega
    · have := h.newest q hq
      omega
  · intro hnone
    by_contra hrefused
    obtain ⟨hlow, hrecent⟩ := not_or.mp hrefused
    have hlow : pkt.priority < f.priority := UInt8.not_le.mp hlow
    -- refused: the stored frame itself is a recent source of higher priority
    rcases h.stored with hzero | ⟨q, hq, hprio, htime⟩
    · rw [hzero] at hlow
      exact absurd hlow (by simp)
    · exact hnone ⟨q, hq, by rw [hprio]; exact hlow, by omega⟩

/-! ## The invariant over a run -/

/-- An sACN packet keeps the invariant. -/
theorem mergeInv_sacn {cfg : NodeConfig} {i : Port} {st : DaemonState} {pkt : SacnPacket}
    {clk : HandlerClock} {sources : List AppliedSource} {now : Nat}
    (hcheck : clk.check i ≤ clk.store i) (hstore : clk.store i ≤ now) (hwrap : now < 2 ^ 32)
    (h : MergeInv (st i).out sources (clk.check i)) :
    MergeInv ((step cfg st (.sacn pkt clk)).1 i).out
      (noteLive cfg i st (.sacn pkt clk) sources) now := by
  simp only [step, noteLive, Event.timesOut, noteApplied, Event.appliedAt,
    handleSacnPacket_apply, Bool.false_eq_true, if_false]
  by_cases happ : pkt.startCode = 0 ∧ Routed cfg pkt.dmxUniverse i ∧
      sacnAccepts pkt clk i (st i).out = true
  swap
  · rw [if_neg happ, if_neg happ]
    exact h.mono (hcheck.trans hstore)
  · rw [if_pos happ, if_pos happ]
    have hstamp : (nowMs (clk.store i)).toNat = clk.store i := by
      rw [nowMs, UInt32.toNat_ofNat']
      omega
    -- the packet was accepted, so what outranks it has timed out
    have hnone := (sacnAccepts_iff pkt h (by omega)).mp happ.2.2
    have hnew : ∀ q ∈ sources, pkt.priority < q.priority → q.time + 2500 < clk.check i := by
      intro q hq hrank
      by_contra hrecent
      exact hnone ⟨q, hq, hrank, by omega⟩
    exact {
      stamp_le := by simp only [sacnStore, hstamp]; exact hstore
      stored := Or.inr ⟨_, List.mem_cons_self, rfl, hstamp.symm⟩
      newest := by
        intro q hq
        simp only [sacnStore, hstamp]
        rcases List.mem_cons.mp hq with rfl | hq
        · exact le_rfl
        · have := h.newest q hq
          have := h.stamp_le
          omega
      outranked := by
        intro q hq hrank
        rcases List.mem_cons.mp hq with rfl | hq
        · exact absurd hrank (UInt8.lt_irrefl pkt.priority)
        · have := hnew q hq hrank
          omega }

/-- An output cycle keeps the invariant. -/
theorem mergeInv_cycle {cfg : NodeConfig} {i : Port} {st : DaemonState} {ms : Nat}
    {opens : Port → Opens} {sources : List AppliedSource} {now : Nat}
    (h : MergeInv (st i).out sources now) :
    MergeInv ((step cfg st (.outputCycle ms opens)).1 i).out
      (noteLive cfg i st (.outputCycle ms opens) sources) now := by
  rw [outputPort_out]
  unfold noteLive
  split_ifs
  · exact {
      stamp_le := Nat.zero_le _
      stored := Or.inl rfl
      newest := fun q hq => by cases hq
      outranked := fun q hq => by cases hq }
  · exact h

theorem NoWrap.of_append {es rest : List Event} (h : NoWrap (es ++ rest)) : NoWrap es :=
  fun e he => h e (by simp [he])

theorem check_le_store {pkt : SacnPacket} {clk : HandlerClock} {es : List Event}
    (h : ClockMonotone (es ++ [.sacn pkt clk])) (i : Port) : clk.check i ≤ clk.store i := by
  unfold ClockMonotone at h
  rw [List.flatMap_append, List.pairwise_append] at h
  have h := h.2.1
  simp only [List.flatMap_cons, List.flatMap_nil, List.append_nil, Event.readings,
    List.pairwise_cons, List.mem_cons, List.not_mem_nil, or_false, forall_eq_or_imp,
    forall_eq] at h
  match i with
  | 0 => exact h.1.1
  | 1 => exact h.2.2.1

/-- The invariant holds after every run of sACN packets and output cycles on a clock that does
not go back and does not wrap. -/
theorem mergeInv_run (cfg : NodeConfig) (i : Port) (opened : Port → Int) (es : List Event)
    (hes : ∀ e ∈ es, e.isSacnOrCycle = true) (hclock : ClockMonotone es) (hwrap : NoWrap es)
    (now : Nat) (hnow : ∀ e ∈ es, ∀ r ∈ e.readings, r ≤ now) :
    MergeInv (finalState (step cfg) (initialState cfg opened) es i).out
      (liveSources cfg i (initialState cfg opened) es) now := by
  revert hes hclock hwrap now
  refine run_induction (step cfg) (s := initialState cfg opened)
    (P := fun es st => (∀ e ∈ es, e.isSacnOrCycle = true) → ClockMonotone es → NoWrap es →
      ∀ now, (∀ e ∈ es, ∀ r ∈ e.readings, r ≤ now) →
      MergeInv (st i).out (liveSources cfg i (initialState cfg opened) es) now) ?_ ?_ es
  · intro _ _ _ now _
    exact {
      stamp_le := Nat.zero_le _
      stored := Or.inl rfl
      newest := fun q hq => by cases hq
      outranked := fun q hq => by cases hq }
  · intro es e ih hes hclock hwrap now hnow
    have ih := ih (fun e' he' => hes e' (by simp [he'])) hclock.of_append hwrap.of_append
    have hkind := hes e (by simp)
    unfold liveSources at ih ⊢
    rw [history_concat]
    cases e with
    | sacn pkt clk =>
      -- the check of the last packet is the latest reading the earlier ones are bounded by
      have hbefore : ∀ e ∈ es, ∀ r ∈ e.readings, r ≤ clk.check i := fun e he r hr =>
        hclock.le he (List.mem_singleton_self _) hr (check_mem_readings clk i)
      have hstore := store_mem_readings clk i
      have hlast : clk.store i < 2 ^ 32 := hwrap (.sacn pkt clk) (by simp) _ hstore
      exact (mergeInv_sacn (check_le_store hclock i) le_rfl hlast (ih _ hbefore)).mono
        (hnow (.sacn pkt clk) (by simp) _ hstore)
    | outputCycle ms opens =>
      exact mergeInv_cycle (ih now fun e' he' => hnow e' (by simp [he']))
    | _ => cases hkind

/-! ## Hold times of 3 s and more -/

/-- With a hold time of 3 s or more, what a source timeout forgets has been applied more than
2500 ms before. -/
theorem forgotten_are_old (cfg : NodeConfig) (i : Port) (opened : Port → Int) (es : List Event)
    (hhold : 3 ≤ cfg.dmxHoldTime) (hes : ∀ e ∈ es, e.isSacnOrCycle = true)
    (hclock : ClockMonotone es) (hwrap : NoWrap es) (now : Nat)
    (hnow : ∀ e ∈ es, ∀ r ∈ e.readings, r ≤ now) :
    ∀ q ∈ appliedSources cfg i (initialState cfg opened) es,
      q ∈ liveSources cfg i (initialState cfg opened) es ∨ q.time + 2500 < now := by
  have hholdNat : 3 ≤ cfg.dmxHoldTime.toNat := UInt16.le_iff_toNat_le.mp hhold
  have hholdLt : cfg.dmxHoldTime.toNat < 2 ^ 16 := cfg.dmxHoldTime.toNat_lt
  revert hes hclock hwrap now
  refine run_induction (step cfg) (s := initialState cfg opened)
    (P := fun es _ => (∀ e ∈ es, e.isSacnOrCycle = true) → ClockMonotone es → NoWrap es →
      ∀ now, (∀ e ∈ es, ∀ r ∈ e.readings, r ≤ now) →
      ∀ q ∈ appliedSources cfg i (initialState cfg opened) es,
        q ∈ liveSources cfg i (initialState cfg opened) es ∨ q.time + 2500 < now) ?_ ?_ es
  · intro _ _ _ now _ q hq
    cases hq
  · intro es e ih hes hclock hwrap now hnow q hq
    have hesPre := fun e' he' => hes e' (List.mem_append_left [e] he')
    have hnowPre := fun e' he' => hnow e' (List.mem_append_left [e] he')
    have ih := ih hesPre hclock.of_append hwrap.of_append
    have hkind := hes e (by simp)
    unfold appliedSources at ih hq
    unfold liveSources at ih ⊢
    rw [history_concat] at hq ⊢
    cases e with
    | sacn pkt clk =>
      simp only [noteLive, Event.timesOut, noteApplied, Bool.false_eq_true, if_false] at hq ⊢
      cases happ : (Event.sacn pkt clk).appliedAt cfg i
          (finalState (step cfg) (initialState cfg opened) es) with
      | none =>
        rw [happ] at hq
        exact ih now hnowPre q hq
      | some u =>
        rw [happ] at hq
        rcases List.mem_cons.mp hq with rfl | hq
        · exact Or.inl List.mem_cons_self
        · exact (ih now hnowPre q hq).imp_left (List.mem_cons_of_mem _)
    | outputCycle ms opens =>
      simp only [noteLive, noteApplied] at hq ⊢
      have hms : ms < 2 ^ 32 :=
        hwrap (.outputCycle ms opens) (by simp) ms (by simp [Event.readings])
      have hle : ms ≤ now := hnow (.outputCycle ms opens) (by simp) ms (by simp [Event.readings])
      have hbefore : ∀ e ∈ es, ∀ r ∈ e.readings, r ≤ ms := fun e he r hr =>
        hclock.le he (List.mem_singleton_self _) hr (by simp [Event.readings])
      -- where sources are forgotten, what bounds their age is the stamp: the invariant at the cycle
      have hinv := mergeInv_run cfg i opened es hesPre hclock.of_append hwrap.of_append ms hbefore
      split_ifs with hout
      · -- the live sources are forgotten: none is newer than the stamp that timed out
        refine Or.inr ?_
        rcases ih ms hbefore q hq with hlive | hold
        · have hage := timesOut_iff hout
          simp only [timedOut, decide_eq_true_eq] at hage
          -- `dmx_hold_time * 1000` is computed in 32 bits, where a 16-bit hold time cannot overflow
          have hhold1000 : cfg.dmxHoldTime.toUInt32 * 1000
              = UInt32.ofNat (cfg.dmxHoldTime.toNat * 1000) := by
            apply UInt32.toNat_inj.mp
            simp only [UInt32.toNat_mul, UInt16.toNat_toUInt32, UInt32.toNat_ofNat']
            rfl
          rw [hhold1000, nowMs_sub_gt hms hinv.stamp_le (by omega)] at hage
          have := hinv.newest q hlive
          omega
        · omega
      · exact ih now hnowPre q hq
    | _ => cases hkind

/-- A source live at a port has been applied to it. -/
theorem appliedSources_of_liveSources (cfg : NodeConfig) (i : Port) (st : DaemonState)
    (es : List Event) : ∀ q ∈ liveSources cfg i st es, q ∈ appliedSources cfg i st es := by
  refine run_induction (step cfg) (s := st)
    (P := fun es _ => ∀ q ∈ liveSources cfg i st es, q ∈ appliedSources cfg i st es) ?_ ?_ es
  · intro q hq
    cases hq
  · intro es e ih q hq
    unfold appliedSources at ih ⊢
    unfold liveSources at ih hq
    rw [history_concat] at hq ⊢
    unfold noteLive at hq
    -- a timeout only removes sources; any other event does the same to both lists
    split_ifs at hq
    · cases hq
    · cases e with
      | sacn pkt clk =>
        simp only [noteApplied] at hq ⊢
        cases happ : (Event.sacn pkt clk).appliedAt cfg i (finalState (step cfg) st es) with
        | none =>
          rw [happ] at hq
          exact ih q hq
        | some u =>
          rw [happ] at hq
          rcases List.mem_cons.mp hq with rfl | hq
          · exact List.mem_cons_self
          · exact List.mem_cons_of_mem _ (ih q hq)
      | _ => exact ih q hq

/-! ## The merge over a run -/

/-- **The merge rule.** In every run of sACN packets and output cycles, on a clock that neither
goes back nor wraps, a start code 0 packet for a TX port is stored there unless a packet of
higher priority was applied to the port in the 2500 ms before and since its last source timeout.
With a hold time of 3 s or more the timeouts do not matter. -/
theorem sacn_merge_rule (cfg : NodeConfig) (i : Port) (opened : Port → Int) (es : List Event)
    (pkt : SacnPacket) (clk : HandlerClock) (hes : ∀ e ∈ es, e.isSacnOrCycle = true)
    (hclock : ClockMonotone (es ++ [.sacn pkt clk])) (hwrap : NoWrap (es ++ [.sacn pkt clk]))
    (hcode : pkt.startCode = 0) (hroute : Routed cfg pkt.dmxUniverse i) :
    (step cfg (finalState (step cfg) (initialState cfg opened) es) (.sacn pkt clk)).1 i
        = (if Outranked (liveSources cfg i (initialState cfg opened) es) pkt.priority
              (clk.check i) then
            finalState (step cfg) (initialState cfg opened) es i
          else
            { finalState (step cfg) (initialState cfg opened) es i with
              out := sacnStore pkt clk i
                (finalState (step cfg) (initialState cfg opened) es i).out }) ∧
      (3 ≤ cfg.dmxHoldTime →
        (Outranked (liveSources cfg i (initialState cfg opened) es) pkt.priority (clk.check i) ↔
          Outranked (appliedSources cfg i (initialState cfg opened) es) pkt.priority
            (clk.check i))) := by
  have hbefore : ∀ e ∈ es, ∀ r ∈ e.readings, r ≤ clk.check i := fun e he r hr =>
    hclock.le he (List.mem_singleton_self _) hr (check_mem_readings clk i)
  have hlast : clk.check i < 2 ^ 32 :=
    hwrap (.sacn pkt clk) (by simp) _ (check_mem_readings clk i)
  have hinv := mergeInv_run cfg i opened es hes hclock.of_append hwrap.of_append _ hbefore
  -- the invariant at the packet's own check time reads the merge test as `Outranked`
  have hacc := sacnAccepts_iff pkt hinv hlast
  refine ⟨?_, ?_⟩
  · simp only [step, handleSacnPacket_apply, hcode, hroute, true_and]
    by_cases hout : Outranked (liveSources cfg i (initialState cfg opened) es) pkt.priority
        (clk.check i)
    · rw [if_pos hout, if_neg (fun h => hacc.mp h hout)]
    · rw [if_neg hout, if_pos (hacc.mpr hout)]
  · intro hhold
    -- with a long hold time, what `liveSources` lacks is too old to outrank anything
    have hold := forgotten_are_old cfg i opened es hhold hes hclock.of_append hwrap.of_append
      _ hbefore
    constructor
    · rintro ⟨q, hq, hrank, hrecent⟩
      exact ⟨q, appliedSources_of_liveSources cfg i _ es q hq, hrank, hrecent⟩
    · rintro ⟨q, hq, hrank, hrecent⟩
      rcases hold q hq with hlive | hgone
      · exact ⟨q, hlive, hrank, hrecent⟩
      · omega

/-! ## Three sources -/

/-- A packet of higher priority for the port's universe was received during the
`SACN_TIMEOUT_MS` before `t`, applied or not. -/
def OutrankedByReceived (cfg : NodeConfig) (i : Port) (es : List Event) (priority : UInt8)
    (t : Nat) : Prop :=
  ∃ q clk, Event.sacn q clk ∈ es ∧ q.startCode = 0 ∧ Routed cfg q.dmxUniverse i ∧
    priority < q.priority ∧ t ≤ clk.check i + 2500

/-- A source of priority 200 that sends once, and one of priority 150 that is turned away. -/
def twoSourceRun : List Event :=
  [.sacn (sacnLevel 1 200 1) (HandlerClock.at 1000),
    .sacn (sacnLevel 1 150 2) (HandlerClock.at 2000)]

/-- Within 2.5 s of the first source, a third one of priority 100 is turned away too. -/
theorem twoSourceRun_refuses :
    (step configDefaults (finalState (step configDefaults) (initialState configDefaults
        fun _ => 3) twoSourceRun) (.sacn (sacnLevel 1 100 3) (HandlerClock.at 3500))).1 0
      = finalState (step configDefaults) (initialState configDefaults fun _ => 3)
          twoSourceRun 0 := by
  have h := (sacn_merge_rule configDefaults 0 (fun _ => 3) twoSourceRun (sacnLevel 1 100 3)
    (HandlerClock.at 3500) (by decide) (by decide) (by unfold NoWrap; decide) rfl
    (by decide)).1
  rwa [if_pos (by decide)] at h

/-- When the first source has timed out the third is applied, although the second, of higher
priority, was heard 1501 ms before. -/
theorem twoSourceRun_applies_lower :
    ClockMonotone (twoSourceRun ++ [.sacn (sacnLevel 1 100 3) (HandlerClock.at 3501)]) ∧
      NoWrap (twoSourceRun ++ [.sacn (sacnLevel 1 100 3) (HandlerClock.at 3501)]) ∧
      OutrankedByReceived configDefaults 0 twoSourceRun 100 3501 ∧
      ((step configDefaults (finalState (step configDefaults) (initialState configDefaults
          fun _ => 3) twoSourceRun)
        (.sacn (sacnLevel 1 100 3) (HandlerClock.at 3501))).1 0).out.priority = 100 ∧
      ((step configDefaults (finalState (step configDefaults) (initialState configDefaults
          fun _ => 3) twoSourceRun)
        (.sacn (sacnLevel 1 100 3) (HandlerClock.at 3501))).1 0).out.lastUpdateMs = nowMs 3501 := by
  refine ⟨by decide, by unfold NoWrap; decide, ?_, by decide, by decide⟩
  exact ⟨sacnLevel 1 150 2, HandlerClock.at 2000, by simp [twoSourceRun], rfl, by decide,
    by decide, by decide⟩

end SN110
