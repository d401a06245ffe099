import SN110.Config.Format
import SN110.Lib.Lines

/-!
# The network script (`config_generate_ifup`)

The script that brings the interface up, as the text of its `fprintf`s. In DHCP mode it runs `pump`
alone. In the other two modes it assigns the configured address, whatever it is.
-/

namespace SN110

open Lines

/-- `_ifup_static`. -/
def ifupStatic (config : NodeConfig) : List UInt8 :=
  let bcast := (config.ipAddr &&& config.netmask) ||| (~~~config.netmask &&& 0xFFFFFFFF)
  let net := config.ipAddr &&& config.netmask
  (ascii "/sbin/ifconfig eth0 " ++ dotted config.ipAddr ++ ascii " netmask "
      ++ dotted config.netmask ++ ascii " broadcast " ++ dotted bcast ++ ascii " up" ++ [lf])
    ++ (ascii "/sbin/route add -net " ++ dotted net ++ ascii " netmask " ++ dotted config.netmask
      ++ ascii " eth0" ++ [lf])
    ++ if config.gateway ≠ 0 then
        ascii "/sbin/route add default gw " ++ dotted config.gateway ++ [lf]
      else []

/-- What `config_generate_ifup` writes. -/
def ifupScript (config : NodeConfig) : List UInt8 :=
  (ascii "#!/bin/sh" ++ [lf]) ++ (ascii "/sbin/ifconfig eth0 down" ++ [lf])
    ++ if config.addrMode = addrModeDhcp then ascii "/sbin/pump -i eth0" ++ [lf]
      else if config.addrMode = addrModeDhcpStatic then
        (ascii "/sbin/pump -i eth0 || \x7b" ++ [lf]) ++ ifupStatic config ++ (ascii "\x7d" ++ [lf])
      else ifupStatic config

/-- `config_generate_ifup`, on the old script or `none`. -/
def configGenerateIfup (writable : Bool) (file : Option (List UInt8)) (config : NodeConfig) :
    Int × Option (List UInt8) :=
  if writable = true then (0, some (ifupScript config)) else (-1, file)

/-! ## The commands of a script -/

/-- The line is an `ifconfig` command that gives the interface the address 0.0.0.0. -/
def AssignsNull (line : List UInt8) : Prop := ascii "/sbin/ifconfig eth0 0.0.0.0 " <+: line

instance (line : List UInt8) : Decidable (AssignsNull line) :=
  inferInstanceAs (Decidable (_ <+: _))

/-- No line of the script is such a command. -/
def NeverNull (script : List UInt8) : Prop := ∀ line ∈ lines lf script, ¬ AssignsNull line

instance (script : List UInt8) : Decidable (NeverNull script) := by
  unfold NeverNull
  infer_instance

/-- Only the null address is written `0.0.0.0`. -/
theorem dotted_eq_null {ip : UInt32} : dotted ip = ascii "0.0.0.0" ↔ ip = 0 := by
  constructor
  · intro h
    rw [← parseIp_dotted ip, h]
    decide
  · rintro rfl
    decide

/-- A command line that starts like an assignment assigns 0.0.0.0 for the address 0 only. -/
theorem assignsNull_iff (ip : UInt32) (rest : List UInt8) :
    AssignsNull (ascii "/sbin/ifconfig eth0 " ++ dotted ip ++ space :: rest) ↔ ip = 0 := by
  have hspace : ∀ c ∈ dotted ip, decide (c ≠ space) = true :=
    forall_mem_dotted (fun c hc => by simpa using ne_of_isDigit hc (by decide)) (by decide) ip
  have hword : (dotted ip ++ space :: rest).takeWhile (· ≠ space) = dotted ip := by
    rw [List.takeWhile_append_of_pos hspace, List.takeWhile_cons_of_neg (by decide),
      List.append_nil]
  show ascii "/sbin/ifconfig eth0 " ++ (ascii "0.0.0.0" ++ [space]) <+: _ ↔ _
  rw [List.append_assoc, List.prefix_append_right_inj, ← dotted_eq_null]
  constructor
  · -- the address is what stands before the first space
    rintro ⟨t, ht⟩
    rw [← hword, ← ht]
    rfl
  · intro h
    rw [h]
    exact ⟨rest, by rw [List.append_assoc]; rfl⟩

/-! ## The lines of the script -/

/-- A command of the script: a text without a newline, and the newline. -/
theorem isLine_concat {s : List UInt8} (h : lf ∉ s) : IsLine lf (s ++ [lf]) :=
  ⟨List.getLast?_concat, by rwa [List.dropLast_concat]⟩

/-- An address is written without a line end. -/
theorem lf_notMem_dotted (ip : UInt32) : lf ∉ dotted ip := fun hmem =>
  (plain_dotted ip lf hmem).ne_lf rfl

section

variable (config : NodeConfig)

/-- The lines of `_ifup_static` after the first. -/
def routeLines : List (List UInt8) :=
  (ascii "/sbin/route add -net " ++ dotted (config.ipAddr &&& config.netmask) ++ ascii " netmask "
      ++ dotted config.netmask ++ ascii " eth0" ++ [lf])
    :: if config.gateway ≠ 0 then
        [ascii "/sbin/route add default gw " ++ dotted config.gateway ++ [lf]]
      else []

/-- Each of the route lines is one line. -/
theorem isLine_of_mem_routeLines : ∀ line ∈ routeLines config, IsLine lf line := by
  have hnet := lf_notMem_dotted (config.ipAddr &&& config.netmask)
  have hmask := lf_notMem_dotted config.netmask
  have hgateway := lf_notMem_dotted config.gateway
  unfold routeLines
  rw [List.forall_mem_cons]
  refine ⟨isLine_concat ?_, ?_⟩
  · simp only [List.mem_append, not_or]
    exact ⟨⟨⟨⟨by decide, hnet⟩, by decide⟩, hmask⟩, by decide⟩
  · split_ifs
    · rw [List.forall_mem_singleton]
      refine isLine_concat ?_
      simp only [List.mem_append, not_or]
      exact ⟨by decide, hgateway⟩
    · exact List.forall_mem_nil _

/-- No route line assigns the null address. -/
theorem not_assignsNull_routeLines : ∀ line ∈ routeLines config, ¬ AssignsNull line := by
  unfold routeLines
  rw [List.forall_mem_cons]
  constructor
  · -- the two commands differ in their seventh byte
    rintro ⟨t, ht⟩
    exact absurd (congrArg (fun s => s.take 8) ht) (by simp [ascii])
  · split_ifs
    · rw [List.forall_mem_singleton]
      rintro ⟨t, ht⟩
      exact absurd (congrArg (fun s => s.take 8) ht) (by simp [ascii])
    · exact List.forall_mem_nil _

/-- The command that assigns the configured address, up to its newline. -/
def assignLine : List UInt8 :=
  let bcast := (config.ipAddr &&& config.netmask) ||| (~~~config.netmask &&& 0xFFFFFFFF)
  ascii "/sbin/ifconfig eth0 " ++ dotted config.ipAddr ++ ascii " netmask " ++ dotted config.netmask
    ++ ascii " broadcast " ++ dotted bcast ++ ascii " up" ++ [lf]

/-- The line that assigns the address is one line. -/
theorem isLine_assignLine : IsLine lf (assignLine config) := by
  refine isLine_concat ?_
  simp only [List.mem_append, not_or]
  exact ⟨⟨⟨⟨⟨⟨by decide, lf_notMem_dotted _⟩, by decide⟩, lf_notMem_dotted _⟩, by decide⟩,
    lf_notMem_dotted _⟩, by decide⟩

/-- It assigns the null address exactly when the configuration has it. -/
theorem assignsNull_assignLine : AssignsNull (assignLine config) ↔ config.ipAddr = 0 := by
  unfold assignLine
  simp only [List.append_assoc]
  rw [← List.append_assoc (ascii "/sbin/ifconfig eth0 ")]
  exact assignsNull_iff config.ipAddr _

/-- The static part of the script: the assigning line, then the routes. -/
theorem ifupStatic_eq : ifupStatic config = (assignLine config :: routeLines config).flatten := by
  unfold ifupStatic assignLine routeLines
  split_ifs <;> simp [List.append_assoc]

/-- The lines of the script. -/
def ifupLines : List (List UInt8) :=
  (ascii "#!/bin/sh" ++ [lf]) :: (ascii "/sbin/ifconfig eth0 down" ++ [lf])
    :: if config.addrMode = addrModeDhcp then [ascii "/sbin/pump -i eth0" ++ [lf]]
      else if config.addrMode = addrModeDhcpStatic then
        (ascii "/sbin/pump -i eth0 || \x7b" ++ [lf])
          :: ((assignLine config :: routeLines config) ++ [ascii "\x7d" ++ [lf]])
      else assignLine config :: routeLines config

/-- The script is its lines run together. -/
theorem ifupScript_eq : ifupScript config = (ifupLines config).flatten := by
  unfold ifupScript ifupLines
  rw [ifupStatic_eq]
  split_ifs <;> simp [List.append_assoc]

/-- Each line of the script is one line. -/
theorem isLine_of_mem_ifupLines : ∀ line ∈ ifupLines config, IsLine lf line := by
  have hstatic : ∀ line ∈ assignLine config :: routeLines config, IsLine lf line :=
    List.forall_mem_cons.mpr ⟨isLine_assignLine config, isLine_of_mem_routeLines config⟩
  unfold ifupLines
  rw [List.forall_mem_cons, List.forall_mem_cons]
  refine ⟨isLine_concat (by decide), isLine_concat (by decide), ?_⟩
  split_ifs
  · exact List.forall_mem_singleton.mpr (isLine_concat (by decide))
  · rw [List.forall_mem_cons, List.forall_mem_append]
    exact ⟨isLine_concat (by decide), hstatic,
      List.forall_mem_singleton.mpr (isLine_concat (by decide))⟩
  · exact hstatic

/-- Read as lines, the script is its lines. -/
theorem lines_ifupScript : lines lf (ifupScript config) = ifupLines config := by
  have h := lines_flatten_append (isLine_of_mem_ifupLines config) []
  rw [List.append_nil] at h
  rw [ifupScript_eq, h]
  exact List.append_nil _

/-- **The script assigns 0.0.0.0** exactly when a mode with a static address has the address 0. -/
theorem neverNull_ifupScript :
    NeverNull (ifupScript config) ↔ config.addrMode = addrModeDhcp ∨ config.ipAddr ≠ 0 := by
  have hstatic : (∀ line ∈ assignLine config :: routeLines config, ¬ AssignsNull line)
      ↔ config.ipAddr ≠ 0 := by
    rw [List.forall_mem_cons, assignsNull_assignLine]
    exact and_iff_left (not_assignsNull_routeLines config)
  unfold NeverNull
  rw [lines_ifupScript]
  unfold ifupLines
  -- the script's first two lines assign nothing
  rw [List.forall_mem_cons, List.forall_mem_cons, and_iff_right (by decide),
    and_iff_right (by decide)]
  split_ifs with hdhcp hfallback
  · rw [List.forall_mem_singleton]
    exact iff_of_true (by decide) (Or.inl hdhcp)
  · -- the lines around the block are no assignments
    rw [List.forall_mem_cons, List.forall_mem_append, List.forall_mem_singleton, hstatic,
      and_iff_right (by decide), and_iff_left (by decide)]
    exact ⟨Or.inr, fun h => h.resolve_left hdhcp⟩
  · rw [hstatic]
    exact ⟨Or.inr, fun h => h.resolve_left hdhcp⟩

end

end SN110
