import SN110.Cgi.Fields
import SN110.Config.Ifup

/-!
# The null address

`parse_ip` says 0 for a text that is no address, and so does a missing text. The loading code takes
an address 0 for DHCP when the file has no address mode; a file or a form that asks for a static
mode is believed, and the script then assigns 0.0.0.0.

`keepsAddress_iff` says for which files and bodies it does not.
-/

namespace SN110

/-- The address that is posted, or else the one in the file. -/
def askedAddress (file : Option (List UInt8)) (body : List UInt8) : UInt32 :=
  parseIp ((formText body .ipaddr).getD ((keyText file .nodeaddr).getD []))

/-- The mode in the file is `dhcp`, or there is a file with no mode and no address either. -/
def FileAsksDhcp (file : Option (List UInt8)) : Prop :=
  match keyText file .addrMode with
  | some mode => mode = ascii "dhcp"
  | none => file.isSome ∧ parseIp ((keyText file .nodeaddr).getD []) = 0

/-- The mode that is posted is `dhcp`, or none is posted and the file asks for DHCP. -/
def AsksDhcp (file : Option (List UInt8)) (body : List UInt8) : Prop :=
  match formText body .addrMode with
  | some mode => mode = ascii "dhcp"
  | none => FileAsksDhcp file

/-- The script written for the file and the body never assigns 0.0.0.0. -/
def KeepsAddress (file : Option (List UInt8)) (body : List UInt8) : Prop :=
  ∀ old script,
    configGenerateIfup true old (parseFormdata body (configLoad file).2) = (0, some script) →
      NeverNull script

theorem addrMode_configLoad_eq_dhcp (file : Option (List UInt8)) :
    (configLoad file).2.addrMode = addrModeDhcp ↔ FileAsksDhcp file := by
  cases file with
  | none => exact iff_of_false (by decide) (fun h => Bool.noConfusion h.1)
  | some content =>
    rw [addrMode_configLoad]
    unfold FileAsksDhcp
    cases keyText (some content) .addrMode with
    | some mode => exact parseAddrMode_eq_dhcp
    | none =>
      simp only [Option.isSome_some, true_and]
      split_ifs with hzero
      · exact iff_of_true rfl hzero
      · exact iff_of_false (by decide) hzero

section

variable (file : Option (List UInt8)) (body : List UInt8)

theorem addrMode_posted :
    (postedFields body (configLoad file).2).addrMode = addrModeDhcp ↔ AsksDhcp file body := by
  have h : Agrees _ _ .addrMode := agrees_postedFields .addrMode body (configLoad file).2
  rw [show (postedFields body (configLoad file).2).addrMode = _ from h]
  unfold AsksDhcp
  cases formText body .addrMode with
  | some mode => exact parseAddrMode_eq_dhcp
  | none => exact addrMode_configLoad_eq_dhcp file

theorem ipAddr_posted :
    (postedFields body (configLoad file).2).ipAddr = askedAddress file body := by
  have h : Agrees _ _ .nodeaddr := agrees_postedFields .ipaddr body (configLoad file).2
  rw [show (postedFields body (configLoad file).2).ipAddr = _ from h]
  unfold askedAddress
  cases formText body .ipaddr with
  | some val => rfl
  | none => exact ipAddr_configLoad file

/-- Outside DHCP mode the address is not zeroed, and so it is assigned as it was asked for. -/
theorem keepsAddress_iff_posted :
    KeepsAddress file body ↔
      (postedFields body (configLoad file).2).addrMode = addrModeDhcp ∨
        (postedFields body (configLoad file).2).ipAddr ≠ 0 := by
  have hscript : KeepsAddress file body
      ↔ NeverNull (ifupScript (parseFormdata body (configLoad file).2)) := by
    constructor
    · intro h
      exact h none _ rfl
    · intro h old script hgen
      obtain rfl : ifupScript _ = script := Option.some.inj (congrArg Prod.snd hgen)
      exact h
  rw [hscript, neverNull_ifupScript, parseFormdata_eq, addrMode_zeroDhcpAddresses]
  refine or_congr_right' fun hstatic => ?_
  rw [zeroDhcpAddresses_of_ne hstatic]

/-- **The node keeps an address** exactly when it is to use DHCP or the address asked for can be
parsed to something else than 0. -/
theorem keepsAddress_iff :
    KeepsAddress file body ↔ AsksDhcp file body ∨ askedAddress file body ≠ 0 := by
  rw [keepsAddress_iff_posted, addrMode_posted, ipAddr_posted]

end

/-- A static mode and no address. -/
def staticFile : List UInt8 := ascii "addr_mode = static" ++ [lf]

/-- An address that cannot be parsed is assigned as 0.0.0.0. -/
theorem staticFile_null : ¬ KeepsAddress (some staticFile) (ascii "ipaddr=10.0.0.256") := by
  have hpairs := @formPairs_last (ascii "ipaddr") (ascii "10.0.0.256") (by decide) (by decide)
  have hposted : formPairs (cstr (ascii "ipaddr=10.0.0.256"))
      = [(ascii "ipaddr", ascii "10.0.0.256")] := hpairs
  have hmode : formText (ascii "ipaddr=10.0.0.256") .addrMode = none := by
    unfold formText
    rw [hposted]
    decide
  have haddress : askedAddress (some staticFile) (ascii "ipaddr=10.0.0.256") = 0 := by
    unfold askedAddress formText
    rw [hposted]
    decide
  rw [keepsAddress_iff_posted, addrMode_posted, ipAddr_posted, not_or, not_not]
  refine ⟨?_, haddress⟩
  unfold AsksDhcp FileAsksDhcp
  rw [hmode, show keyText (some staticFile) .addrMode = some (ascii "static") by decide]
  decide

end SN110
