import SN110.Cgi.Session
import SN110.Config.Ifup

/-!
# The network script of a session

Every POST also writes `/etc/ifup-eth0` from the configuration it saves. The next start runs that
script, while the daemon loads the configuration from the file. `session_network` says that the two
do not drift apart: the file is loaded with the network settings that the posted ones give, one POST
after the other, and the script is the one for the file.
-/

namespace SN110

/-! ## The code -/

/-- The files that `cgi_config` writes. -/
structure PageFiles extends ConfigFiles where
  /-- `IFUP_FILE_PATH`. -/
  ifup : Option (List UInt8)

/-- `main` of `cgi_config` on a POST, with the three files. -/
def pagePost (env : CgiEnv) (ifupWritable : Bool) (files : PageFiles) (request : PostRequest) :
    PageFiles where
  toConfigFiles := cgiConfigPost env request files.toConfigFiles
  ifup :=
    (configGenerateIfup ifupWritable files.ifup (postedConfig env request files.toConfigFiles)).2

/-- The three files after a session. -/
def pageSession (env : CgiEnv) (ifupWritable : Bool) (files : PageFiles)
    (requests : List PostRequest) : PageFiles :=
  requests.foldl (pagePost env ifupWritable) files

/-! ## The network settings -/

/-- What the script is made from. -/
structure Network where
  addrMode : UInt8
  ipAddr : UInt32
  netmask : UInt32
  gateway : UInt32
  deriving DecidableEq

def NodeConfig.network (config : NodeConfig) : Network :=
  ⟨config.addrMode, config.ipAddr, config.netmask, config.gateway⟩

/-- A posted setting replaces the one from before. -/
def Network.ask (network : Network) (body : List UInt8) : Network where
  addrMode := (formText body .addrMode).elim network.addrMode parseAddrMode
  ipAddr := (formText body .ipaddr).elim network.ipAddr parseIp
  netmask := (formText body .netmask).elim network.netmask parseIp
  gateway := (formText body .gateway).elim network.gateway parseIp

/-- The settings after a POST: DHCP has no addresses. -/
def Network.post (network : Network) (request : PostRequest) : Network :=
  if (network.ask (readBody request)).addrMode = addrModeDhcp then ⟨addrModeDhcp, 0, 0, 0⟩
  else network.ask (readBody request)

/-- Configurations that agree in the four network keys have the same network settings. -/
theorem network_eq_of_agrees {a b : NodeConfig} (hmode : Agrees a b .addrMode)
    (hip : Agrees a b .nodeaddr) (hmask : Agrees a b .netmask) (hgateway : Agrees a b .gateway) :
    a.network = b.network := by
  change a.addrMode = b.addrMode at hmode
  change a.ipAddr = b.ipAddr at hip
  change a.netmask = b.netmask at hmask
  change a.gateway = b.gateway at hgateway
  unfold NodeConfig.network
  rw [hmode, hip, hmask, hgateway]

/-- The script depends on the network settings alone. -/
theorem ifupScript_congr {a b : NodeConfig} (h : a.network = b.network) :
    ifupScript a = ifupScript b := by
  obtain ⟨hmode, hip, hmask, hgateway⟩ := Network.mk.inj h
  unfold ifupScript ifupStatic
  rw [hmode, hip, hmask, hgateway]

/-- In DHCP mode only the mode is left of the network settings. -/
theorem network_zeroDhcpAddresses (config : NodeConfig) :
    (zeroDhcpAddresses config).network
      = if config.addrMode = addrModeDhcp then ⟨addrModeDhcp, 0, 0, 0⟩ else config.network := by
  unfold zeroDhcpAddresses
  split_ifs with hdhcp
  · rw [← hdhcp]
    rfl
  · rfl

/-! ## One POST -/

section

variable {env : CgiEnv} {old : List UInt8} {requests : List PostRequest}

/-- The form fields of the network settings are independent of the others. -/
theorem network_postedFields (body : List UInt8) (config : NodeConfig) :
    (postedFields body config).network = config.network.ask body := by
  have hmode : (postedFields body config).addrMode = _ :=
    agrees_postedFields .addrMode body config
  have hip : (postedFields body config).ipAddr = _ := agrees_postedFields .ipaddr body config
  have hmask : (postedFields body config).netmask = _ := agrees_postedFields .netmask body config
  have hgateway : (postedFields body config).gateway = _ :=
    agrees_postedFields .gateway body config
  unfold NodeConfig.network Network.ask
  rw [hmode, hip, hmask, hgateway]
  -- each of the four fields is posted or not
  cases formText body .addrMode <;> cases formText body .ipaddr <;>
    cases formText body .netmask <;> cases formText body .gateway <;> rfl

/-- The CGI program has the network settings of the file. -/
theorem network_cgiLoad (env : CgiEnv) (file : Option (List UInt8)) :
    (cgiLoad env file).network = (configLoad file).2.network := by
  unfold cgiLoad
  dsimp only
  split_ifs <;> rfl

/-- What a POST saves. -/
theorem network_savedByPost (env : CgiEnv) (request : PostRequest) (old : List UInt8) :
    (savedByPost env (readBody request) old).network
      = (configLoad (some old)).2.network.post request := by
  have hposted := network_postedFields (readBody request) (cgiLoad env (some old))
  show (zeroDhcpAddresses (postedFields _ _)).network = _
  rw [network_cgiLoad] at hposted
  rw [network_zeroDhcpAddresses, hposted]
  show (if (postedFields _ _).network.addrMode = _ then _ else _) = _
  rw [hposted]
  rfl

/-- **What a POST saves is loaded again.** -/
theorem network_configLoad_posted {body : List UInt8} (htail : TailOk managedKeys false old)
    (hclean : CleanText (savedByPost env body old)) :
    (configLoad (some (savedConfig (savedByPost env body old) old))).2.network
      = (savedByPost env body old).network := by
  have hread : ∀ key : Key, ¬ key.IsText → Agrees _ _ key := fun _ =>
    agrees_configLoad_posted htail hclean
  exact network_eq_of_agrees (hread .addrMode id) (hread .nodeaddr id) (hread .netmask id)
    (hread .gateway id)

/-! ## The session -/

/-- The script apart, a page session is a session. -/
theorem toConfigFiles_pageSession (ifupWritable : Bool) (files : PageFiles) :
    (pageSession env ifupWritable files requests).toConfigFiles
      = session env files.toConfigFiles requests := by
  induction requests generalizing files with
  | nil => rfl
  | cons request requests ih => exact ih (pagePost env ifupWritable files request)

/-- The last request of a page session comes after the others. -/
theorem pageSession_concat (ifupWritable : Bool) (files : PageFiles) (request : PostRequest) :
    pageSession env ifupWritable files (requests ++ [request])
      = pagePost env ifupWritable (pageSession env ifupWritable files requests) request := by
  unfold pageSession
  rw [List.foldl_append]
  rfl

/-- A plain page session leaves the text of its posts saved one over the other. -/
theorem config_pageSession (ifupWritable : Bool) {files : PageFiles}
    (hfile : files.config = some old) (h : PlainSession env old requests) :
    (pageSession env ifupWritable files requests).config
      = some (sessionText env old requests) := by
  rw [toConfigFiles_pageSession, session_config h.writable hfile]

/-- The settings go on from POST to POST through the file. -/
theorem network_sessionText (h : PlainSession env old requests) :
    (configLoad (some (sessionText env old requests))).2.network
      = requests.foldl Network.post (configLoad (some old)).2.network := by
  induction requests using List.reverseRecOn with
  | nil => rfl
  | append_singleton requests request ih =>
    have hload := network_configLoad_posted (tailOk_sessionText h.of_concat)
      (h.clean (sessionText env old requests))
    rw [sessionText_concat, List.foldl_append, ← ih h.of_concat]
    unfold postOver
    rw [hload, network_savedByPost]
    rfl

/-- The script is the one for the file. -/
theorem ifup_pageSession {files : PageFiles} (hfile : files.config = some old)
    (h : PlainSession env old requests) (hne : requests ≠ []) :
    (pageSession env true files requests).ifup
      = some (ifupScript (configLoad (some (sessionText env old requests))).2) := by
  obtain ⟨before, request, rfl⟩ := (List.eq_nil_or_concat' requests).resolve_left hne
  have hload := network_configLoad_posted (tailOk_sessionText h.of_concat)
    (h.clean (sessionText env old before))
  have hbefore := config_pageSession true hfile h.of_concat
  rw [pageSession_concat, sessionText_concat]
  show some (ifupScript (parseFormdata _ (cgiLoad env _))) = _
  rw [hbefore]
  exact congrArg some (ifupScript_congr hload.symm)

end

/-- **The script and the configuration do not drift apart.** After any number of POSTs of a plain
session, the file is loaded with the network settings that the POSTs give one after the other, and
the script brings up that network. -/
theorem session_network {env : CgiEnv} {files : PageFiles} {old : List UInt8}
    {requests : List PostRequest} (hfile : files.config = some old)
    (h : PlainSession env old requests) (hne : requests ≠ []) :
    (configLoad (pageSession env true files requests).config).2.network
        = requests.foldl Network.post (configLoad (some old)).2.network ∧
      (pageSession env true files requests).ifup
        = some (ifupScript (configLoad (pageSession env true files requests).config).2) := by
  rw [config_pageSession true hfile h]
  exact ⟨network_sessionText h, ifup_pageSession hfile h hne⟩

/-! ## From a static address to DHCP -/

/-- A static address is asked for, and then DHCP. -/
def dhcpPosts : List PostRequest :=
  [⟨some (ascii "16"), ascii "addr_mode=static", 2047⟩,
    ⟨some (ascii "14"), ascii "addr_mode=dhcp", 2047⟩]

/-- The example session is plain. -/
theorem dhcpPosts_plain : PlainSession quietEnv commentFile dhcpPosts where
  writable := rfl
  closed := by decide
  room config _ := length_savedConfig_commentFile config
  texts := by
    have hstatic : readBody ⟨some (ascii "16"), ascii "addr_mode=static", 2047⟩
        = FormField.addrMode.name ++ equals :: ascii "static" := by decide
    have hdhcp : readBody ⟨some (ascii "14"), ascii "addr_mode=dhcp", 2047⟩
        = FormField.addrMode.name ++ equals :: ascii "dhcp" := by decide
    unfold dhcpPosts
    rw [List.forall_mem_cons, List.forall_mem_singleton, hstatic, hdhcp,
      @postedTexts_setting .addrMode trivial (ascii "static") (by decide) (by decide),
      @postedTexts_setting .addrMode trivial (ascii "dhcp") (by decide) (by decide)]
    decide

/-- Whatever was set before, DHCP is asked for without an address. -/
theorem post_dhcp (network : Network) :
    network.post ⟨some (ascii "14"), ascii "addr_mode=dhcp", 2047⟩
      = ⟨addrModeDhcp, 0, 0, 0⟩ := by
  have hbody : readBody ⟨some (ascii "14"), ascii "addr_mode=dhcp", 2047⟩
      = FormField.addrMode.name ++ equals :: ascii "dhcp" := by decide
  have hmode : parseAddrMode (cstr (urlDecode (ascii "dhcp") 192)) = addrModeDhcp := by decide
  unfold Network.post Network.ask
  rw [hbody, formText_single (by decide) (by decide), if_pos rfl]
  exact if_pos hmode

/-- `session_network` on the example session: the last post asks for DHCP, and the script runs
`pump`. -/
theorem dhcpPosts_network :
    (configLoad (pageSession quietEnv true ⟨commentFiles, none⟩ dhcpPosts).config).2.network
        = ⟨addrModeDhcp, 0, 0, 0⟩ ∧
      (pageSession quietEnv true ⟨commentFiles, none⟩ dhcpPosts).ifup
        = some (ascii "#!/bin/sh" ++ [lf] ++ (ascii "/sbin/ifconfig eth0 down" ++ [lf])
          ++ (ascii "/sbin/pump -i eth0" ++ [lf])) := by
  obtain ⟨hload, hscript⟩ := @session_network quietEnv ⟨commentFiles, none⟩ commentFile dhcpPosts
    rfl dhcpPosts_plain (List.cons_ne_nil _ _)
  have hnetwork := hload.trans (post_dhcp _)
  refine ⟨hnetwork, hscript.trans (congrArg some ?_)⟩
  have hmode := congrArg Network.addrMode hnetwork
  unfold ifupScript
  exact congrArg _ (if_pos hmode)

end SN110
