import SN110.Cgi.Formdata
import SN110.Config.Strand

/-!
# From a POST to the flash (`cgi_config.c`, `cfgpost.cgi`)

A POST runs the script `cfgpost.cgi`. It runs `cgi_config`, which loads the configuration, applies
the form and saves both files without looking at what the saving returns. Then it hands the Strand
file to `nodecfg put` if it has less than 4096 bytes.

`put_accepted_iff` says when only accepted files go to the flash.
-/

namespace SN110

/-! ## The code -/

/-- The two configuration files. -/
structure ConfigFiles where
  /-- `CONFIG_FILE_PATH`. -/
  config : Option (List UInt8)
  /-- `STRAND_CONFIG_PATH`. -/
  strand : Option (List UInt8)

/-- What the rest of the node answers to `cgi_config`. -/
structure CgiEnv where
  configWritable : Bool
  strandWritable : Bool
  /-- The interface's MAC address, unless `socket` or `ioctl` fails. -/
  ifaceMac : Option (Vector UInt8 6)

/-- A POST. -/
structure PostRequest where
  /-- `CONTENT_LENGTH`, if it is set. -/
  contentLength : Option (List UInt8)
  stdin : List UInt8
  /-- How many bytes the one `read` returns at most. -/
  readSize : Nat

/-- The body as `main` reads it: a body that does not fit is dropped. -/
def readBody (request : PostRequest) : List UInt8 :=
  let contentLength := match request.contentLength with
    | some s => atoi s
    | none => 0
  if contentLength > 0 ∧ contentLength < 2047 then
    request.stdin.take (min contentLength.toNat request.readSize)
  else []

/-- The configuration that `main` starts from. -/
def cgiLoad (env : CgiEnv) (file : Option (List UInt8)) : NodeConfig :=
  let cfg := (configLoad file).2
  if cfg.mac = Vector.replicate 6 0 then { cfg with mac := env.ifaceMac.getD cfg.mac } else cfg

/-- The configuration that `main` saves. -/
def postedConfig (env : CgiEnv) (request : PostRequest) (files : ConfigFiles) : NodeConfig :=
  parseFormdata (readBody request) (cgiLoad env files.config)

/-- `cgi_config` on a POST: the files it leaves. -/
def cgiConfigPost (env : CgiEnv) (request : PostRequest) (files : ConfigFiles) : ConfigFiles :=
  let cfg := postedConfig env request files
  { config := (configSave env.configWritable files.config cfg).2
    strand := (configSaveStrand env.strandWritable files.strand cfg).2 }

/-- The bound that `cfgpost.cgi` puts on a file for `nodecfg put`. -/
abbrev putMaxSize : Nat := 4096

/-- `cfgpost.cgi`: the files it leaves and the contents it gives to `nodecfg put`, if it runs it. -/
def cfgpost (env : CgiEnv) (request : PostRequest) (files : ConfigFiles) :
    ConfigFiles × Option (List UInt8) :=
  let files := cgiConfigPost env request files
  match files.strand with
  | some content => (files, if content.length < putMaxSize then some content else none)
  | none => (files, none)

/-! ## What goes to the flash -/

/-- What `config_save_strand` has returned, which `main` does not look at. -/
def strandAccepted (env : CgiEnv) (request : PostRequest) (files : ConfigFiles) : Prop :=
  (configSaveStrand env.strandWritable files.strand (postedConfig env request files)).1 = 0

/-- Only an accepted file, and so one of at most `STRAND_MAX_SIZE` bytes, goes to the flash. -/
def PutsOnlyAccepted (env : CgiEnv) (request : PostRequest) (files : ConfigFiles) : Prop :=
  ∀ content, (cfgpost env request files).2 = some content →
    strandAccepted env request files ∧ content.length ≤ strandMaxSize

/-- What is given to `nodecfg put` is the file that `config_save_strand` has left, if it is small
enough. -/
theorem cfgpost_put {env : CgiEnv} {request : PostRequest} {files : ConfigFiles}
    {content : List UInt8} :
    (cfgpost env request files).2 = some content ↔
      (configSaveStrand env.strandWritable files.strand (postedConfig env request files)).2
          = some content ∧ content.length < putMaxSize := by
  unfold cfgpost cgiConfigPost
  dsimp only
  cases (configSaveStrand env.strandWritable files.strand (postedConfig env request files)).2 with
  | none => simp
  | some saved =>
    dsimp only
    split_ifs with hsmall
    · simp only [Option.some.injEq]
      exact ⟨fun h => ⟨h, h ▸ hsmall⟩, fun h => h.1⟩
    · refine iff_of_false (by simp) fun h => hsmall ?_
      rw [Option.some.inj h.1]
      exact h.2

/-- **Only accepted files go to the flash** unless the new file's size is between the two bounds
or, where it cannot be written, the file from before goes there. -/
theorem put_accepted_iff (env : CgiEnv) (request : PostRequest) (files : ConfigFiles) :
    PutsOnlyAccepted env request files ↔
      if env.strandWritable = true then
        savedSize strandKeys true (postedConfig env request files) (files.strand.getD [])
            ≤ strandMaxSize ∨
          putMaxSize ≤
            savedSize strandKeys true (postedConfig env request files) (files.strand.getD [])
      else ∀ content ∈ files.strand, putMaxSize ≤ content.length := by
  unfold PutsOnlyAccepted strandAccepted
  simp only [cfgpost_put]
  generalize postedConfig env request files = cfg
  by_cases hwritable : env.strandWritable = true
  · rw [if_pos hwritable, hwritable, configSaveStrand_writable]
    have hlen : (savedStrand cfg (files.strand.getD [])).length
        = savedSize strandKeys true cfg (files.strand.getD []) :=
      length_savedText strandKeys true cfg (files.strand.getD [])
    -- the script compares with 4096 and the saving code with 2048
    constructor
    · intro h
      by_cases hsmall : (savedStrand cfg (files.strand.getD [])).length < putMaxSize
      · have hsize := (h _ ⟨rfl, hsmall⟩).2
        exact Or.inl (hlen ▸ hsize)
      · exact Or.inr (by omega)
    · rintro hsize content ⟨heq, hsmall⟩
      obtain rfl := Option.some.inj heq
      have hle : (savedStrand cfg (files.strand.getD [])).length ≤ strandMaxSize := by omega
      refine ⟨?_, hle⟩
      dsimp only
      rw [if_neg (by omega)]
  · -- the old file is left in place, and the call says -1
    rw [if_neg hwritable, Bool.not_eq_true _ |>.mp hwritable]
    show (∀ content, files.strand = some content ∧ content.length < putMaxSize →
      (-1 : Int) = 0 ∧ content.length ≤ strandMaxSize) ↔ _
    constructor
    · intro h content hmem
      by_contra hsmall
      exact absurd (h content ⟨hmem, by omega⟩).1 (by decide)
    · rintro h content ⟨heq, hsmall⟩
      exact absurd (h content heq) (by omega)

/-- Both files can be written, and no interface has a MAC address. -/
def quietEnv : CgiEnv := ⟨true, true, none⟩

/-- A POST without a body. -/
def emptyPost : PostRequest := ⟨none, [], 0⟩

/-- A Strand file of ten long comment lines. -/
def longStrandFile : List UInt8 := (List.replicate 10 (List.replicate 200 hash ++ [lf])).flatten

/-- Its comments are kept, and the file with the twelve keys is too large to be accepted; the
script gives it to `nodecfg put` all the same. -/
theorem longStrandFile_put :
    ∃ content,
      (cfgpost quietEnv emptyPost ⟨none, some longStrandFile⟩).2 = some content ∧
        (configSaveStrand true (some longStrandFile)
          (postedConfig quietEnv emptyPost ⟨none, some longStrandFile⟩)).1 = -2 ∧
        strandMaxSize < content.length ∧
        ¬ PutsOnlyAccepted quietEnv emptyPost ⟨none, some longStrandFile⟩ := by
  -- the empty body changes nothing
  have hcfg : postedConfig quietEnv emptyPost ⟨none, some longStrandFile⟩
      = configDefaults := by
    have hpairs : formPairs (cstr []) = [] := by
      rw [formPairs]
      rfl
    show zeroDhcpAddresses ((formPairs (cstr [])).foldl applyPair configDefaults) = _
    rw [hpairs]
    rfl
  have hsize : strandMaxSize < savedSize strandKeys true configDefaults longStrandFile ∧
      savedSize strandKeys true configDefaults longStrandFile < putMaxSize := by
    decide +kernel
  have hsaved : configSaveStrand true (some longStrandFile) configDefaults
      = (-2, some (savedStrand configDefaults longStrandFile)) :=
    configSaveStrand_refused hsize.1
  rw [← length_savedText] at hsize
  have hput : (cfgpost quietEnv emptyPost ⟨none, some longStrandFile⟩).2
      = some (savedStrand configDefaults longStrandFile) := by
    refine cfgpost_put.mpr ⟨?_, hsize.2⟩
    rw [hcfg]
    exact congrArg Prod.snd hsaved
  refine ⟨_, hput, ?_, hsize.1, fun h => ?_⟩
  · rw [hcfg, hsaved]
  · exact absurd (h _ hput).2 (not_le.mpr hsize.1)

end SN110
