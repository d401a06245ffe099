import SN110.Cgi.Injection
import SN110.Config.Overwrite

/-!
# A session at the settings page

Every POST loads the configuration from the file, applies the form and saves the file again. Over a
session of any number of POSTs the file is the store: `session_fields` says that a field is loaded
with the value that was posted for it last, in whichever POST, or with the one from before the
session, and `session_preserves` that the lines of the file which are not the firmware's survive.

The texts posted hold no line end. One that does starts a line of its own (`Cgi/Injection`).
-/

namespace SN110

open Lines

/-! ## The code -/

/-- The files after a session. -/
def session (env : CgiEnv) (files : ConfigFiles) (requests : List PostRequest) : ConfigFiles :=
  requests.foldl (fun files request => cgiConfigPost env request files) files

/-- The file after a POST. -/
def postOver (env : CgiEnv) (old : List UInt8) (request : PostRequest) : List UInt8 :=
  savedConfig (savedByPost env (readBody request) old) old

/-- The file after a session. -/
def sessionText (env : CgiEnv) (old : List UInt8) (requests : List PostRequest) : List UInt8 :=
  requests.foldl (postOver env) old

/-- The file can be written, has a closed end and room for the firmware's keys, and no text that is
posted holds a line end. -/
structure PlainSession (env : CgiEnv) (old : List UInt8) (requests : List PostRequest) : Prop where
  writable : env.configWritable = true
  closed : openTail managedKeys false old = none
  room : ∀ config, CleanText config → (savedConfig config old).length ≤ 2047
  texts : ∀ request ∈ requests, ∀ text ∈ postedTexts (readBody request), ∀ c ∈ text,
    c ≠ lf ∧ c ≠ cr

/-- The field is a choice or a number. -/
def FormField.IsSetting : FormField → Prop
  | .hostname | .portLabel _ | .ipaddr | .netmask | .gateway => False
  | _ => True

/-- The value posted last for a field. -/
def lastPosted (requests : List PostRequest) (field : FormField) : Option (List UInt8) :=
  Assign.last (fun request => formText (readBody request) field) requests

/-! ## One POST -/

section

variable {env : CgiEnv} {old : List UInt8} {requests : List PostRequest} {request : PostRequest}
  {field : FormField}

/-- With the file writable, a request leaves the text saved over the old one. -/
theorem cgiConfigPost_config (hwritable : env.configWritable = true) {files : ConfigFiles}
    (hfile : files.config = some old) (request : PostRequest) :
    (cgiConfigPost env request files).config = some (postOver env old request) := by
  unfold cgiConfigPost postedConfig
  dsimp only
  rw [hwritable, hfile, configSave_writable]
  rfl

/-- So a session leaves the texts saved one over the other. -/
theorem session_config (hwritable : env.configWritable = true) {files : ConfigFiles}
    (hfile : files.config = some old) (requests : List PostRequest) :
    (session env files requests).config = some (sessionText env old requests) := by
  induction requests generalizing files old with
  | nil => exact hfile
  | cons request requests ih => exact ih (cgiConfigPost_config hwritable hfile request)

/-- The value of a loaded setting holds neither end of a line. -/
theorem plain_of_keyText {file : Option (List UInt8)} {key : Key} {v : List UInt8}
    (h : keyText file key = some v) : ∀ c ∈ v, c ≠ lf ∧ c ≠ cr := by
  obtain ⟨kv, hkv, hset⟩ := Assign.exists_of_last h
  unfold settingFor at hset
  split_ifs at hset
  obtain rfl := Option.some.inj hset
  obtain ⟨line, -, hline⟩ := List.mem_filterMap.mp hkv
  obtain ⟨-, k, rest, -, -, -, -, -, -, hvalue⟩ :=
    scanLine_eq_some.mp (lineSets_eq_some.mp (show lineSets line = some (kv.1, kv.2) from hline))
  intro c hmem
  obtain ⟨front, back, htrim, -⟩ := exists_trim_eq (spanNoneOf 191 [lf, cr] rest)
  -- a value is taken up to the line end, and trimming adds nothing
  have hspan : c ∈ spanNoneOf 191 [lf, cr] rest := by
    rw [htrim, ← hvalue]
    exact List.mem_append_left _ (List.mem_append_right _ hmem)
  have hnot := List.mem_takeWhile_imp (List.mem_of_mem_take hspan)
  simpa using hnot

/-- Cutting a value to its buffer brings in no byte. -/
theorem mem_of_mem_strncpy {size : Nat} (hsize : 0 < size) {v : List UInt8} {c : UInt8}
    (h : c ∈ (CString.strncpy size hsize v).text) : c ∈ v :=
  (List.takeWhile_prefix _).subset (List.mem_of_mem_take h)

/-- A text that is saved has been posted or loaded, so that it holds no line end. -/
theorem plain_savedByPost {size : Nat} {hsize : 0 < size} (hf : TextField field size hsize)
    {body : List UInt8} (hposted : ∀ c ∈ postedText body field size hsize, c ≠ lf ∧ c ≠ cr)
    (hdefault : ∀ c ∈ formatValue configDefaults field.key, c ≠ lf ∧ c ≠ cr) (env : CgiEnv)
    (old : List UInt8) :
    ∀ c ∈ formatValue (savedByPost env body old) field.key, c ≠ lf ∧ c ≠ cr := by
  obtain ⟨hip, hmask, hgateway⟩ := hf.not_address
  have hsaved : Agrees (savedByPost env body old) _ field.key :=
    (agrees_zeroDhcpAddresses hip hmask hgateway _).trans
      (agrees_postedFields field body (cgiLoad env (some old)))
  unfold postedText at hposted
  rw [hf.value _ _ hsaved]
  -- the text is the one posted, or else the one of the file, or else the default
  cases htext : formText body field with
  | some v =>
    rw [htext] at hposted
    show ∀ c ∈ formatValue (applyField _ v field) field.key, c ≠ lf ∧ c ≠ cr
    rw [hf.form]
    exact hposted
  | none =>
    have hload : Agrees (cgiLoad env (some old)) _ field.key :=
      (agrees_cgiLoad hf.not_mode.1 env (some old)).trans
        (agrees_configLoad hf.not_mode.1 hf.not_mode.2 (some old))
    show ∀ c ∈ formatValue (cgiLoad env (some old)) field.key, c ≠ lf ∧ c ≠ cr
    rw [hf.value _ _ hload]
    cases hkey : keyText (some old) field.key with
    | none => exact hdefault
    | some v =>
      show ∀ c ∈ formatValue (applyKey configDefaults v field.key) field.key, c ≠ lf ∧ c ≠ cr
      rw [hf.file]
      exact fun c hc => plain_of_keyText hkey c (mem_of_mem_strncpy hsize hc)

/-- Where nothing posted has a line end, what is saved has none in its texts. -/
theorem cleanText_savedByPost {body : List UInt8}
    (h : ∀ text ∈ postedTexts body, ∀ c ∈ text, c ≠ lf ∧ c ≠ cr) (env : CgiEnv)
    (old : List UInt8) : CleanText (savedByPost env body old) := by
  unfold postedTexts at h
  simp only [List.forall_mem_cons] at h
  obtain ⟨hhost, hzero, hone, -⟩ := h
  exact ⟨plain_savedByPost textField_hostname hhost (by decide) env old, Fin.forall_fin_two.mpr
    ⟨plain_savedByPost (textField_portLabel 0) hzero (by decide) env old,
      plain_savedByPost (textField_portLabel 1) hone (by decide) env old⟩⟩

/-- A setting that is saved is read back. -/
theorem agrees_applyKey_posted {key : Key} (htext : ¬ key.IsText) (env : CgiEnv)
    (body old : List UInt8) (c : NodeConfig) :
    Agrees (applyKey c (trim (formatValue (savedByPost env body old) key)) key)
      (savedByPost env body old) key := by
  -- two keys have a bound beyond their type, and the form keeps it
  have hrange : KeyInRange (withoutTexts (savedByPost env body old)) key := by
    cases key with
    | lcdBacklight =>
      have hfield : FieldInRange (savedByPost env body old) .lcdBacklight :=
        fieldInRange_savedByPost (by decide) env body
          (fieldInRange_loaded (by decide) (by simp) (by decide) (some old))
      show (savedByPost env body old).lcdBacklight ≤ lcdBacklightAuto
      rcases hfield with hvalue | hvalue | hvalue
      · rw [hvalue]
        decide
      · rw [hvalue]
        decide
      · rw [hvalue]
        decide
    | dmxSlotMonitor i =>
      have hfield : FieldInRange (savedByPost env body old) (.dmxSlotMonitor i) :=
        fieldInRange_savedByPost (by simp) env body
          (fieldInRange_loaded (by simp) (by simp) (by simp) (some old))
      exact hfield
    | _ => trivial
  have hread :=
    (agrees_applyKey_formatValue (persistable_savedByPost env body old) c key).mpr hrange
  rw [formatValue_withoutTexts htext] at hread
  exact hread.trans (agrees_withoutTexts htext _)

/-- **A setting is loaded as it was saved.** -/
theorem agrees_configLoad_posted {body : List UInt8} (htail : TailOk managedKeys false old)
    (hclean : CleanText (savedByPost env body old)) {key : Key} (htext : ¬ key.IsText) :
    Agrees (configLoad (some (savedConfig (savedByPost env body old) old))).2
      (savedByPost env body old) key := by
  have hfurther : ∀ key, furtherSettings (savedByPost env body old) key = [] := by
    intro key
    unfold furtherSettings
    rw [furtherScans_of_no_lf fun hmem => (formatValue_plain hclean key lf hmem).ne_lf rfl]
    rfl
  have hread : ∀ {key : Key}, ¬ key.IsText →
      Agrees ((settings (savedConfig (savedByPost env body old) old)).foldl applySetting
        configDefaults) (savedByPost env body old) key := fun hkey =>
    agrees_savedConfig htail hfurther (formatValue_plain_of_not_text hkey _)
      (agrees_applyKey_posted hkey env body old)
  -- the address mode has been read, so nothing is inferred
  have hmode : _ = (savedByPost env body old).addrMode := @hread .addrMode id
  rw [configLoad_snd, inferAddrMode_of_ne]
  · exact hread htext
  · rw [hmode]
    intro hsentinel
    have hbad := (persistable_savedByPost env body old).addrMode
    change (savedByPost env body old).addrMode = _ ∨ (savedByPost env body old).addrMode = _ ∨
      (savedByPost env body old).addrMode = _ ∧ _ at hbad
    rw [hsentinel] at hbad
    rcases hbad with hbad | hbad | ⟨hbad, -⟩ <;> cases hbad

/-- What one POST does to a setting. -/
theorem agrees_postOver {body : List UInt8} (hsetting : field.IsSetting)
    (htail : TailOk managedKeys false old) (hclean : CleanText (savedByPost env body old)) :
    Agrees (configLoad (some (savedConfig (savedByPost env body old) old))).2
      (withValue (configLoad (some old)).2 (formText body field) field) field.key := by
  have hkey : ¬ field.key.IsText ∧ field.key ≠ .nodeaddr ∧ field.key ≠ .netmask ∧
      field.key ≠ .gateway := by
    cases field <;> first
      | exact absurd hsetting id
      | exact ⟨id, by simp [FormField.key]⟩
  obtain ⟨htext, hip, hmask, hgateway⟩ := hkey
  have hposted : Agrees (savedByPost env body old)
      (withValue (cgiLoad env (some old)) (formText body field) field) field.key :=
    (agrees_zeroDhcpAddresses hip hmask hgateway _).trans
      (agrees_postedFields field body (cgiLoad env (some old)))
  refine (agrees_configLoad_posted htail hclean htext).trans (hposted.trans ?_)
  -- posted, or as it was loaded
  cases formText body field with
  | some v => exact agrees_applyField_applyField field _ _ v
  | none => exact agrees_cgiLoad field.key_ne_macaddr env (some old)

/-! ## The session -/

/-- The last request is applied to the file the others leave. -/
theorem sessionText_concat :
    sessionText env old (requests ++ [request])
      = postOver env (sessionText env old requests) request := by
  unfold sessionText
  rw [List.foldl_append]
  rfl

/-- A plain session is plain without its last request. -/
theorem PlainSession.of_concat (h : PlainSession env old (requests ++ [request])) :
    PlainSession env old requests :=
  ⟨h.writable, h.closed, h.room, fun r hr => h.texts r (List.mem_append_left _ hr)⟩

/-- The texts that are saved stay clean. -/
theorem PlainSession.clean (h : PlainSession env old (requests ++ [request]))
    (content : List UInt8) : CleanText (savedByPost env (readBody request) content) :=
  cleanText_savedByPost (h.texts request (List.mem_append_right _ List.mem_cons_self)) env content

/-- **The file of a session** is the one from before it or what one save makes of that. -/
theorem sessionText_cases (h : PlainSession env old requests) :
    sessionText env old requests = old ∨
      ∃ config, CleanText config ∧ sessionText env old requests = savedConfig config old := by
  induction requests using List.reverseRecOn with
  | nil => exact Or.inl rfl
  | append_singleton requests request ih =>
    have hclean := h.clean (sessionText env old requests)
    refine Or.inr ⟨_, hclean, ?_⟩
    rw [sessionText_concat]
    unfold postOver
    -- the first save is over the file, a later one over a file the saver has written
    rcases ih h.of_concat with heq | ⟨config, hconfig, heq⟩
    · rw [heq]
    · rw [heq]
      exact savedText_overwrites hconfig (Or.inl h.closed) (h.room config hconfig) _

/-- The file keeps a closed end. -/
theorem tailOk_sessionText (h : PlainSession env old requests) :
    TailOk managedKeys false (sessionText env old requests) := by
  unfold TailOk
  rcases sessionText_cases h with heq | ⟨config, hconfig, heq⟩
  · rw [heq, h.closed]
    trivial
  · have hmissing : missingKeys managedKeys false (sessionText env old requests) = [] := by
      rw [heq]
      exact missingKeys_again hconfig (Or.inl h.closed) (h.room config hconfig)
    rw [hmissing]
    cases openTail managedKeys false (sessionText env old requests) <;> trivial

/-- What was posted last is in the last request, or in those before it. -/
theorem lastPosted_concat :
    lastPosted (requests ++ [request]) field
      = (formText (readBody request) field).or (lastPosted requests field) :=
  Assign.last_concat _ requests request

/-- After a plain session a setting has what was posted for it last. -/
theorem agrees_sessionText (h : PlainSession env old requests) (hsetting : field.IsSetting) :
    Agrees (configLoad (some (sessionText env old requests))).2
      (withValue (configLoad (some old)).2 (lastPosted requests field) field) field.key := by
  induction requests using List.reverseRecOn with
  | nil => exact Agrees.refl _ _
  | append_singleton requests request ih =>
    have hstep := agrees_postOver hsetting (tailOk_sessionText h.of_concat)
      (h.clean (sessionText env old requests))
    rw [sessionText_concat, lastPosted_concat]
    refine Agrees.trans hstep ?_
    -- the last request sets the field, or leaves what the others have set
    cases formText (readBody request) field with
    | some v => exact agrees_applyField_applyField field _ _ v
    | none => exact ih h.of_concat

end

/-- **Last write wins over a session.** After any number of POSTs of a plain session, each choice
and each number of the form is loaded as the value posted for it last, or as the file had it before
the session. -/
theorem session_fields {env : CgiEnv} {files : ConfigFiles} {old : List UInt8}
    {requests : List PostRequest} (hfile : files.config = some old)
    (h : PlainSession env old requests) {field : FormField} (hsetting : field.IsSetting) :
    Agrees (configLoad (session env files requests).config).2
      (withValue (configLoad (some old)).2 (lastPosted requests field) field) field.key := by
  rw [session_config h.writable hfile]
  exact agrees_sessionText h hsetting

/-- **A session loses no line of the file** that is not the firmware's: over a file of lines that
fit the buffers. -/
theorem session_preserves {env : CgiEnv} {files : ConfigFiles} {old new : List UInt8}
    {requests : List PostRequest} (hfile : files.config = some old)
    (h : PlainSession env old requests) (hold : old = [] ∨ old.getLast? = some lf)
    (hnul : 0 ∉ old) (hsize : old.length ≤ 2047)
    (hlines : ∀ line ∈ lines lf old, line.length ≤ maxPiece)
    (hnew : (session env files requests).config = some new) :
    (lines lf new).filter (fun line => line ∈ unmanagedLines old) = unmanagedLines old := by
  rw [session_config h.writable hfile] at hnew
  obtain rfl := Option.some.inj hnew
  rcases sessionText_cases h with heq | ⟨config, hconfig, heq⟩
  · rw [heq]
    exact List.filter_congr (fun line hline => by simp [unmanagedLines, hline])
  · rw [heq]
    exact preserves_of_tidy hconfig hold hnul hsize hlines _ (configSave_writable (some old) config)

/-! ## A session of two POSTs -/

/-- A file with a comment alone. -/
def commentFile : List UInt8 := ascii "# site" ++ [lf]

def commentFiles : ConfigFiles := ⟨some commentFile, none⟩

/-- The hold time and the contrast, one after the other. -/
def twoPosts : List PostRequest :=
  [⟨some (ascii "15"), ascii "dmx_hold_time=7", 2047⟩,
    ⟨some (ascii "14"), ascii "lcd_contrast=9", 2047⟩]

/-- Saving over the example file gives no more than the saver's buffer. -/
theorem length_savedConfig_commentFile (config : NodeConfig) :
    (savedConfig config commentFile).length ≤ 2047 := by
  have hpieces : linePieces (existingText commentFile) = [commentFile] := by decide
  have haction : lineAction managedKeys false commentFile = .keep := by decide
  have hmissing : missingKeys managedKeys false commentFile = managedKeys := by decide
  have hlines := length_keyLines_le config managedKeys
  have hkeys : (managedKeys.map (formatKey config)).flatten = keyLines config managedKeys := by
    rw [List.map_congr_left fun key _ => formatKey_eq config key]
    rfl
  unfold savedConfig savedText rewritten
  rw [hpieces, hmissing, hkeys, List.map_singleton, haction, List.flatten_singleton,
    List.length_append]
  have hcomment : (LineAction.keep.text config commentFile).length = 7 := rfl
  have hcount : managedKeys.length = 18 := rfl
  omega

/-- A body with one setting posts no text. -/
theorem postedTexts_setting {field : FormField} (h : field.IsSetting) {value : List UInt8}
    (hvalue : ampersand ∉ value ∧ value.length ≤ 191) (hnul : 0 ∉ value) :
    postedTexts (field.name ++ equals :: value) = [[], [], []] := by
  have hother : ∀ field', ¬ FormField.IsSetting field' →
      formText (field.name ++ equals :: value) field' = none := by
    intro field' hnot
    rw [formText_single hvalue hnul, if_neg]
    rintro rfl
    exact hnot h
  unfold postedTexts postedText
  rw [hother .hostname id, hother (.portLabel 0) id, hother (.portLabel 1) id]
  rfl

/-- The example session is plain. -/
theorem twoPosts_plain : PlainSession quietEnv commentFile twoPosts where
  writable := rfl
  closed := by decide
  room config _ := length_savedConfig_commentFile config
  texts := by
    have hhold : readBody ⟨some (ascii "15"), ascii "dmx_hold_time=7", 2047⟩
        = FormField.dmxHoldTime.name ++ equals :: ascii "7" := by decide
    have hcontrast : readBody ⟨some (ascii "14"), ascii "lcd_contrast=9", 2047⟩
        = FormField.lcdContrast.name ++ equals :: ascii "9" := by decide
    unfold twoPosts
    rw [List.forall_mem_cons, List.forall_mem_singleton, hhold, hcontrast,
      @postedTexts_setting .dmxHoldTime trivial (ascii "7") (by decide) (by decide),
      @postedTexts_setting .lcdContrast trivial (ascii "9") (by decide) (by decide)]
    decide

/-- `session_fields` on the example session, for the hold time. -/
theorem twoPosts_fields :
    Agrees (configLoad (session quietEnv commentFiles twoPosts).config).2
      (withValue (configLoad (some commentFile)).2 (lastPosted twoPosts .dmxHoldTime) .dmxHoldTime)
      .dmxHoldtime :=
  @session_fields quietEnv commentFiles commentFile twoPosts rfl twoPosts_plain .dmxHoldTime trivial

/-- `session_preserves` on the example session. -/
theorem twoPosts_preserves :
    (lines lf (sessionText quietEnv commentFile twoPosts)).filter
        (fun line => line ∈ unmanagedLines commentFile) = unmanagedLines commentFile :=
  session_preserves rfl twoPosts_plain (Or.inr (by decide)) (by decide) (by decide) (by decide)
    (@session_config quietEnv commentFile rfl commentFiles rfl twoPosts)

end SN110
