import SN110.Config.Format

/-!
# Saving (`_config_save_internal`)

The saving code reads the old file into a 2048 byte buffer, takes it a piece at a time, puts new
lines in place of the ones that set a key of its list, and appends the keys no piece has set.
What becomes of a piece is its `LineAction`.

* `rewritten_eq_flatten` writes the rewritten text as a list of pieces, and `openTail` is the one
  piece among them that may not be closed: the end of the old text when it has no newline.
* `linePieces_savedText` and `linePieces_savedText_open` say how the new file is cut again: into
  the same pieces and the appended lines, but for an open tail, which the first appended line
  joins.
-/

namespace SN110

open Pieces

/-! ## The code -/

/-- What the rewriting loop does with a piece of the old text. -/
inductive LineAction where
  | replace (key : Key)
  | drop
  | keep
deriving DecidableEq

/-- The decision of the rewriting loop: a line with a key of the list is replaced; with
`skip_extension_keys`, one with another managed key is dropped. -/
def lineAction (keys : List Key) (skipExtensionKeys : Bool) (line : List UInt8) : LineAction :=
  match scanLine line with
  | none => .keep
  | some (k, _) =>
    -- the first `strcmp` of the inner loop that matches
    match findKey keys k with
    | some key => .replace key
    | none =>
      if skipExtensionKeys = true ∧ (findKey managedKeys k).isSome = true then .drop else .keep

/-- What the loop writes for the piece. -/
def LineAction.text (config : NodeConfig) (line : List UInt8) : LineAction → List UInt8
  | .replace key => formatKey config key
  | .drop => []
  | .keep => line

/-- The key the loop marks as written. -/
def LineAction.written : LineAction → Option Key
  | .replace key => some key
  | _ => none

/-- The old text as a C string: what `fread` gets into `existing`, up to its first NUL. -/
def existingText (old : List UInt8) : List UInt8 := cstr (old.take 2047)

/-- What the rewriting loop writes. -/
def rewritten (keys : List Key) (skip : Bool) (config : NodeConfig) (old : List UInt8) :
    List UInt8 :=
  ((linePieces (existingText old)).map fun line =>
    (lineAction keys skip line).text config line).flatten

/-- The keys the loop has marked as written. -/
def writtenKeys (keys : List Key) (skip : Bool) (old : List UInt8) : List Key :=
  (linePieces (existingText old)).filterMap fun line => (lineAction keys skip line).written

/-- The keys the appending loop writes. -/
def missingKeys (keys : List Key) (skip : Bool) (old : List UInt8) : List Key :=
  keys.filter fun key => key ∉ writtenKeys keys skip old

/-- The new contents of the file. -/
def savedText (keys : List Key) (skip : Bool) (config : NodeConfig) (old : List UInt8) :
    List UInt8 :=
  rewritten keys skip config old
    ++ ((missingKeys keys skip old).map (formatKey config)).flatten

/-- `_config_save_internal` on a file that can or cannot be opened for writing; `none` is a file
that cannot be read. -/
def configSaveInternal (writable : Bool) (file : Option (List UInt8)) (config : NodeConfig)
    (keys : List Key) (skip : Bool) : Int × Option (List UInt8) :=
  if writable then (0, some (savedText (keys.take 20) skip config (file.getD [])))
  else (-1, file)

/-- `config_save`. -/
def configSave (writable : Bool) (file : Option (List UInt8)) (config : NodeConfig) :
    Int × Option (List UInt8) :=
  configSaveInternal writable file config managedKeys false

/-- `STRAND_MAX_SIZE`. -/
abbrev strandMaxSize : Nat := 2048

/-- `config_save_strand`. -/
def configSaveStrand (writable : Bool) (file : Option (List UInt8)) (config : NodeConfig) :
    Int × Option (List UInt8) :=
  let saved := configSaveInternal writable file config strandKeys true
  if saved.1 ≠ 0 then saved
  else
    match saved.2 with
    | some content =>
      if (content.take (strandMaxSize + 1)).length > strandMaxSize then (-2, some content)
      else (0, some content)
    | none => (0, none)

/-- The contents `config_save` gives the file. -/
def savedConfig (config : NodeConfig) (old : List UInt8) : List UInt8 :=
  savedText managedKeys false config old

/-- The contents `config_save_strand` gives the file. -/
def savedStrand (config : NodeConfig) (old : List UInt8) : List UInt8 :=
  savedText strandKeys true config old

/-- With the file writable, `config_save` returns 0 and leaves the saved text. -/
theorem configSave_writable (file : Option (List UInt8)) (config : NodeConfig) :
    configSave true file config = (0, some (savedConfig config (file.getD []))) := rfl

/-- With the strand file writable, `config_save_strand` leaves the saved text and reports its
size. -/
theorem configSaveStrand_writable (file : Option (List UInt8)) (config : NodeConfig) :
    configSaveStrand true file config =
      (if (savedStrand config (file.getD [])).length > strandMaxSize then -2 else 0,
        some (savedStrand config (file.getD []))) := by
  have htake : strandKeys.take 20 = strandKeys := rfl
  unfold configSaveStrand configSaveInternal savedStrand
  simp only [htake, if_true, ne_eq, not_true, if_false, List.length_take]
  split_ifs <;> first | rfl | omega

/-! ## The two key lists -/

/-- With the key list, a piece that is kept sets no managed key. -/
structure ManagesLines (keys : List Key) (skip : Bool) : Prop where
  nodup : keys.Nodup
  keep : ∀ line, lineAction keys skip line = .keep → lineSets line = none

/-- A list without repetitions manages lines when other keys are dropped or there are none. -/
theorem managesLines_of {keys : List Key} {skip : Bool} (hnodup : keys.Nodup)
    (hall : skip = true ∨ keys = managedKeys) : ManagesLines keys skip := by
  refine ⟨hnodup, fun line h => ?_⟩
  unfold lineAction at h
  unfold lineSets
  cases hscan : scanLine line with
  | none => rfl
  | some kv =>
    obtain ⟨k, v⟩ := kv
    rw [hscan] at h
    show Option.map _ (findKey managedKeys k) = none
    cases hfind : findKey keys k with
    | some key => simp [hfind] at h
    | none =>
      simp only [hfind] at h
      -- a key of no list is dropped with `skip_extension_keys`; without it the list is all the keys
      rcases hall with rfl | rfl
      · split_ifs at h with hext
        simp only [true_and, Bool.not_eq_true, Option.isSome_eq_false_iff,
          Option.isNone_iff_eq_none] at hext
        rw [hext, Option.map_none]
      · rw [hfind, Option.map_none]

/-- `config_save` drops no line. -/
theorem lineAction_ne_drop (line : List UInt8) : lineAction managedKeys false line ≠ .drop := by
  unfold lineAction
  cases scanLine line with
  | none => simp
  | some kv =>
    dsimp only
    cases findKey managedKeys kv.1 with
    | none => simp
    | some key => simp

/-- The list of `config_save` has every key, so a kept line sets none. -/
theorem managesLines_config : ManagesLines managedKeys false :=
  managesLines_of (by decide) (Or.inr rfl)

/-- `config_save_strand` drops the lines of keys it does not have. -/
theorem managesLines_strand : ManagesLines strandKeys true :=
  managesLines_of (by decide) (Or.inl rfl)

/-! ## The pieces of the old text -/

/-- The old text is read up to its first NUL. -/
theorem existingText_no_nul (old : List UInt8) : 0 ∉ existingText old := no_nul_cstr _

/-- Each text `fgets` returns is a piece: full, or up to a line end. -/
theorem isPiece_of_mem_linePieces {s p : List UInt8} (h : p ∈ linePieces s) :
    IsPiece lf maxPiece p := isPiece_of_mem_pieces (by decide) h

/-- A piece of a text without NUL has none. -/
theorem no_nul_of_mem_linePieces {s p : List UInt8} (hs : 0 ∉ s) (h : p ∈ linePieces s) :
    0 ∉ p := by
  intro hzero
  have hflat : (linePieces s).flatten = s := flatten_pieces (by decide) s
  exact hs (hflat ▸ List.mem_flatten.mpr ⟨p, h, hzero⟩)

/-- A piece as it stands in the new file, if it does. -/
def outPiece (keys : List Key) (skip : Bool) (config : NodeConfig) (line : List UInt8) :
    Option (List UInt8) :=
  match lineAction keys skip line with
  | .replace key => some (keyLine config key)
  | .drop => none
  | .keep => some line

section

variable {keys : List Key} {skip : Bool} {line : List UInt8}

/-- A line that sets a managed key is written as the key's new line. -/
theorem outPiece_replace {key : Key} (h : lineAction keys skip line = .replace key)
    (config : NodeConfig) : outPiece keys skip config line = some (keyLine config key) := by
  unfold outPiece
  rw [h]

/-- A line of a key outside the list leaves nothing behind. -/
theorem outPiece_drop (h : lineAction keys skip line = .drop) (config : NodeConfig) :
    outPiece keys skip config line = none := by
  unfold outPiece
  rw [h]

/-- A comment, a blank line or an unknown key is written as it was read. -/
theorem outPiece_keep (h : lineAction keys skip line = .keep) (config : NodeConfig) :
    outPiece keys skip config line = some line := by
  unfold outPiece
  rw [h]

end

/-- The rewritten text, piece by piece. -/
def outPieces (keys : List Key) (skip : Bool) (config : NodeConfig) (old : List UInt8) :
    List (List UInt8) :=
  (linePieces (existingText old)).filterMap (outPiece keys skip config)

/-- The last piece of the old text, when it is kept and not closed. -/
def openTail (keys : List Key) (skip : Bool) (old : List UInt8) : Option (List UInt8) :=
  match (linePieces (existingText old)).getLast? with
  | none => none
  | some line =>
    if lineAction keys skip line = .keep ∧ ¬ Closed lf maxPiece line then some line else none

/-- The rewriting loop writes its pieces after each other. -/
theorem rewritten_eq_flatten (keys : List Key) (skip : Bool) (config : NodeConfig)
    (old : List UInt8) :
    rewritten keys skip config old = (outPieces keys skip config old).flatten := by
  unfold rewritten outPieces
  induction linePieces (existingText old) with
  | nil => rfl
  | cons line lines ih =>
    rw [List.map_cons, List.flatten_cons, ih, List.filterMap_cons]
    cases hact : lineAction keys skip line with
    | replace key =>
      rw [outPiece_replace hact]
      show formatKey config key ++ _ = keyLine config key ++ _
      rw [formatKey_eq]
    | drop =>
      rw [outPiece_drop hact]
      rfl
    | keep =>
      rw [outPiece_keep hact]
      rfl

/-- The lines the appending loop writes. -/
def appendedLines (keys : List Key) (skip : Bool) (config : NodeConfig) (old : List UInt8) :
    List (List UInt8) :=
  (missingKeys keys skip old).map (keyLine config)

/-- The saved text: the pieces of the loop, then the lines of the keys it did not meet. -/
theorem savedText_eq (keys : List Key) (skip : Bool) (config : NodeConfig) (old : List UInt8) :
    savedText keys skip config old
      = (outPieces keys skip config old).flatten
        ++ (appendedLines keys skip config old).flatten := by
  unfold savedText appendedLines
  rw [rewritten_eq_flatten, List.map_congr_left (fun key _ => formatKey_eq config key)]

section Clean

variable {keys : List Key} {skip : Bool} {config : NodeConfig} {old : List UInt8}

/-- What the loop writes for a piece is a piece again. -/
theorem isPiece_of_outPiece (h : CleanText config) {line p : List UInt8}
    (hline : IsPiece lf maxPiece line) (hp : outPiece keys skip config line = some p) :
    IsPiece lf maxPiece p := by
  cases hact : lineAction keys skip line with
  | replace key =>
    rw [outPiece_replace hact] at hp
    exact Option.some.inj hp ▸ (keyLine_isPiece h key).1
  | drop => rw [outPiece_drop hact] at hp; cases hp
  | keep => rw [outPiece_keep hact] at hp; exact Option.some.inj hp ▸ hline

/-- A piece that is not kept open is closed as it stands in the new file. -/
theorem closed_of_outPiece (h : CleanText config) {line p : List UInt8}
    (hline : lineAction keys skip line = .keep → Closed lf maxPiece line)
    (hp : outPiece keys skip config line = some p) : Closed lf maxPiece p := by
  cases hact : lineAction keys skip line with
  | replace key =>
    rw [outPiece_replace hact] at hp
    exact Option.some.inj hp ▸ (keyLine_isPiece h key).2
  | drop => rw [outPiece_drop hact] at hp; cases hp
  | keep => rw [outPiece_keep hact] at hp; exact Option.some.inj hp ▸ hline hact

/-- Every piece of the rewritten text is closed, but for the open tail at its end. -/
theorem outPieces_split (h : CleanText config) (keys : List Key) (skip : Bool)
    (old : List UInt8) :
    ∃ init, (∀ p ∈ init, IsPiece lf maxPiece p ∧ Closed lf maxPiece p) ∧
      outPieces keys skip config old = init ++ (openTail keys skip old).toList := by
  unfold outPieces openTail
  have hclosed : ∀ p ∈ (linePieces (existingText old)).dropLast, Closed lf maxPiece p :=
    fun p hp => closed_of_mem_dropLast (by decide) hp
  have hpiece : ∀ p ∈ linePieces (existingText old), IsPiece lf maxPiece p :=
    fun p hp => isPiece_of_mem_linePieces hp
  generalize linePieces (existingText old) = lines at hclosed hpiece
  -- only the last piece of the old text can be open
  rcases List.eq_nil_or_concat lines with rfl | ⟨front, last, rfl⟩
  · exact ⟨[], by simp, rfl⟩
  rw [List.concat_eq_append] at hclosed hpiece ⊢
  rw [List.dropLast_concat] at hclosed
  rw [List.getLast?_concat, List.filterMap_append]
  have hfront : ∀ p ∈ front.filterMap (outPiece keys skip config),
      IsPiece lf maxPiece p ∧ Closed lf maxPiece p := by
    intro p hp
    obtain ⟨line, hline, hout⟩ := List.mem_filterMap.mp hp
    exact ⟨isPiece_of_outPiece h (hpiece line (List.mem_append_left _ hline)) hout,
      closed_of_outPiece h (fun _ => hclosed line hline) hout⟩
  by_cases hopen : lineAction keys skip last = .keep ∧ ¬ Closed lf maxPiece last
  · refine ⟨front.filterMap (outPiece keys skip config), hfront, ?_⟩
    dsimp only
    rw [if_pos hopen]
    rw [List.filterMap_cons, outPiece_keep hopen.1]
    rfl
  · -- the last piece is closed, or replaced by a closed line, or dropped
    refine ⟨front.filterMap (outPiece keys skip config)
      ++ [last].filterMap (outPiece keys skip config), ?_, ?_⟩
    · intro p hp
      rcases List.mem_append.mp hp with hp | hp
      · exact hfront p hp
      · obtain ⟨line, hline, hout⟩ := List.mem_filterMap.mp hp
        obtain rfl := List.mem_singleton.mp hline
        exact ⟨isPiece_of_outPiece h (hpiece line (by simp)) hout,
          closed_of_outPiece h (fun hact => by_contra fun hc => hopen ⟨hact, hc⟩) hout⟩
    · dsimp only
      rw [if_neg hopen, Option.toList_none, List.append_nil]

/-- The open tail is the last piece, kept, with neither a line end nor a full buffer. -/
theorem openTail_eq_some {line : List UInt8} (h : openTail keys skip old = some line) :
    (linePieces (existingText old)).getLast? = some line ∧
      lineAction keys skip line = .keep ∧ ¬ Closed lf maxPiece line := by
  unfold openTail at h
  split at h
  · cases h
  · rename_i last hlast
    split_ifs at h with hopen
    obtain rfl := Option.some.inj h
    exact ⟨hlast, hopen⟩

/-- The open tail is a piece. -/
theorem isPiece_of_openTail {line : List UInt8} (h : openTail keys skip old = some line) :
    IsPiece lf maxPiece line :=
  isPiece_of_mem_linePieces (List.mem_of_getLast? (openTail_eq_some h).1)

theorem action_of_openTail {line : List UInt8} (h : openTail keys skip old = some line) :
    lineAction keys skip line = .keep := (openTail_eq_some h).2.1

theorem no_nul_of_openTail {line : List UInt8} (h : openTail keys skip old = some line) :
    0 ∉ line :=
  no_nul_of_mem_linePieces (existingText_no_nul old) (List.mem_of_getLast? (openTail_eq_some h).1)

/-- The appended lines are pieces that end in a line end. -/
theorem appendedLines_pieces (h : CleanText config) (keys : List Key) (skip : Bool)
    (old : List UInt8) :
    ∀ p ∈ appendedLines keys skip config old, IsPiece lf maxPiece p ∧ Closed lf maxPiece p := by
  intro p hp
  obtain ⟨key, _, rfl⟩ := List.mem_map.mp hp
  exact keyLine_isPiece h key

/-- Closed pieces written after each other are read back one by one. -/
theorem linePieces_flatten {ps : List (List UInt8)}
    (hps : ∀ p ∈ ps, IsPiece lf maxPiece p ∧ Closed lf maxPiece p) :
    linePieces ps.flatten = ps := by
  have : pieces lf maxPiece (ps.flatten ++ []) = ps ++ pieces lf maxPiece [] :=
    pieces_flatten_append (by decide) hps []
  rwa [List.append_nil, pieces_nil, List.append_nil] at this

/-- The new file is cut into the rewritten pieces and the appended lines, when the old text has
no open tail or nothing is appended. -/
theorem linePieces_savedText (h : CleanText config)
    (htail : openTail keys skip old = none ∨ missingKeys keys skip old = []) :
    linePieces (savedText keys skip config old)
      = outPieces keys skip config old ++ appendedLines keys skip config old := by
  obtain ⟨init, hinit, hout⟩ := outPieces_split h keys skip old
  have happended := appendedLines_pieces h keys skip old
  rw [savedText_eq, hout]
  cases htail' : openTail keys skip old with
  | none =>
    rw [Option.toList_none, List.append_nil, ← List.flatten_append]
    exact linePieces_flatten fun p hp => (List.mem_append.mp hp).elim (hinit p) (happended p)
  | some line =>
    have hmissing : missingKeys keys skip old = [] := htail.resolve_left (by simp [htail'])
    have hnil : appendedLines keys skip config old = [] := by
      unfold appendedLines
      rw [hmissing, List.map_nil]
    -- nothing is appended, so the open tail is the end of the file
    have hline : IsPiece lf maxPiece line := isPiece_of_openTail htail'
    rw [hnil, Option.toList_some, List.flatten_nil, List.append_nil, List.append_nil,
      List.flatten_append, List.flatten_singleton]
    show pieces lf maxPiece (init.flatten ++ line) = init ++ [line]
    rw [pieces_flatten_append (by decide) hinit, pieces_of_isPiece (by decide) hline]

/-- With an open tail, the first appended line joins the tail. -/
theorem linePieces_savedText_open (h : CleanText config) {line : List UInt8} {key : Key}
    {rest : List Key} (htail : openTail keys skip old = some line)
    (hmissing : missingKeys keys skip old = key :: rest) :
    ∃ init, outPieces keys skip config old = init ++ [line] ∧
      linePieces (savedText keys skip config old)
        = init ++ linePieces (line ++ keyLine config key) ++ rest.map (keyLine config) := by
  obtain ⟨init, hinit, hout⟩ := outPieces_split h keys skip old
  rw [htail, Option.toList_some] at hout
  refine ⟨init, hout, ?_⟩
  -- the appended line closes the tail, so the rest is cut as if it began there
  have hjoined : (line ++ keyLine config key).getLast? = some lf := by
    rw [List.getLast?_append_of_ne_nil _ (keyLine_ne_nil config key), keyLine_getLast]
  have hrest : ∀ p ∈ rest.map (keyLine config), IsPiece lf maxPiece p ∧ Closed lf maxPiece p := by
    intro p hp
    obtain ⟨key', _, rfl⟩ := List.mem_map.mp hp
    exact keyLine_isPiece h key'
  have htext : savedText keys skip config old
      = init.flatten ++ ((line ++ keyLine config key) ++ (rest.map (keyLine config)).flatten) := by
    rw [savedText_eq, hout]
    unfold appendedLines
    rw [hmissing]
    simp
  rw [htext]
  show pieces lf maxPiece _ = _
  rw [pieces_flatten_append (by decide) hinit, pieces_append_of_getLast (by decide) hjoined,
    List.append_assoc]
  exact congrArg _ (congrArg _ (linePieces_flatten hrest))

end Clean

/-! ## What the new file sets -/

/-- The settings of a text: the managed keys its lines set, in order, with their values. -/
def settings (s : List UInt8) : List (Key × List UInt8) := (linePieces s).filterMap lineSets

/-- The setting a key's line makes. -/
def setting (config : NodeConfig) (key : Key) : Key × List UInt8 :=
  (key, trim (formatValue config key))

section Settings

variable {keys : List Key} {skip : Bool} {config : NodeConfig} {old : List UInt8}

/-- Written lines, read back, make the settings of their keys. -/
theorem filterMap_lineSets_keyLine (h : CleanText config) (ks : List Key) :
    (ks.map (keyLine config)).filterMap lineSets = ks.map (setting config) := by
  induction ks with
  | nil => rfl
  | cons key ks ih =>
    rw [List.map_cons, List.map_cons, List.filterMap_cons, lineSets_keyLine h, ih]
    rfl

/-- The rewritten text sets the keys the loop has marked, to the configuration's values. -/
theorem filterMap_lineSets_outPieces (hk : ManagesLines keys skip) (h : CleanText config)
    (old : List UInt8) :
    (outPieces keys skip config old).filterMap lineSets
      = (writtenKeys keys skip old).map (setting config) := by
  unfold outPieces writtenKeys
  induction linePieces (existingText old) with
  | nil => rfl
  | cons line lines ih =>
    rw [List.filterMap_cons, List.filterMap_cons]
    -- a replaced line sets its key, a kept one nothing
    cases hact : lineAction keys skip line with
    | replace key =>
      rw [outPiece_replace hact]
      show ((keyLine config key) :: _).filterMap lineSets = (key :: _).map (setting config)
      rw [List.filterMap_cons, lineSets_keyLine h, ih]
      rfl
    | drop =>
      rw [outPiece_drop hact]
      exact ih
    | keep =>
      rw [outPiece_keep hact]
      show (line :: _).filterMap lineSets = _
      rw [List.filterMap_cons, hk.keep line hact]
      exact ih

/-- **The settings of the new file**, when no line joins an open tail: one for each piece
replaced and each line appended, with the configuration's values. -/
theorem settings_savedText (hk : ManagesLines keys skip) (h : CleanText config)
    (htail : openTail keys skip old = none ∨ missingKeys keys skip old = []) :
    settings (savedText keys skip config old)
      = (writtenKeys keys skip old ++ missingKeys keys skip old).map (setting config) := by
  unfold settings
  rw [linePieces_savedText h htail, List.filterMap_append, filterMap_lineSets_outPieces hk h old,
    List.map_append]
  exact congrArg _ (filterMap_lineSets_keyLine h _)

/-- The settings of the new file, when a line joins an open tail. -/
theorem settings_savedText_open (hk : ManagesLines keys skip) (h : CleanText config)
    {line : List UInt8} {key : Key} {rest : List Key}
    (htail : openTail keys skip old = some line)
    (hmissing : missingKeys keys skip old = key :: rest) :
    settings (savedText keys skip config old)
      = (writtenKeys keys skip old).map (setting config)
        ++ settings (line ++ keyLine config key) ++ rest.map (setting config) := by
  obtain ⟨init, hout, hpieces⟩ := linePieces_savedText_open h htail hmissing
  have hkeep : lineSets line = none := hk.keep line (action_of_openTail htail)
  have hwritten := filterMap_lineSets_outPieces hk h old
  rw [hout, List.filterMap_append, List.filterMap_cons, hkeep] at hwritten
  unfold settings
  rw [hpieces, List.filterMap_append, List.filterMap_append, filterMap_lineSets_keyLine h]
  congr 2
  simpa using hwritten

/-- Every key of the list is written, by the loop or behind it. -/
theorem mem_writtenKeys_append_missingKeys {key : Key} (h : key ∈ keys) :
    key ∈ writtenKeys keys skip old ++ missingKeys keys skip old := by
  unfold missingKeys
  rw [List.mem_append, List.mem_filter]
  by_cases hmem : key ∈ writtenKeys keys skip old
  · exact Or.inl hmem
  · exact Or.inr ⟨h, by simpa using hmem⟩

/-- No key is appended that the loop has written. -/
theorem notMem_writtenKeys_of_missing {key : Key} (h : key ∈ missingKeys keys skip old) :
    key ∉ writtenKeys keys skip old := by
  unfold missingKeys at h
  simpa using (List.mem_filter.mp h).2

/-- The loop marks keys of its list only. -/
theorem mem_keys_of_writtenKeys {key : Key} (h : key ∈ writtenKeys keys skip old) :
    key ∈ keys := by
  obtain ⟨line, _, hw⟩ := List.mem_filterMap.mp h
  unfold lineAction at hw
  split at hw
  · cases hw
  · split at hw
    · rename_i key' hfind
      obtain rfl : key' = key := Option.some.inj hw
      exact (findKey_eq_some.mp hfind).1
    · split_ifs at hw <;> cases hw

end Settings

end SN110
