import SN110.Config.RoundTrip
import SN110.Lib.Assign
import SN110.Lib.Lines

/-!
# The keys of a saved file

What `config_save` writes is read by lines, and a text of the configuration with a line end in it
makes more than one line. `scans_keyLine` says which: the key's own, and those behind the first line
of the text (`furtherLines`).

* `scans_savedText`: what the lines of the new file say, for any configuration.
* `count_fileKeys_savedConfig`: how often a managed key stands in it.
* `key_of_mem_scans_savedConfig`: which keys stand in it.
* `agrees_savedConfig`: what is loaded again, if no further line sets a key.

## How the file is read again

The new file is a list of texts, one for each piece of the old one and one for each key appended.
Each of them but an open tail is cut on its own (`Apart`), and so is scanned on its own
(`scans_append`): a piece that was kept says what it said before, and a key's line what
`scans_keyLine` gives. `TailOk` is there to make the open tail harmless.
-/

namespace SN110

open Lines Pieces

/-! ## What lines say -/

/-- The keys and values of the lines of a text, managed or not. -/
def scans (s : List UInt8) : List (List UInt8 × List UInt8) := (linePieces s).filterMap scanLine

/-- The keys of the lines of a file. -/
def fileKeys (s : List UInt8) : List (List UInt8) := (scans s).map Prod.fst

/-- A managed key with its value. -/
def managed (kv : List UInt8 × List UInt8) : Option (Key × List UInt8) :=
  (findKey managedKeys kv.1).map fun key => (key, kv.2)

/-- The lines of a text behind its first one, where the text is written as a value. -/
def furtherLines (v : List UInt8) : List (List UInt8) := (lines lf (v ++ [lf])).tail

/-- What they say. -/
def furtherScans (v : List UInt8) : List (List UInt8 × List UInt8) :=
  (furtherLines v).filterMap scanLine

/-- The value that the first line has. -/
def readBack (v : List UInt8) : List UInt8 :=
  trim (spanNoneOf 191 [lf, cr] (space :: (lines lf (v ++ [lf])).headD []))

/-- A line sets a key when it scans and its name is a managed key. -/
theorem lineSets_eq_bind (line : List UInt8) : lineSets line = (scanLine line).bind managed := by
  unfold lineSets
  cases scanLine line <;> rfl

/-- The settings of a text are its scans with a managed name. -/
theorem settings_eq (s : List UInt8) : settings s = (scans s).filterMap managed := by
  unfold settings scans
  rw [List.filterMap_filterMap]
  exact congrArg (fun f => List.filterMap f _) (funext lineSets_eq_bind)

/-- A scan is a setting of `key` when it has the key's name. -/
theorem managed_eq_some {kv : List UInt8 × List UInt8} {key : Key} {v : List UInt8} :
    managed kv = some (key, v) ↔ kv = (key.name, v) := by
  unfold managed
  constructor
  · intro h
    obtain ⟨key', hfind, heq⟩ := Option.map_eq_some_iff.mp h
    obtain ⟨rfl, rfl⟩ := Prod.mk.inj heq
    exact Prod.ext (findKey_eq_some.mp hfind).2 rfl
  · rintro rfl
    rw [findKey_eq_some.mpr ⟨mem_managedKeys key, rfl⟩]
    rfl

/-- A managed key stands in the file as often as it is set. -/
theorem count_fileKeys (s : List UInt8) (key : Key) :
    (fileKeys s).count key.name = ((settings s).map Prod.fst).count key := by
  rw [settings_eq]
  unfold fileKeys
  induction scans s with
  | nil => rfl
  | cons kv kvs ih =>
    rw [List.map_cons, List.count_cons, ih, List.filterMap_cons]
    cases hm : managed kv with
    | none =>
      have hne : kv.1 ≠ key.name := fun heq => by
        rw [managed_eq_some.mpr (Prod.ext heq rfl : kv = (key.name, kv.2))] at hm
        cases hm
      rw [if_neg (by simpa using hne), Nat.add_zero]
    | some kv' =>
      obtain rfl := managed_eq_some.mp hm
      show _ = List.count key (kv'.1 :: _)
      rw [List.count_cons]
      -- the names differ as the keys do
      by_cases heq : kv'.1 = key
      · rw [if_pos (by simp [heq]), if_pos (by simpa using heq)]
      · rw [if_neg (by simpa using fun hname => heq (Key.name_injective hname)),
          if_neg (by simpa using heq)]

/-- One piece scans as at most one line. -/
theorem scans_of_isPiece {line : List UInt8} (h : IsPiece lf maxPiece line) :
    scans line = (scanLine line).toList := by
  unfold scans linePieces
  rw [pieces_of_isPiece (by decide) h]
  cases hscan : scanLine line with
  | none => simp [hscan]
  | some kv => simp [hscan]

/-- A text cut on its own is scanned on its own. -/
theorem scans_append {s : List UInt8} (h : Apart lf maxPiece s) (t : List UInt8) :
    scans (s ++ t) = scans s ++ scans t := by
  unfold scans linePieces
  rw [h t, List.filterMap_append]

/-- Texts each cut on their own are scanned one by one. -/
theorem scans_flatMap_append {β : Type*} {f : β → List UInt8} {xs : List β}
    (h : ∀ x ∈ xs, Apart lf maxPiece (f x)) (rest : List UInt8) :
    scans (xs.flatMap f ++ rest) = xs.flatMap (fun x => scans (f x)) ++ scans rest := by
  unfold scans linePieces
  rw [pieces_flatMap_append h, List.filterMap_append, List.filterMap_flatMap]

/-! ## A key's line -/

/-- **What a written key makes of the file**, also after some blanks: its line, and those behind the
first one of its value. -/
theorem scans_keyLine (config : NodeConfig) (key : Key) {bs : List UInt8}
    (hbs : ∀ c ∈ bs, isBlank c = true) (hroom : bs.length + key.name.length + 1 ≤ 63) :
    scans (bs ++ keyLine config key)
      = (key.name, readBack (formatValue config key))
        :: furtherScans (formatValue config key) := by
  have hlf : lf ∉ bs ++ (key.name ++ [space, equals, space]) := by
    simp only [List.mem_append, List.mem_cons, not_or]
    exact ⟨fun hmem => absurd (hbs lf hmem) (by decide),
      fun hmem => (Key.nameByte hmem).ne_lf rfl, by decide, by decide, by decide, by decide⟩
  have htext : bs ++ keyLine config key
      = (bs ++ (key.name ++ [space, equals, space])) ++ (formatValue config key ++ [lf]) := by
    simp [keyLine]
  have hlast : (bs ++ keyLine config key).getLast? = some lf := by
    rw [List.getLast?_append_of_ne_nil _ (keyLine_ne_nil config key), keyLine_getLast]
  have hlen : (bs ++ keyLine config key).length ≤ 255 := by
    have hshort := length_keyLine_le config key
    rw [List.length_append]
    omega
  have hpieces : linePieces (bs ++ keyLine config key) = lines lf (bs ++ keyLine config key) :=
    pieces_eq_lines (by decide) hlast hlen
  have hflat := flatten_lines lf (formatValue config key ++ [lf])
  have hno : 0 ∉ formatValue config key ++ [lf] := by
    rw [List.mem_append, not_or]
    exact ⟨formatValue_no_nul config key, by decide⟩
  -- the first line of the value goes behind the `=`
  cases hlines : lines lf (formatValue config key ++ [lf]) with
  | nil =>
    rw [hlines] at hflat
    exact absurd hflat.symm (by simp)
  | cons l ls =>
    have hnul : 0 ∉ l := fun hmem => by
      rw [hlines] at hflat
      exact hno (hflat ▸ List.mem_append_left _ hmem)
    have hscan : scanLine (bs ++ (key.name ++ [space, equals, space]) ++ l)
        = some (key.name, trim (spanNoneOf 191 [lf, cr] (space :: l))) := by
      have hline := scanLine_blanks_name key hbs hroom hnul
      simpa using hline
    unfold scans
    rw [hpieces, htext, lines_append_of_notMem hlf hlines, List.filterMap_cons, hscan]
    unfold readBack furtherScans furtherLines
    rw [hlines]
    rfl

/-- The value's own line end is the only one. -/
theorem lines_plain {v : List UInt8} (h : lf ∉ v) : lines lf (v ++ [lf]) = [v ++ [lf]] := by
  have hline : IsLine lf (v ++ [lf]) := ⟨List.getLast?_concat, by rwa [List.dropLast_concat]⟩
  have hlines := lines_isLine_append hline []
  rwa [List.append_nil] at hlines

/-- A value without line end has no further lines. -/
theorem furtherLines_plain {v : List UInt8} (h : lf ∉ v) : furtherLines v = [] := by
  unfold furtherLines
  rw [lines_plain h]
  rfl

/-- A short value without line end is read back, but for the blanks around it. -/
theorem readBack_plain {v : List UInt8} (h : ∀ c ∈ v, c ≠ lf ∧ c ≠ cr) (hlen : v.length < 191) :
    readBack v = trim v := by
  unfold readBack
  rw [lines_plain fun hmem => (h lf hmem).1 rfl]
  exact trim_span_concat h hlen

/-! ## The new file -/

/-- The line of a key is cut on its own: it ends in a line end. -/
theorem apart_keyLine (config : NodeConfig) (key : Key) : Apart lf maxPiece (keyLine config key) :=
  apart_of_getLast (by decide) (keyLine_getLast config key)

section

variable {keys : List Key} {skip : Bool} {config : NodeConfig} {old : List UInt8}

/-- What is written for a piece is cut on its own, unless it is the open tail. -/
theorem apart_text {line : List UInt8} (hpiece : IsPiece lf maxPiece line)
    (h : lineAction keys skip line = .keep → Closed lf maxPiece line) :
    Apart lf maxPiece ((lineAction keys skip line).text config line) := by
  cases hact : lineAction keys skip line with
  | replace key =>
    show Apart lf maxPiece (formatKey config key)
    rw [formatKey_eq]
    exact apart_keyLine config key
  | drop => exact apart_nil
  | keep => exact apart_of_closed (by decide) hpiece (h hact)

/-- The saved text: what is written for each piece, then the missing keys' lines. -/
theorem savedText_eq_flatMap (keys : List Key) (skip : Bool) (config : NodeConfig)
    (old : List UInt8) :
    savedText keys skip config old
      = (linePieces (existingText old)).flatMap
          (fun line => (lineAction keys skip line).text config line)
        ++ (missingKeys keys skip old).flatMap (keyLine config) := by
  unfold savedText rewritten
  rw [List.flatMap_def, List.flatMap_def,
    List.map_congr_left (fun key _ => formatKey_eq config key)]

/-- A tail that fits says nothing before a key's line joins it. -/
theorem scanLine_blanks {bs : List UInt8} (h : ∀ c ∈ bs, isBlank c = true) :
    scanLine bs = none := by
  cases hscan : scanLine bs with
  | none => rfl
  | some kv =>
    obtain ⟨-, k, rest, hline, -⟩ := scanLine_eq_some.mp hscan
    have hmem : equals ∈ cstr bs := hline ▸ List.mem_append_right _ List.mem_cons_self
    exact absurd (h equals ((List.takeWhile_prefix _).subset hmem)) (by decide)

/-- The missing keys' lines are scanned one by one. -/
theorem scans_missing (config : NodeConfig) (ks : List Key) :
    scans (ks.flatMap (keyLine config)) = ks.flatMap fun key => scans (keyLine config key) := by
  have hapart : ∀ key ∈ ks, Apart lf maxPiece (keyLine config key) := fun key _ =>
    apart_keyLine config key
  have happend := scans_flatMap_append hapart []
  rwa [List.append_nil, show scans [] = [] from rfl, List.append_nil] at happend

/-- **What the lines of the new file say**: those put for the pieces of the old text, and those of
the keys appended. -/
theorem scans_savedText (config : NodeConfig) (htail : TailOk keys skip old) :
    scans (savedText keys skip config old)
      = (linePieces (existingText old)).flatMap
          (fun line => scans ((lineAction keys skip line).text config line))
        ++ (missingKeys keys skip old).flatMap fun key => scans (keyLine config key) := by
  have hclosed : ∀ p ∈ (linePieces (existingText old)).dropLast, Closed lf maxPiece p :=
    fun p hp => closed_of_mem_dropLast (by decide) hp
  have hpiece : ∀ p ∈ linePieces (existingText old), IsPiece lf maxPiece p :=
    fun p hp => isPiece_of_mem_linePieces hp
  rw [savedText_eq_flatMap]
  -- only the last piece of the old text can be open
  rcases List.eq_nil_or_concat (linePieces (existingText old)) with hnil | ⟨front, last, hconcat⟩
  · rw [hnil]
    exact scans_missing config _
  rw [List.concat_eq_append] at hconcat
  rw [hconcat] at hclosed hpiece ⊢
  rw [List.dropLast_concat] at hclosed
  have hfront : ∀ line ∈ front,
      Apart lf maxPiece ((lineAction keys skip line).text config line) := fun line hline =>
    apart_text (hpiece line (List.mem_append_left _ hline)) fun _ => hclosed line hline
  have hlast : IsPiece lf maxPiece last := hpiece last (by simp)
  rw [List.flatMap_append, List.flatMap_append, List.append_assoc, List.append_assoc,
    scans_flatMap_append hfront, List.flatMap_singleton, List.flatMap_singleton]
  refine congrArg _ ?_
  cases hopen : openTail keys skip old with
  | none =>
    have hapart : Apart lf maxPiece ((lineAction keys skip last).text config last) := by
      refine apart_text hlast fun hkeep => by_contra fun hnot => ?_
      unfold openTail at hopen
      rw [hconcat, List.getLast?_concat] at hopen
      simp [hkeep, hnot] at hopen
    rw [scans_append hapart, scans_missing]
  | some tail =>
    obtain ⟨hget, hkeep, hnot⟩ := openTail_eq_some hopen
    rw [hconcat, List.getLast?_concat] at hget
    obtain rfl := Option.some.inj hget
    rw [hkeep]
    show scans (last ++ (missingKeys keys skip old).flatMap (keyLine config))
      = scans last ++ (missingKeys keys skip old).flatMap fun key => scans (keyLine config key)
    unfold TailOk at htail
    rw [hopen] at htail
    cases hmissing : missingKeys keys skip old with
    | nil => rw [List.flatMap_nil, List.flatMap_nil, List.append_nil, List.append_nil]
    | cons key rest =>
      -- the tail is blank, and the first key appended is read as on a line of its own
      rw [hmissing] at htail
      obtain ⟨hblank, hroom⟩ : Fits last key := htail
      have hname : key.name.length + 1 ≤ 63 := by
        have := key.length_name_le
        omega
      have hjoined : (last ++ keyLine config key).getLast? = some lf := by
        rw [List.getLast?_append_of_ne_nil _ (keyLine_ne_nil config key), keyLine_getLast]
      have halone : scans ([] ++ keyLine config key) = _ :=
        scans_keyLine config key (List.forall_mem_nil _) (by simpa using hname)
      rw [List.nil_append] at halone
      rw [List.flatMap_cons, List.flatMap_cons, ← List.append_assoc,
        scans_append (apart_of_getLast (by decide) hjoined), scans_keyLine config key hblank hroom,
        ← halone, scans_missing, scans_of_isPiece hlast, scanLine_blanks hblank]
      rfl

/-! ## The managed keys -/

/-- A key's line scans as the key, then as the further lines in its value. -/
theorem scans_keyLine_alone (config : NodeConfig) (key : Key) :
    scans (keyLine config key)
      = (key.name, readBack (formatValue config key)) :: furtherScans (formatValue config key) := by
  have hname := key.length_name_le
  have hroom : ([] : List UInt8).length + key.name.length + 1 ≤ 63 := by
    rw [List.length_nil]
    omega
  exact scans_keyLine config key (List.forall_mem_nil _) hroom

/-- The settings that the lines behind a key's own make. -/
def furtherSettings (config : NodeConfig) (key : Key) : List (Key × List UInt8) :=
  (furtherScans (formatValue config key)).filterMap managed

/-- A key's line sets the key, then what the further lines in its value set. -/
theorem settings_keyLine (config : NodeConfig) (key : Key) :
    settings (keyLine config key)
      = (key, readBack (formatValue config key)) :: furtherSettings config key := by
  rw [settings_eq, scans_keyLine_alone, List.filterMap_cons, managed_eq_some.mpr rfl]
  rfl

/-- **The settings of the new file**: those of the keys replaced, then those of the keys
appended. -/
theorem settings_savedText_flatMap (hk : ManagesLines keys skip) (config : NodeConfig)
    (htail : TailOk keys skip old) :
    settings (savedText keys skip config old)
      = (writtenKeys keys skip old ++ missingKeys keys skip old).flatMap
          fun key => settings (keyLine config key) := by
  have hpiece : ∀ p ∈ linePieces (existingText old), IsPiece lf maxPiece p :=
    fun p hp => isPiece_of_mem_linePieces hp
  have hmissing :
      ((missingKeys keys skip old).flatMap fun key => scans (keyLine config key)).filterMap managed
        = (missingKeys keys skip old).flatMap fun key => settings (keyLine config key) := by
    rw [List.filterMap_flatMap]
    exact List.flatMap_congr fun key _ => (settings_eq _).symm
  rw [settings_eq, scans_savedText config htail, List.filterMap_append, List.flatMap_append,
    hmissing]
  refine congrArg (· ++ _) ?_
  unfold writtenKeys
  clear htail
  -- along the pieces of the old text
  generalize linePieces (existingText old) = pieces at hpiece
  induction pieces with
  | nil => rfl
  | cons line lines ih =>
    rw [List.forall_mem_cons] at hpiece
    rw [List.flatMap_cons, List.filterMap_append, ih hpiece.2, List.filterMap_cons]
    cases hact : lineAction keys skip line with
    | replace key =>
      show (scans (formatKey config key)).filterMap managed ++ _ = (key :: _).flatMap _
      rw [formatKey_eq, List.flatMap_cons, settings_eq]
    | drop => rfl
    | keep =>
      have hnone := hk.keep line hact
      rw [lineSets_eq_bind] at hnone
      show (scans line).filterMap managed ++ _ = _
      rw [scans_of_isPiece hpiece.1]
      cases hscan : scanLine line with
      | none => rfl
      | some kv =>
        rw [hscan] at hnone
        simp [show managed kv = none from hnone]
        rfl

end

/-- The keys written, each as often as the old file has it, and then the others. -/
theorem count_writtenKeys_append_missingKeys {old : List UInt8}
    (h : ∀ key, (writtenKeys managedKeys false old).count key ≤ 1) (key : Key) :
    (writtenKeys managedKeys false old ++ missingKeys managedKeys false old).count key = 1 := by
  have hmissing : (missingKeys managedKeys false old).Nodup := managesLines_config.nodup.filter _
  have hle := h key
  rw [List.count_append]
  by_cases hmem : key ∈ writtenKeys managedKeys false old
  · have hpos := List.count_pos_iff.mpr hmem
    have hnone : (missingKeys managedKeys false old).count key = 0 :=
      List.count_eq_zero.mpr fun hkey => notMem_writtenKeys_of_missing hkey hmem
    omega
  · have hzero := List.count_eq_zero.mpr hmem
    have hone := List.count_eq_one_of_mem hmissing
      ((List.mem_append.mp (mem_writtenKeys_append_missingKeys (mem_managedKeys key))).resolve_left
        hmem)
    omega

/-- **How often a managed key stands in the new file**: once for itself, and once for every further
line that sets it. -/
theorem count_fileKeys_savedConfig {old : List UInt8} (config : NodeConfig)
    (htail : TailOk managedKeys false old)
    (honce : ∀ key, (writtenKeys managedKeys false old).count key ≤ 1) (key : Key) :
    (fileKeys (savedConfig config old)).count key.name
      = 1 + ((writtenKeys managedKeys false old ++ missingKeys managedKeys false old).flatMap
          fun key => (furtherSettings config key).map Prod.fst).count key := by
  have hsettings := settings_savedText_flatMap managesLines_config config htail
  rw [count_fileKeys]
  unfold savedConfig
  rw [hsettings, List.map_flatMap]
  simp only [settings_keyLine, List.map_cons]
  -- the keys themselves can be put before the further ones
  have hperm := List.flatMap_append_perm
    (writtenKeys managedKeys false old ++ missingKeys managedKeys false old) (fun key => [key])
    (fun key => (furtherSettings config key).map Prod.fst)
  have hcount := hperm.count_eq key
  rw [List.count_append, List.flatMap_singleton', count_writtenKeys_append_missingKeys honce key]
    at hcount
  exact hcount.symm

/-! ## The keys of the old file -/

/-- The scan of a line looks no further than its first NUL. -/
theorem scanLine_cstr (line : List UInt8) : scanLine (cstr line) = scanLine line := by
  cases line with
  | nil => rfl
  | cons c line =>
    by_cases hc : c = 0
    · subst hc
      rfl
    · have hcstr : cstr (c :: line) = c :: cstr line := by
        unfold cstr
        rw [List.takeWhile_cons, if_pos (by simpa using hc)]
      unfold scanLine
      rw [cstr_of_no_nul (no_nul_cstr (c :: line)), hcstr]
      rfl

/-- The start of a line that ends before its separator is a piece, if it is not empty. -/
theorem isPiece_cstr {line : List UInt8} (h : IsPiece lf maxPiece line) (hnul : 0 ∈ line)
    (hne : cstr line ≠ []) : IsPiece lf maxPiece (cstr line) := by
  refine ⟨hne, (length_cstr_le line).trans h.length_le, fun hmem => ?_⟩
  obtain ⟨t, ht⟩ : cstr line <+: line := List.takeWhile_prefix _
  have htne : t ≠ [] := by
    rintro rfl
    rw [List.append_nil] at ht
    exact no_nul_cstr line (ht.symm ▸ hnul)
  refine h.sep_last ?_
  rw [← ht, List.dropLast_append_of_ne_nil htne]
  exact List.mem_append_left _ (List.mem_of_mem_dropLast hmem)

/-- What is said up to the first NUL is said in the whole text. -/
theorem scans_cstr_isPrefix (s : List UInt8) : scans (cstr s) <+: scans s := by
  have hmax : 0 < maxPiece := by decide
  induction s using pieces_induction hmax lf with
  | hnil => exact List.prefix_rfl
  | hcut s hs ih =>
    have hpiece : IsPiece lf maxPiece (cut lf maxPiece s).1 := isPiece_cut (by decide) hs
    have hscans : scans s
        = (scanLine (cut lf maxPiece s).1).toList ++ scans (cut lf maxPiece s).2 := by
      have hone := scans_of_isPiece hpiece
      unfold scans linePieces at hone ⊢
      rw [pieces_of_isPiece (by decide) hpiece] at hone
      rw [pieces_of_ne_nil (by decide) hs, ← hone, ← List.filterMap_append]
      rfl
    have hsplit : cstr s = cstr ((cut lf maxPiece s).1 ++ (cut lf maxPiece s).2) := by
      rw [cut_append]
    by_cases hnul : 0 ∈ (cut lf maxPiece s).1
    · -- the text ends in the first piece
      rw [hsplit, cstr_append_of_mem hnul, hscans]
      by_cases hne : cstr (cut lf maxPiece s).1 = []
      · rw [hne]
        exact List.nil_prefix
      · rw [scans_of_isPiece (isPiece_cstr hpiece hnul hne), scanLine_cstr]
        exact List.prefix_append _ _
    · by_cases hrest : (cut lf maxPiece s).2 = []
      · rw [hsplit, hrest, List.append_nil, cstr_of_no_nul hnul, scans_of_isPiece hpiece, hscans]
        exact List.prefix_append _ _
      · have hapart := apart_of_closed (by decide) hpiece (closed_cut hrest)
        rw [hsplit, cstr_append hnul, scans_append hapart, scans_of_isPiece hpiece, hscans]
        exact (List.prefix_append_right_inj _).mpr ih

/-- The rewriting loop marks the managed keys that the lines set. -/
theorem writtenKeys_eq (old : List UInt8) :
    writtenKeys managedKeys false old = (settings (existingText old)).map Prod.fst := by
  unfold writtenKeys settings
  rw [List.map_filterMap]
  refine congrArg (fun f => List.filterMap f _) (funext fun line => ?_)
  unfold lineAction lineSets
  cases scanLine line with
  | none => rfl
  | some kv =>
    cases hfind : findKey managedKeys kv.1 with
    | none => simp [hfind, LineAction.written]
    | some key => simp [hfind, LineAction.written]

section

variable {old : List UInt8} (hlen : old.length ≤ 2047)

include hlen

/-- The buffer holds the file up to its first NUL. -/
theorem fileKeys_existingText_isPrefix : fileKeys (existingText old) <+: fileKeys old := by
  have hpre := scans_cstr_isPrefix old
  unfold fileKeys existingText
  rw [List.take_of_length_le hlen]
  exact hpre.map Prod.fst

/-- A file that sets a key at most once has it replaced at most once. -/
theorem count_writtenKeys_le (honce : ∀ key : Key, (fileKeys old).count key.name ≤ 1) (key : Key) :
    (writtenKeys managedKeys false old).count key ≤ 1 := by
  rw [writtenKeys_eq, ← count_fileKeys]
  exact ((fileKeys_existingText_isPrefix hlen).sublist.count_le key.name).trans (honce key)

end

/-! ## The keys of the new file -/

section

variable {config : NodeConfig} {old : List UInt8}

/-- A key's line stands in the new file, replaced or appended. -/
theorem mem_scans_savedConfig (htail : TailOk managedKeys false old) {key : Key}
    {kv : List UInt8 × List UInt8} (h : kv ∈ scans (keyLine config key)) :
    kv ∈ scans (savedConfig config old) := by
  have hscans := scans_savedText config htail
  unfold savedConfig
  rw [hscans, List.mem_append, List.mem_flatMap, List.mem_flatMap]
  have hkey : key ∈ writtenKeys managedKeys false old ++ missingKeys managedKeys false old :=
    mem_writtenKeys_append_missingKeys (mem_managedKeys key)
  rcases List.mem_append.mp hkey with hwritten | hmissing
  · obtain ⟨line, hline, hact⟩ := List.mem_filterMap.mp hwritten
    refine Or.inl ⟨line, hline, ?_⟩
    cases hcase : lineAction managedKeys false line with
    | replace key' =>
      rw [hcase] at hact
      obtain rfl := Option.some.inj hact
      show kv ∈ scans (formatKey config key')
      rwa [formatKey_eq]
    | drop => rw [hcase] at hact; cases hact
    | keep => rw [hcase] at hact; cases hact
  · exact Or.inr ⟨key, hmissing, h⟩

/-- **The keys of the new file** are the managed ones, those of the old file and those of the
further lines of the texts. -/
theorem key_of_mem_scans_savedConfig (hlen : old.length ≤ 2047)
    (htail : TailOk managedKeys false old) {kv : List UInt8 × List UInt8}
    (h : kv ∈ scans (savedConfig config old)) :
    kv.1 ∈ fileKeys old ∨ ∃ key : Key,
      kv.1 = key.name ∨ kv ∈ furtherScans (formatValue config key) := by
  have hline : ∀ key : Key, kv ∈ scans (keyLine config key) →
      ∃ key : Key, kv.1 = key.name ∨ kv ∈ furtherScans (formatValue config key) := by
    intro key hmem
    rw [scans_keyLine_alone] at hmem
    rcases List.mem_cons.mp hmem with rfl | hmem
    · exact ⟨key, Or.inl rfl⟩
    · exact ⟨key, Or.inr hmem⟩
  have hscans := scans_savedText config htail
  unfold savedConfig at h
  rw [hscans, List.mem_append, List.mem_flatMap, List.mem_flatMap] at h
  rcases h with ⟨line, hmem, hkv⟩ | ⟨key, -, hkv⟩
  · cases hact : lineAction managedKeys false line with
    | replace key =>
      rw [hact] at hkv
      change kv ∈ scans (formatKey config key) at hkv
      rw [formatKey_eq] at hkv
      exact Or.inr (hline key hkv)
    | drop => exact absurd hact (lineAction_ne_drop line)
    | keep =>
      -- a piece that is kept stands in the old file
      rw [hact] at hkv
      change kv ∈ scans line at hkv
      rw [scans_of_isPiece (isPiece_of_mem_linePieces hmem), Option.mem_toList] at hkv
      refine Or.inl ((fileKeys_existingText_isPrefix hlen).subset ?_)
      exact List.mem_map_of_mem (List.mem_filterMap.mpr ⟨line, hmem, hkv⟩)
  · exact Or.inr (hline key hkv)

/-- **A key is loaded with the value it was saved with**, if no further line sets one. -/
theorem agrees_savedConfig (htail : TailOk managedKeys false old)
    (hfurther : ∀ key, furtherSettings config key = []) {key : Key}
    (hplain : ∀ c ∈ formatValue config key, c ≠ lf ∧ c ≠ cr)
    (hread : ∀ c, Agrees (applyKey c (trim (formatValue config key)) key) config key) :
    Agrees ((settings (savedConfig config old)).foldl applySetting configDefaults) config key := by
  have hlen := length_formatValue_le config key
  have hback := readBack_plain hplain (by omega)
  have hsettings := settings_savedText_flatMap managesLines_config config htail
  simp only [settings_keyLine, hfurther] at hsettings
  unfold savedConfig
  rw [hsettings]
  -- the line of the key sets it, and no other line of the file takes that back
  refine Assign.foldl_establishes (P := fun c => Agrees c config key) (fun kv hkv c hc => ?_) ?_
  · obtain ⟨key', -, hkv⟩ := List.mem_flatMap.mp hkv
    obtain rfl := List.mem_singleton.mp hkv
    show Agrees (applyKey c (readBack (formatValue config key')) key') config key
    by_cases heq : key = key'
    · subst heq
      rw [hback]
      exact hread c
    · exact (agrees_applyKey_of_ne heq c _).trans hc
  · refine Or.inr ⟨(key, readBack (formatValue config key)), ?_, fun c => ?_⟩
    · exact List.mem_flatMap.mpr ⟨key, mem_writtenKeys_append_missingKeys (mem_managedKeys key),
        List.mem_singleton_self _⟩
    · show Agrees (applyKey c (readBack (formatValue config key)) key) config key
      rw [hback]
      exact hread c

end

end SN110
