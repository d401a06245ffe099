import SN110.Config.RoundTrip
import SN110.Lib.Lines

/-!
# What a save preserves

The lines of the old file that set no managed key are to be in the new file as they were, as often
and in the same order. The saving code sees the first 2047 bytes of the old file, in pieces of 255
bytes, so two things can go wrong:

* such a line is not held whole, or a piece of it sets a managed key (`Intact` says that neither
  is so);
* something that is not such a line becomes one: the rest of a long managed line, what is left of
  the line that is cut off, or a value with a line end in it (`NoEcho` says that nothing does).

`preserves_of_intact` says that the lines are preserved if neither happens, and
`filter_lines_savedConfig` counts them: if one of the two happens, they are preserved only where
the other one does too and makes up for it. `preserves_of_tidy` says that neither happens to a file
that fits the buffers.
-/

namespace SN110

open Lines Pieces

/-! ## The lines -/

/-- The line sets no managed key. -/
abbrev Unmanaged (line : List UInt8) : Prop := lineSets line = none

/-- The lines that a save is to preserve. -/
def unmanagedLines (old : List UInt8) : List (List UInt8) :=
  (lines lf old).filter fun line => Unmanaged line

/-- They are in the new file as they were, as often and in the same order. -/
def Preserves (config : NodeConfig) (old : List UInt8) : Prop :=
  ∀ new, configSave true (some old) config = (0, some new) →
    (lines lf new).filter (fun line => line ∈ unmanagedLines old) = unmanagedLines old

/-- The lines that the buffer for the old file holds whole. -/
def heldLines (old : List UInt8) : List (List UInt8) := wholeLines 2047 (lines lf old)

/-- What the buffer holds of the line after them. -/
def cutText (old : List UInt8) : List UInt8 :=
  (old.take 2047).drop (heldLines old).flatten.length

/-- What the rewriting loop puts for a text. -/
def putText (config : NodeConfig) (text : List UInt8) : List UInt8 :=
  ((linePieces text).map fun line => (lineAction managedKeys false line).text config line).flatten

/-- No piece of the line sets a managed key. -/
def Copied (line : List UInt8) : Prop := ∀ p ∈ linePieces line, lineSets p = none

instance (line : List UInt8) : Decidable (Copied line) := by
  unfold Copied
  infer_instance

/-- Every line to be preserved is held whole and copied. -/
def Intact (old : List UInt8) : Prop :=
  (∀ line ∈ heldLines old, Unmanaged line → Copied line) ∧
    ∀ line ∈ (lines lf old).drop (heldLines old).length, ¬ Unmanaged line

/-- The lines of the new file that are made from anything else: from the lines that are not
preserved, from the text that is cut off and from the keys appended. -/
def madeLines (config : NodeConfig) (old : List UInt8) : List (List UInt8) :=
  ((heldLines old).filter fun line => !decide (Unmanaged line ∧ Copied line)).flatMap
      (fun line => lines lf (putText config line))
    ++ lines lf (putText config (cutText old)
      ++ ((missingKeys managedKeys false old).map (formatKey config)).flatten)

/-- None of them is a line to be preserved. -/
def NoEcho (config : NodeConfig) (old : List UInt8) : Prop :=
  ∀ line ∈ madeLines config old, line ∉ unmanagedLines old

/-- The lines to be preserved that are found in the new file, each line that is not copied giving
way to what is made of it. -/
def foundLines (config : NodeConfig) (old : List UInt8) : List (List UInt8) :=
  ((heldLines old).flatMap fun line =>
      if Unmanaged line ∧ Copied line then [line]
      else (lines lf (putText config line)).filter fun made => made ∈ unmanagedLines old)
    ++ (lines lf (putText config (cutText old)
      ++ ((missingKeys managedKeys false old).map (formatKey config)).flatten)).filter
        fun made => made ∈ unmanagedLines old

/-! ## What the loop puts for a line -/

/-- A line that sets no key is kept. -/
theorem lineAction_of_unmanaged {line : List UInt8} (h : lineSets line = none) :
    lineAction managedKeys false line = .keep := by
  unfold lineSets at h
  unfold lineAction
  cases hscan : scanLine line with
  | none => rfl
  | some kv =>
    obtain ⟨k, v⟩ := kv
    rw [hscan] at h
    have hfind : findKey managedKeys k = none := Option.map_eq_none_iff.mp h
    simp [hfind]

/-- A copied line is written as it is. -/
theorem putText_of_copied {line : List UInt8} (h : Copied line) (config : NodeConfig) :
    putText config line = line := by
  have htext : (linePieces line).map
      (fun p => (lineAction managedKeys false p).text config p) = linePieces line := by
    refine (List.map_congr_left fun p hp => ?_).trans (List.map_id _)
    rw [lineAction_of_unmanaged (h p hp)]
    rfl
  unfold putText
  rw [htext]
  exact flatten_pieces (by decide) line

/-- What is written for a line with a line end has one too. -/
theorem text_getLast {line : List UInt8} (h : line.getLast? = some lf) (config : NodeConfig) :
    ((lineAction managedKeys false line).text config line).getLast? = some lf := by
  cases hact : lineAction managedKeys false line with
  | replace key =>
    show (formatKey config key).getLast? = some lf
    rw [formatKey_eq, keyLine_getLast]
  | drop => exact absurd hact (lineAction_ne_drop line)
  | keep => exact h

/-- What is put for a text with a newline at its end has one at its end. -/
theorem putText_getLast {text : List UInt8} (h : text.getLast? = some lf) (config : NodeConfig) :
    (putText config text).getLast? = some lf := by
  have hflat : (linePieces text).flatten = text := flatten_pieces (by decide) text
  rcases List.eq_nil_or_concat (linePieces text) with hnil | ⟨front, last, hconcat⟩
  · rw [hnil] at hflat
    rw [← hflat] at h
    cases h
  · -- the newline is the last piece's
    rw [List.concat_eq_append] at hconcat
    have hne : last ≠ [] := (isPiece_of_mem_linePieces (by rw [hconcat]; simp)).ne_nil
    have hlast : last.getLast? = some lf := by
      rw [← hflat, hconcat, List.flatten_append, List.flatten_singleton,
        List.getLast?_append_of_ne_nil _ hne] at h
      exact h
    have htext := text_getLast hlast config
    have hput : (lineAction managedKeys false last).text config last ≠ [] := by
      intro hnil
      rw [hnil] at htext
      cases htext
    unfold putText
    rw [hconcat, List.map_append, List.flatten_append, List.map_singleton, List.flatten_singleton,
      List.getLast?_append_of_ne_nil _ hput, htext]

/-- Behind a line end, the next text is written by itself. -/
theorem putText_append {s : List UInt8} (h : s.getLast? = some lf) (config : NodeConfig)
    (t : List UInt8) : putText config (s ++ t) = putText config s ++ putText config t := by
  unfold putText
  rw [← List.flatten_append, ← List.map_append]
  -- the newline closes the last piece, so the two texts are cut apart
  exact congrArg (fun ps => List.flatten (List.map _ ps))
    (pieces_append_of_getLast (by decide) h t)

/-! ## The lines of the new file -/

/-- What is put for some lines and a text after them, line by line. -/
theorem lines_putText (config : NodeConfig) {ls : List (List UInt8)}
    (h : ∀ line ∈ ls, IsLine lf line) (text rest : List UInt8) :
    lines lf (putText config (ls.flatten ++ text) ++ rest)
      = ls.flatMap (fun line => lines lf (putText config line))
        ++ lines lf (putText config text ++ rest) := by
  induction ls with
  | nil => rfl
  | cons line ls ih =>
    rw [List.forall_mem_cons] at h
    rw [List.flatten_cons, List.append_assoc, putText_append h.1.1, List.append_assoc,
      lines_append (putText_getLast h.1.1 config), ih h.2, List.flatMap_cons, List.append_assoc]

section

variable {old : List UInt8}

/-- In a file with its last line ended, each line the saver holds is a line. -/
theorem isLine_of_mem_heldLines (hold : old = [] ∨ old.getLast? = some lf) :
    ∀ line ∈ heldLines old, IsLine lf line := by
  intro line hline
  have hmem := (wholeLines_isPrefix 2047 (lines lf old)).subset hline
  rcases hold with rfl | hlast
  · cases hmem
  · exact isLine_of_mem_lines hlast line hmem

/-- What the saver reads is the lines it holds and the rest, cut at the buffer. -/
theorem existingText_eq (hnul : 0 ∉ old) :
    existingText old = (heldLines old).flatten ++ cutText old := by
  have hcstr : existingText old = old.take 2047 :=
    cstr_of_no_nul fun hmem => hnul (List.mem_of_mem_take hmem)
  have hpre := flatten_wholeLines_isPrefix 2047 (lines lf old)
  rw [flatten_lines] at hpre
  rw [hcstr]
  -- the lines held are the start of the buffer, and what follows them is cut off
  obtain ⟨t, ht⟩ := hpre
  unfold cutText heldLines
  rw [← ht, List.drop_left]

/-- **The lines of the new file**: those made of the lines held, and those made of what is cut off
and of the keys appended. -/
theorem lines_savedConfig (config : NodeConfig) (hold : old = [] ∨ old.getLast? = some lf)
    (hnul : 0 ∉ old) :
    lines lf (savedConfig config old)
      = (heldLines old).flatMap (fun line => lines lf (putText config line))
        ++ lines lf (putText config (cutText old)
          ++ ((missingKeys managedKeys false old).map (formatKey config)).flatten) := by
  have hput : savedConfig config old = putText config (existingText old)
      ++ ((missingKeys managedKeys false old).map (formatKey config)).flatten := rfl
  rw [hput, existingText_eq hnul]
  exact lines_putText config (isLine_of_mem_heldLines hold) _ _

/-- What is made of a line that is copied is the line. -/
theorem lines_putText_of_copied {line : List UInt8} (hline : IsLine lf line) (h : Copied line)
    (config : NodeConfig) : lines lf (putText config line) = [line] := by
  have happend := lines_isLine_append hline []
  rw [putText_of_copied h]
  rwa [List.append_nil] at happend

/-- The unmanaged lines of the file are those held and those behind the buffer. -/
theorem unmanagedLines_eq (old : List UInt8) :
    unmanagedLines old = ((heldLines old).filter fun line => Unmanaged line)
      ++ ((lines lf old).drop (heldLines old).length).filter fun line => Unmanaged line := by
  obtain ⟨rest, hrest⟩ := wholeLines_isPrefix 2047 (lines lf old)
  have hsplit : lines lf old = heldLines old ++ rest := hrest.symm
  unfold unmanagedLines
  rw [hsplit, List.drop_left, List.filter_append]

/-! ## Counting the lines preserved -/

/-- An unmanaged line that is held is one of the file's. -/
theorem mem_unmanagedLines_of_held {line : List UInt8} (h : line ∈ heldLines old)
    (hun : Unmanaged line) : line ∈ unmanagedLines old :=
  List.mem_filter.mpr
    ⟨(wholeLines_isPrefix 2047 (lines lf old)).subset h, decide_eq_true hun⟩

/-- The lines held that are preserved are those of the unmanaged ones that are copied. -/
theorem filter_kept (ls : List (List UInt8)) :
    (ls.filter fun line => Unmanaged line ∧ Copied line)
      = (ls.filter fun line => Unmanaged line).filter fun line => Copied line := by
  rw [List.filter_filter]
  refine List.filter_congr fun line _ => ?_
  rw [Bool.decide_and, Bool.and_comm]

/-- So many of the lines to be preserved are found in the new file. -/
theorem length_filter_lines_savedConfig (config : NodeConfig)
    (hold : old = [] ∨ old.getLast? = some lf) (hnul : 0 ∉ old) :
    ((lines lf (savedConfig config old)).filter fun line => line ∈ unmanagedLines old).length
      = ((heldLines old).filter fun line => Unmanaged line ∧ Copied line).length
        + ((madeLines config old).filter fun line => line ∈ unmanagedLines old).length := by
  have hheld := isLine_of_mem_heldLines hold
  have hfind := length_filter_flatMap (fun line => decide (line ∈ unmanagedLines old))
    (fun line => decide (Unmanaged line ∧ Copied line)) (fun line => lines lf (putText config line))
    (fun line hline hkept => lines_putText_of_copied (hheld line hline)
      (of_decide_eq_true hkept).2 config)
    (fun line hline hkept => decide_eq_true
      (mem_unmanagedLines_of_held hline (of_decide_eq_true hkept).1))
  rw [lines_savedConfig config hold hnul, List.filter_append, List.length_append, hfind]
  unfold madeLines
  rw [List.filter_append, List.length_append, Nat.add_assoc]

/-- The file is intact when as many unmanaged lines are held and copied as it has. -/
theorem intact_iff_length (old : List UInt8) :
    Intact old ↔
      ((heldLines old).filter fun line => Unmanaged line ∧ Copied line).length
        = (unmanagedLines old).length := by
  have hle := List.length_filter_le (fun line => decide (Copied line))
    ((heldLines old).filter fun line => Unmanaged line)
  have hall := List.length_filter_eq_length_iff (p := fun line => decide (Copied line))
    (l := (heldLines old).filter fun line => Unmanaged line)
  have hrest : (((lines lf old).drop (heldLines old).length).filter
      fun line => Unmanaged line).length = 0 ↔
        ∀ line ∈ (lines lf old).drop (heldLines old).length, ¬ Unmanaged line := by
    rw [List.length_eq_zero_iff, List.filter_eq_nil_iff]
    simp only [decide_eq_true_eq]
  have hcopied : (∀ line ∈ (heldLines old).filter fun line => Unmanaged line,
      decide (Copied line) = true) ↔ ∀ line ∈ heldLines old, Unmanaged line → Copied line := by
    simp only [List.mem_filter, decide_eq_true_eq, and_imp]
  -- the count is full when neither filter leaves a line out and no line follows those held
  unfold Intact
  rw [filter_kept, unmanagedLines_eq, List.length_append, ← hcopied, ← hall, ← hrest]
  omega

/-- No line made by the save is one of the file's unmanaged lines. -/
theorem noEcho_iff_length (config : NodeConfig) (old : List UInt8) :
    NoEcho config old ↔
      ((madeLines config old).filter fun line => line ∈ unmanagedLines old).length = 0 := by
  unfold NoEcho
  rw [List.length_eq_zero_iff, List.filter_eq_nil_iff]
  simp only [decide_eq_true_eq]

/-- The save preserves when the unmanaged lines found in its text are those of the file. -/
theorem preserves_iff (config : NodeConfig) (old : List UInt8) :
    Preserves config old ↔
      (lines lf (savedConfig config old)).filter (fun line => line ∈ unmanagedLines old)
        = unmanagedLines old := by
  unfold Preserves
  rw [configSave_writable, Option.getD_some]
  constructor
  · exact fun h => h _ rfl
  · intro h new heq
    rwa [← Option.some.inj (Prod.mk.inj heq).2]

/-- Lines that are held and copied, and nothing else that looks like them, are preserved. -/
theorem preserves_of_intact {config : NodeConfig} (hold : old = [] ∨ old.getLast? = some lf)
    (hnul : 0 ∉ old) (hintact : Intact old) (hecho : NoEcho config old) :
    Preserves config old := by
  have hheld := isLine_of_mem_heldLines hold
  unfold NoEcho madeLines at hecho
  rw [List.forall_mem_append] at hecho
  have hfind := filter_flatMap (fun line => decide (line ∈ unmanagedLines old))
    (fun line => decide (Unmanaged line ∧ Copied line)) (fun line => lines lf (putText config line))
    (fun line hline hkept => lines_putText_of_copied (hheld line hline)
      (of_decide_eq_true hkept).2 config)
    (fun line hline hkept => decide_eq_true
      (mem_unmanagedLines_of_held hline (of_decide_eq_true hkept).1))
    (fun line hline => by simpa using hecho.1 line hline)
  have htail : (lines lf (putText config (cutText old)
      ++ ((missingKeys managedKeys false old).map (formatKey config)).flatten)).filter
        (fun line => line ∈ unmanagedLines old) = [] :=
    List.filter_eq_nil_iff.mpr fun line hline => by simpa using hecho.2 line hline
  have hrest : ((lines lf old).drop (heldLines old).length).filter (fun line => Unmanaged line)
      = [] := List.filter_eq_nil_iff.mpr fun line hline => by simpa using hintact.2 line hline
  rw [preserves_iff, lines_savedConfig config hold hnul, List.filter_append, hfind, htail,
    unmanagedLines_eq, hrest]
  refine congrArg (· ++ []) (List.filter_congr fun line hline => ?_)
  -- of the lines held, the unmanaged ones are copied
  exact decide_eq_decide.mpr ⟨fun h => h.1, fun h => ⟨h, hintact.1 line hline h⟩⟩

end

/-! ## Files that fit the buffers -/

/-- A line that sets a key is replaced by the key's new line. -/
theorem lineAction_of_lineSets {line v : List UInt8} {key : Key}
    (h : lineSets line = some (key, v)) : lineAction managedKeys false line = .replace key := by
  have hscan := lineSets_eq_some.mp h
  have hfind : findKey managedKeys key.name = some key :=
    findKey_eq_some.mpr ⟨mem_managedKeys key, rfl⟩
  unfold lineAction
  rw [hscan]
  simp [hfind]

/-- A line of at most 255 bytes is read in one piece. -/
theorem linePieces_of_short {line : List UInt8} (hline : IsLine lf line)
    (hshort : line.length ≤ maxPiece) : linePieces line = [line] := by
  refine pieces_of_isPiece (by decide) ⟨?_, hshort, hline.2⟩
  rintro rfl
  cases hline.1

section

variable {config : NodeConfig} (h : CleanText config)

include h

/-- The line of a key is one line. -/
theorem isLine_keyLine (key : Key) : IsLine lf (keyLine config key) :=
  ⟨keyLine_getLast config key, (keyLine_isPiece h key).1.sep_last⟩

/-- The line of a key sets it, so it is no unmanaged line. -/
theorem keyLine_notMem_unmanagedLines (key : Key) (old : List UInt8) :
    keyLine config key ∉ unmanagedLines old := by
  intro hmem
  have hnone : lineSets (keyLine config key) = none :=
    of_decide_eq_true (List.mem_filter.mp hmem).2
  rw [lineSets_keyLine h] at hnone
  cases hnone

/-- A line that fits a piece is copied, or a key's line is put in its place. -/
theorem lines_putText_of_short {line : List UInt8} (hline : IsLine lf line)
    (hshort : line.length ≤ maxPiece) :
    Copied line ∧ Unmanaged line ∨
      ∃ key, lines lf (putText config line) = [keyLine config key] := by
  have hpieces := linePieces_of_short hline hshort
  -- the line is its only piece, so the loop decides on it as the scan does
  cases hsets : lineSets line with
  | none =>
    refine Or.inl ⟨fun p hp => ?_, hsets⟩
    rw [hpieces, List.mem_singleton] at hp
    rwa [hp]
  | some kv =>
    obtain ⟨key, v⟩ := kv
    refine Or.inr ⟨key, ?_⟩
    have hput : putText config line = keyLine config key := by
      unfold putText
      rw [hpieces, List.map_singleton, List.flatten_singleton, lineAction_of_lineSets hsets]
      exact formatKey_eq config key
    have happend := lines_isLine_append (isLine_keyLine h key) []
    rw [List.append_nil] at happend
    rw [hput, happend]
    rfl

/-- **Files that fit the buffers** are preserved, whatever their lines are. -/
theorem preserves_of_tidy {old : List UInt8} (hold : old = [] ∨ old.getLast? = some lf)
    (hnul : 0 ∉ old) (hsize : old.length ≤ 2047)
    (hlines : ∀ line ∈ lines lf old, line.length ≤ maxPiece) : Preserves config old := by
  have hheld : heldLines old = lines lf old :=
    wholeLines_of_length_le (by rwa [flatten_lines])
  have hcut : cutText old = [] := by
    unfold cutText
    rw [hheld, flatten_lines, List.take_of_length_le hsize, List.drop_length]
  have hline := isLine_of_mem_heldLines hold
  have hfits : ∀ line ∈ heldLines old, Copied line ∧ Unmanaged line ∨
      ∃ key, lines lf (putText config line) = [keyLine config key] := fun line hmem =>
    lines_putText_of_short h (hline line hmem) (hlines line (hheld ▸ hmem))
  -- the file is intact, and no line that the save makes is one of those to be kept
  refine preserves_of_intact hold hnul ⟨fun line hmem hun => ?_, ?_⟩ ?_
  · -- the one piece of the line is the line
    intro p hp
    rw [linePieces_of_short (hline line hmem) (hlines line (hheld ▸ hmem)),
      List.mem_singleton] at hp
    rwa [hp]
  · rw [hheld, List.drop_length]
    exact List.forall_mem_nil _
  · unfold NoEcho madeLines
    rw [List.forall_mem_append]
    constructor
    · intro made hmade
      obtain ⟨line, hmem, hmade⟩ := List.mem_flatMap.mp hmade
      rw [List.mem_filter] at hmem
      rcases hfits line hmem.1 with ⟨hcopied, hun⟩ | ⟨key, hkey⟩
      · simp [hcopied, hun] at hmem
      · rw [hkey, List.mem_singleton] at hmade
        rw [hmade]
        exact keyLine_notMem_unmanagedLines h key old
    · -- nothing is cut off, and what is appended are lines of keys
      have hput : putText config [] = [] := rfl
      have happended : ∀ line ∈ (missingKeys managedKeys false old).map (formatKey config),
          ∃ key, line = keyLine config key := by
        intro line hmem
        obtain ⟨key, -, rfl⟩ := List.mem_map.mp hmem
        exact ⟨key, formatKey_eq config key⟩
      have hkeys : ∀ line ∈ (missingKeys managedKeys false old).map (formatKey config),
          IsLine lf line := by
        intro line hmem
        obtain ⟨key, rfl⟩ := happended line hmem
        exact isLine_keyLine h key
      have hsplit := lines_flatten_append hkeys []
      rw [List.append_nil] at hsplit
      rw [hcut, hput, List.nil_append, hsplit]
      intro line hmem
      rcases List.mem_append.mp hmem with hmem | hmem
      · obtain ⟨key, rfl⟩ := happended line hmem
        exact keyLine_notMem_unmanagedLines h key old
      · cases hmem

end

/-! ## The files whose lines are preserved -/

/-- The unmanaged lines in the saved text are those found among what the loop wrote. -/
theorem filter_lines_savedConfig (config : NodeConfig) {old : List UInt8}
    (hold : old = [] ∨ old.getLast? = some lf) (hnul : 0 ∉ old) :
    (lines lf (savedConfig config old)).filter (fun line => line ∈ unmanagedLines old)
      = foundLines config old := by
  have hheld := isLine_of_mem_heldLines hold
  rw [lines_savedConfig config hold hnul, List.filter_append, List.filter_flatMap]
  refine congrArg (· ++ _) (List.flatMap_congr fun line hline => ?_)
  -- a line kept is found as itself, of the others what is made of them
  split_ifs with hkept
  · have hmem := mem_unmanagedLines_of_held hline hkept.1
    rw [lines_putText_of_copied (hheld line hline) hkept.2, List.filter_cons_of_pos (by simpa)]
    rfl
  · rfl

/-- **What a save preserves.** All lines that set no managed key are preserved if each of them is
held whole and copied and nothing else becomes such a line. Otherwise they are only if neither is
so and what is made of other text stands exactly for the lines that are lost. -/
theorem configSave_preserves (config : NodeConfig) (old : List UInt8)
    (hold : old = [] ∨ old.getLast? = some lf) (hnul : 0 ∉ old) :
    Preserves config old ↔
      (Intact old ∧ NoEcho config old) ∨
        (¬ Intact old ∧ ¬ NoEcho config old ∧ foundLines config old = unmanagedLines old) := by
  have hfound := filter_lines_savedConfig config hold hnul
  constructor
  · intro hpres
    have heq := (preserves_iff config old).mp hpres
    -- as many lines are lost as are made
    have hcount := congrArg List.length heq
    rw [length_filter_lines_savedConfig config hold hnul] at hcount
    have hsame : Intact old ↔ NoEcho config old := by
      rw [intact_iff_length, noEcho_iff_length]
      omega
    by_cases hintact : Intact old
    · exact Or.inl ⟨hintact, hsame.mp hintact⟩
    · exact Or.inr ⟨hintact, mt hsame.mpr hintact, hfound ▸ heq⟩
  · rintro (⟨hintact, hecho⟩ | ⟨-, -, hmade⟩)
    · exact preserves_of_intact hold hnul hintact hecho
    · exact (preserves_iff config old).mpr (hfound.trans hmade)

instance (old : List UInt8) : Decidable (Intact old) := by
  unfold Intact
  infer_instance

instance (config : NodeConfig) (old : List UInt8) : Decidable (NoEcho config old) := by
  unfold NoEcho
  infer_instance

/-- A long comment, a line that sets a key and a line of the original node. -/
theorem configSave_preserves_comment :
    Preserves siteConfig (List.replicate 300 hash ++ [lf] ++ ascii "netmask = 0" ++ [lf]
      ++ ascii "boottest = 1" ++ [lf]) :=
  (configSave_preserves siteConfig _ (by decide) (by decide)).mpr (Or.inl (by decide +kernel))

/-- A comment with a setting behind its 255th byte. -/
def longComment : List UInt8 := List.replicate 255 hash ++ ascii "hostname = foh" ++ [lf]

/-- The saving code takes the second piece of the comment for a setting and puts the hostname in
its place. -/
theorem longComment_altered : ¬ Preserves siteConfig longComment := by
  rw [preserves_iff]
  decide +kernel

end SN110
