import SN110.Config.LineOrder
import SN110.Lib.Parts

/-!
# Physical lines

What `config_load` makes of a file is compared with a reading line by line, where the lines are
those of the text. The loading code sees a line of 255 bytes or more in stretches, and a comment
goes on behind its first stretch as if it were none; and a key or a value that does not fit its
buffer is cut.

`treatsLinesAsUnits_iff` says for which files this makes no difference; a file of short lines is one
of them (`linesFit_of_short`).
-/

namespace SN110

open Pieces Parts

/-! ## The reading line by line -/

/-- What a line sets: a comment or an empty line nothing, any other line with a `=` the known key
before it to the value behind it, both trimmed. A carriage return ends the value, and an empty value
is none. -/
def lineRule (line : List UInt8) : Option (Key × List UInt8) :=
  if line.head? = some hash ∨ line.head? = some cr then none
  else
    match line.dropWhile (· ≠ equals) with
    | [] => none
    | _ :: rest =>
      let value := rest.takeWhile (· ≠ cr)
      if value = [] then none
      else
        (findKey managedKeys (trim (line.takeWhile (· ≠ equals)))).map fun key => (key, trim value)

/-- The settings of the lines, in order, over the defaults. -/
def lineConfig (ls : List (List UInt8)) : NodeConfig :=
  inferAddrMode ((ls.filterMap lineRule).foldl applySetting configDefaults)

/-- The file is read line by line: a piece that sets something is the first one or comes behind a
newline. -/
structure TreatsLinesAsUnits (content : List UInt8) : Prop where
  loaded : configLoad (some content) = (0, lineConfig (content.splitOn lf))
  units : (linePieces content).IsChain fun p q => p.getLast? = some lf ∨ lineSets q = none

/-- The line as far as the buffers hold its key and its value. -/
def cutLine (line : List UInt8) : List UInt8 :=
  let key := line.takeWhile (· ≠ equals)
  if key.length ≤ 63 then line.take (key.length + 1 + 191) else []

/-- No stretch behind the first one of a line reads as a setting, and cutting the lines makes no
difference. -/
structure LinesFit (ls : List (List UInt8)) : Prop where
  stretches : ∀ l ∈ ls, ∀ k, 1 ≤ k → lineSets (stretch maxPiece l k) = none
  cut : lineConfig (ls.map cutLine) = lineConfig ls

/-! ## The first stretch of a line -/

/-- The first `=` of a line is where it is. -/
theorem equals_inj {k k' rest rest' : List UInt8} (hk : equals ∉ k) (hk' : equals ∉ k')
    (h : k ++ equals :: rest = k' ++ equals :: rest') : k = k' ∧ rest = rest' := by
  have htake := takeWhile_append_sep hk rest
  have hdrop := dropWhile_append_sep hk rest
  rw [h, takeWhile_append_sep hk'] at htake
  rw [h, dropWhile_append_sep hk'] at hdrop
  exact ⟨htake.symm, (List.cons.inj hdrop).2.symm⟩

/-- Inside a line a carriage return is all that ends a value. -/
theorem spanNoneOf_of_notMem (width : Nat) {s : List UInt8} (h : lf ∉ s) :
    spanNoneOf width [lf, cr] s = (s.takeWhile (· ≠ cr)).take width := by
  have hsame : s.takeWhile (fun c => !List.contains [lf, cr] c) = s.takeWhile (· ≠ cr) := by
    induction s with
    | nil => rfl
    | cons c s ih =>
      rw [List.mem_cons, not_or] at h
      have hc : (!List.contains [lf, cr] c) = decide (c ≠ cr) := by
        simp [Ne.symm h.1]
      rw [List.takeWhile_cons, List.takeWhile_cons, hc, ih h.2]
  unfold spanNoneOf
  rw [hsame]

theorem lineRule_of_notMem {line : List UInt8} (h : equals ∉ line) : lineRule line = none := by
  unfold lineRule
  rw [dropWhile_of_notMem h]
  exact ite_self none

section

variable {k rest : List UInt8} (hk : equals ∉ k)

include hk

theorem lineRule_eq_some {v : List UInt8} {key : Key} :
    lineRule (k ++ equals :: rest) = some (key, v) ↔
      ((k ++ equals :: rest).head? ≠ some hash ∧ (k ++ equals :: rest).head? ≠ some cr) ∧
      rest.takeWhile (· ≠ cr) ≠ [] ∧ trim k = key.name ∧ v = trim (rest.takeWhile (· ≠ cr)) := by
  unfold lineRule
  rw [takeWhile_append_sep hk, dropWhile_append_sep hk]
  dsimp only
  split_ifs with hhead hvalue
  · exact iff_of_false (fun h => by cases h) (fun h => hhead.elim h.1.1 h.1.2)
  · exact iff_of_false (fun h => by cases h) (fun h => h.2.1 hvalue)
  · rw [not_or] at hhead
    rw [Option.map_eq_some_iff]
    constructor
    · intro ⟨key', hfind, heq⟩
      obtain ⟨rfl, rfl⟩ := Prod.mk.inj heq
      exact ⟨hhead, hvalue, (findKey_eq_some.mp hfind).2, rfl⟩
    · intro ⟨_, _, hname, hv⟩
      exact ⟨key, findKey_eq_some.mpr ⟨mem_managedKeys key, hname⟩, by rw [hv]⟩

theorem lineSets_eq_some_of_equals (hlf : lf ∉ rest) (hnul : 0 ∉ k ++ equals :: rest)
    {v : List UInt8} {key : Key} :
    lineSets (k ++ equals :: rest) = some (key, v) ↔
      ((k ++ equals :: rest).head? ≠ some hash ∧ (k ++ equals :: rest).head? ≠ some lf ∧
        (k ++ equals :: rest).head? ≠ some cr) ∧
      k.length ≤ 63 ∧ (rest.takeWhile (· ≠ cr)).take 191 ≠ [] ∧ trim k = key.name ∧
        v = trim ((rest.takeWhile (· ≠ cr)).take 191) := by
  have hspan := spanNoneOf_of_notMem 191 hlf
  rw [lineSets_eq_some, scanLine_eq_some, cstr_of_no_nul hnul]
  constructor
  · intro ⟨hhead, k', rest', heq, hk', _, hlen, hvalue, hname, hv⟩
    obtain ⟨rfl, rfl⟩ := equals_inj hk hk' heq
    rw [hspan] at hvalue hv
    exact ⟨hhead, hlen, hvalue, hname.symm, hv⟩
  · intro ⟨hhead, hlen, hvalue, hname, hv⟩
    rw [← hspan] at hvalue hv
    refine ⟨hhead, k, rest, rfl, hk, ?_, hlen, hvalue, hname.symm, hv⟩
    intro hnil
    rw [hnil] at hname
    exact key.name_ne_nil hname.symm

end

section

variable {k rest : List UInt8} (hk : equals ∉ k)

include hk

/-- A key that fits: the stretch holds at least as much of the value as the buffer does. -/
theorem lineSets_take_fits (hlen : k.length ≤ 63) (hlf : lf ∉ k ++ equals :: rest)
    (hnul : 0 ∉ (k ++ equals :: rest).take maxPiece) :
    lineSets ((k ++ equals :: rest).take maxPiece) = lineRule (cutLine (k ++ equals :: rest)) := by
  rw [List.mem_append, List.mem_cons, not_or, not_or] at hlf
  have htake : (k ++ equals :: rest).take maxPiece
      = k ++ equals :: rest.take (maxPiece - k.length - 1) := by
    rw [List.take_append, List.take_of_length_le (by simp only [maxPiece]; omega),
      show maxPiece - k.length = maxPiece - k.length - 1 + 1 by simp only [maxPiece]; omega,
      List.take_succ_cons]
    rfl
  have hcut : cutLine (k ++ equals :: rest) = k ++ equals :: rest.take 191 := by
    unfold cutLine
    rw [takeWhile_append_sep hk]
    simp only [if_pos hlen]
    rw [List.take_append, List.take_of_length_le (by omega),
      show k.length + 1 + 191 - k.length = 191 + 1 by omega, List.take_succ_cons]
  -- the buffer leaves more of the value than the scanner takes
  have hvalue : ((rest.take (maxPiece - k.length - 1)).takeWhile (· ≠ cr)).take 191
      = (rest.take 191).takeWhile (· ≠ cr) := by
    rw [← List.take_takeWhile, ← List.take_takeWhile, List.take_take]
    congr 1
    simp only [maxPiece]
    omega
  have hheads : (k ++ equals :: rest.take (maxPiece - k.length - 1)).head?
      = (k ++ equals :: rest.take 191).head? := by
    cases k <;> rfl
  have hheadlf : (k ++ equals :: rest.take 191).head? ≠ some lf := by
    intro hhead
    cases k with
    | nil => exact absurd (Option.some.inj hhead) (by decide)
    | cons c k => exact hlf.1 (Option.some.inj hhead ▸ List.mem_cons_self)
  rw [htake] at hnul ⊢
  rw [hcut]
  refine Option.ext fun kv => ?_
  obtain ⟨key, v⟩ := kv
  rw [lineSets_eq_some_of_equals hk (fun hmem => hlf.2.2 (List.mem_of_mem_take hmem)) hnul,
    lineRule_eq_some hk, hvalue, hheads]
  constructor
  · intro ⟨⟨hhash, _, hcr⟩, _, hne, hname, hv⟩
    exact ⟨⟨hhash, hcr⟩, hne, hname, hv⟩
  · intro ⟨⟨hhash, hcr⟩, hne, hname, hv⟩
    exact ⟨⟨hhash, hheadlf, hcr⟩, hlen, hne, hname, hv⟩

/-- A key that does not fit: the scan fails. -/
theorem lineSets_take_long (hlen : ¬ k.length ≤ 63)
    (hnul : 0 ∉ (k ++ equals :: rest).take maxPiece) :
    lineSets ((k ++ equals :: rest).take maxPiece) = none := by
  refine Option.eq_none_iff_forall_ne_some.mpr fun kv hkv => ?_
  obtain ⟨-, k', rest', hline, hk', -, hlen', -⟩ := scanLine_eq_some.mp (lineSets_eq_some.mp hkv)
  rw [cstr_of_no_nul hnul] at hline
  have hwhole := List.take_append_drop maxPiece (k ++ equals :: rest)
  rw [hline, List.append_assoc, List.cons_append] at hwhole
  obtain ⟨rfl, -⟩ := equals_inj hk' hk hwhole
  exact hlen hlen'

end

theorem equals_notMem_cutLine {line : List UInt8} (h : equals ∉ line) :
    equals ∉ cutLine line := by
  unfold cutLine
  dsimp only
  split_ifs
  · exact fun hcut => h (List.mem_of_mem_take hcut)
  · exact List.not_mem_nil

theorem lineSets_of_notMem {line : List UInt8} (h : equals ∉ line) (hnul : 0 ∉ line) :
    lineSets line = none := by
  refine Option.eq_none_iff_forall_ne_some.mpr fun kv hkv => ?_
  obtain ⟨-, k, rest, hline, -⟩ := scanLine_eq_some.mp (lineSets_eq_some.mp hkv)
  rw [cstr_of_no_nul hnul] at hline
  rw [hline] at h
  exact h (List.mem_append_right _ List.mem_cons_self)

/-- **The first stretch of a line reads as the line that the buffers hold.** -/
theorem lineSets_take {l : List UInt8} (hlf : lf ∉ l) (hnul : 0 ∉ l) :
    lineSets (l.take maxPiece) = lineRule (cutLine l) := by
  have hnul' : 0 ∉ l.take maxPiece := fun hmem => hnul (List.mem_of_mem_take hmem)
  by_cases hmem : equals ∈ l
  · obtain ⟨k, rest, rfl, hk⟩ := List.eq_append_cons_of_mem hmem
    by_cases hlen : k.length ≤ 63
    · exact lineSets_take_fits hk hlen hlf hnul'
    · have hcut : cutLine (k ++ equals :: rest) = [] := by
        unfold cutLine
        rw [takeWhile_append_sep hk]
        exact if_neg hlen
      rw [lineSets_take_long hk hlen hnul', hcut]
      rfl
  · rw [lineRule_of_notMem (equals_notMem_cutLine hmem)]
    exact lineSets_of_notMem (fun htake => hmem (List.mem_of_mem_take htake)) hnul'

/-! ## The file -/

/-- **Lines are read as units** exactly when no stretch behind a line's first one reads as a setting
and cutting the lines makes no difference. -/
theorem treatsLinesAsUnits_iff {content : List UInt8} (hnul : 0 ∉ content) :
    TreatsLinesAsUnits content ↔ LinesFit (content.splitOn lf) := by
  have hunits : ((linePieces content).IsChain fun p q => p.getLast? = some lf ∨ lineSets q = none) ↔
      ∀ l ∈ content.splitOn lf, Quiet maxPiece lineSets (l.drop maxPiece) :=
    isChain_pieces_iff (by decide) rfl lineSets_append_lf content
  -- with nothing read behind the first piece of a line, the line is its first piece
  have hsettings : (∀ l ∈ content.splitOn lf, Quiet maxPiece lineSets (l.drop maxPiece)) →
      configLoad (some content) = (0, lineConfig ((content.splitOn lf).map cutLine)) := by
    intro hquiet
    have hread : settings content = ((content.splitOn lf).map cutLine).filterMap lineRule := by
      have hpieces := filterMap_pieces_of_quiet (by decide) rfl lineSets_append_lf hquiet
      rw [List.filterMap_map]
      refine hpieces.trans (List.filterMap_congr fun l hl => ?_)
      exact lineSets_take (notMem_of_mem_splitOn hl)
        fun hmem => hnul (subset_of_mem_splitOn hl hmem)
    rw [configLoad_some, hread]
    rfl
  constructor
  · intro h
    have hquiet := hunits.mp h.units
    have hloaded := h.loaded
    rw [hsettings hquiet] at hloaded
    exact {
      stretches := fun l hl => quiet_drop_iff.mp (hquiet l hl)
      cut := congrArg Prod.snd hloaded }
  · intro h
    have hquiet : ∀ l ∈ content.splitOn lf, Quiet maxPiece lineSets (l.drop maxPiece) :=
      fun l hl => quiet_drop_iff.mpr (h.stretches l hl)
    exact {
      loaded := by rw [hsettings hquiet, h.cut]
      units := hunits.mpr hquiet }

/-- A comment and a setting. -/
theorem treatsLinesAsUnits_iff_comment :
    TreatsLinesAsUnits (ascii "# node\nhostname = stage\n") ↔
      LinesFit ((ascii "# node\nhostname = stage\n").splitOn lf) :=
  treatsLinesAsUnits_iff (by decide)

/-- A comment of 265 bytes. -/
def overlongComment : List UInt8 := hash :: List.replicate 254 120 ++ ascii "hostname=a"

/-- The end of the comment sets the hostname. -/
theorem overlongComment_sets : ¬ TreatsLinesAsUnits overlongComment := by
  have hlf : lf ∉ overlongComment := by
    unfold overlongComment
    rw [List.mem_append, List.mem_cons, List.mem_replicate, not_or, not_or]
    exact ⟨⟨by decide, by decide⟩, by decide⟩
  have hrest : overlongComment.drop maxPiece = ascii "hostname=a" :=
    List.drop_left' (by rw [List.length_cons, List.length_replicate])
  intro h
  have hquiet := (isChain_pieces_iff (by decide) rfl lineSets_append_lf overlongComment).mp h.units
  rw [List.splitOn_eq_singleton hlf, List.forall_mem_singleton, hrest] at hquiet
  exact absurd (hquiet 0) (by decide)

/-- Lines that fit their buffers are read as units. -/
theorem linesFit_of_short {ls : List (List UInt8)} (hlen : ∀ l ∈ ls, l.length ≤ maxPiece)
    (hcut : ∀ l ∈ ls, equals ∈ l → cutLine l = l) : LinesFit ls where
  -- no line goes on behind its first stretch
  stretches := by
    intro l hl k hk
    have hempty : l.drop (maxPiece * k) = [] :=
      List.drop_eq_nil_iff.mpr ((hlen l hl).trans (Nat.le_mul_of_pos_right maxPiece hk))
    rw [stretch, hempty]
    rfl
  cut := by
    unfold lineConfig
    rw [List.filterMap_map]
    congr 2
    refine List.filterMap_congr fun l hl => ?_
    show lineRule (cutLine l) = lineRule l
    by_cases hmem : equals ∈ l
    · rw [hcut l hl hmem]
    · rw [lineRule_of_notMem hmem, lineRule_of_notMem (equals_notMem_cutLine hmem)]

end SN110
