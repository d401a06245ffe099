import SN110.Config.RoundTrip

/-!
# The order of lines

`config_load` takes a file of lines that fit its buffer line by line, and two lines that set
different keys may be exchanged (`applySetting_comm`). So the order of the lines does not matter as
long as no key is set twice, and neither do the lines that set nothing.

* `settings_fileOf`: what such a file sets.
* `configLoad_lineOrder`: permuted lines, and lines left out.
-/

namespace SN110

open Pieces

/-- A file of newline-terminated lines. -/
def fileOf (ls : List (List UInt8)) : List UInt8 := ls.flatMap (· ++ [lf])

/-- Lines shorter than 256 bytes, no two of which set the same managed key. -/
structure PlainLines (ls : List (List UInt8)) : Prop where
  short : ∀ l ∈ ls, lf ∉ l ∧ l.length < 256
  once : ((ls.filterMap lineSets).map Prod.fst).Nodup

/-- A line that sets nothing: a comment, one without a key and a value, or one whose key is not
known. -/
inductive IdleLine (l : List UInt8) : Prop where
  | comment (h : l.head? = some hash)
  | malformed (h : ¬ ∃ k v, sscanf keyValueFormat (cstr l) = [.text k, .text v])
  | unknown {k v : List UInt8} (h : sscanf keyValueFormat (cstr l) = [.text k, .text v])
      (hkey : ∀ key : Key, trim k ≠ key.name)

/-- The lines are left when some idle ones are taken out. -/
inductive TakesOut : List (List UInt8) → List (List UInt8) → Prop where
  | nil : TakesOut [] []
  | keep {ls kept : List (List UInt8)} (l : List UInt8) : TakesOut ls kept →
      TakesOut (l :: ls) (l :: kept)
  | drop {ls kept : List (List UInt8)} {l : List UInt8} (hidle : IdleLine l) : TakesOut ls kept →
      TakesOut (l :: ls) kept

/-! ## A line and its newline -/

/-- A comment, a blank line or an unknown key sets nothing. -/
theorem lineSets_of_idleLine {l : List UInt8} (h : IdleLine l) : lineSets l = none := by
  unfold lineSets
  cases hscan : scanLine l with
  | none => rfl
  | some kv =>
    obtain ⟨⟨hhash, -, -⟩, key, rest, hl, hkey, hne, hlen, hvalue, hk, -⟩ :=
      scanLine_eq_some.mp hscan
    have hsscanf := (sscanf_keyValue (cstr l) key _).mpr
      ⟨rest, hl, hkey, hne, hlen, rfl, hvalue⟩
    -- a scanned line is no comment, is not malformed, and its key is known or not
    cases h with
    | comment hcomment => exact absurd hcomment hhash
    | malformed hmalformed => exact absurd ⟨_, _, hsscanf⟩ hmalformed
    | @unknown k v hscanned hunknown =>
      obtain rfl : k = key := by
        have heq := hscanned.symm.trans hsscanf
        simpa using (List.cons.inj heq).1
      have hfind : findKey managedKeys kv.1 = none := by
        rw [findKey_eq_none, hk]
        exact fun key _ => hunknown key
      show (findKey managedKeys kv.1).map _ = none
      rw [hfind]
      rfl

/-- A value ends before the newline. -/
theorem spanNoneOf_append_lf (width : Nat) (s : List UInt8) :
    spanNoneOf width [lf, cr] (s ++ [lf]) = spanNoneOf width [lf, cr] s := by
  unfold spanNoneOf
  rw [List.takeWhile_append]
  split_ifs with hall
  · have hself : s.takeWhile (fun c => !List.contains [lf, cr] c) = s :=
      (List.takeWhile_prefix _).eq_of_length hall
    have hend : [lf].takeWhile (fun c => !List.contains [lf, cr] c) = [] := by decide
    rw [hself, hend, List.append_nil]
  · rfl

/-- The newline at its end makes no difference to a line. -/
theorem scanLine_append_lf (l : List UInt8) : scanLine (l ++ [lf]) = scanLine l := by
  cases l with
  | nil => rfl
  | cons c l =>
    refine Option.ext fun kv => ?_
    obtain ⟨k, v⟩ := kv
    rw [scanLine_eq_some, scanLine_eq_some]
    refine and_congr Iff.rfl ?_
    by_cases hnul : 0 ∈ c :: l
    · rw [cstr_append_of_mem hnul]
    · have hnul' : 0 ∉ c :: l ++ [lf] := by
        rw [List.mem_append, not_or]
        exact ⟨hnul, by decide⟩
      rw [cstr_of_no_nul hnul, cstr_of_no_nul hnul']
      constructor
      · rintro ⟨key, rest, hl, hkey, hne, hlen, hvalue, hk, hv⟩
        -- the newline is in the part behind the `=`
        cases List.eq_nil_or_concat' rest with
        | inl hnil =>
          rw [hnil] at hvalue
          exact absurd rfl hvalue
        | inr hconcat =>
          obtain ⟨rest', x, rfl⟩ := hconcat
          rw [← List.cons_append, ← List.append_assoc] at hl
          obtain ⟨hline, hx⟩ := List.append_inj' hl rfl
          obtain rfl : lf = x := by simpa using hx
          rw [spanNoneOf_append_lf] at hvalue hv
          exact ⟨key, rest', hline, hkey, hne, hlen, hvalue, hk, hv⟩
      · rintro ⟨key, rest, hl, hkey, hne, hlen, hvalue, hk, hv⟩
        refine ⟨key, rest ++ [lf], ?_, hkey, hne, hlen, ?_, hk, ?_⟩
        · rw [hl, List.append_assoc, List.cons_append]
        · rwa [spanNoneOf_append_lf]
        · rwa [spanNoneOf_append_lf]

/-- The line end is no part of what a line sets. -/
theorem lineSets_append_lf (l : List UInt8) : lineSets (l ++ [lf]) = lineSets l := by
  unfold lineSets
  rw [scanLine_append_lf]

/-! ## What the file sets -/

/-- A line shorter than 256 bytes comes in one piece, or its newline comes by itself. -/
theorem settings_line {l : List UInt8} (hlf : lf ∉ l) (hlen : l.length < 256) :
    settings (l ++ [lf]) = (lineSets l).toList := by
  by_cases hfits : l.length < maxPiece
  · have hpiece : IsPiece lf maxPiece (l ++ [lf]) := by
      refine ⟨by simp, ?_, ?_⟩
      · rw [List.length_append, List.length_singleton]
        exact hfits
      · rwa [List.dropLast_concat]
    unfold settings linePieces
    rw [pieces_of_isPiece (by decide) hpiece, List.filterMap_cons, lineSets_append_lf]
    cases lineSets l <;> rfl
  -- a line of exactly 255 bytes fills the buffer, and its line end is a piece of its own
  · have hfull : l.length = maxPiece := by
      simp only [maxPiece] at hfits ⊢
      omega
    have hpiece : IsPiece lf maxPiece l := by
      refine ⟨?_, hfull.le, fun hmem => hlf (List.mem_of_mem_dropLast hmem)⟩
      rintro rfl
      cases hfull
    have hnewline : linePieces [lf] = [[lf]] := rfl
    unfold settings linePieces at *
    rw [pieces_closed_append (by decide) hpiece (Or.inr hfull), hnewline, List.filterMap_cons]
    cases lineSets l <;> rfl

/-- A file of short lines makes the settings of its lines. -/
theorem settings_fileOf {ls : List (List UInt8)} (h : ∀ l ∈ ls, lf ∉ l ∧ l.length < 256) :
    settings (fileOf ls) = ls.filterMap lineSets := by
  induction ls with
  | nil => rfl
  | cons l ls ih =>
    obtain ⟨⟨hlf, hlen⟩, hls⟩ := List.forall_mem_cons.mp h
    have hline := settings_line hlf hlen
    have hapart : Apart lf maxPiece (l ++ [lf]) :=
      apart_of_getLast (by decide) (by rw [List.getLast?_concat])
    unfold settings linePieces fileOf at *
    rw [List.flatMap_cons, hapart, List.filterMap_append, hline, ih hls, List.filterMap_cons]
    cases lineSets l <;> rfl

/-! ## Exchanging settings -/

/-- No key of the file sets a port's protocol. -/
theorem protocol_applyKey (config : NodeConfig) (v : List UInt8) (key : Key) (i : Port) :
    ((applyKey config v key).ports i).protocol = (config.ports i).protocol := by
  cases key with
  | sacnUniverse j =>
    simp only [applyKey, Function.update_apply]
    split_ifs with h
    · rw [h]
    · rfl
  | dmxLabel j =>
    simp only [applyKey, Function.update_apply]
    split_ifs with h
    · rw [h]
    · rfl
  | dmxPortMode j =>
    simp only [applyKey, Function.update_apply]
    split_ifs with h
    · rw [h]
    · rfl
  | _ => rfl

/-- What a value sets a field to depends on that field at most. -/
theorem agrees_applyKey_congr {a b : NodeConfig} {key : Key} (h : Agrees a b key)
    (v : List UInt8) : Agrees (applyKey a v key) (applyKey b v key) key := by
  by_cases hmac : key = .macaddr
  · subst hmac
    have hmac : a.mac = b.mac := h
    show (parseMac v a.mac).2 = (parseMac v b.mac).2
    rw [hmac]
  · exact agrees_applyKey_applyKey hmac a b v

/-- **Two settings of different keys** may be exchanged. -/
theorem applySetting_comm {kv kv' : Key × List UInt8} (h : kv.1 ≠ kv'.1) (config : NodeConfig) :
    applySetting (applySetting config kv) kv' = applySetting (applySetting config kv') kv := by
  obtain ⟨k, v⟩ := kv
  obtain ⟨k', v'⟩ := kv'
  show applyKey (applyKey config v k) v' k' = applyKey (applyKey config v' k') v k
  refine eq_of_agrees (fun key => ?_) fun i => ?_
  · by_cases hk : key = k
    · -- the other setting leaves the key alone, before it and after it
      subst hk
      exact (agrees_applyKey_of_ne h _ v').trans
        (agrees_applyKey_congr (agrees_applyKey_of_ne h config v').symm v)
    · by_cases hk' : key = k'
      · subst hk'
        exact (agrees_applyKey_congr (agrees_applyKey_of_ne hk config v) v').trans
          (agrees_applyKey_of_ne hk _ v).symm
      · exact ((agrees_applyKey_of_ne hk' _ v').trans (agrees_applyKey_of_ne hk config v)).trans
          ((agrees_applyKey_of_ne hk _ v).trans (agrees_applyKey_of_ne hk' config v')).symm
  · simp only [protocol_applyKey]

/-- Settings of different keys may be put in any order. -/
theorem foldl_applySetting_perm {kvs kvs' : List (Key × List UInt8)}
    (honce : (kvs.map Prod.fst).Nodup) (hperm : kvs.Perm kvs') (config : NodeConfig) :
    kvs.foldl applySetting config = kvs'.foldl applySetting config := by
  refine hperm.foldl_eq' (fun kv hkv kv' hkv' c => ?_) config
  by_cases heq : kv = kv'
  · rw [heq]
  · exact applySetting_comm (fun hkey => heq (List.inj_on_of_nodup_map honce hkv hkv' hkey)) c

/-! ## The lines of a file -/

/-- Taking out lines that set nothing leaves the settings. -/
theorem filterMap_of_takesOut {ls kept : List (List UInt8)} (h : TakesOut ls kept) :
    kept.filterMap lineSets = ls.filterMap lineSets := by
  induction h with
  | nil => rfl
  | keep l _ ih => rw [List.filterMap_cons, List.filterMap_cons, ih]
  | drop hidle _ ih => rw [List.filterMap_cons, lineSets_of_idleLine hidle, ih]

/-- What is left was there. -/
theorem subset_of_takesOut {ls kept : List (List UInt8)} (h : TakesOut ls kept) : kept ⊆ ls := by
  induction h with
  | nil => exact List.Subset.refl []
  | keep l _ ih => exact List.cons_subset_cons l ih
  | drop _ _ ih => exact List.subset_cons_of_subset _ ih

/-- **The order of the lines does not matter**, and neither do the lines that set nothing. -/
theorem configLoad_lineOrder {ls : List (List UInt8)} (h : PlainLines ls) :
    (∀ ls', ls.Perm ls' → configLoad (some (fileOf ls')) = configLoad (some (fileOf ls))) ∧
      ∀ kept, TakesOut ls kept →
        configLoad (some (fileOf kept)) = configLoad (some (fileOf ls)) := by
  constructor
  · intro ls' hperm
    have hshort : ∀ l ∈ ls', lf ∉ l ∧ l.length < 256 :=
      fun l hl => h.short l (hperm.mem_iff.mpr hl)
    rw [configLoad_some, configLoad_some, settings_fileOf hshort, settings_fileOf h.short,
      foldl_applySetting_perm h.once (hperm.filterMap lineSets)]
  · intro kept htakes
    have hshort : ∀ l ∈ kept, lf ∉ l ∧ l.length < 256 :=
      fun l hl => h.short l (subset_of_takesOut htakes hl)
    rw [configLoad_some, configLoad_some, settings_fileOf hshort, settings_fileOf h.short,
      filterMap_of_takesOut htakes]

/-- Two settings, a comment, and a line without a value. -/
def plainLines : List (List UInt8) :=
  [ascii "# node", ascii "nodeaddr = 10.0.0.7", ascii "colour", ascii "hostname = stage"]

/-- `configLoad_lineOrder` on a file with a comment and a blank line. -/
theorem configLoad_lineOrder_plainLines :
    (∀ ls', plainLines.Perm ls' →
        configLoad (some (fileOf ls')) = configLoad (some (fileOf plainLines))) ∧
      ∀ kept, TakesOut plainLines kept →
        configLoad (some (fileOf kept)) = configLoad (some (fileOf plainLines)) :=
  configLoad_lineOrder ⟨by decide, by decide⟩

end SN110
