import SN110.Config.Load
import SN110.Minilib.Scan
import SN110.Minilib.Strings

/-!
# The arrays of the configuration code (`trim`, the scan of a line)

The configuration code works in arrays on its stack: `fgets` and `memcpy` fill a line, `sscanf`
takes it apart into a key and a value, and `trim` cuts these where they stand. Every load and every
store is checked.

* `HoldsText`: where an array holds a C string.
* `trimInto_eq`: what `trim` returns holds the trimmed text.
* `scanInto_eq`: one line taken apart in its arrays is `scanLine`, whatever the arrays held before.
-/

namespace SN110

open Checked Memory

section Array

variable {cap : Nat}

/-! ## The code -/

/-- The C string at an index; a function that looks for its NUL runs past the end if there is
none. -/
def textAt (buf : Vector UInt8 cap) (off : Nat) : Except Fault (List UInt8) :=
  if 0 ∈ buf.toList.drop off then .ok (cstr (buf.toList.drop off)) else .error (.load cap)

/-- `while (*str == ' ' || *str == '\t') str++;`. -/
def skipBlanks (buf : Vector UInt8 cap) (str : Nat) : Except Fault Nat :=
  if h : str < cap then
    if isBlank buf[str] then skipBlanks buf (str + 1) else .ok str
  else .error (.load str)
termination_by cap - str

/-- `while (end > str && (*end == ' ' || *end == '\t')) end--;`. -/
def backBlanks (buf : Vector UInt8 cap) (str : Nat) : Nat → Except Fault Nat
  | 0 => .ok 0
  | last + 1 =>
    if last + 1 > str then do
      let c ← fetch buf.toList (last + 1)
      if isBlank c then backBlanks buf str last else .ok (last + 1)
    else .ok (last + 1)

/-- `trim`: the array afterwards, and the index it returns. -/
def trimInto (buf : Vector UInt8 cap) (str : Nat) : Except Fault (Vector UInt8 cap × Nat) := do
  let str ← skipBlanks buf str
  let c ← fetch buf.toList str
  if c = 0 then .ok (buf, str)
  else do
    let text ← textAt buf str
    let last ← backBlanks buf str (str + text.length - 1)
    let buf ← put buf (last + 1) 0
    .ok (buf, str)

end Array

/-- The characters that an argument of `sscanf` points to. -/
def Dest.array (cap : Nat) : Dest → Except Fault (Vector UInt8 cap)
  | @Dest.chars n buf => if h : n = cap then .ok (buf.cast h) else .error (.store n)
  | _ => .error (.store 0)

/-- `key` and `value`. -/
structure ScanArrays where
  key : Vector UInt8 64
  value : Vector UInt8 192

/-- The test of the first character and the scan of a line into its arrays: the two arrays, and
whether the scan returns 2. -/
def scanInto (line : Vector UInt8 256) (a : ScanArrays) : Except Fault (ScanArrays × Bool) := do
  let first ← fetch line.toList 0
  if first = hash ∨ first = lf ∨ first = cr then .ok (a, false)
  else do
    let text ← textAt line 0
    let (matched, args) ←
      sscanfInto (ascii "%63[^=]=%191[^\n\r]") text [.chars a.key, .chars a.value]
    match args with
    | [key, value] => do
      let key ← key.array 64
      let value ← value.array 192
      .ok (⟨key, value⟩, matched = 2)
    | _ => .error (.load 0)

/-- `trim` of an array, and the text at the index that it returns. -/
def trimText {cap : Nat} (buf : Vector UInt8 cap) :
    Except Fault (Vector UInt8 cap × List UInt8) := do
  let (buf, str) ← trimInto buf 0
  let text ← textAt buf str
  .ok (buf, text)

/-! ## C strings in arrays -/

section Array

variable {cap : Nat} {buf : Vector UInt8 cap} {off : Nat} {t : List UInt8}

/-- From index `off` on the array holds the text and a NUL. -/
def HoldsText (buf : Vector UInt8 cap) (off : Nat) (t : List UInt8) : Prop :=
  PointsTo (buf.toList.drop off) t

/-- A text held in a buffer is read from it. -/
theorem HoldsText.textAt (h : HoldsText buf off t) : textAt buf off = .ok t := by
  obtain ⟨hno, rest, hdrop⟩ := h
  unfold SN110.textAt
  rw [hdrop, if_pos (by simp), cstr_append hno]
  simp [cstr]

/-- The NUL lies in the array. -/
theorem HoldsText.lt (h : HoldsText buf off t) : off + t.length < cap := by
  obtain ⟨-, rest, hdrop⟩ := h
  have hlen := congrArg List.length hdrop
  rw [List.length_drop, Vector.length_toList, List.length_append, List.length_cons] at hlen
  omega

/-- The character at an index, or the NUL behind the text. -/
theorem HoldsText.fetch (h : HoldsText buf off t) {i : Nat} (hi : i ≤ t.length) :
    fetch buf.toList (off + i) = .ok (load t i) := by
  have hlt := h.lt
  obtain ⟨-, rest, hdrop⟩ := h
  have hin : off + i < buf.toList.length := by
    rw [Vector.length_toList]
    omega
  have hget : load buf.toList (off + i) = load (t ++ 0 :: rest) i := by
    rw [← hdrop, load, load, List.getD_eq_getElem?_getD, List.getD_eq_getElem?_getD,
      List.getElem?_drop]
  rw [fetch_eq_ok hin, hget, load_append]
  split_ifs with hlast
  · rfl
  · rw [load_of_length_le (Nat.le_of_not_lt hlast), show i - t.length = 0 by omega]
    rfl

/-- Further on in the buffer the rest of the text is held. -/
theorem HoldsText.drop (h : HoldsText buf off t) {n : Nat} (hn : n ≤ t.length) :
    HoldsText buf (off + n) (t.drop n) := by
  obtain ⟨hno, rest, hdrop⟩ := h
  refine ⟨fun hmem => hno (List.mem_of_mem_drop hmem), rest, ?_⟩
  rw [← List.drop_drop, hdrop, List.drop_append_of_le_length hn]

/-- A NUL stored in the text ends it there. -/
theorem HoldsText.put {rest : List UInt8} (h : HoldsText buf off (t ++ rest)) :
    ∃ buf', put buf (off + t.length) 0 = .ok buf' ∧ HoldsText buf' off t := by
  have hlt := h.lt
  obtain ⟨hno, behind, hdrop⟩ := h
  rw [List.length_append] at hlt
  refine ⟨_, dif_pos (by omega), fun hmem => hno (List.mem_append_left rest hmem), ?_⟩
  obtain ⟨c, last, hlast⟩ : ∃ c last, rest ++ 0 :: behind = c :: last :=
    List.exists_cons_of_ne_nil (by simp)
  refine ⟨last, ?_⟩
  rw [Vector.toList_set, List.drop_set, if_neg (by omega), hdrop, Nat.add_sub_cancel_left,
    List.append_assoc, hlast, List.set_append_right _ _ (Nat.le_refl _), Nat.sub_self]
  rfl

/-- An array that begins with some bytes and a NUL holds the text in front of the first NUL. -/
theorem holdsText_overlay (dst : Vector UInt8 cap) {s : List UInt8} (h : s.length < cap) :
    HoldsText (overlay dst (s ++ [0])) 0 (cstr s) := by
  have hlen : (s ++ [0]).length ≤ cap := by
    rw [List.length_append, List.length_singleton]
    exact h
  have htake := take_toList_overlay dst hlen
  obtain ⟨behind, hbehind⟩ : ∃ behind, (overlay dst (s ++ [0])).toList = s ++ 0 :: behind := by
    refine ⟨(overlay dst (s ++ [0])).toList.drop (s ++ [0]).length, ?_⟩
    rw [← List.take_append_drop (s ++ [0]).length (overlay dst (s ++ [0])).toList, htake]
    simp
  refine ⟨no_nul_cstr s, ?_⟩
  rw [hbehind, List.drop_zero, cstr]
  -- the first NUL is in the bytes or behind them
  cases hrest : s.dropWhile (· ≠ 0) with
  | nil =>
    refine ⟨behind, ?_⟩
    conv_lhs => rw [← List.takeWhile_append_dropWhile (p := (· ≠ 0)) (l := s), hrest,
      List.append_nil]
  | cons c rest =>
    have hc : c = 0 := by
      have hhead := List.head?_dropWhile_not (· ≠ 0) s
      rw [hrest] at hhead
      simpa using hhead
    refine ⟨rest ++ 0 :: behind, ?_⟩
    conv_lhs => rw [← List.takeWhile_append_dropWhile (p := (· ≠ 0)) (l := s), hrest, hc]
    simp

/-! ## `trim` -/

/-- The byte at the text's start is its first, or its NUL. -/
theorem HoldsText.getElem (h : HoldsText buf off t) (hlt : off < cap) : buf[off] = load t 0 := by
  have hfetch := h.fetch (Nat.zero_le _)
  have hin : off + 0 < buf.toList.length := by
    rw [Vector.length_toList]
    exact hlt
  rw [fetch_eq_ok hin, load_eq_getElem hin] at hfetch
  exact Except.ok.inj hfetch

/-- Skipping blanks stops at the text without its leading ones, inside the buffer. -/
theorem skipBlanks_eq (h : HoldsText buf off t) :
    ∃ str, skipBlanks buf off = .ok str ∧ HoldsText buf str (t.dropWhile isBlank) := by
  induction t generalizing off with
  | nil =>
    have hlt : off < cap := h.lt
    have hnul : buf[off] = 0 := h.getElem hlt
    refine ⟨off, ?_, h⟩
    rw [skipBlanks, dif_pos hlt, hnul, if_neg (by decide)]
  | cons c t ih =>
    have hlt : off < cap := Nat.lt_of_le_of_lt (Nat.le_add_right _ _) h.lt
    have hc : buf[off] = c := h.getElem hlt
    rw [skipBlanks, dif_pos hlt, hc]
    cases hblank : isBlank c with
    | true =>
      rw [if_pos rfl, List.dropWhile_cons_of_pos hblank]
      exact ih (h.drop (show 1 ≤ (c :: t).length by simp))
    | false =>
      rw [if_neg (by decide), List.dropWhile_cons_of_neg (by rw [hblank]; decide)]
      exact ⟨off, rfl, h⟩

/-- From the last character of a front part that does not begin with a blank, the loop goes back to
the last one that is no blank. -/
theorem backBlanks_eq (h : HoldsText buf off t) {c : UInt8} (hc : isBlank c = false)
    {u : List UInt8} (hpre : c :: u <+: t) :
    backBlanks buf off (off + u.length)
      = .ok (off + ((c :: u).rdropWhile isBlank).length - 1) := by
  -- from the back, since this is where the loop starts
  induction u using List.reverseRecOn with
  | nil =>
    rw [List.rdropWhile_singleton, hc, List.length_nil, Nat.add_zero]
    show _ = Except.ok (off + 1 - 1)
    cases off with
    | zero => rfl
    | succ off => rw [backBlanks, if_neg (Nat.lt_irrefl _)]; rfl
  | append_singleton u x ih =>
    obtain ⟨rest, rfl⟩ := hpre
    have hlast : load (c :: (u ++ [x]) ++ rest) (u.length + 1) = x := by
      rw [load_eq_getElem (by simp)]
      simp
    have hfetch := @HoldsText.fetch cap buf off _ h (u.length + 1) (by simp)
    rw [hlast] at hfetch
    rw [List.length_append, List.length_singleton, ← Nat.add_assoc, backBlanks,
      if_pos (by omega), Nat.add_assoc, hfetch, ok_bind, ← List.cons_append]
    cases hblank : isBlank x with
    | true =>
      rw [if_pos rfl, List.rdropWhile_concat_pos _ _ _ hblank]
      exact ih ⟨x :: rest, by simp⟩
    | false =>
      rw [if_neg (by decide), List.rdropWhile_concat_neg _ _ _ (by rw [hblank]; decide)]
      simp

/-- **`trim`** returns where the trimmed text stands. -/
theorem trimInto_eq (h : HoldsText buf off t) :
    ∃ buf' str, trimInto buf off = .ok (buf', str) ∧ HoldsText buf' str (trim t) := by
  obtain ⟨str, hskip, hstr⟩ := skipBlanks_eq h
  unfold trimInto trim
  rw [hskip, ok_bind]
  have hfirst := hstr.fetch (Nat.zero_le _)
  rw [Nat.add_zero] at hfirst
  rw [hfirst, ok_bind]
  cases hdrop : t.dropWhile isBlank with
  | nil =>
    rw [hdrop] at hstr
    rw [if_pos (show load [] 0 = 0 from rfl), List.rdropWhile_nil]
    exact ⟨buf, str, rfl, hstr⟩
  | cons c u =>
    have hc : isBlank c = false := by
      have hhead := List.head?_dropWhile_not isBlank t
      rw [hdrop] at hhead
      simpa using hhead
    rw [hdrop] at hstr
    have hne : c ≠ 0 := fun hzero => hstr.1 (hzero ▸ List.mem_cons_self)
    obtain ⟨rest, hrest⟩ := List.rdropWhile_prefix isBlank (c :: u)
    -- what is left holds the first character at least
    have hkept : (c :: u).rdropWhile isBlank ≠ [] := by
      rw [Ne, List.rdropWhile_eq_nil_iff]
      intro hall
      rw [hall c List.mem_cons_self] at hc
      cases hc
    have hpos := List.length_pos_of_ne_nil hkept
    have hback := backBlanks_eq hstr hc (List.prefix_rfl)
    rw [← hrest] at hstr
    obtain ⟨buf', hput, hbuf'⟩ := hstr.put
    rw [if_neg (show ¬ load (c :: u) 0 = 0 from hne)]
    rw [hrest] at hstr
    rw [hstr.textAt, ok_bind, List.length_cons, Nat.add_succ_sub_one, hback, ok_bind,
      Nat.sub_add_cancel (by omega), hput, ok_bind]
    exact ⟨buf', str, rfl, hbuf'⟩

/-- Trimming in place leaves the trimmed text, and stores inside the buffer. -/
theorem trimText_eq (h : HoldsText buf 0 t) : ∃ buf', trimText buf = .ok (buf', trim t) := by
  obtain ⟨buf', str, htrim, htext⟩ := trimInto_eq h
  refine ⟨buf', ?_⟩
  rw [trimText, htrim, ok_bind]
  dsimp only
  rw [htext.textAt]
  rfl

end Array

/-! ## The scan of a line -/

/-- The two arguments are of one type, and arrays of one length. -/
def Dest.SameType : Dest → Dest → Prop
  | .uint _, .uint _ => True
  | .int _, .int _ => True
  | @Dest.chars n _, @Dest.chars m _ => n = m
  | _, _ => False

theorem Dest.SameType.refl (dest : Dest) : dest.SameType dest := by
  cases dest <;> trivial

/-- A conversion keeps the type of its destination. -/
theorem run_sameType {conv : Conversion} {str : List UInt8} {dest dest' : Dest}
    {next : Option (Nat × List UInt8)} (h : conv.run str dest = .ok (dest', next)) :
    dest.SameType dest' := by
  cases conv with
  -- a conversion into another type of destination is a fault
  | unsigned =>
    cases dest with
    | uint old =>
      rw [Conversion.run] at h
      split_ifs at h <;> cases h <;> trivial
    | _ => cases h
  | signed =>
    cases dest with
    | int old =>
      rw [Conversion.run] at h
      split_ifs at h <;> cases h <;> trivial
    | _ => cases h
  | set width negate chars =>
    cases dest with
    | chars buf =>
      rw [Conversion.run] at h
      obtain ⟨scanned, -, h⟩ := exists_of_bind_eq_ok h
      obtain ⟨buf', -, h⟩ := exists_of_bind_eq_ok h
      cases h
      rfl
    | _ => cases h

/-- `sscanf` leaves its arguments what they are. -/
theorem sscanfInto_sameType {fmt str : List UInt8} {args after : List Dest} {matched : Nat}
    (h : sscanfInto fmt str args = .ok (matched, after)) :
    List.Forall₂ Dest.SameType args after := by
  have hsame : ∀ args, List.Forall₂ Dest.SameType args args := fun args =>
    List.forall₂_same.mpr fun dest _ => Dest.SameType.refl dest
  fun_induction sscanfInto fmt str args generalizing matched after with
  -- the scan ends without a store: the text or the format is over, or a literal differs
  | case1 | case5 | case6 =>
    cases h
    exact hsame _
  | case2 => cases h
  | case3 fmt c str conv rest hread dest args ih =>
    obtain ⟨⟨dest', next⟩, hrun, h⟩ := exists_of_bind_eq_ok h
    cases next with
    | none =>
      cases h
      exact .cons (run_sameType hrun) (hsame args)
    | some next =>
      obtain ⟨⟨matched', args'⟩, hrest, h⟩ := exists_of_bind_eq_ok h
      cases h
      exact .cons (run_sameType hrun) (ih _ hrest)
  | case4 args fmt c str hliteral ih => exact ih h

theorem array_chars {cap : Nat} (buf : Vector UInt8 cap) :
    (Dest.chars buf).array cap = .ok buf := dif_pos rfl

/-- What has the type of a buffer is a buffer of that size. -/
theorem exists_of_sameType {cap : Nat} {buf : Vector UInt8 cap} {dest : Dest}
    (h : (Dest.chars buf).SameType dest) : ∃ buf' : Vector UInt8 cap, dest = .chars buf' := by
  cases dest with
  | chars buf' =>
    cases (show cap = _ from h)
    exact ⟨buf', rfl⟩
  | _ => cases h

/-- The first byte of a line decides whether it is skipped; the NUL of an empty one does not. -/
theorem skipped_load (t : List UInt8) :
    (load t 0 = hash ∨ load t 0 = lf ∨ load t 0 = cr) ↔
      (t.head? = some hash ∨ t.head? = some lf ∨ t.head? = some cr) := by
  cases t with
  | nil => decide
  | cons c t => simp [load]

/-- The arrays hold a key and a value that `scanLine` finds. -/
def ScanArrays.Hold (a : ScanArrays) (found : Option (List UInt8 × List UInt8)) : Prop :=
  ∃ key value, HoldsText a.key 0 key ∧ HoldsText a.value 0 value ∧
    found = some (trim key, trim value)

/-- **A line taken apart in its arrays**: the scan returns 2 when `scanLine` finds a key and a
value, and the arrays hold them then, whatever they held before. -/
theorem scanInto_eq {line : Vector UInt8 256} {t : List UInt8} (h : HoldsText line 0 t)
    (a : ScanArrays) :
    ∃ a', scanInto line a = .ok (a', (scanLine t).isSome) ∧
      ((scanLine t).isSome = true → a'.Hold (scanLine t)) := by
  have hfetch := h.fetch (Nat.zero_le _)
  obtain ⟨matched, after, hscan, hmatched, hstored⟩ := sscanfInto_keyValue t a.key a.value
  unfold scanInto scanLine
  rw [hfetch, ok_bind]
  -- comments and empty lines are not scanned
  by_cases hskip : t.head? = some hash ∨ t.head? = some lf ∨ t.head? = some cr
  · rw [if_pos ((skipped_load t).mpr hskip), if_pos hskip]
    exact ⟨a, rfl, fun hsome => by cases hsome⟩
  rw [if_neg (fun hfirst => hskip ((skipped_load t).mp hfirst)), if_neg hskip, h.textAt, ok_bind,
    hscan, ok_bind, cstr_of_no_nul h.1]
  dsimp only
  by_cases hboth : matched = 2
  · obtain ⟨k, hk⟩ := hmatched.mp hboth
    have hkeyNul : 0 ∉ t.take k := fun hmem => h.1 (List.mem_of_mem_take hmem)
    have hvalueNul : 0 ∉ lineValue 191 (t.drop (k + 1)) := fun hmem =>
      h.1 (List.mem_of_mem_drop ((List.takeWhile_prefix _).subset (List.mem_of_mem_take hmem)))
    -- the widths of the two sets keep the texts within their arrays
    have hkeyLength : (t.take k).length < 64 := by
      have hle := hk.le
      rw [List.length_take]
      omega
    have hvalueLength : (lineValue 191 (t.drop (k + 1))).length < 192 := by
      rw [lineValue, List.length_take]
      omega
    have hkey := holdsText_overlay a.key hkeyLength
    have hvalue := holdsText_overlay a.value hvalueLength
    rw [cstr_of_no_nul hkeyNul] at hkey
    rw [cstr_of_no_nul hvalueNul] at hvalue
    rw [hstored k hk, sscanf_of_hasKeyValue hk]
    dsimp only
    rw [array_chars, ok_bind, array_chars, ok_bind, hboth]
    exact ⟨_, rfl, fun _ => ⟨_, _, hkey, hvalue, rfl⟩⟩
  · -- the arrays may have been written, but nothing looks at them
    obtain ⟨key, value, rfl⟩ : ∃ key value, after = [.chars key, .chars value] := by
      obtain ⟨dest, dest', hkey, hvalue, rfl⟩ :
          ∃ dest dest', (Dest.chars a.key).SameType dest ∧ (Dest.chars a.value).SameType dest' ∧
            after = [dest, dest'] := by
        cases sscanfInto_sameType hscan with
        | cons hkey hrest =>
          cases hrest with
          | cons hvalue hnil =>
            cases hnil
            exact ⟨_, _, hkey, hvalue, rfl⟩
      obtain ⟨key, rfl⟩ := exists_of_sameType hkey
      obtain ⟨value, rfl⟩ := exists_of_sameType hvalue
      exact ⟨key, value, rfl⟩
    dsimp only
    rw [array_chars, ok_bind, array_chars, ok_bind, decide_eq_false hboth]
    split
    · rename_i k v htexts
      exact absurd (hmatched.mpr ⟨_, hasKeyValue_of_sscanf htexts⟩) hboth
    · exact ⟨⟨key, value⟩, rfl, fun hsome => by cases hsome⟩

end SN110
