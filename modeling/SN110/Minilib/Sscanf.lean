import SN110.Minilib.Text

/-!
# `sscanf` (`minilib.c`)

A format is the list of its directives. `sscanf` works through the text and the directives until
either runs out or a directive fails, and gives the values it converted; the length of that list
is its return value. A `%[` conversion that takes nothing does not count, but does not fail
either: the loop goes on with the next directive.
-/

namespace SN110

/-- A directive of a format: `%u`, `%N[^…]`, or a character that must match. -/
inductive Directive where
  | unsigned
  | noneOf (width : Nat) (set : List UInt8)
  | literal (c : UInt8)

/-- A value a directive has converted. -/
inductive Scanned where
  | number (val : UInt32)
  | text (s : List UInt8)
deriving DecidableEq

/-- What `%N[^…]` takes from the text. -/
def spanNoneOf (width : Nat) (set s : List UInt8) : List UInt8 :=
  (s.takeWhile fun c => !set.contains c).take width

/-- `sscanf` on a C string. -/
def sscanf : List Directive → List UInt8 → List Scanned
  | [], _ => []
  | _ :: _, [] => []
  | .unsigned :: fmt, c :: s =>
    if isDigit c = true then
      .number (decimalValue (c :: s)) :: sscanf fmt ((c :: s).dropWhile isDigit)
    else []
  | .noneOf width set :: fmt, c :: s =>
    -- an empty `%[` neither counts nor fails
    let taken := spanNoneOf width set (c :: s)
    if taken = [] then sscanf fmt (c :: s)
    else .text taken :: sscanf fmt ((c :: s).drop taken.length)
  | .literal x :: fmt, c :: s => if x = c then sscanf fmt s else []

/-- `"%63[^=]=%191[^\n\r]"`. -/
def keyValueFormat : List Directive :=
  [.noneOf 63 [equals], .literal equals, .noneOf 191 [lf, cr]]

/-- `"%u.%u.%u.%u"`. -/
def dottedFormat : List Directive :=
  [.unsigned, .literal 46, .unsigned, .literal 46, .unsigned, .literal 46, .unsigned]

/-! ## What `%N[^…]` takes -/

section Span

variable {width : Nat} {set : List UInt8}

/-- What a set spans is the beginning of the text. -/
theorem spanNoneOf_isPrefix (width : Nat) (set s : List UInt8) : spanNoneOf width set s <+: s :=
  (List.take_prefix _ _).trans (List.takeWhile_prefix _)

/-- With what is behind it, it is the text. -/
theorem append_drop_spanNoneOf (width : Nat) (set s : List UInt8) :
    spanNoneOf width set s ++ s.drop (spanNoneOf width set s).length = s :=
  (List.prefix_append_drop (spanNoneOf_isPrefix width set s)).symm

/-- It has no character of the set. -/
theorem notMem_spanNoneOf {x : UInt8} (hx : x ∈ set) (s : List UInt8) :
    x ∉ spanNoneOf width set s := by
  intro hmem
  have h := List.mem_takeWhile_imp (List.mem_of_mem_take hmem)
  simp [hx] at h

/-- It is no longer than the width. -/
theorem length_spanNoneOf_le (s : List UInt8) : (spanNoneOf width set s).length ≤ width := by
  unfold spanNoneOf
  rw [List.length_take]
  exact Nat.min_le_left _ _

/-- It stops at the first byte of the set. -/
theorem spanNoneOf_append {p rest : List UInt8} (hp : ∀ c ∈ p, c ∉ set) (hlen : p.length ≤ width)
    (hrest : ∀ c ∈ rest.head?, c ∈ set) : spanNoneOf width set (p ++ rest) = p := by
  unfold spanNoneOf
  rw [List.takeWhile_append_of_pos (by simpa using hp)]
  -- what follows is empty, or starts with a byte of the set
  cases rest with
  | nil => simpa using hlen
  | cons c t => simpa [hrest c rfl] using hlen

end Span

/-! ## The key-value format -/

theorem sscanf_nil (fmt : List Directive) : sscanf fmt [] = [] := by
  cases fmt <;> rfl

/-- A `%[` conversion that takes something. -/
theorem sscanf_noneOf {width : Nat} {set s : List UInt8} (h : spanNoneOf width set s ≠ [])
    (fmt : List Directive) :
    sscanf (.noneOf width set :: fmt) s
      = .text (spanNoneOf width set s)
        :: sscanf fmt (s.drop (spanNoneOf width set s).length) := by
  cases s with
  | nil => exact absurd (List.prefix_nil.mp (spanNoneOf_isPrefix width set [])) h
  | cons c t =>
    rw [sscanf]
    exact if_neg h

/-- A `%[` conversion that takes nothing. -/
theorem sscanf_noneOf_nil {width : Nat} {set s : List UInt8} (h : spanNoneOf width set s = [])
    (fmt : List Directive) : sscanf (.noneOf width set :: fmt) s = sscanf fmt s := by
  cases s with
  | nil => rw [sscanf_nil, sscanf_nil]
  | cons c t =>
    rw [sscanf]
    exact if_pos h

/-- Behind the name, the `=` is matched and the rest of the line taken. -/
theorem sscanf_valuePart (s : List UInt8) :
    sscanf [.literal equals, .noneOf 191 [lf, cr]] s
      = match s with
        | [] => []
        | c :: rest =>
          if c = equals ∧ spanNoneOf 191 [lf, cr] rest ≠ [] then
            [.text (spanNoneOf 191 [lf, cr] rest)]
          else [] := by
  cases s with
  | nil => rfl
  | cons c rest =>
    show (if equals = c then sscanf [.noneOf 191 [lf, cr]] rest else []) = _
    -- the `=` must match, and then the value must take something to count
    by_cases hc : c = equals
    · rw [if_pos hc.symm]
      by_cases hvalue : spanNoneOf 191 [lf, cr] rest = []
      · rw [sscanf_noneOf_nil hvalue]
        simp [sscanf, hvalue]
      · rw [sscanf_noneOf hvalue]
        simp [sscanf, hc, hvalue]
    · rw [if_neg (fun h => hc h.symm)]
      simp [hc]

/-- **What the two conversions of a line give.** Both take something exactly when the line has a
key of 1 to 63 bytes before its first `=` and something other than a line end right after it. -/
theorem sscanf_keyValue (s key value : List UInt8) :
    sscanf keyValueFormat s = [.text key, .text value] ↔
      ∃ rest, s = key ++ equals :: rest ∧ equals ∉ key ∧ key ≠ [] ∧ key.length ≤ 63 ∧
        value = spanNoneOf 191 [lf, cr] rest ∧ value ≠ [] := by
  unfold keyValueFormat
  constructor
  · intro h
    by_cases hkey : spanNoneOf 63 [equals] s = []
    · -- an empty key is not counted, so at most the value is
      rw [sscanf_noneOf_nil hkey, sscanf_valuePart] at h
      split at h
      · cases h
      · split_ifs at h
        simp at h
    · -- the key is what the first conversion took; what follows it is the `=` and the value
      have happ := append_drop_spanNoneOf 63 [equals] s
      rw [sscanf_noneOf hkey, sscanf_valuePart] at h
      obtain ⟨hfirst, hrest⟩ := List.cons.inj h
      obtain rfl : spanNoneOf 63 [equals] s = key := by simpa using hfirst
      cases hdrop : s.drop (spanNoneOf 63 [equals] s).length with
      | nil =>
        rw [hdrop] at hrest
        cases hrest
      | cons c rest =>
        rw [hdrop] at hrest happ
        dsimp only at hrest
        split_ifs at hrest with hc
        obtain ⟨rfl, hvalue⟩ := hc
        obtain rfl : spanNoneOf 191 [lf, cr] rest = value := by simpa using hrest
        exact ⟨rest, happ.symm, notMem_spanNoneOf (by simp) s, hkey, length_spanNoneOf_le s,
          rfl, hvalue⟩
  · rintro ⟨rest, rfl, hkey, hne, hlen, rfl, hvalue⟩
    -- the key holds no `=` and fits, so the first conversion takes exactly the key
    have hspan : spanNoneOf 63 [equals] (key ++ equals :: rest) = key :=
      spanNoneOf_append (by intro c hc; simp; rintro rfl; exact hkey hc) hlen (by simp)
    rw [sscanf_noneOf (by rw [hspan]; exact hne), hspan, List.drop_left, sscanf_valuePart]
    simp [hvalue]

end SN110
