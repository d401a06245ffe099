import SN110.Common
import SN110.Lib.Positional
import SN110.Lib.Parts
import Mathlib.Data.List.DropRight

/-!
# Text (`minilib.c`)

The string and number functions of the device's C library, and `trim` of `config.c`, on text as
a list of bytes. A C string is what stands before the first NUL (`cstr`), so two of them are
equal to `strcmp` when the lists are.
-/

namespace SN110

open Positional Parts

/-- The bytes of a string literal of the source. -/
def ascii (s : String) : List UInt8 := s.toList.map fun c => UInt8.ofNat c.toNat

/-- A literal is evaluated faster through its characters. -/
theorem ascii_ofList (l : List Char) :
    ascii (String.ofList l) = l.map fun c => UInt8.ofNat c.toNat := by
  unfold ascii
  rw [String.toList_ofList]

abbrev lf : UInt8 := 10
abbrev cr : UInt8 := 13
abbrev tab : UInt8 := 9
abbrev space : UInt8 := 32
abbrev hash : UInt8 := 35
abbrev equals : UInt8 := 61

section Deciding

variable (p : UInt8 → Prop) [DecidablePred p]

-- A fact about the bytes of a text is decided along the text: trying all 256 bytes takes longer.
instance (priority := high) decidableForallByte (s : List UInt8) : Decidable (∀ c ∈ s, p c) :=
  List.decidableBAll p s

instance (priority := high) decidableForallByteOption (o : Option UInt8) :
    Decidable (∀ c ∈ o, p c) :=
  match o with
  | none => isTrue (by simp)
  | some d => decidable_of_iff (p d) (by simp)

end Deciding

/-- The C string at the start of a buffer. -/
def cstr (s : List UInt8) : List UInt8 := s.takeWhile (· ≠ 0)

def isBlank (c : UInt8) : Bool := c == space || c == tab

/-- `trim`. -/
def trim (s : List UInt8) : List UInt8 := (s.dropWhile isBlank).rdropWhile isBlank

/-! ## Numbers -/

def isDigit (c : UInt8) : Bool := 48 ≤ c && c ≤ 57

/-- The digits at the start of a text as an unsigned number, `val * 10 + (*s - '0')` for each. -/
def decimalValue (s : List UInt8) : UInt32 :=
  (s.takeWhile isDigit).foldl (fun val c => val * 10 + (c - 48).toUInt32) 0

/-- `atoi`. The signed arithmetic is that of two's complement. -/
def atoi (s : List UInt8) : Int :=
  match s.dropWhile isBlank with
  | [] => 0
  | c :: rest =>
    -- `-` and `+`
    if c = 45 then (-decimalValue rest).toInt32.toInt
    else if c = 43 then (decimalValue rest).toInt32.toInt
    else (decimalValue (c :: rest)).toInt32.toInt

/-- `pow10`, the table of `_utoa`. -/
def pow10 : List Nat :=
  [1000000000, 100000000, 10000000, 1000000, 100000, 10000, 1000, 100, 10, 1]

def digitChar (d : Nat) : UInt8 := UInt8.ofNat (48 + d)

/-- `_utoa` in base 10. Its repeated subtraction of a power is a division. -/
def utoa (val : Nat) : List UInt8 :=
  if val = 0 then [48] else (digits false val pow10).map digitChar

/-- `_hex_digit`'s inverse in `_utoa`, for base 16 with capital letters. -/
def hexChar (d : Nat) : UInt8 := if d < 10 then UInt8.ofNat (48 + d) else UInt8.ofNat (55 + d)

/-- `%02X` of a byte. -/
def hexByte (b : UInt8) : List UInt8 := [hexChar (b.toNat / 16), hexChar (b.toNat % 16)]

/-! ## C strings -/

/-- A text without NUL is read as a whole. -/
theorem cstr_of_no_nul {s : List UInt8} (h : 0 ∉ s) : cstr s = s := takeWhile_of_notMem h

/-- What is read up to the first NUL has none. -/
theorem no_nul_cstr (s : List UInt8) : 0 ∉ cstr s := by
  intro hmem
  have h := List.mem_takeWhile_imp hmem
  simp at h

/-- Reading goes on behind a text without NUL. -/
theorem cstr_append {s t : List UInt8} (h : 0 ∉ s) : cstr (s ++ t) = s ++ cstr t :=
  List.takeWhile_append_of_pos (ne_of_notMem h)

/-- Nothing behind a NUL is read. -/
theorem cstr_append_of_mem {s t : List UInt8} (h : 0 ∈ s) : cstr (s ++ t) = cstr s := by
  unfold cstr
  rw [List.takeWhile_append, if_neg]
  intro hlen
  have hall : cstr s = s := (List.takeWhile_prefix _).eq_of_length hlen
  exact no_nul_cstr s (hall.symm ▸ h)

/-- Reading up to the NUL gives no more than was there. -/
theorem length_cstr_le (s : List UInt8) : (cstr s).length ≤ s.length :=
  (List.takeWhile_prefix _).length_le

/-- A text shorter than the buffer is copied as it is. -/
theorem strncpy_text {size : Nat} (hsize : 0 < size) {s : List UInt8} (hno : 0 ∉ s)
    (hlen : s.length < size) : (CString.strncpy size hsize s).text = s := by
  show (s.takeWhile (· ≠ 0)).take (size - 1) = s
  rw [show s.takeWhile (· ≠ 0) = s from cstr_of_no_nul hno]
  exact List.take_of_length_le (by omega)

/-! ## Trimming -/

/-- No blank at either end. -/
def Trimmed (s : List UInt8) : Prop :=
  (∀ c ∈ s.head?, isBlank c = false) ∧ ∀ c ∈ s.getLast?, isBlank c = false

instance (s : List UInt8) : Decidable (Trimmed s) := by
  unfold Trimmed
  infer_instance

/-- A text without blanks at its ends is its own trim. -/
theorem trim_of_trimmed {s : List UInt8} (h : Trimmed s) : trim s = s := by
  obtain ⟨hhead, hlast⟩ := h
  have hdrop : s.dropWhile isBlank = s := by
    cases s with
    | nil => rfl
    | cons c t => simp [hhead c rfl]
  unfold trim
  rw [hdrop, List.rdropWhile_eq_self_iff]
  intro hne
  have := hlast (s.getLast hne) (List.getLast?_eq_some_getLast hne)
  simp [this]

/-- Blanks in front do not change what `trim` gives. -/
theorem trim_blanks_append {bs : List UInt8} (h : ∀ c ∈ bs, isBlank c = true)
    (s : List UInt8) : trim (bs ++ s) = trim s := by
  unfold trim
  rw [List.dropWhile_append_of_pos h]

/-- Nor do blanks behind. -/
theorem trim_append_blanks {bs : List UInt8} (h : ∀ c ∈ bs, isBlank c = true)
    (s : List UInt8) : trim (s ++ bs) = trim s := by
  unfold trim
  rw [List.dropWhile_append]
  -- a text of nothing but blanks is eaten from the left, and the blanks after it too
  split_ifs with hs
  · rw [List.isEmpty_iff] at hs
    rw [hs, List.dropWhile_eq_nil_iff.mpr (by simpa using h)]
  · unfold List.rdropWhile
    rw [List.reverse_append, List.dropWhile_append_of_pos (by simpa using h)]

/-- `trim` of a text is the text with blanks taken off its ends. -/
theorem exists_trim_eq (s : List UInt8) :
    ∃ front back, s = front ++ trim s ++ back ∧ (∀ c ∈ front, isBlank c = true) ∧
      ∀ c ∈ back, isBlank c = true := by
  refine ⟨s.takeWhile isBlank, ((s.dropWhile isBlank).rtakeWhile isBlank), ?_, ?_, ?_⟩
  · unfold trim
    rw [List.append_assoc, List.rdropWhile_append_rtakeWhile, List.takeWhile_append_dropWhile]
  · exact fun c hc => List.mem_takeWhile_imp hc
  · exact fun c hc => List.mem_rtakeWhile_imp hc

/-! ## Writing a number and reading it back -/

/-- A digit is none of the characters that are not. -/
theorem ne_of_isDigit {c x : UInt8} (hc : isDigit c = true) (hx : isDigit x = false) : c ≠ x := by
  rintro rfl
  rw [hc] at hx
  cases hx

/-- A digit is no blank. -/
theorem isBlank_of_isDigit {c : UInt8} (hc : isDigit c = true) : isBlank c = false := by
  simp [isBlank, ne_of_isDigit hc (show isDigit space = false by decide),
    ne_of_isDigit hc (show isDigit tab = false by decide)]

/-- The table of `_utoa` holds the ten place values of the decimal system. -/
theorem pow10_eq : pow10 = placeValues 10 10 := by decide

/-- `'0' + d` is a digit for each `d` below ten. -/
theorem isDigit_digitChar {d : Nat} (h : d < 10) : isDigit (digitChar d) = true := by
  revert d
  decide

/-- The digits of `_utoa`, as numbers. -/
def utoaDigits (val : Nat) : List Nat := if val = 0 then [0] else digits false val pow10

/-- `_utoa` writes the character of each of its digits. -/
theorem utoa_eq (val : Nat) : utoa val = (utoaDigits val).map digitChar := by
  unfold utoa utoaDigits
  split_ifs <;> rfl

/-- The digits of `_utoa` are below ten. -/
theorem utoaDigits_lt {val : Nat} (h : val < 10 ^ 10) : ∀ d ∈ utoaDigits val, d < 10 := by
  unfold utoaDigits
  split_ifs
  · decide
  · rw [pow10_eq]
    exact digits_lt (by decide) h false

/-- The digits of `_utoa` have the number as their value. -/
theorem horner_utoaDigits {val : Nat} (h : val < 10 ^ 10) : horner 10 0 (utoaDigits val) = val := by
  unfold utoaDigits
  split_ifs with hzero
  · rw [hzero]
    rfl
  · rw [pow10_eq]
    exact horner_digits (by decide) h

/-- Also zero is written, as one digit. -/
theorem utoa_ne_nil {val : Nat} (h : val < 10 ^ 10) : utoa val ≠ [] := by
  rw [utoa_eq]
  unfold utoaDigits
  split_ifs with hzero
  · exact List.cons_ne_nil _ _
  · rw [pow10_eq, ne_eq, List.map_eq_nil_iff]
    exact digits_ne_nil (by decide) h hzero

/-- `_utoa` writes digits only. -/
theorem isDigit_of_mem_utoa {val : Nat} (h : val < 10 ^ 10) :
    ∀ c ∈ utoa val, isDigit c = true := by
  intro c hc
  rw [utoa_eq] at hc
  obtain ⟨d, hd, rfl⟩ := List.mem_map.mp hc
  exact isDigit_digitChar (utoaDigits_lt h d hd)

/-- The number that digits make up in base 10, however many there are. -/
def digitsValue (s : List UInt8) : Nat := horner 10 0 (s.map fun c => c.toNat - 48)

/-- Written digits have the value they had. -/
theorem digitsValue_digitChar {ds : List Nat} (h : ∀ d ∈ ds, d < 10) :
    digitsValue (ds.map digitChar) = horner 10 0 ds := by
  have hmap : (ds.map digitChar).map (fun c => c.toNat - 48) = ds := by
    rw [List.map_map]
    refine (List.map_congr_left fun d hd => ?_).trans (List.map_id ds)
    have hd := h d hd
    show (UInt8.ofNat (48 + d)).toNat - 48 = d
    rw [UInt8.toNat_ofNat']
    omega
  unfold digitsValue
  rw [hmap]

/-- `c - '0'` of a digit is the digit. -/
theorem sub_digit {c : UInt8} (h : isDigit c = true) :
    (c - 48).toUInt32 = UInt32.ofNat (c.toNat - 48) := by
  have hle : 48 ≤ c := by
    unfold isDigit at h
    simp only [Bool.and_eq_true, decide_eq_true_eq] at h
    exact h.1
  have hlt := c.toNat_lt
  apply UInt32.toNat_inj.mp
  rw [UInt8.toNat_toUInt32, UInt8.toNat_sub_of_le _ _ hle, UInt32.toNat_ofNat']
  show c.toNat - 48 = (c.toNat - 48) % 2 ^ 32
  omega

/-- Reading digits goes through Horner's rule modulo `2 ^ 32`. -/
theorem foldl_digits {s : List UInt8} (h : ∀ c ∈ s, isDigit c = true) (acc : Nat) :
    s.foldl (fun val c => val * 10 + (c - 48).toUInt32) (UInt32.ofNat acc)
      = UInt32.ofNat (horner 10 acc (s.map fun c => c.toNat - 48)) := by
  induction s generalizing acc with
  | nil => rfl
  | cons c s ih =>
    rw [List.foldl_cons, sub_digit (h c List.mem_cons_self), List.map_cons, horner_cons,
      ← ih (fun e he => h e (List.mem_cons_of_mem c he))]
    -- one step of the 32-bit loop is one step of Horner's rule before the wrap
    congr 1
    rw [UInt32.ofNat_add, UInt32.ofNat_mul]
    rfl

/-- A text of digits is the number they make up, modulo `2 ^ 32`, whatever follows it that is not a
digit. -/
theorem decimalValue_append {s rest : List UInt8} (h : ∀ c ∈ s, isDigit c = true)
    (hrest : ∀ c ∈ rest.head?, isDigit c = false) :
    decimalValue (s ++ rest) = UInt32.ofNat (digitsValue s) := by
  -- the loop stops where the digits end
  have htake : (s ++ rest).takeWhile isDigit = s := by
    rw [List.takeWhile_append_of_pos h]
    cases rest with
    | nil => simp
    | cons c t => simp [hrest c rfl]
  unfold decimalValue
  rw [htake]
  exact foldl_digits h 0

/-- The scanner's 32-bit sum over digits is their value modulo 2^32. -/
theorem decimalValue_digits {s : List UInt8} (h : ∀ c ∈ s, isDigit c = true) :
    decimalValue s = UInt32.ofNat (digitsValue s) := by
  have happ := @decimalValue_append s [] h (by simp)
  rwa [List.append_nil] at happ

/-- A written number has its own value. -/
theorem digitsValue_utoa {val : Nat} (h : val < 10 ^ 10) : digitsValue (utoa val) = val := by
  rw [utoa_eq, digitsValue_digitChar (utoaDigits_lt h), horner_utoaDigits h]

/-- `atoi` of a text that starts with a digit, or of nothing. -/
theorem atoi_of_digits {s : List UInt8} (h : ∀ c ∈ s, isDigit c = true) :
    atoi s = (UInt32.ofNat (digitsValue s)).toInt32.toInt := by
  cases s with
  | nil => rfl
  | cons c s =>
    -- a digit comes first, so nothing is skipped and there is no sign
    have hdigit : isDigit c = true := h c List.mem_cons_self
    have hblank := isBlank_of_isDigit hdigit
    unfold atoi
    rw [List.dropWhile_cons_of_neg (by simp [hblank])]
    show (if c = 45 then _ else if c = 43 then _ else _) = _
    rw [if_neg (ne_of_isDigit hdigit (by decide)), if_neg (ne_of_isDigit hdigit (by decide)),
      decimalValue_digits h]

/-- `atoi` of written digits is their value, below 2^31. -/
theorem atoi_digits {ds : List Nat} (h : ∀ d ∈ ds, d < 10) (hlt : horner 10 0 ds < 2 ^ 31) :
    atoi (ds.map digitChar) = horner 10 0 ds := by
  have hdigits : ∀ c ∈ ds.map digitChar, isDigit c = true := by
    intro c hc
    obtain ⟨d, hd, rfl⟩ := List.mem_map.mp hc
    exact isDigit_digitChar (h d hd)
  rw [atoi_of_digits hdigits, digitsValue_digitChar h, UInt32.toInt32_ofNat',
    Int32.toInt_ofNat_of_lt hlt]

/-- `atoi` reads back what `_utoa` wrote. -/
theorem atoi_utoa {val : Nat} (h : val < 2 ^ 31) : atoi (utoa val) = val := by
  have hten : val < 10 ^ 10 := by omega
  have hvalue := horner_utoaDigits hten
  rw [utoa_eq, atoi_digits (utoaDigits_lt hten) (by rwa [hvalue]), hvalue]

/-- `_utoa` writes at most ten digits. -/
theorem length_utoa_le (val : Nat) : (utoa val).length ≤ 10 := by
  rw [utoa_eq, List.length_map]
  unfold utoaDigits
  split_ifs
  · decide
  · exact length_digits_le false val pow10

end SN110
