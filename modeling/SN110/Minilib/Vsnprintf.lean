import SN110.Minilib.Utoa
import SN110.Lib.Sink

/-!
# Formatted output (`vsnprintf`)

`vsnprintf` as it runs over its format, every store into the buffer checked. A format is made of
`FormatPiece`s, and what they say about the arguments is the `expansion`.

Its macro `PUT(c)` evaluates `c` only when there is room. Digits and padding are at hand, and are
dropped and counted behind the end of the buffer. A literal is `PUT(*fmt++)` and a character of a
string `PUT(*s++)`: without room they are not passed over, and the loop comes back to them until the
counter has wrapped (`Sink.putNext`).

* `vsnprintfLoop_eq`: the loop over the format puts the characters of its pieces.
* `vsnprintf_eq`: the buffer and the return value, when nothing waits and an `int` holds the length.
* `vsnprintf_prints_iff`: only then does the output depend on the size by truncation alone.

## Where a character comes from

Whether a character can be dropped depends on the argument of `PUT`: `*fmt++` and `*s++` are
evaluated only when there is room, the others are values that are at hand. `formatOuts` lists the
characters of an expansion with this difference, and the loop is shown to put that list
(`vsnprintfLoop_eq`), one piece of the format at a time. From there on only `Sink` is needed: what
it does with a list in which nothing waits, and that it never catches up with one in which something
does.
-/

namespace SN110

open Checked

/-- An argument of `vsnprintf`: a word, which the directive takes as an `int`, an `unsigned int`, a
pointer or a character, or a string, `none` being `NULL`. -/
inductive PrintArg where
  | word (val : UInt32)
  | string (s : Option (List UInt8))

section Running

variable {cap : Nat}

/-- The digits of a number, out of the array `tmp`. -/
def numberText (val : UInt32) (base : Base) (uppercase : Bool) : Except Fault (List UInt8) := do
  let (tmp, len) ← utoaInto (Vector.replicate 12 0) val (Vector.replicate 24 0) base uppercase
  .ok (tmp.toList.take len)

/-- The digits behind the blanks or zeros that the width asks for. -/
def putPadded (size : UInt32) (sink : Sink cap) (zeroPad : Bool) (width : Int32)
    (digits : List UInt8) : Except Fault (Sink cap) := do
  let pad := List.replicate (width.toInt - digits.length).toNat (if zeroPad then 48 else 32)
  let sink ← sink.putAll size pad
  sink.putAll size digits

/-- The directives `u`, `x` and `X`. An argument of another type is not there to be loaded. -/
def putNumber (size : UInt32) (sink : Sink cap) (zeroPad : Bool) (width : Int32) (base : Base)
    (uppercase : Bool) : List PrintArg → Except Fault (Sink cap × List PrintArg)
  | .word val :: args => do
    let digits ← numberText val base uppercase
    let sink ← putPadded size sink zeroPad width digits
    .ok (sink, args)
  | _ => .error (.load 0)

/-- A directive: what it puts into the buffer, and the arguments it leaves. -/
def directive (size : UInt32) (sink : Sink cap) (zeroPad : Bool) (width : Int32) (c : UInt8)
    (args : List PrintArg) : Except Fault (Sink cap × List PrintArg) :=
  -- `d`
  if c = 100 then
    match args with
    | .word val :: args => do
      let val := val.toInt32
      let sink ← if val < 0 then sink.putChar size 45 else .ok sink
      let val := if val < 0 then -val else val
      let digits ← numberText val.toUInt32 Base.ten false
      let sink ← putPadded size sink zeroPad width digits
      .ok (sink, args)
    | _ => .error (.load 0)
  -- `u`, `x` and `X`
  else if c = 117 then putNumber size sink zeroPad width Base.ten false args
  else if c = 120 then putNumber size sink zeroPad width Base.sixteen false args
  else if c = 88 then putNumber size sink zeroPad width Base.sixteen true args
  -- `p`
  else if c = 112 then
    match args with
    | .word val :: args => do
      let sink ← sink.putChar size 48
      let sink ← sink.putChar size 120
      let digits ← numberText val Base.sixteen false
      let sink ← sink.putAll size digits
      .ok (sink, args)
    | _ => .error (.load 0)
  -- `s`
  else if c = 115 then
    match args with
    | .string s :: args => do
      let sink ← sink.putString size (s.getD (ascii "(null)"))
      .ok (sink, args)
    | _ => .error (.load 0)
  -- `c`
  else if c = 99 then
    match args with
    | .word val :: args => do
      let sink ← sink.putChar size val.toUInt8
      .ok (sink, args)
    | _ => .error (.load 0)
  -- `%`
  else if c = 37 then do
    let sink ← sink.putChar size 37
    .ok (sink, args)
  else do
    let sink ← sink.putChar size 37
    let sink ← sink.putChar size c
    .ok (sink, args)

/-- The loop over the format. Behind the NUL that ends it there is nothing to be loaded. -/
def vsnprintfLoop (size : UInt32) (fmt : List UInt8) (args : List PrintArg) (sink : Sink cap) :
    Except Fault (Sink cap) :=
  match fmt with
  | [] => .ok sink
  | c :: fmt =>
    if c ≠ 37 then do
      -- `PUT(*fmt++)`
      let sink ← sink.putNext size c
      vsnprintfLoop size fmt args sink
    else
      let zeroPad := fmt.head? == some 48
      let spec := if zeroPad then fmt.tail else fmt
      let width := (decimalValue spec).toInt32
      match _hspec : spec.dropWhile isDigit with
      | [] => .error (.load fmt.length)
      | c :: rest => do
        let (sink, args) ← directive size sink zeroPad width c args
        vsnprintfLoop size rest args sink
termination_by fmt.length
decreasing_by
  · exact Nat.lt_succ_self _
  · have hdrop := (List.dropWhile_suffix (l := spec) isDigit).length_le
    have hspec : spec.length ≤ fmt.length := by
      show (if zeroPad then fmt.tail else fmt).length ≤ fmt.length
      split_ifs
      · rw [List.length_tail]
        omega
      · exact Nat.le_refl _
    rw [_hspec, List.length_cons] at hdrop
    rw [List.length_cons]
    omega

/-- `vsnprintf`, and `snprintf`, which calls it: what the buffer holds and the return value. -/
def vsnprintf (buf : Vector UInt8 cap) (size : UInt32) (fmt : List UInt8) (args : List PrintArg) :
    Except Fault (Vector UInt8 cap × Int) :=
  if size = 0 then .ok (buf, 0)
  else do
    let sink ← vsnprintfLoop size fmt args ⟨buf, 0⟩
    let buf ← sink.finish size
    .ok (buf, sink.pos.toInt32.toInt)

end Running

/-! ## What a format says -/

/-- The directives `u`, `x` and `X`. -/
inductive NumberKind where
  | u
  | x
  | X

/-- A piece of a format: a character, or a directive. -/
inductive FormatPiece where
  | literal (c : UInt8)
  | int
  | string
  | char
  | pointer
  | percent
  | number (kind : NumberKind) (zero : Bool) (width : Option Nat)

def NumberKind.char : NumberKind → UInt8
  | .u => 117
  | .x => 120
  | .X => 88

/-- The number in the directive's base and case. -/
def NumberKind.radixText : NumberKind → Nat → List UInt8
  | .u => SN110.radixText 10 false
  | .x => SN110.radixText 16 false
  | .X => SN110.radixText 16 true

/-- A piece as it stands in a format. -/
def FormatPiece.text : FormatPiece → List UInt8
  | .literal c => [c]
  | .int => [37, 100]
  | .string => [37, 115]
  | .char => [37, 99]
  | .pointer => [37, 112]
  | .percent => [37, 37]
  | .number kind zero width =>
    37 :: (if zero then [48] else []) ++ (width.map (radixText 10 false)).getD [] ++ [kind.char]

/-- A literal is no `%`, and a width is not 0, which would be the flag. -/
def FormatPiece.Readable : FormatPiece → Prop
  | .literal c => c ≠ 37
  | .number _ _ width => ∀ w ∈ width, w ≠ 0
  | _ => True

/-- The arguments are those the pieces take. -/
def ArgsMatch : List FormatPiece → List PrintArg → Prop
  | [], [] => True
  | .literal _ :: pieces, args => ArgsMatch pieces args
  | .percent :: pieces, args => ArgsMatch pieces args
  | .string :: pieces, .string _ :: args => ArgsMatch pieces args
  | .int :: pieces, .word _ :: args => ArgsMatch pieces args
  | .char :: pieces, .word _ :: args => ArgsMatch pieces args
  | .pointer :: pieces, .word _ :: args => ArgsMatch pieces args
  | .number _ _ _ :: pieces, .word _ :: args => ArgsMatch pieces args
  | _, _ => False

/-- The text of a signed number. -/
def signedText (n : Int) : List UInt8 :=
  (if n < 0 then [45] else []) ++ radixText 10 false n.natAbs

/-- A number with what its width puts in front of it. -/
def padded (zero : Bool) (width : Nat) (digits : List UInt8) : List UInt8 :=
  List.replicate (width - digits.length) (if zero then 48 else 32) ++ digits

/-- **What a format says** about its arguments. -/
def expansion : List FormatPiece → List PrintArg → List UInt8
  | .literal c :: pieces, args => c :: expansion pieces args
  | .percent :: pieces, args => 37 :: expansion pieces args
  | .int :: pieces, .word val :: args => signedText val.toInt32.toInt ++ expansion pieces args
  | .char :: pieces, .word val :: args => val.toUInt8 :: expansion pieces args
  | .pointer :: pieces, .word val :: args =>
    48 :: 120 :: radixText 16 false val.toNat ++ expansion pieces args
  | .string :: pieces, .string s :: args => s.getD (ascii "(null)") ++ expansion pieces args
  | .number kind zero width :: pieces, .word val :: args =>
    padded zero (width.getD 0) (kind.radixText val.toNat) ++ expansion pieces args
  | _, _ => []

/-- The characters of the expansion, with where each comes from: a literal is taken from the format
and a character of a string from the string, the others are at hand. -/
def formatOuts : List FormatPiece → List PrintArg → List Out
  | .literal c :: pieces, args => .next c :: formatOuts pieces args
  | .percent :: pieces, args => .hand 37 :: formatOuts pieces args
  | .int :: pieces, .word val :: args =>
    (signedText val.toInt32.toInt).map .hand ++ formatOuts pieces args
  | .char :: pieces, .word val :: args => .hand val.toUInt8 :: formatOuts pieces args
  | .pointer :: pieces, .word val :: args =>
    (48 :: 120 :: radixText 16 false val.toNat).map .hand ++ formatOuts pieces args
  | .string :: pieces, .string s :: args =>
    (s.getD (ascii "(null)")).map .next ++ formatOuts pieces args
  | .number kind zero width :: pieces, .word val :: args =>
    (padded zero (width.getD 0) (kind.radixText val.toNat)).map .hand ++ formatOuts pieces args
  | _, _ => []

/-- The characters make up the expansion. -/
theorem outText_formatOuts (pieces : List FormatPiece) (args : List PrintArg) :
    outText (formatOuts pieces args) = expansion pieces args := by
  induction pieces, args using formatOuts.induct with
  | case1 c pieces args ih =>
    rw [formatOuts, expansion, ← ih]
    rfl
  | case2 pieces args ih =>
    rw [formatOuts, expansion, ← ih]
    rfl
  | case3 pieces val args ih => rw [formatOuts, expansion, outText_append, outText_hand, ih]
  | case4 pieces val args ih =>
    rw [formatOuts, expansion, ← ih]
    rfl
  | case5 pieces val args ih => rw [formatOuts, expansion, outText_append, outText_hand, ih]
  | case6 pieces s args ih => rw [formatOuts, expansion, outText_append, outText_next, ih]
  | case7 kind zero width pieces val args ih =>
    rw [formatOuts, expansion, outText_append, outText_hand, ih]
  | case8 pieces args => simp [formatOuts, expansion, outText, *]

/-- The outputs of a format are as many as the characters of its expansion. -/
theorem length_formatOuts (pieces : List FormatPiece) (args : List PrintArg) :
    (formatOuts pieces args).length = (expansion pieces args).length := by
  rw [← outText_formatOuts, length_outText]

/-- The piece takes a word. -/
def FormatPiece.TakesWord : FormatPiece → Prop
  | .int | .char | .pointer | .number _ _ _ => True
  | _ => False

/-- A directive that takes a word finds one. -/
theorem argsMatch_word {q : FormatPiece} {pieces : List FormatPiece} {args : List PrintArg}
    (h : ArgsMatch (q :: pieces) args) (hq : q.TakesWord) :
    ∃ val rest, args = .word val :: rest ∧ ArgsMatch pieces rest := by
  cases args with
  | nil => cases q <;> first | exact hq.elim | exact h.elim
  | cons arg rest =>
    cases arg with
    | word val => cases q <;> first | exact hq.elim | exact ⟨val, rest, rfl, h⟩
    | string s => cases q <;> first | exact hq.elim | exact h.elim

/-- A `%s` finds a string. -/
theorem argsMatch_string {pieces : List FormatPiece} {args : List PrintArg}
    (h : ArgsMatch (.string :: pieces) args) :
    ∃ s rest, args = .string s :: rest ∧ ArgsMatch pieces rest := by
  cases args with
  | nil => exact h.elim
  | cons arg rest =>
    cases arg with
    | word val => exact h.elim
    | string s => exact ⟨s, rest, rfl, h⟩

/-! ## One directive -/

/-- In base ten the digit loop gives the decimal digits. -/
theorem numberText_ten (val : UInt32) (uppercase : Bool) :
    numberText val Base.ten uppercase = .ok (radixText 10 uppercase val.toNat) := by
  have hlen := @length_radixText_le 10 10 val.toNat (by decide) (by decide)
    (Nat.lt_trans val.toNat_lt (by decide)) uppercase
  unfold numberText
  rw [utoaInto_ten _ _ _ (by decide), ok_bind]
  dsimp only
  rw [take_toList_overlay _ (Nat.le_trans hlen (by decide))]

/-- In base sixteen it gives the hexadecimal digits, in the case asked for. -/
theorem numberText_sixteen (val : UInt32) (uppercase : Bool) :
    numberText val Base.sixteen uppercase = .ok (radixText 16 uppercase val.toNat) := by
  have hlen := @length_radixText_le 16 8 val.toNat (by decide) (by decide) val.toNat_lt uppercase
  unfold numberText
  rw [utoaInto_sixteen _ _ _ (by decide), ok_bind]
  dsimp only
  rw [take_toList_overlay _ (Nat.le_trans hlen (by decide))]

/-- The word of an `int`. -/
theorem toInt_toInt32 (val : UInt32) :
    val.toInt32.toInt = if 2 * val.toNat < 2 ^ 32 then (val.toNat : Int)
      else (val.toNat : Int) - 2 ^ 32 := BitVec.toInt_eq_toNat_cond val.toBitVec

/-- The number that is printed behind the sign, also for the least `int`. -/
theorem toNat_abs (val : UInt32) :
    (if val.toInt32 < 0 then -val.toInt32 else val.toInt32).toUInt32.toNat
      = val.toInt32.toInt.natAbs := by
  have hneg : val.toInt32 < 0 ↔ val.toInt32.toInt < 0 := Int32.lt_iff_toInt_lt
  have hlt := val.toNat_lt
  have hval := toInt_toInt32 val
  by_cases h : val.toInt32 < 0
  · rw [if_pos h, Int32.toUInt32_neg, UInt32.toUInt32_toInt32, UInt32.toNat_neg]
    rw [hneg] at h
    show (2 ^ 32 - val.toNat) % 2 ^ 32 = _
    split_ifs at hval <;> omega
  · rw [if_neg h, UInt32.toUInt32_toInt32]
    rw [hneg] at h
    split_ifs at hval <;> omega

section

variable {cap : Nat} {size : UInt32}

/-- A number with its padding is at hand. -/
theorem putPadded_eq {width : Int32} {w : Nat} (hwidth : width.toInt = w) (zero : Bool)
    (digits : List UInt8) (sink : Sink cap) :
    putPadded size sink zero width digits
      = sink.putOuts size ((padded zero w digits).map .hand) := by
  have hcount : (width.toInt - digits.length).toNat = w - digits.length := by omega
  unfold putPadded padded
  dsimp only
  rw [hcount, Sink.putAll_eq, List.map_append, Sink.putOuts_append]
  exact bind_congr fun sink => Sink.putAll_eq digits sink

/-- Behind a `%`, flag and width are read, then the directive of the next character is done. -/
theorem vsnprintfLoop_percent {fmt rest : List UInt8} {c : UInt8}
    (hdrop : (if fmt.head? == some 48 then fmt.tail else fmt).dropWhile isDigit = c :: rest)
    (args : List PrintArg) (sink : Sink cap) :
    vsnprintfLoop size (37 :: fmt) args sink
      = (directive size sink (fmt.head? == some 48)
          (decimalValue (if fmt.head? == some 48 then fmt.tail else fmt)).toInt32 c args
        >>= fun (sink, args) => vsnprintfLoop size rest args sink) := by
  rw [vsnprintfLoop, if_neg (by simp)]
  dsimp only
  split
  · rename_i hnil
    rw [hdrop] at hnil
    cases hnil
  · rename_i c' rest' hcons
    rw [hdrop] at hcons
    cases hcons
    rfl

/-- A directive that is read off the format: the flag, the width and the character. -/
theorem vsnprintfLoop_directive (zero : Bool) {width : List UInt8}
    (hdigits : ∀ c ∈ width, isDigit c = true) (hflag : width.head? ≠ some 48) {c : UInt8}
    (hc : isDigit c = false) (rest : List UInt8) (args : List PrintArg) (sink : Sink cap) :
    vsnprintfLoop size (37 :: (if zero then [48] else []) ++ width ++ c :: rest) args sink
      = (directive size sink zero (decimalValue width).toInt32 c args >>= fun (sink, args) =>
          vsnprintfLoop size rest args sink) := by
  have hdrop : (width ++ c :: rest).dropWhile isDigit = c :: rest := by
    rw [List.dropWhile_append_of_pos hdigits, List.dropWhile_cons_of_neg (by simp [hc])]
  have hvalue : decimalValue (width ++ c :: rest) = decimalValue width := by
    rw [decimalValue_append hdigits (by simp [hc]), decimalValue_digits hdigits]
  -- the width does not begin with 0, so only the flag can be the 0 read first
  have hhead : ((width ++ c :: rest).head? == some 48) = false := by
    cases width with
    | nil =>
      have hne : c ≠ 48 := by
        rintro rfl
        exact absurd hc (by decide)
      simpa using hne
    | cons x xs => simpa using hflag
  cases zero with
  | true =>
    have hloop :=
      @vsnprintfLoop_percent cap size (48 :: (width ++ c :: rest)) rest c hdrop args sink
    refine Eq.trans ?_ (hloop.trans ?_)
    · simp
    · show (directive size sink true (decimalValue (width ++ c :: rest)).toInt32 c args >>= _) = _
      rw [hvalue]
  | false =>
    have hspec : (if (width ++ c :: rest).head? == some 48 then (width ++ c :: rest).tail
        else width ++ c :: rest) = width ++ c :: rest := by
      rw [hhead]
      rfl
    have hloop := @vsnprintfLoop_percent cap size (width ++ c :: rest) rest c
      (by rw [hspec, hdrop]) args sink
    rw [hspec, hhead, hvalue] at hloop
    refine Eq.trans ?_ hloop
    simp

/-- A directive without a flag and a width. -/
theorem vsnprintfLoop_plain {c : UInt8} (hc : isDigit c = false) (rest : List UInt8)
    (args : List PrintArg) (sink : Sink cap) :
    vsnprintfLoop size (37 :: c :: rest) args sink
      = (directive size sink false 0 c args >>= fun (sink, args) =>
          vsnprintfLoop size rest args sink) :=
  @vsnprintfLoop_directive cap size false [] (by simp) (by simp) c hc rest args sink

end

/-! ## The whole format -/

/-- A width is read back: its digits do not start with 0. -/
theorem radixText_width {w : Nat} (hw : w ≠ 0) :
    (∀ c ∈ radixText 10 false w, isDigit c = true) ∧ (radixText 10 false w).head? ≠ some 48 ∧
      digitsValue (radixText 10 false w) = w := by
  have hlt : ∀ d ∈ (Nat.digits 10 w).reverse, d < 10 := fun d hd =>
    Nat.digits_lt_base (by decide) (List.mem_reverse.mp hd)
  have htext : radixText 10 false w = (Nat.digits 10 w).reverse.map digitChar := by
    unfold radixText
    rw [if_neg hw]
    exact List.map_congr_left fun d hd => load_digitChars false (hlt d hd)
  rw [htext]
  -- digits only, the first not 0, and of the number's value
  refine ⟨fun c hc => ?_, ?_, ?_⟩
  · obtain ⟨d, hd, rfl⟩ := List.mem_map.mp hc
    exact isDigit_digitChar (hlt d hd)
  · -- the highest digit is not 0
    have hchar : ∀ d < 10, d ≠ 0 → digitChar d ≠ 48 := by decide
    have hne : Nat.digits 10 w ≠ [] := Nat.digits_ne_nil_iff_ne_zero.mpr hw
    have hsmall := Nat.digits_lt_base (by decide) (List.getLast_mem hne)
    rw [List.head?_map, List.head?_reverse, List.getLast?_eq_some_getLast hne]
    simpa using hchar _ hsmall (Nat.getLast_digit_ne_zero 10 hw)
  · rw [digitsValue_digitChar hlt, ← Positional.ofDigits_reverse, List.reverse_reverse,
      Nat.ofDigits_digits]

/-- What stands between the `%` and the character of a directive with a width. -/
theorem widthText {width : Option Nat} (h : ∀ w ∈ width, w ≠ 0) :
    (∀ c ∈ (width.map (radixText 10 false)).getD [], isDigit c = true) ∧
      ((width.map (radixText 10 false)).getD []).head? ≠ some 48 ∧
      decimalValue ((width.map (radixText 10 false)).getD []) = UInt32.ofNat (width.getD 0) := by
  cases width with
  | none => exact ⟨by simp, by simp, rfl⟩
  | some w =>
    obtain ⟨hdigits, hhead, hvalue⟩ := radixText_width (h w rfl)
    refine ⟨hdigits, hhead, ?_⟩
    show decimalValue (radixText 10 false w) = UInt32.ofNat w
    rw [decimalValue_digits hdigits, hvalue]

section

variable {cap : Nat} {size : UInt32}

/-- A number is put padded to its width, each character already computed. -/
theorem putNumber_eq {width : Int32} {w : Nat} (hwidth : width.toInt = w) (zero : Bool)
    {val : UInt32} {base : Base} {uppercase : Bool} {digits : List UInt8}
    (hdigits : numberText val base uppercase = .ok digits) (args : List PrintArg)
    (sink : Sink cap) :
    putNumber size sink zero width base uppercase (.word val :: args)
      = (sink.putOuts size ((padded zero w digits).map .hand)
        >>= fun sink => .ok (sink, args)) := by
  unfold putNumber
  dsimp only
  rw [hdigits, ok_bind, putPadded_eq hwidth]

/-- `u`, `x` and `X`. -/
theorem directive_number {width : Int32} {w : Nat} (hwidth : width.toInt = w) (kind : NumberKind)
    (zero : Bool) (val : UInt32) (args : List PrintArg) (sink : Sink cap) :
    directive size sink zero width kind.char (.word val :: args)
      = (sink.putOuts size ((padded zero w (kind.radixText val.toNat)).map .hand)
        >>= fun sink => .ok (sink, args)) := by
  cases kind with
  | u => exact putNumber_eq hwidth zero (numberText_ten val false) args sink
  | x => exact putNumber_eq hwidth zero (numberText_sixteen val false) args sink
  | X => exact putNumber_eq hwidth zero (numberText_sixteen val true) args sink

/-- `d`: the sign, and the number without it. -/
theorem directive_int (val : UInt32) (args : List PrintArg) (sink : Sink cap) :
    directive size sink false 0 100 (.word val :: args)
      = (sink.putOuts size ((signedText val.toInt32.toInt).map .hand)
        >>= fun sink => .ok (sink, args)) := by
  have hneg : val.toInt32 < 0 ↔ val.toInt32.toInt < 0 := Int32.lt_iff_toInt_lt
  have hdigits := numberText_ten
    (if val.toInt32 < 0 then -val.toInt32 else val.toInt32).toUInt32 false
  rw [toNat_abs] at hdigits
  have hput : ∀ sink : Sink cap,
      putPadded size sink false 0 (radixText 10 false val.toInt32.toInt.natAbs)
        = sink.putOuts size ((radixText 10 false val.toInt32.toInt.natAbs).map .hand) := by
    intro sink
    have hpadded := @putPadded_eq cap size 0 0 rfl false
      (radixText 10 false val.toInt32.toInt.natAbs) sink
    simpa only [padded, Nat.zero_sub, List.replicate_zero, List.nil_append] using hpadded
  unfold signedText directive
  rw [if_pos rfl]
  dsimp only
  -- a negative number is put as a `-` and its absolute value
  by_cases h : val.toInt32 < 0
  · rw [if_pos (hneg.mp h), if_pos h, List.map_append, Sink.putOuts_append, bind_assoc,
      List.map_singleton, Sink.putOuts_singleton]
    refine bind_congr fun sink => ?_
    rw [hdigits, ok_bind, hput]
  · rw [if_neg (fun h' => h (hneg.mpr h')), List.nil_append, if_neg h, ok_bind, hdigits, ok_bind,
      hput]

/-- `p`. -/
theorem directive_pointer (val : UInt32) (args : List PrintArg) (sink : Sink cap) :
    directive size sink false 0 112 (.word val :: args)
      = (sink.putOuts size ((48 :: 120 :: radixText 16 false val.toNat).map .hand)
        >>= fun sink => .ok (sink, args)) := by
  show (sink.putChar size 48 >>= fun sink => sink.putChar size 120 >>= fun sink =>
    numberText val Base.sixteen false >>= fun digits => sink.putAll size digits >>= fun sink =>
      .ok (sink, args)) = _
  rw [List.map_cons, List.map_cons, Sink.putOuts, bind_assoc]
  refine bind_congr fun sink => ?_
  rw [Sink.putOuts, bind_assoc]
  refine bind_congr fun sink => ?_
  rw [numberText_sixteen, ok_bind, Sink.putAll_eq]

/-- One piece of a format takes its argument and puts its characters. -/
theorem vsnprintfLoop_piece {q : FormatPiece} (hq : q.Readable) {pieces : List FormatPiece}
    {args : List PrintArg} (hmatch : ArgsMatch (q :: pieces) args)
    (hshort : (expansion (q :: pieces) args).length < 2 ^ 31) :
    ∃ out rest, formatOuts (q :: pieces) args = out ++ formatOuts pieces rest ∧
      ArgsMatch pieces rest ∧
      ∀ (fmt : List UInt8) (sink : Sink cap), vsnprintfLoop size (q.text ++ fmt) args sink
        = (sink.putOuts size out >>= fun sink => vsnprintfLoop size fmt rest sink) := by
  cases q with
  | literal c =>
    refine ⟨[.next c], args, rfl, hmatch, fun fmt sink => ?_⟩
    show vsnprintfLoop size (c :: fmt) args sink = _
    rw [vsnprintfLoop, if_pos (show c ≠ 37 from hq), Sink.putOuts_singleton]
    rfl
  | percent =>
    refine ⟨[.hand 37], args, rfl, hmatch, fun fmt sink => ?_⟩
    show vsnprintfLoop size (37 :: 37 :: fmt) args sink = _
    rw [vsnprintfLoop_plain (by decide), Sink.putOuts_singleton]
    show ((sink.putChar size 37 >>= fun sink => .ok (sink, args)) >>= _) = _
    rw [bind_assoc]
    rfl
  | int =>
    obtain ⟨val, rest, rfl, hmatch⟩ := argsMatch_word hmatch trivial
    refine ⟨_, rest, rfl, hmatch, fun fmt sink => ?_⟩
    show vsnprintfLoop size (37 :: 100 :: fmt) _ sink = _
    rw [vsnprintfLoop_plain (by decide), directive_int, bind_assoc]
    rfl
  | string =>
    obtain ⟨s, rest, rfl, hmatch⟩ := argsMatch_string hmatch
    refine ⟨_, rest, rfl, hmatch, fun fmt sink => ?_⟩
    show vsnprintfLoop size (37 :: 115 :: fmt) _ sink = _
    rw [vsnprintfLoop_plain (by decide), ← Sink.putString_eq]
    show ((sink.putString size (s.getD (ascii "(null)")) >>= fun sink => .ok (sink, rest))
      >>= _) = _
    rw [bind_assoc]
    rfl
  | char =>
    obtain ⟨val, rest, rfl, hmatch⟩ := argsMatch_word hmatch trivial
    refine ⟨[.hand val.toUInt8], rest, rfl, hmatch, fun fmt sink => ?_⟩
    show vsnprintfLoop size (37 :: 99 :: fmt) _ sink = _
    rw [vsnprintfLoop_plain (by decide), Sink.putOuts_singleton]
    show ((sink.putChar size val.toUInt8 >>= fun sink => .ok (sink, rest)) >>= _) = _
    rw [bind_assoc]
    rfl
  | pointer =>
    obtain ⟨val, rest, rfl, hmatch⟩ := argsMatch_word hmatch trivial
    refine ⟨_, rest, rfl, hmatch, fun fmt sink => ?_⟩
    show vsnprintfLoop size (37 :: 112 :: fmt) _ sink = _
    rw [vsnprintfLoop_plain (by decide), directive_pointer, bind_assoc]
    rfl
  | number kind zero width =>
    obtain ⟨val, rest, rfl, hmatch⟩ := argsMatch_word hmatch trivial
    refine ⟨_, rest, rfl, hmatch, fun fmt sink => ?_⟩
    obtain ⟨hdigits, hhead, hvalue⟩ := widthText hq
    -- the padding alone is as wide as the width, which therefore fits an `int`
    have hwidth : width.getD 0 < 2 ^ 31 := by
      rw [expansion, padded, List.length_append, List.length_append, List.length_replicate]
        at hshort
      omega
    have htext : (FormatPiece.number kind zero width).text ++ fmt
        = 37 :: (if zero then [48] else []) ++ (width.map (radixText 10 false)).getD []
          ++ kind.char :: fmt := by
      simp [FormatPiece.text]
    rw [htext, vsnprintfLoop_directive zero hdigits hhead (by cases kind <;> rfl), hvalue,
      directive_number (by rw [UInt32.toInt32_ofNat', Int32.toInt_ofNat_of_lt hwidth]), bind_assoc]
    rfl

/-- **The loop over a format** puts the characters of its pieces one after the other. -/
theorem vsnprintfLoop_eq {pieces : List FormatPiece} {args : List PrintArg}
    (hread : ∀ q ∈ pieces, q.Readable) (hmatch : ArgsMatch pieces args)
    (hlen : (expansion pieces args).length < 2 ^ 31) (sink : Sink cap) :
    vsnprintfLoop size (pieces.flatMap FormatPiece.text) args sink
      = sink.putOuts size (formatOuts pieces args) := by
  induction pieces generalizing args sink with
  | nil =>
    show vsnprintfLoop size [] args sink = _
    unfold vsnprintfLoop
    cases args <;> rfl
  | cons q pieces ih =>
    rw [List.forall_mem_cons] at hread
    obtain ⟨hq, hread⟩ := hread
    obtain ⟨out, rest, hout, hmatch, hput⟩ := @vsnprintfLoop_piece cap size q hq pieces args hmatch
      hlen
    have hrest : (expansion pieces rest).length < 2 ^ 31 := by
      rw [← length_formatOuts, hout, List.length_append, length_formatOuts] at hlen
      omega
    rw [List.flatMap_cons, hput, hout, Sink.putOuts_append]
    exact bind_congr fun sink => ih hread hmatch hrest sink

end

section

variable {cap : Nat} (buf : Vector UInt8 cap) {size : UInt32} (hsize : 1 ≤ size.toNat)
  (hcap : size.toNat ≤ cap) {pieces : List FormatPiece} {args : List PrintArg}
  (hread : ∀ q ∈ pieces, q.Readable) (hmatch : ArgsMatch pieces args)

include hsize hcap hread hmatch

/-- **`vsnprintf`** when no character has to wait, for every expansion whose length is an `int`. -/
theorem vsnprintf_eq (hlen : (expansion pieces args).length < 2 ^ 31)
    (hroom : NoneWaits (size.toNat - 1) (formatOuts pieces args)) :
    vsnprintf buf size (pieces.flatMap FormatPiece.text) args
      = .ok (overlay buf ((expansion pieces args).take (size.toNat - 1) ++ [0]),
          ((expansion pieces args).length : Int)) := by
  have hout := @Sink.putOuts_eq cap size hsize hcap buf [] (formatOuts pieces args)
    (by rw [List.nil_append, outText_formatOuts]; omega) hroom
  have hfinish := @Sink.finish_eq cap size hsize hcap buf (expansion pieces args)
    (Nat.lt_trans hlen (by decide))
  rw [Sink.after_nil, List.nil_append, outText_formatOuts] at hout
  unfold vsnprintf
  rw [if_neg (by rintro rfl; exact absurd hsize (by decide)), vsnprintfLoop_eq hread hmatch hlen,
    hout, ok_bind, hfinish, ok_bind]
  show Except.ok (_, (UInt32.ofNat (expansion pieces args).length).toInt32.toInt) = _
  rw [UInt32.toInt32_ofNat', Int32.toInt_ofNat_of_lt hlen]

/-- An expansion that fits has no character that waits. -/
theorem vsnprintf_of_fits (hfits : (expansion pieces args).length < size.toNat)
    (hlen : (expansion pieces args).length < 2 ^ 31) :
    vsnprintf buf size (pieces.flatMap FormatPiece.text) args
      = .ok (overlay buf (expansion pieces args ++ [0]),
          ((expansion pieces args).length : Int)) := by
  have hroom : NoneWaits (size.toNat - 1) (formatOuts pieces args) :=
    noneWaits_of_length_le (by rw [length_formatOuts]; omega)
  have hprint := vsnprintf_eq buf hsize hcap hread hmatch hlen hroom
  rwa [List.take_of_length_le (by omega)] at hprint

/-- Where the whole expansion fits, it is the C string that the buffer holds. -/
theorem vsnprintf_cstr (hfits : (expansion pieces args).length < size.toNat)
    (hlen : (expansion pieces args).length < 2 ^ 31) (hno : 0 ∉ expansion pieces args) :
    ∃ stored, vsnprintf buf size (pieces.flatMap FormatPiece.text) args
        = .ok (stored, ((expansion pieces args).length : Int)) ∧
      cstr stored.toList = expansion pieces args := by
  refine ⟨_, vsnprintf_of_fits buf hsize hcap hread hmatch hfits hlen, ?_⟩
  have hstored := @take_toList_overlay cap buf (expansion pieces args ++ [0])
    (by rw [List.length_append, List.length_singleton]; omega)
  rw [← List.take_append_drop (expansion pieces args ++ [0]).length (overlay buf _).toList, hstored,
    List.append_assoc, cstr_append hno]
  simp [cstr]

end

/-- What a caller of `vsnprintf` relies on: the return value is the length of the expansion, and the
buffer holds as much of it as fits in front of a NUL. -/
def PrintsExpansion {cap : Nat} (buf : Vector UInt8 cap) (size : UInt32) (pieces : List FormatPiece)
    (args : List PrintArg) : Prop :=
  ∃ stored, vsnprintf buf size (pieces.flatMap FormatPiece.text) args
      = .ok (stored, ((expansion pieces args).length : Int)) ∧
    ∀ i : Fin cap, stored.get i
      = if i.val < min (expansion pieces args).length (size.toNat - 1) then
          Memory.load (expansion pieces args) i
        else if i.val = min (expansion pieces args).length (size.toNat - 1) then 0
        else buf.get i

section

variable {cap : Nat} {buf : Vector UInt8 cap} {size : UInt32} {pieces : List FormatPiece}
  {args : List PrintArg}

/-- What is returned is the counter, as an `int`. -/
theorem exists_of_printsExpansion (hsize : size ≠ 0) (h : PrintsExpansion buf size pieces args) :
    ∃ sink, vsnprintfLoop size (pieces.flatMap FormatPiece.text) args ⟨buf, 0⟩ = .ok sink ∧
      sink.pos.toInt32.toInt = ((expansion pieces args).length : Int) := by
  obtain ⟨stored, hprints, -⟩ := h
  unfold vsnprintf at hprints
  rw [if_neg hsize] at hprints
  obtain ⟨sink, hloop, hrest⟩ := exists_of_bind_eq_ok hprints
  obtain ⟨final, -, hret⟩ := exists_of_bind_eq_ok hrest
  exact ⟨sink, hloop, congrArg Prod.snd (Except.ok.inj hret)⟩

/-- An `int` is returned. -/
theorem length_lt_of_printsExpansion (hsize : size ≠ 0)
    (h : PrintsExpansion buf size pieces args) : (expansion pieces args).length < 2 ^ 31 := by
  obtain ⟨sink, -, hret⟩ := exists_of_printsExpansion hsize h
  have hint := sink.pos.toInt32.toInt_lt
  omega

/-- A character that has waited shows in the return value. -/
theorem noneWaits_of_printsExpansion (hsize : 1 ≤ size.toNat)
    (hread : ∀ q ∈ pieces, q.Readable) (hmatch : ArgsMatch pieces args)
    (h : PrintsExpansion buf size pieces args) :
    NoneWaits (size.toNat - 1) (formatOuts pieces args) := by
  have hne : size ≠ 0 := by
    rintro rfl
    exact absurd hsize (by decide)
  have hlen := length_lt_of_printsExpansion hne h
  obtain ⟨sink, hloop, hret⟩ := exists_of_printsExpansion hne h
  rw [vsnprintfLoop_eq hread hmatch hlen] at hloop
  by_contra hlate
  have hlt := Sink.pos_lt_of_late hsize (by rw [length_formatOuts]; omega) hlate hloop
  rw [length_formatOuts] at hlt
  -- the counter is below `2 ^ 31`, and so the `int` is its number
  have hint := toInt_toInt32 sink.pos
  rw [if_pos (by omega)] at hint
  omega

end

/-- **The output depends on the size by truncation alone** exactly when an `int` holds its length
and every character of the format and of its strings comes in front of what is cut off. -/
theorem vsnprintf_prints_iff {cap : Nat} (buf : Vector UInt8 cap) {size : UInt32}
    (hsize : 1 ≤ size.toNat) (hcap : size.toNat ≤ cap) {pieces : List FormatPiece}
    {args : List PrintArg} (hread : ∀ q ∈ pieces, q.Readable) (hmatch : ArgsMatch pieces args) :
    PrintsExpansion buf size pieces args ↔
      (expansion pieces args).length ≤ 2 ^ 31 - 1 ∧
        NoneWaits (size.toNat - 1) (formatOuts pieces args) := by
  constructor
  · intro h
    have hlen := length_lt_of_printsExpansion (by rintro rfl; exact absurd hsize (by decide)) h
    exact ⟨by omega, noneWaits_of_printsExpansion hsize hread hmatch h⟩
  · rintro ⟨hlen, hroom⟩
    exact ⟨_, vsnprintf_eq buf hsize hcap hread hmatch (by omega) hroom,
      getElem_overlay_nul buf (expansion pieces args) (size.toNat - 1)⟩

/-- `"[%02X:%5u%%%d"`. -/
def macPieces : List FormatPiece :=
  [.literal 91, .number .X true (some 2), .literal 58, .number .u false (some 5), .percent, .int]

/-- The pieces of the MAC format are read back from its text. -/
theorem readable_macPieces : ∀ q ∈ macPieces, q.Readable := by
  unfold macPieces
  simp only [List.forall_mem_cons, List.not_mem_nil, false_imp_iff, implies_true, and_true]
  refine ⟨show (91 : UInt8) ≠ 37 by decide, ?_, show (58 : UInt8) ≠ 37 by decide, ?_, trivial,
    trivial⟩
  · simp [FormatPiece.Readable]
  · simp [FormatPiece.Readable]

/-- Nine bytes of ten, with a NUL at the end: what is cut off are digits. -/
theorem vsnprintf_prints_mac :
    PrintsExpansion (Vector.replicate 12 9) 10 macPieces
      [.word 0xA, .word 42, .word 0x80000000] :=
  (@vsnprintf_prints_iff 12 (Vector.replicate 12 9) 10 (by decide) (by decide) macPieces
    [.word 0xA, .word 42, .word 0x80000000] readable_macPieces trivial).mpr
      ⟨by decide, by decide⟩

/-- `"abc"`. -/
def abcPieces : List FormatPiece := [.literal 97, .literal 98, .literal 99]

/-- The pieces of `abc` are its three characters. -/
theorem text_abcPieces : abcPieces.flatMap FormatPiece.text = ascii "abc" := by decide

/-- `b` waits for the front of a buffer of two bytes, and then `c` does. -/
theorem vsnprintf_abc_two :
    vsnprintf (Vector.replicate 2 0) 2 (ascii "abc") [] = .ok (#v[99, 0], 1) := by
  have hread : ∀ q ∈ abcPieces, q.Readable := by simp [abcPieces, FormatPiece.Readable]
  have hout : Sink.putOuts 2 ⟨Vector.replicate 2 0, 0⟩ (formatOuts abcPieces [])
      = .ok ⟨#v[99, 0], 1⟩ := by
    simp [abcPieces, formatOuts, Sink.putOuts, Sink.putOut, Sink.putNext, Sink.spin_eq, Out.next]
    rfl
  have hfinish : Sink.finish 2 (⟨#v[99, 0], 1⟩ : Sink 2) = .ok #v[99, 0] := rfl
  have hloop := (@vsnprintfLoop_eq 2 2 abcPieces [] hread trivial (by decide)
    ⟨Vector.replicate 2 0, 0⟩).trans hout
  rw [text_abcPieces] at hloop
  rw [vsnprintf, if_neg (by decide), hloop, ok_bind, hfinish, ok_bind]
  rfl

/-- In a buffer of one byte even `a` waits, and it does so for ever. -/
theorem vsnprintf_abc_one :
    vsnprintf (Vector.replicate 1 0) 1 (ascii "abc") [] = .error .forever := by
  have hread : ∀ q ∈ abcPieces, q.Readable := by simp [abcPieces, FormatPiece.Readable]
  have hfirst : ∀ sink : Sink 1, sink.putOut 1 (.next 97) = .error .forever := by
    intro sink
    unfold Sink.putOut
    rw [if_pos (show (Out.next 97).taken = true from rfl), Sink.putNext_size_one]
  have hloop := @vsnprintfLoop_eq 1 1 abcPieces [] hread trivial (by decide)
    ⟨Vector.replicate 1 0, 0⟩
  rw [text_abcPieces, show formatOuts abcPieces [] = [.next 97, .next 98, .next 99] from rfl,
    Sink.putOuts, hfirst, error_bind] at hloop
  rw [vsnprintf, if_neg (by decide), hloop, error_bind]

/-- Cut off in the middle of the format, the output is not the front of the expansion, or there is
no output at all. -/
theorem abc_notPrinted :
    ¬ PrintsExpansion (Vector.replicate 2 0) 2 abcPieces [] ∧
      ¬ PrintsExpansion (Vector.replicate 1 0) 1 abcPieces [] := by
  constructor
  · rintro ⟨stored, hprints, -⟩
    rw [text_abcPieces, vsnprintf_abc_two] at hprints
    have hret : (1 : Int) = (expansion abcPieces []).length :=
      congrArg Prod.snd (Except.ok.inj hprints)
    exact absurd hret (by decide)
  · rintro ⟨stored, hprints, -⟩
    rw [text_abcPieces, vsnprintf_abc_one] at hprints
    cases hprints

end SN110
