import SN110.Minilib.Sscanf
import SN110.Minilib.Utoa

/-!
# `sscanf` on its format (`minilib.c`)

`sscanf` as it runs: it reads each conversion off the format when it comes to it, and stores what it
converts behind the next argument, every store checked. `Minilib.Sscanf` has the formats as lists of
directives, and their texts are read as these directives.

* `readConversion_unsigned`, `readConversion_noneOf` and `scanSet_eq`: a directive read off the
  format, and what `%[` stores.
* `sscanfInto_text`: on the text of some directives `sscanf` counts and stores what `Minilib.Sscanf`
  says.
* `sscanfInto_keyValue`: the scan of a line into its key and its value.

## The two readings of a format

`sscanfInto` goes over the bytes of the format and of the string, the `sscanf` of `Minilib.Sscanf`
over a list of directives. They are compared by induction on the directives: a directive's text is
read back as the directive (`readConversion_unsigned`, `readConversion_noneOf`), the step it makes
on the string is the same, and what it stores fits, since a width is smaller than its array
(`ArgsFit`).
-/

namespace SN110

open Checked Memory

abbrev percentSign : UInt8 := 37
abbrev caret : UInt8 := 94
abbrev bracketOpen : UInt8 := 91
abbrev bracketClose : UInt8 := 93

/-- An argument of `sscanf`, with what it points to. -/
inductive Dest where
  | uint (val : UInt32)
  | int (val : Int32)
  | chars {cap : Nat} (buf : Vector UInt8 cap)

/-- A conversion, as it is read off the format behind its `%`. -/
inductive Conversion where
  | unsigned
  | signed
  | set (width : Int) (negate : Bool) (chars : List UInt8)

/-- The conversion that the format goes on with, and the format behind it. The set has room for 63
characters. -/
def readConversion (fmt : List UInt8) : Option (Conversion × List UInt8) :=
  let width := (decimalValue fmt).toInt32.toInt
  match fmt.dropWhile isDigit with
  | [] => none
  | c :: fmt =>
    -- `u` and `d`, which ignore the width, and `[`
    if c = 117 then some (.unsigned, fmt)
    else if c = 100 then some (.signed, fmt)
    else if c = bracketOpen then
      let negate := fmt.head? == some caret
      let fmt := if negate then fmt.tail else fmt
      let chars := (fmt.takeWhile (· ≠ bracketClose)).take 63
      let fmt := fmt.drop chars.length
      some (.set width negate chars, if fmt.head? = some bracketClose then fmt.tail else fmt)
    else none

/-- The loop of `%[`: `count` characters have been stored in `dst`. -/
def scanSet {cap : Nat} (maxw : Int) (negate : Bool) (chars : List UInt8) :
    List UInt8 → Vector UInt8 cap → Nat → Except Fault (Vector UInt8 cap × Nat × List UInt8)
  | [], dst, count => .ok (dst, count, [])
  | c :: str, dst, count =>
    if (count : Int) < maxw ∧ chars.contains c ≠ negate then do
      let dst ← put dst count c
      scanSet maxw negate chars str dst (count + 1)
    else .ok (dst, count, c :: str)

/-- One conversion: its argument afterwards, how much it counts, and the text behind it; no text if
it ends the scan. An argument of another type is not there to be loaded. -/
def Conversion.run (str : List UInt8) :
    Conversion → Dest → Except Fault (Dest × Option (Nat × List UInt8))
  | .unsigned, .uint old =>
    if (str.head?.map isDigit).getD false = true then
      .ok (.uint (decimalValue str), some (1, str.dropWhile isDigit))
    else .ok (.uint old, none)
  | .signed, .int old =>
    let negative := str.head? == some 45
    let str := if negative then str.tail else str
    if (str.head?.map isDigit).getD false = true then
      .ok (.int ((decimalValue str).toInt32 * (if negative then -1 else 1)),
        some (1, str.dropWhile isDigit))
    else .ok (.int old, none)
  | .set width negate chars, .chars buf => do
    let maxw := if width ≠ 0 then width else 0x7FFFFFFF
    let (buf, count, str) ← scanSet maxw negate chars str buf 0
    let buf ← put buf count 0
    .ok (.chars buf, some (if 0 < count then 1 else 0, str))
  | _, _ => .error (.load 0)

/-- Reading a conversion leaves a shorter format. -/
theorem length_readConversion {fmt rest : List UInt8} {conv : Conversion}
    (h : readConversion fmt = some (conv, rest)) : rest.length < fmt.length := by
  have hdrop : (fmt.dropWhile isDigit).length ≤ fmt.length := (List.dropWhile_suffix _).length_le
  unfold readConversion at h
  cases hfmt : fmt.dropWhile isDigit with
  | nil =>
    rw [hfmt] at h
    cases h
  | cons c behind =>
    rw [hfmt] at h hdrop
    rw [List.length_cons] at hdrop
    dsimp only at h
    -- a number's letter is dropped, of a set the bracket and what is in it
    split_ifs at h with hu hd hset
    · cases h
      exact hdrop
    · cases h
      exact hdrop
    all_goals
      cases h
      simp only [List.length_tail, List.length_drop]
      omega

/-- `sscanf`: its return value, and its arguments afterwards. -/
def sscanfInto (fmt str : List UInt8) (args : List Dest) : Except Fault (Nat × List Dest) :=
  match fmt, str with
  | f :: fmt, c :: str =>
    if f = percentSign then
      match _hread : readConversion fmt with
      | none => .ok (0, args)
      | some (conv, rest) =>
        match args with
        | [] => .error (.load 0)
        | dest :: args => do
          let (dest, next) ← conv.run (c :: str) dest
          match next with
          | none => .ok (0, dest :: args)
          | some (counted, str) => do
            let (matched, args) ← sscanfInto rest str args
            .ok (counted + matched, dest :: args)
    else if f = c then sscanfInto fmt str args
    else .ok (0, args)
  | _, _ => .ok (0, args)
termination_by fmt.length
decreasing_by
  · exact Nat.lt_succ_of_lt (length_readConversion _hread)
  · exact Nat.lt_succ_self _

/-! ## The texts of directives -/

/-- A directive as it stands in a format. -/
def Directive.text : Directive → List UInt8
  | .unsigned => [percentSign, 117]
  | .noneOf width set =>
    percentSign :: utoa width ++ bracketOpen :: caret :: set ++ [bracketClose]
  | .literal c => [c]

/-- The directive is what its text is read as: a literal is no `%`, a set ends at its bracket. -/
def Directive.Readable : Directive → Prop
  | .unsigned => True
  | .noneOf width set => 0 < width ∧ width < 2 ^ 31 ∧ set.length ≤ 63 ∧ bracketClose ∉ set
  | .literal c => c ≠ percentSign

/-- The arguments are the ones the directives take, with room for what they store. -/
def ArgsFit : List Directive → List Dest → Prop
  | [], [] => True
  | .unsigned :: fmt, .uint _ :: args => ArgsFit fmt args
  | .noneOf width _ :: fmt, @Dest.chars cap _ :: args => width < cap ∧ ArgsFit fmt args
  | .literal _ :: fmt, args => ArgsFit fmt args
  | _, _ => False

/-- The value is of the kind that the directive converts to. -/
def Directive.Gives : Directive → Scanned → Prop
  | .unsigned, .number _ => True
  | .noneOf _ _, .text _ => True
  | _, _ => False

/-- The argument after a value has been stored. -/
def Dest.store : Dest → Scanned → Dest
  | .uint _, .number val => .uint val
  | .chars buf, .text s => .chars (overlay buf (s ++ [0]))
  | dest, _ => dest

/-- `%u` is the conversion to an unsigned number. -/
theorem readConversion_unsigned (fmt : List UInt8) :
    readConversion (117 :: fmt) = some (.unsigned, fmt) := rfl

/-- A set between its brackets is read back, with its width. -/
theorem readConversion_noneOf {width : Nat} {set : List UInt8} (hwidth : width < 2 ^ 31)
    (hlen : set.length ≤ 63) (hset : bracketClose ∉ set) (fmt : List UInt8) :
    readConversion (utoa width ++ bracketOpen :: caret :: set ++ bracketClose :: fmt)
      = some (.set width true set, fmt) := by
  have hten : width < 10 ^ 10 := by omega
  have hdigits := isDigit_of_mem_utoa hten
  -- the width is read back from its digits
  have hvalue : (decimalValue (utoa width ++ bracketOpen :: caret :: (set ++ bracketClose :: fmt))
      ).toInt32.toInt = width := by
    rw [decimalValue_append hdigits (by simp; decide), digitsValue_utoa hten,
      UInt32.toInt32_ofNat', Int32.toInt_ofNat_of_lt hwidth]
  have hdrop :
      (utoa width ++ bracketOpen :: caret :: (set ++ bracketClose :: fmt)).dropWhile isDigit
      = bracketOpen :: caret :: (set ++ bracketClose :: fmt) := by
    rw [List.dropWhile_append_of_pos hdigits]
    rfl
  have htake : ((set ++ bracketClose :: fmt).takeWhile (· ≠ bracketClose)).take 63 = set := by
    rw [List.takeWhile_append_of_pos (by simpa using fun c hc => ne_of_mem_of_not_mem hc hset)]
    simpa using hlen
  rw [List.append_assoc, List.cons_append, List.cons_append]
  unfold readConversion
  rw [hvalue, hdrop]
  dsimp only
  rw [if_neg (by decide), if_neg (by decide), if_pos rfl]
  simp only [List.head?_cons, beq_self_eq_true, if_true, List.tail_cons]
  rw [htake, List.drop_left]
  simp

/-! ## One conversion -/

/-- `%N[^…]` stores what the directive takes. -/
theorem scanSet_eq {cap width : Nat} (hcap : width ≤ cap) (set : List UInt8)
    (dst : Vector UInt8 cap) (str : List UInt8) {out : List UInt8} (hout : out.length ≤ width) :
    scanSet width true set str (overlay dst out) out.length
      = .ok (overlay dst (out ++ spanNoneOf (width - out.length) set str),
          out.length + (spanNoneOf (width - out.length) set str).length,
          str.drop (spanNoneOf (width - out.length) set str).length) := by
  induction str generalizing out with
  | nil => simp [scanSet, spanNoneOf]
  | cons c str ih =>
    unfold scanSet
    by_cases hgo : out.length < width ∧ c ∉ set
    · -- one character is stored, and the rest behind it
      obtain ⟨hroom, hc⟩ := hgo
      obtain ⟨left, hleft⟩ : ∃ left, width - out.length = left + 1 :=
        ⟨width - out.length - 1, by omega⟩
      have htaken : spanNoneOf (width - out.length) set (c :: str)
          = c :: spanNoneOf left set str := by
        simp [spanNoneOf, hleft, hc]
      have hnext := @ih (out ++ [c]) (by rw [List.length_append, List.length_singleton]; omega)
      rw [List.length_append, List.length_singleton,
        show width - (out.length + 1) = left by omega] at hnext
      rw [if_pos ⟨by omega, by simpa using hc⟩, put_overlay c (by omega), ok_bind, hnext, htaken]
      simp [Nat.add_assoc, Nat.add_comm 1]
    · -- the room is used up, or the character is one of the set
      have htaken : spanNoneOf (width - out.length) set (c :: str) = [] := by
        unfold spanNoneOf
        by_cases hc : c ∈ set
        · simp [hc]
        · have hfull : width - out.length = 0 := by
            have hnot : ¬ out.length < width := fun h => hgo ⟨h, hc⟩
            omega
          rw [hfull, List.take_zero]
      rw [if_neg (by simpa using hgo), htaken]
      simp

/-- A negated set with a width stores what it spans and a NUL, and fails where it spans
nothing. -/
theorem run_noneOf {cap width : Nat} (hpos : 0 < width) (hcap : width < cap) (set : List UInt8)
    (buf : Vector UInt8 cap) (str : List UInt8) :
    (Conversion.set width true set).run str (.chars buf)
      = .ok (.chars (overlay buf (spanNoneOf width set str ++ [0])),
          some (if spanNoneOf width set str = [] then 0 else 1,
            str.drop (spanNoneOf width set str).length)) := by
  have hscan := @scanSet_eq cap width (Nat.le_of_lt hcap) set buf str [] (Nat.zero_le _)
  have hlen := @length_spanNoneOf_le width set str
  rw [overlay_nil, List.length_nil, Nat.sub_zero, List.nil_append, Nat.zero_add] at hscan
  show (scanSet (if (width : Int) ≠ 0 then (width : Int) else 0x7FFFFFFF) true set str buf 0 >>= _)
    = _
  rw [if_pos (by omega), hscan, ok_bind]
  dsimp only
  rw [put_overlay 0 (by omega), ok_bind]
  cases spanNoneOf width set str <;> simp

/-! ## The whole scan -/

/-- At the end of the text no more is converted. -/
theorem sscanfInto_nil (fmt : List UInt8) (args : List Dest) :
    sscanfInto fmt [] args = .ok (0, args) := by
  unfold sscanfInto
  cases fmt <;> rfl

/-- A literal is matched and passed, or ends the scan. -/
theorem sscanfInto_literal {f : UInt8} (hf : f ≠ percentSign) (fmt : List UInt8) (c : UInt8)
    (str : List UInt8) (args : List Dest) :
    sscanfInto (f :: fmt) (c :: str) args
      = if f = c then sscanfInto fmt str args else .ok (0, args) := by
  rw [sscanfInto, if_neg hf]

/-- A conversion stores into its destination, and the scan goes on while it succeeds. -/
theorem sscanfInto_conversion {fmt rest : List UInt8} {conv : Conversion}
    (h : readConversion fmt = some (conv, rest)) (c : UInt8) (str : List UInt8) (dest : Dest)
    (args : List Dest) :
    sscanfInto (percentSign :: fmt) (c :: str) (dest :: args)
      = (conv.run (c :: str) dest >>= fun (dest, next) =>
          match next with
          | none => .ok (0, dest :: args)
          | some (counted, str) => do
            let (matched, args) ← sscanfInto rest str args
            .ok (counted + matched, dest :: args)) := by
  rw [sscanfInto, if_pos rfl]
  split
  · rename_i hnone
    rw [h] at hnone
    cases hnone
  · rename_i conv' rest' hsome
    rw [h] at hsome
    cases hsome
    rfl

/-- A `%u` has an unsigned variable as its destination. -/
theorem argsFit_unsigned {fmt : List Directive} {args : List Dest}
    (h : ArgsFit (.unsigned :: fmt) args) :
    ∃ old rest, args = .uint old :: rest ∧ ArgsFit fmt rest := by
  cases args with
  | nil => exact h.elim
  | cons dest args =>
    cases dest with
    | uint old => exact ⟨old, args, rfl, h⟩
    | int old => exact h.elim
    | chars buf => exact h.elim

/-- A set has a buffer larger than its width as its destination. -/
theorem argsFit_noneOf {width : Nat} {set : List UInt8} {fmt : List Directive} {args : List Dest}
    (h : ArgsFit (.noneOf width set :: fmt) args) :
    ∃ (cap : Nat) (buf : Vector UInt8 cap) (rest : List Dest),
      args = .chars buf :: rest ∧ width < cap ∧ ArgsFit fmt rest := by
  cases args with
  | nil => exact h.elim
  | cons dest args =>
    cases dest with
    | uint old => exact h.elim
    | int old => exact h.elim
    | @chars cap buf => exact ⟨cap, buf, args, rfl, h⟩

/-- There are no more values than arguments. -/
theorem length_sscanf_le {fmt : List Directive} {args : List Dest} (hfit : ArgsFit fmt args)
    (s : List UInt8) : (sscanf fmt s).length ≤ args.length := by
  induction fmt generalizing args s with
  | nil => exact Nat.zero_le _
  | cons d fmt ih =>
    cases s with
    | nil => exact Nat.zero_le _
    | cons c s =>
      -- a directive that stores takes one of the destinations
      cases d with
      | unsigned =>
        obtain ⟨old, rest, rfl, hrest⟩ := argsFit_unsigned hfit
        rw [sscanf]
        split_ifs
        · exact Nat.succ_le_succ (ih hrest _)
        · exact Nat.zero_le _
      | noneOf width set =>
        obtain ⟨cap, buf, rest, rfl, -, hrest⟩ := argsFit_noneOf hfit
        by_cases htaken : spanNoneOf width set (c :: s) = []
        · rw [sscanf_noneOf_nil htaken]
          exact Nat.le_succ_of_le (ih hrest _)
        · rw [sscanf_noneOf htaken]
          exact Nat.succ_le_succ (ih hrest _)
      | literal x =>
        rw [sscanf]
        split_ifs
        · exact ih hfit _
        · exact Nat.zero_le _

/-- Each value is one that a directive of the format gives. -/
theorem gives_of_mem_sscanf {fmt : List Directive} {s : List UInt8} {v : Scanned}
    (h : v ∈ sscanf fmt s) : ∃ d ∈ fmt, d.Gives v := by
  induction fmt generalizing s with
  | nil => cases h
  | cons d fmt ih =>
    have hlater : ∀ t, v ∈ sscanf fmt t → ∃ d' ∈ d :: fmt, d'.Gives v := fun t ht =>
      let ⟨d', hd', hgives⟩ := ih ht
      ⟨d', List.mem_cons_of_mem _ hd', hgives⟩
    cases s with
    | nil => cases h
    | cons c s =>
      -- the value is the first directive's, or comes from those behind it
      cases d with
      | unsigned =>
        rw [sscanf] at h
        split_ifs at h
        · rcases List.mem_cons.mp h with rfl | hlast
          · exact ⟨.unsigned, List.mem_cons_self, trivial⟩
          · exact hlater _ hlast
        · cases h
      | noneOf width set =>
        by_cases htaken : spanNoneOf width set (c :: s) = []
        · rw [sscanf_noneOf_nil htaken] at h
          exact hlater _ h
        · rw [sscanf_noneOf htaken] at h
          rcases List.mem_cons.mp h with rfl | hlast
          · exact ⟨.noneOf width set, List.mem_cons_self, trivial⟩
          · exact hlater _ hlast
      | literal x =>
        rw [sscanf] at h
        split_ifs at h
        · exact hlater _ h
        · cases h

/-- **`sscanf` on the text of a format** counts what the directives convert, and if that is
everything, it stores it. -/
theorem sscanfInto_text {fmt : List Directive} {args : List Dest}
    (hread : ∀ d ∈ fmt, d.Readable) (hfit : ArgsFit fmt args) (s : List UInt8) :
    ∃ after, sscanfInto (fmt.flatMap Directive.text) s args = .ok ((sscanf fmt s).length, after) ∧
      ((sscanf fmt s).length = args.length →
        after = List.zipWith Dest.store args (sscanf fmt s)) := by
  induction fmt generalizing args s with
  | nil =>
    -- no directive takes an argument
    cases args with
    | nil => exact ⟨[], by unfold sscanfInto; rfl, fun _ => rfl⟩
    | cons dest args => exact hfit.elim
  | cons d fmt ih =>
    rw [List.forall_mem_cons] at hread
    obtain ⟨hd, hread⟩ := hread
    rw [List.flatMap_cons]
    cases s with
    | nil =>
      refine ⟨args, sscanfInto_nil _ _, fun hall => ?_⟩
      have hnil : args = [] := List.eq_nil_of_length_eq_zero hall.symm
      rw [hnil]
      rfl
    | cons c s =>
      cases d with
      | unsigned =>
        obtain ⟨old, rest, rfl, hrest⟩ := argsFit_unsigned hfit
        rw [sscanf]
        show ∃ after, sscanfInto (percentSign :: 117 :: fmt.flatMap Directive.text) _ _ = _ ∧ _
        rw [sscanfInto_conversion (readConversion_unsigned _), Conversion.run]
        by_cases hdigit : isDigit c = true
        · obtain ⟨after, hafter, hstored⟩ := ih hread hrest ((c :: s).dropWhile isDigit)
          rw [if_pos hdigit, if_pos (by simpa using hdigit), ok_bind]
          dsimp only
          rw [hafter, ok_bind]
          refine ⟨.uint (decimalValue (c :: s)) :: after, ?_, fun hall => ?_⟩
          · rw [List.length_cons, Nat.add_comm]
          · rw [hstored (Nat.succ.inj hall)]
            rfl
        · rw [if_neg hdigit, if_neg (by simpa using hdigit), ok_bind]
          exact ⟨_, rfl, fun hall => absurd hall.symm (Nat.succ_ne_zero _)⟩
      | noneOf width set =>
        obtain ⟨cap, buf, rest, rfl, hcap, hrest⟩ := argsFit_noneOf hfit
        obtain ⟨hpos, hwidth, hlen, hset⟩ := hd
        have htext : (Directive.noneOf width set).text ++ fmt.flatMap Directive.text
            = percentSign :: (utoa width ++ bracketOpen :: caret :: set
              ++ bracketClose :: fmt.flatMap Directive.text) := by
          simp [Directive.text]
        obtain ⟨after, hafter, hstored⟩ :=
          ih hread hrest ((c :: s).drop (spanNoneOf width set (c :: s)).length)
        rw [htext, sscanfInto_conversion (readConversion_noneOf hwidth hlen hset _),
          run_noneOf hpos hcap, ok_bind]
        dsimp only
        rw [hafter, ok_bind]
        by_cases htaken : spanNoneOf width set (c :: s) = []
        · -- nothing is counted, and the other directives cannot make up for it
          have hle := length_sscanf_le hrest (c :: s)
          rw [sscanf_noneOf_nil htaken, if_pos htaken, htaken, List.length_nil, List.drop_zero,
            Nat.zero_add]
          refine ⟨_, rfl, fun hall => ?_⟩
          rw [List.length_cons] at hall
          omega
        · rw [sscanf_noneOf htaken, if_neg htaken]
          refine ⟨.chars (overlay buf (spanNoneOf width set (c :: s) ++ [0])) :: after, ?_,
            fun hall => ?_⟩
          · rw [List.length_cons, Nat.add_comm]
          · rw [hstored (Nat.succ.inj hall)]
            rfl
      | literal x =>
        show ∃ after, sscanfInto (x :: fmt.flatMap Directive.text) _ _ = _ ∧ _
        rw [sscanfInto_literal hd, sscanf]
        split_ifs
        · exact ih hread hfit s
        · refine ⟨args, rfl, fun hall => ?_⟩
          have hnil : args = [] := List.eq_nil_of_length_eq_zero hall.symm
          rw [hnil]
          rfl

/-! ## A line's key and value -/

/-- The first `=` of the line is at index `k`. -/
def FirstEquals (str : List UInt8) (k : Nat) : Prop :=
  str[k]? = some equals ∧ equals ∉ str.take k

/-- The line has a key of 1 to 63 characters before its first `=`, at index `k`, and its value does
not end before it starts. -/
structure HasKeyValue (str : List UInt8) (k : Nat) : Prop where
  first : FirstEquals str k
  pos : 1 ≤ k
  le : k ≤ 63
  value : ∃ c, str[k + 1]? = some c ∧ c ≠ cr ∧ c ≠ lf

/-- The longest run of at most `width` characters without a line end. -/
def lineValue (width : Nat) (s : List UInt8) : List UInt8 :=
  (s.takeWhile fun c => c ≠ cr ∧ c ≠ lf).take width

/-- Spanning up to a line end gives the rest of the line. -/
theorem spanNoneOf_lineEnd (width : Nat) (s : List UInt8) :
    spanNoneOf width [lf, cr] s = lineValue width s := by
  unfold spanNoneOf lineValue
  congr 2
  funext c
  by_cases hc : c = cr <;> by_cases hl : c = lf <;> simp [hc, hl]

/-- The rest of the line is not empty when something stands before its end. -/
theorem lineValue_ne_nil {s : List UInt8} :
    lineValue 191 s ≠ [] ↔ ∃ c, s.head? = some c ∧ c ≠ cr ∧ c ≠ lf := by
  cases s with
  | nil => simp [lineValue]
  | cons c t => by_cases hc : c = cr <;> by_cases hl : c = lf <;> simp [lineValue, hc, hl]

/-- What both conversions of a line take is text. -/
theorem exists_of_length_keyValue {line : List UInt8}
    (h : (sscanf keyValueFormat line).length = 2) :
    ∃ key value, sscanf keyValueFormat line = [.text key, .text value] := by
  have htext : ∀ v ∈ sscanf keyValueFormat line, ∃ t, v = .text t := by
    intro v hv
    obtain ⟨d, hd, hgives⟩ := gives_of_mem_sscanf hv
    simp only [keyValueFormat, List.mem_cons, List.not_mem_nil, or_false] at hd
    cases v with
    | text t => exact ⟨t, rfl⟩
    | number n => rcases hd with rfl | rfl | rfl <;> exact hgives.elim
  obtain ⟨x, y, hxy⟩ := List.length_eq_two.mp h
  rw [hxy] at htext ⊢
  obtain ⟨key, rfl⟩ := htext x (by simp)
  obtain ⟨value, rfl⟩ := htext y (by simp)
  exact ⟨key, value, rfl⟩

/-- The two conversions of a line, by the index of its first `=`. -/
theorem sscanf_of_hasKeyValue {line : List UInt8} {k : Nat} (h : HasKeyValue line k) :
    sscanf keyValueFormat line
      = [.text (line.take k), .text (lineValue 191 (line.drop (k + 1)))] := by
  obtain ⟨hat, hbefore⟩ := h.first
  obtain ⟨hlt, hget⟩ := List.getElem?_eq_some_iff.mp hat
  have hlength : (line.take k).length = k := List.length_take_of_le (Nat.le_of_lt hlt)
  rw [sscanf_keyValue]
  refine ⟨line.drop (k + 1), ?_, hbefore, ?_, ?_, (spanNoneOf_lineEnd 191 _).symm, ?_⟩
  · rw [← hget, ← List.drop_eq_getElem_cons hlt, List.take_append_drop]
  · intro hnil
    rw [hnil] at hlength
    exact absurd hlength.symm (Nat.ne_of_gt h.pos)
  · rw [hlength]
    exact h.le
  · rw [lineValue_ne_nil, List.head?_drop]
    exact h.value

/-- Where both conversions succeed, the line has a name, an `=` and a value. -/
theorem hasKeyValue_of_sscanf {line key value : List UInt8}
    (h : sscanf keyValueFormat line = [.text key, .text value]) : HasKeyValue line key.length := by
  obtain ⟨rest, rfl, hbefore, hne, hlen, rfl, hvalue⟩ := (sscanf_keyValue line key value).mp h
  rw [spanNoneOf_lineEnd, lineValue_ne_nil] at hvalue
  refine ⟨⟨?_, ?_⟩, List.length_pos_of_ne_nil hne, hlen, ?_⟩
  · simp
  · rwa [List.take_left]
  · obtain ⟨c, hc, hends⟩ := hvalue
    refine ⟨c, ?_, hends⟩
    rw [List.getElem?_append_right (by omega), Nat.add_sub_cancel_left, List.getElem?_cons_succ,
      ← List.head?_eq_getElem?]
    exact hc

/-- **The scan of a line** into a key of 64 bytes and a value of 192 returns 2 exactly when the line
has a key and a value, and then stores the two of them. -/
theorem sscanfInto_keyValue (line : List UInt8) (key : Vector UInt8 64) (value : Vector UInt8 192) :
    ∃ matched after,
      sscanfInto (ascii "%63[^=]=%191[^\n\r]") line [.chars key, .chars value]
        = .ok (matched, after) ∧
      (matched = 2 ↔ ∃ k, HasKeyValue line k) ∧
      ∀ k, HasKeyValue line k →
        after = [.chars (overlay key (line.take k ++ [0])),
          .chars (overlay value (lineValue 191 (line.drop (k + 1)) ++ [0]))] := by
  have hformat : keyValueFormat.flatMap Directive.text = ascii "%63[^=]=%191[^\n\r]" := by decide
  have hread : ∀ d ∈ keyValueFormat, d.Readable := by
    simp only [keyValueFormat, List.forall_mem_cons, List.not_mem_nil, false_imp_iff, implies_true,
      and_true]
    refine ⟨⟨?_, ?_, ?_, ?_⟩, show equals ≠ percentSign from ?_, ?_, ?_, ?_, ?_⟩ <;> decide
  have hfit : ArgsFit keyValueFormat [.chars key, .chars value] :=
    ⟨by decide, by decide, trivial⟩
  obtain ⟨after, hscan, hstored⟩ := sscanfInto_text hread hfit line
  rw [hformat] at hscan
  refine ⟨_, after, hscan, ⟨fun hall => ?_, fun ⟨k, hk⟩ => ?_⟩, fun k hk => ?_⟩
  · obtain ⟨k, v, hkv⟩ := exists_of_length_keyValue hall
    exact ⟨k.length, hasKeyValue_of_sscanf hkv⟩
  · rw [sscanf_of_hasKeyValue hk]
    rfl
  · rw [sscanf_of_hasKeyValue hk] at hstored
    exact hstored rfl

end SN110
