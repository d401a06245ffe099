import SN110.Lib.Pieces

/-!
# The lines of a text

A text is taken apart behind every separator. A line (`IsLine`) has the separator at its end and
nowhere else; the last part of a text need not be one.

* `lines_append`: a text that ends with the separator and another text keep their lines.
* `isLine_of_mem_lines`: a text that ends with the separator has nothing but lines.
* `pieces_eq_lines`: a reader with a buffer for the whole text sees the lines.
* `wholeLines`: the lines of a list that fit into a buffer from the first one on, with
  `flatten_wholeLines_isPrefix`.
* `length_filter_flatMap` and `filter_flatMap`: what is found of some lines in a text in which the
  others have been changed.
-/

namespace Lines

section

variable {α : Type*}

/-- A character put before a text that is taken apart. -/
def consLine (c : α) : List (List α) → List (List α)
  | [] => [[c]]
  | l :: ls => (c :: l) :: ls

/-- A character put before the first line stands before all of them. -/
theorem flatten_consLine (c : α) (ls : List (List α)) :
    (consLine c ls).flatten = c :: ls.flatten := by
  cases ls <;> rfl

variable [DecidableEq α] (sep : α)

/-- The separator is at the end, and nowhere else. -/
def IsLine (l : List α) : Prop := l.getLast? = some sep ∧ sep ∉ l.dropLast

/-- The lines of a text. -/
def lines : List α → List (List α)
  | [] => []
  | c :: s => if c = sep then [c] :: lines s else consLine c (lines s)

variable {sep}

/-- The lines of a list make up the list. -/
theorem flatten_lines (sep : α) (s : List α) : (lines sep s).flatten = s := by
  induction s with
  | nil => rfl
  | cons c s ih =>
    unfold lines
    split_ifs
    · rw [List.flatten_cons, ih]
      rfl
    · rw [flatten_consLine, ih]

/-- A line in front of a list is the first of its lines. -/
theorem lines_isLine_append {l : List α} (h : IsLine sep l) (s : List α) :
    lines sep (l ++ s) = l :: lines sep s := by
  induction l with
  | nil => cases h.1
  | cons c l ih =>
    -- a line of one character is the separator; in a longer one the head is another character
    cases l with
    | nil =>
      obtain rfl : c = sep := by simpa using h.1
      show (if c = c then [c] :: lines c s else _) = _
      rw [if_pos rfl]
    | cons d l =>
      obtain ⟨hlast, hnot⟩ := h
      rw [List.dropLast_cons_cons, List.mem_cons, not_or] at hnot
      have hrest : lines sep (d :: l ++ s) = (d :: l) :: lines sep s := by
        refine ih ⟨?_, hnot.2⟩
        rwa [List.getLast?_cons_cons] at hlast
      show (if c = sep then _ else consLine c (lines sep (d :: l ++ s))) = _
      rw [if_neg (Ne.symm hnot.1), hrest]
      rfl

/-- Lines in front of a list are the first of its lines. -/
theorem lines_flatten_append {ls : List (List α)} (h : ∀ l ∈ ls, IsLine sep l) (s : List α) :
    lines sep (ls.flatten ++ s) = ls ++ lines sep s := by
  induction ls with
  | nil => rfl
  | cons l ls ih =>
    rw [List.forall_mem_cons] at h
    rw [List.flatten_cons, List.append_assoc, lines_isLine_append h.1, ih h.2]
    rfl

/-- **A text that ends with the separator** is made of lines. -/
theorem isLine_of_mem_lines {s : List α} (h : s.getLast? = some sep) :
    ∀ l ∈ lines sep s, IsLine sep l := by
  induction s with
  | nil => cases h
  | cons c s ih =>
    by_cases hc : c = sep
    · subst hc
      have hlines : lines c (c :: s) = [c] :: lines c s := if_pos rfl
      rw [hlines, List.forall_mem_cons]
      refine ⟨⟨rfl, List.not_mem_nil⟩, ?_⟩
      cases s with
      | nil => exact List.forall_mem_nil _
      | cons d s => exact ih (by rwa [List.getLast?_cons_cons] at h)
    · cases s with
      | nil => exact absurd (by simpa using h) hc
      | cons d s =>
        rw [List.getLast?_cons_cons] at h
        have hlines : lines sep (c :: d :: s) = consLine c (lines sep (d :: s)) := if_neg hc
        have hflat := flatten_lines sep (d :: s)
        have hall := ih h
        rw [hlines]
        -- the character goes before the first of the lines that follow
        cases hrest : lines sep (d :: s) with
        | nil =>
          rw [hrest] at hflat
          cases hflat
        | cons l ls =>
          rw [hrest, List.forall_mem_cons] at hall
          obtain ⟨⟨hlast, hnot⟩, hls⟩ := hall
          have hne : l ≠ [] := by
            rintro rfl
            cases hlast
          refine List.forall_mem_cons.mpr ⟨⟨?_, ?_⟩, hls⟩
          · rw [List.getLast?_cons_of_ne_nil hne]
            exact hlast
          · rw [List.dropLast_cons_of_ne_nil hne, List.mem_cons, not_or]
            exact ⟨Ne.symm hc, hnot⟩

/-- Behind a separator the lines start anew. -/
theorem lines_append {s : List α} (h : s.getLast? = some sep) (t : List α) :
    lines sep (s ++ t) = lines sep s ++ lines sep t := by
  -- the first text is its own lines put together
  conv_lhs => rw [← flatten_lines sep s]
  exact lines_flatten_append (isLine_of_mem_lines h) t

/-- A text without the separator goes to the first line of what follows. -/
theorem lines_append_of_notMem {p s l : List α} {ls : List (List α)} (h : sep ∉ p)
    (hs : lines sep s = l :: ls) : lines sep (p ++ s) = (p ++ l) :: ls := by
  induction p with
  | nil => exact hs
  | cons c p ih =>
    rw [List.mem_cons, not_or] at h
    show (if c = sep then _ else consLine c (lines sep (p ++ s))) = _
    rw [if_neg (Ne.symm h.1), ih h.2]
    rfl

/-- A reader whose buffer holds the whole text takes it line by line. -/
theorem pieces_eq_lines {max : Nat} (hmax : 0 < max) {s : List α} (h : s.getLast? = some sep)
    (hlen : s.length ≤ max) : Pieces.pieces sep max s = lines sep s := by
  have hflat := flatten_lines sep s
  have hall : ∀ l ∈ lines sep s, Pieces.IsPiece sep max l ∧ Pieces.Closed sep max l := by
    intro l hl
    obtain ⟨hlast, hnot⟩ := isLine_of_mem_lines h l hl
    have hle := (List.sublist_flatten_of_mem hl).length_le
    rw [hflat] at hle
    refine ⟨⟨?_, Nat.le_trans hle hlen, hnot⟩, Or.inl hlast⟩
    rintro rfl
    cases hlast
  have hpieces := Pieces.pieces_flatten_append hmax hall []
  rwa [List.append_nil, hflat, Pieces.pieces_nil, List.append_nil] at hpieces

end

/-! ## A buffer of lines -/

section

variable {α : Type*}

/-- The lines that fit into a buffer, up to the first one that does not. -/
def wholeLines : Nat → List (List α) → List (List α)
  | _, [] => []
  | n, l :: ls => if l.length ≤ n then l :: wholeLines (n - l.length) ls else []

/-- The whole lines within a length are the first of the lines. -/
theorem wholeLines_isPrefix (n : Nat) (ls : List (List α)) : wholeLines n ls <+: ls := by
  induction ls generalizing n with
  | nil => exact List.prefix_rfl
  | cons l ls ih =>
    unfold wholeLines
    split_ifs
    · exact (List.prefix_cons_inj l).mpr (ih _)
    · exact List.nil_prefix

/-- They stand at the beginning of what the length takes. -/
theorem flatten_wholeLines_isPrefix (n : Nat) (ls : List (List α)) :
    (wholeLines n ls).flatten <+: ls.flatten.take n := by
  induction ls generalizing n with
  | nil => simp [wholeLines]
  | cons l ls ih =>
    unfold wholeLines
    split_ifs with hfits
    · rw [List.flatten_cons, List.flatten_cons, List.take_append, List.take_of_length_le hfits]
      exact (List.prefix_append_right_inj l).mpr (ih _)
    · exact List.nil_prefix

/-- Where everything fits, every line is whole. -/
theorem wholeLines_of_length_le {n : Nat} {ls : List (List α)} (h : ls.flatten.length ≤ n) :
    wholeLines n ls = ls := by
  induction ls generalizing n with
  | nil => rfl
  | cons l ls ih =>
    rw [List.flatten_cons, List.length_append] at h
    unfold wholeLines
    rw [if_pos (by omega), ih (by omega)]

end

/-! ## Finding lines again -/

section

variable {β : Type*} (wanted kept : β → Bool) (f : β → List β)

/-- Some lines are kept, the others replaced by what `f` makes of them: so many wanted lines are
found. -/
theorem length_filter_flatMap {ls : List β} (hkept : ∀ l ∈ ls, kept l = true → f l = [l])
    (hwanted : ∀ l ∈ ls, kept l = true → wanted l = true) :
    ((ls.flatMap f).filter wanted).length
      = (ls.filter kept).length
        + (((ls.filter fun l => !kept l).flatMap f).filter wanted).length := by
  induction ls with
  | nil => rfl
  | cons l ls ih =>
    rw [List.forall_mem_cons] at hkept hwanted
    have hrest := ih hkept.2 hwanted.2
    rw [List.flatMap_cons, List.filter_append, List.length_append, hrest]
    -- a kept line is found once; a replaced one counts with what was made of it
    cases hl : kept l with
    | true =>
      have hfind : ((f l).filter wanted).length = 1 := by
        rw [hkept.1 hl, List.filter_cons_of_pos (hwanted.1 hl)]
        rfl
      rw [hfind, List.filter_cons_of_pos hl, List.filter_cons_of_neg (by simp [hl]),
        List.length_cons]
      omega
    | false =>
      rw [List.filter_cons_of_neg (by simp [hl]), List.filter_cons_of_pos (by simp [hl]),
        List.flatMap_cons, List.filter_append, List.length_append]
      omega

/-- When nothing wanted is made of the others, what is found are the lines kept, in order. -/
theorem filter_flatMap {ls : List β} (hkept : ∀ l ∈ ls, kept l = true → f l = [l])
    (hwanted : ∀ l ∈ ls, kept l = true → wanted l = true)
    (hmade : ∀ m ∈ (ls.filter fun l => !kept l).flatMap f, wanted m ≠ true) :
    (ls.flatMap f).filter wanted = ls.filter kept := by
  induction ls with
  | nil => rfl
  | cons l ls ih =>
    rw [List.forall_mem_cons] at hkept hwanted
    rw [List.flatMap_cons, List.filter_append]
    cases hl : kept l with
    | true =>
      rw [List.filter_cons_of_neg (by simp [hl])] at hmade
      rw [hkept.1 hl, List.filter_cons_of_pos (hwanted.1 hl), List.filter_cons_of_pos hl,
        ih hkept.2 hwanted.2 hmade]
      rfl
    | false =>
      rw [List.filter_cons_of_pos (by simp [hl]), List.flatMap_cons, List.forall_mem_append]
        at hmade
      rw [List.filter_cons_of_neg (by simp [hl]), ih hkept.2 hwanted.2 hmade.2,
        List.filter_eq_nil_iff.mpr hmade.1]
      rfl

end

end Lines
