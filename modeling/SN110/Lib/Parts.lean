import SN110.Lib.Pieces
import Mathlib.Data.List.Chain
import Mathlib.Data.List.TakeWhile

/-!
# The parts of a text

`List.splitOn` takes a text apart at every separator, and `takeWhile` up to the first one. This
module owns

* `takeWhile_append_sep` and its like: the text before a separator and behind it;
* `exists_joined_splitOn`: the parts put together with the separators between them (`joined`) are
  the text;
* what a reader with a bounded buffer makes of the parts. It sees a long part in stretches of `max`
  symbols (`stretch`), and `reads` is what it reads in a piece. A part is read as one unit when
  nothing is read in the stretches behind the first one (`Quiet`);
* `isChain_pieces_iff`: so it is when a piece in which something is read is the first one or comes
  behind a separator;
* `filterMap_pieces_of_quiet`: what is read then is what the first stretches of the parts say.
-/

namespace Parts

open Pieces

variable {α β : Type*}

/-! ## Up to a separator -/

section

variable [DecidableEq α] {sep : α} {s : List α}

theorem ne_of_notMem (h : sep ∉ s) : ∀ c ∈ s, decide (c ≠ sep) = true := fun c hc => by
  simpa using ne_of_mem_of_not_mem hc h

theorem takeWhile_of_notMem (h : sep ∉ s) : s.takeWhile (· ≠ sep) = s :=
  List.takeWhile_eq_self_iff.mpr (ne_of_notMem h)

/-- A part is what stands before the first separator. -/
theorem takeWhile_append_sep (h : sep ∉ s) (rest : List α) :
    (s ++ sep :: rest).takeWhile (· ≠ sep) = s := by
  rw [List.takeWhile_append_of_pos (ne_of_notMem h), List.takeWhile_cons_of_neg (by simp),
    List.append_nil]

theorem dropWhile_of_notMem (h : sep ∉ s) : s.dropWhile (· ≠ sep) = [] :=
  List.dropWhile_eq_nil_iff.mpr (ne_of_notMem h)

/-- What is left behind a part begins with the separator. -/
theorem dropWhile_append_sep (h : sep ∉ s) (rest : List α) :
    (s ++ sep :: rest).dropWhile (· ≠ sep) = sep :: rest := by
  rw [List.dropWhile_append_of_pos (ne_of_notMem h), List.dropWhile_cons_of_neg (by simp)]

end

/-! ## Putting parts together -/

section

variable (sep : α)

/-- A part and those behind it, with a separator before each of these. -/
def joined (part : List α) (parts : List (List α)) : List α := part ++ parts.flatMap (sep :: ·)

theorem joined_nil (part : List α) : joined sep part [] = part := List.append_nil part

theorem joined_cons (part next : List α) (parts : List (List α)) :
    joined sep part (next :: parts) = part ++ sep :: joined sep next parts := rfl

/-- Two parts run together with the separator between them are two parts joined. -/
theorem joined_append (part next : List α) (parts : List (List α)) :
    joined sep (part ++ sep :: next) parts = joined sep part (next :: parts) := by
  unfold joined
  rw [List.flatMap_cons, List.append_assoc]

/-- A list split on the separator is its parts joined, none with a separator in it. -/
theorem exists_joined_splitOn [DecidableEq α] (s : List α) : ∃ part parts,
    s.splitOn sep = part :: parts ∧ s = joined sep part parts ∧ ∀ p ∈ part :: parts, sep ∉ p := by
  induction s with
  | nil => exact ⟨[], [], rfl, rfl, by simp⟩
  | cons c s ih =>
    obtain ⟨part, parts, hsplit, hs, hnot⟩ := ih
    rw [List.splitOn_cons_eq_if_modifyHead, hsplit]
    -- a separator starts a new part in front, anything else goes to the first one
    by_cases hc : c = sep
    · refine ⟨[], part :: parts, by simp [hc], ?_, ?_⟩
      · rw [hc, joined_cons, ← hs]
        rfl
      · exact List.forall_mem_cons.mpr ⟨List.not_mem_nil, hnot⟩
    · refine ⟨c :: part, parts, by simp [hc], ?_, ?_⟩
      · rw [hs]
        rfl
      · rw [List.forall_mem_cons] at hnot ⊢
        refine ⟨?_, hnot.2⟩
        rw [List.mem_cons, not_or]
        exact ⟨Ne.symm hc, hnot.1⟩

variable {sep}

/-- No part has a separator in it. -/
theorem notMem_of_mem_splitOn [DecidableEq α] {s p : List α} (h : p ∈ s.splitOn sep) : sep ∉ p := by
  obtain ⟨part, parts, hsplit, -, hnot⟩ := exists_joined_splitOn sep s
  rw [hsplit] at h
  exact hnot p h

/-- A part has no elements the list had not. -/
theorem subset_of_mem_splitOn [DecidableEq α] {s p : List α} (h : p ∈ s.splitOn sep) : p ⊆ s := by
  obtain ⟨part, parts, hsplit, hs, -⟩ := exists_joined_splitOn sep s
  rw [hsplit, List.mem_cons] at h
  rw [hs]
  rcases h with rfl | hmem
  · exact List.subset_append_left _ _
  · exact fun c hc => List.mem_append_right part
      (List.mem_flatMap.mpr ⟨p, hmem, List.mem_cons_of_mem sep hc⟩)

end

/-! ## Stretches -/

/-- The stretch behind `k` whole ones. -/
def stretch (max : Nat) (s : List α) (k : Nat) : List α := (s.drop (max * k)).take max

/-- A later stretch is one of the list without its first. -/
theorem stretch_succ (max : Nat) (s : List α) (k : Nat) :
    stretch max s (k + 1) = stretch max (s.drop max) k := by
  unfold stretch
  rw [List.drop_drop, Nat.mul_succ, Nat.add_comm]

/-- Nothing is read in any stretch. -/
def Quiet (max : Nat) (reads : List α → Option β) (s : List α) : Prop :=
  ∀ k, reads (stretch max s k) = none

variable {sep : α} {max : Nat} {reads : List α → Option β}

/-- A list is quiet when its first stretch is and the rest is. -/
theorem quiet_iff {s : List α} :
    Quiet max reads s ↔ reads (s.take max) = none ∧ Quiet max reads (s.drop max) := by
  constructor
  · intro h
    refine ⟨h 0, fun k => ?_⟩
    rw [← stretch_succ]
    exact h (k + 1)
  · intro h k
    cases k with
    | zero => exact h.1
    | succ k =>
      rw [stretch_succ]
      exact h.2 k

/-- The stretches behind the first one. -/
theorem quiet_drop_iff {s : List α} :
    Quiet max reads (s.drop max) ↔ ∀ k, 1 ≤ k → reads (stretch max s k) = none := by
  constructor
  · intro h k hk
    obtain ⟨k, rfl⟩ := Nat.exists_eq_add_of_le' hk
    rw [stretch_succ]
    exact h k
  · intro h k
    rw [← stretch_succ]
    exact h (k + 1) (Nat.le_add_left 1 k)

/-! ## The pieces of a part -/

section

variable [DecidableEq α] {s t : List α}

/-- A piece longer than the maximum is cut off a part at the maximum. -/
theorem pieces_of_long (hmax : 0 < max) (hs : sep ∉ s) (hlong : max ≤ s.length) (t : List α) :
    pieces sep max (s ++ t) = s.take max :: pieces sep max (s.drop max ++ t) := by
  have hlen : (s.take max).length = max := List.length_take_of_le hlong
  have hpiece : IsPiece sep max (s.take max) := by
    refine ⟨?_, hlen.le, fun hmem => hs (List.mem_of_mem_take (List.dropLast_subset _ hmem))⟩
    intro hnil
    rw [hnil, List.length_nil] at hlen
    omega
  have hclosed := pieces_closed_append hmax hpiece (Or.inr hlen) (s.drop max ++ t)
  rwa [← List.append_assoc, List.take_append_drop] at hclosed

/-- A part as it stands in the text: with a separator behind it, unless it is the last one. -/
theorem pieces_of_short (hmax : 0 < max) (hs : sep ∉ s) (hshort : s.length < max)
    (ht : t = [] ∨ t = [sep]) : pieces sep max (s ++ t) = [] ∧ s ++ t = [] ∨
      pieces sep max (s ++ t) = [s ++ t] := by
  by_cases hnil : s ++ t = []
  · rw [hnil]
    exact Or.inl ⟨rfl, rfl⟩
  -- it is one piece, whether the separator is there or not
  · refine Or.inr (pieces_of_isPiece hmax ⟨hnil, ?_, ?_⟩)
    · rcases ht with rfl | rfl
      · rw [List.append_nil]
        exact hshort.le
      · rw [List.length_append, List.length_singleton]
        exact hshort
    · rcases ht with rfl | rfl
      · rw [List.append_nil]
        exact fun hmem => hs (List.dropLast_subset _ hmem)
      · rwa [List.dropLast_concat]

variable (hmax : 0 < max) (hnil : reads [] = none) (hsep : ∀ s, reads (s ++ [sep]) = reads s)

include hnil

omit [DecidableEq α] in
/-- A list shorter than one stretch is quiet when nothing is read in it. -/
theorem quiet_of_short (hshort : s.length < max) : Quiet max reads s ↔ reads s = none := by
  have hrest : Quiet max reads (s.drop max) := fun k => by
    rw [List.drop_of_length_le hshort.le, stretch, List.drop_nil, List.take_nil]
    exact hnil
  rw [quiet_iff, List.take_of_length_le hshort.le]
  exact and_iff_left hrest

include hsep

omit [DecidableEq α] hnil in
/-- A separator at the end does not change what is read. -/
theorem reads_append (ht : t = [] ∨ t = [sep]) : reads (s ++ t) = reads s := by
  rcases ht with rfl | rfl
  · rw [List.append_nil]
  · exact hsep s

include hmax

/-- Behind a piece that does not end with the separator, nothing may be read. -/
theorem isChain_behind (hs : sep ∉ s) (ht : t = [] ∨ t = [sep]) {p : List α}
    (hp : p.getLast? ≠ some sep) :
    (p :: pieces sep max (s ++ t)).IsChain (fun p q => p.getLast? = some sep ∨ reads q = none) ↔
      Quiet max reads s := by
  induction hlen : s.length using Nat.strongRecOn generalizing s p with
  | _ n ih =>
    -- by the length: a long rest gives one more full piece, a short one is the last
    by_cases hlong : max ≤ s.length
    · have hcut : (s.take max).getLast? ≠ some sep := fun hlast =>
        hs (List.mem_of_mem_take (List.mem_of_getLast? hlast))
      have hrest := ih (s.drop max).length (by rw [List.length_drop]; omega)
        (fun hmem => hs (List.mem_of_mem_drop hmem)) hcut rfl
      rw [pieces_of_long hmax hs hlong, List.isChain_cons_cons, hrest, @quiet_iff _ _ _ _ s]
      exact and_congr_left fun _ => or_iff_right hp
    · rw [quiet_of_short hnil (Nat.not_le.mp hlong)]
      rcases pieces_of_short hmax hs (Nat.not_le.mp hlong) ht with ⟨hpieces, hempty⟩ | hpieces
      · rw [hpieces, (List.append_eq_nil_iff.mp hempty).1]
        exact iff_of_true (List.IsChain.singleton p) hnil
      · rw [hpieces, List.isChain_cons_cons, reads_append hsep ht]
        exact ⟨fun h => h.1.resolve_left hp, fun h => ⟨Or.inr h, List.IsChain.singleton _⟩⟩

/-- Within a part, nothing is read behind an open piece exactly when the part is quiet after its
first stretch. -/
theorem isChain_part (hs : sep ∉ s) (ht : t = [] ∨ t = [sep]) :
    (pieces sep max (s ++ t)).IsChain (fun p q => p.getLast? = some sep ∨ reads q = none) ↔
      Quiet max reads (s.drop max) := by
  by_cases hlong : max ≤ s.length
  -- behind the first full piece everything has to be quiet
  · rw [pieces_of_long hmax hs hlong]
    exact isChain_behind hmax hnil hsep (fun hmem => hs (List.mem_of_mem_drop hmem)) ht
      fun hlast => hs (List.mem_of_mem_take (List.mem_of_getLast? hlast))
  · have hquiet : Quiet max reads (s.drop max) := by
      rw [List.drop_of_length_le (Nat.not_le.mp hlong).le, quiet_of_short hnil hmax]
      exact hnil
    refine iff_of_true ?_ hquiet
    rcases pieces_of_short hmax hs (Nat.not_le.mp hlong) ht with ⟨hpieces, -⟩ | hpieces
    · rw [hpieces]
      exact List.IsChain.nil
    · rw [hpieces]
      exact List.IsChain.singleton _

/-- Nothing is read in the pieces of a quiet part. -/
theorem filterMap_of_quiet (hs : sep ∉ s) (ht : t = [] ∨ t = [sep]) (h : Quiet max reads s) :
    (pieces sep max (s ++ t)).filterMap reads = [] := by
  induction hlen : s.length using Nat.strongRecOn generalizing s with
  | _ n ih =>
    by_cases hlong : max ≤ s.length
    · rw [quiet_iff] at h
      rw [pieces_of_long hmax hs hlong, List.filterMap_cons_none h.1]
      exact ih (s.drop max).length (by rw [List.length_drop]; omega)
        (fun hmem => hs (List.mem_of_mem_drop hmem)) h.2 rfl
    · rw [quiet_of_short hnil (Nat.not_le.mp hlong)] at h
      rcases pieces_of_short hmax hs (Nat.not_le.mp hlong) ht with ⟨hpieces, -⟩ | hpieces
      · rw [hpieces, List.filterMap_nil]
      · rw [hpieces, List.filterMap_cons_none ((reads_append hsep ht).trans h), List.filterMap_nil]

/-- A part that is read as one unit: its first stretch is all that is read. -/
theorem filterMap_part (hs : sep ∉ s) (ht : t = [] ∨ t = [sep])
    (h : Quiet max reads (s.drop max)) :
    (pieces sep max (s ++ t)).filterMap reads = (reads (s.take max)).toList := by
  by_cases hlong : max ≤ s.length
  · have hdrop : sep ∉ s.drop max := fun hmem => hs (List.mem_of_mem_drop hmem)
    have hrest := filterMap_of_quiet hmax hnil hsep hdrop ht h
    rw [pieces_of_long hmax hs hlong, List.filterMap_cons, hrest]
    cases reads (s.take max) <;> rfl
  · have hread := @reads_append _ _ sep reads s t hsep ht
    rw [List.take_of_length_le (Nat.not_le.mp hlong).le]
    rcases pieces_of_short hmax hs (Nat.not_le.mp hlong) ht with ⟨hpieces, hempty⟩ | hpieces
    · rw [hpieces, (List.append_eq_nil_iff.mp hempty).1, hnil]
      rfl
    · rw [hpieces, List.filterMap_cons, hread]
      cases reads s <;> rfl

end

/-! ## The pieces of a text -/

section

variable [DecidableEq α] (hmax : 0 < max) (hnil : reads [] = none)
  (hsep : ∀ s, reads (s ++ [sep]) = reads s)

include hmax

/-- The pieces of a part and its separator, and those of the rest. -/
theorem pieces_joined_cons (part next : List α) (parts : List (List α)) :
    pieces sep max (joined sep part (next :: parts))
      = pieces sep max (part ++ [sep]) ++ pieces sep max (joined sep next parts) := by
  rw [joined_cons, List.append_cons]
  exact pieces_append_of_getLast hmax List.getLast?_concat _

omit hmax in
/-- The last piece of a text that ends with the separator ends with it too. -/
theorem getLast_of_mem_getLast_pieces (hmax : 0 < max) {s p : List α}
    (hs : s.getLast? = some sep) (hp : p ∈ (pieces sep max s).getLast?) :
    p.getLast? = some sep := by
  have hflat : (pieces sep max s).flatten = s := flatten_pieces hmax s
  obtain ⟨front, hfront⟩ := List.getLast?_eq_some_iff.mp (Option.mem_def.mp hp)
  have hmem : p ∈ pieces sep max s := by
    rw [hfront]
    simp
  rwa [← hflat, hfront, List.flatten_append, List.flatten_singleton,
    List.getLast?_append_of_ne_nil _ (isPiece_of_mem_pieces hmax hmem).ne_nil] at hs

include hnil hsep

/-- The same for parts joined: each has to be quiet after its first stretch. -/
theorem isChain_joined {part : List α} {parts : List (List α)}
    (hparts : ∀ p ∈ part :: parts, sep ∉ p) :
    (pieces sep max (joined sep part parts)).IsChain
        (fun p q => p.getLast? = some sep ∨ reads q = none) ↔
      ∀ p ∈ part :: parts, Quiet max reads (p.drop max) := by
  induction parts generalizing part with
  | nil =>
    have hpart := isChain_part hmax hnil hsep (hparts part List.mem_cons_self) (Or.inl rfl)
    rw [joined_nil, List.forall_mem_singleton]
    rwa [List.append_nil] at hpart
  | cons next parts ih =>
    rw [List.forall_mem_cons] at hparts
    have hpart := isChain_part hmax hnil hsep hparts.1 (Or.inr rfl)
    rw [pieces_joined_cons hmax, List.isChain_append, hpart, ih hparts.2,
      @List.forall_mem_cons _ _ part (next :: parts)]
    -- the piece before a new part ends in the separator, so nothing is asked there
    refine ⟨fun h => ⟨h.1, h.2.1⟩, fun h => ⟨h.1, h.2, fun p hp q _ => Or.inl ?_⟩⟩
    exact getLast_of_mem_getLast_pieces hmax List.getLast?_concat hp

/-- **Parts are read as units** exactly when nothing is read behind their first stretches. -/
theorem isChain_pieces_iff (s : List α) :
    (pieces sep max s).IsChain (fun p q => p.getLast? = some sep ∨ reads q = none) ↔
      ∀ p ∈ s.splitOn sep, Quiet max reads (p.drop max) := by
  obtain ⟨part, parts, hsplit, hs, hparts⟩ := exists_joined_splitOn sep s
  rw [hsplit, ← isChain_joined hmax hnil hsep hparts, ← hs]

/-- Then reading piece by piece is reading the first stretch of each part. -/
theorem filterMap_joined {part : List α} {parts : List (List α)}
    (hparts : ∀ p ∈ part :: parts, sep ∉ p)
    (hquiet : ∀ p ∈ part :: parts, Quiet max reads (p.drop max)) :
    (pieces sep max (joined sep part parts)).filterMap reads
      = (part :: parts).filterMap fun p => reads (p.take max) := by
  induction parts generalizing part with
  | nil =>
    have hpart := filterMap_part hmax hnil hsep (hparts part List.mem_cons_self) (Or.inl rfl)
      (hquiet part List.mem_cons_self)
    rw [List.append_nil] at hpart
    rw [joined_nil, hpart, List.filterMap_eq_flatMap_toList, List.flatMap_singleton]
  | cons next parts ih =>
    rw [List.forall_mem_cons] at hparts hquiet
    have hpart := filterMap_part hmax hnil hsep hparts.1 (Or.inr rfl) hquiet.1
    rw [pieces_joined_cons hmax, List.filterMap_append, hpart, ih hparts.2 hquiet.2,
      List.filterMap_eq_flatMap_toList, List.filterMap_eq_flatMap_toList,
      @List.flatMap_cons _ _ part (next :: parts)]

/-- **What is read of a text** whose parts are read as units. -/
theorem filterMap_pieces_of_quiet {s : List α}
    (hquiet : ∀ p ∈ s.splitOn sep, Quiet max reads (p.drop max)) :
    (pieces sep max s).filterMap reads
      = (s.splitOn sep).filterMap fun p => reads (p.take max) := by
  obtain ⟨part, parts, hsplit, hs, hparts⟩ := exists_joined_splitOn sep s
  rw [hsplit] at hquiet ⊢
  rw [← filterMap_joined hmax hnil hsep hparts hquiet, ← hs]

end

end Parts
