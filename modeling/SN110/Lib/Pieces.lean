import Mathlib.Data.List.Basic
import Mathlib.Data.List.Induction

/-!
# Cutting a text into pieces

A reader with a bounded buffer takes a text a piece at a time: up to and including the next
separator, but never more than `max` symbols. `pieces` is the list of what it takes. This
module owns

* `flatten_pieces` and `isPiece_of_mem_pieces`: the pieces put together are the text, and each
  is a nonempty run of at most `max` symbols with a separator at most at its end;
* `closed_of_mem_dropLast`: every piece but the last is closed, that is ends with the separator
  or is full;
* `pieces_flatten_append`: a text written as closed pieces is cut back into them, whatever
  follows;
* `pieces_flatMap_append`: texts of which each is cut on its own (`Apart`), one after another.
-/

namespace Pieces

variable {α : Type*} [DecidableEq α]

/-- The first piece of a text and what is left. -/
def cut (sep : α) : Nat → List α → List α × List α
  | 0, s => ([], s)
  | _ + 1, [] => ([], [])
  | n + 1, c :: s =>
    if c = sep then ([c], s) else (c :: (cut sep n s).1, (cut sep n s).2)

def piecesFuel (sep : α) (max : Nat) : Nat → List α → List (List α)
  | 0, _ => []
  | fuel + 1, s =>
    if s.isEmpty then [] else (cut sep max s).1 :: piecesFuel sep max fuel (cut sep max s).2

/-- The pieces of a text. -/
def pieces (sep : α) (max : Nat) (s : List α) : List (List α) := piecesFuel sep max s.length s

/-- What `cut` can take from a text. -/
structure IsPiece (sep : α) (max : Nat) (p : List α) : Prop where
  ne_nil : p ≠ []
  length_le : p.length ≤ max
  sep_last : sep ∉ p.dropLast

/-- A piece that ends there whatever the text goes on with. -/
def Closed (sep : α) (max : Nat) (p : List α) : Prop := p.getLast? = some sep ∨ p.length = max

instance (sep : α) (max : Nat) (p : List α) : Decidable (Closed sep max p) := by
  unfold Closed
  infer_instance

section

variable {sep : α} {max : Nat}

/-! ## One cut -/

theorem cut_append (sep : α) (n : Nat) (s : List α) : (cut sep n s).1 ++ (cut sep n s).2 = s := by
  induction n generalizing s with
  | zero => rfl
  | succ n ih =>
    cases s with
    | nil => rfl
    | cons c s =>
      unfold cut
      split_ifs
      · rfl
      · show c :: ((cut sep n s).1 ++ (cut sep n s).2) = c :: s
        rw [ih]

/-- What is left of a cut is the list without what was taken. -/
theorem drop_length_cut (sep : α) (n : Nat) (s : List α) :
    s.drop (cut sep n s).1.length = (cut sep n s).2 := by
  have hdrop := congrArg (List.drop (cut sep n s).1.length) (cut_append sep n s)
  rw [List.drop_left] at hdrop
  exact hdrop.symm

theorem cut_nil (sep : α) (n : Nat) : cut sep n [] = ([], []) := by
  cases n <;> rfl

/-- A cut of something takes something. -/
theorem cut_fst_ne_nil (sep : α) {n : Nat} (hn : 0 < n) {s : List α} (hs : s ≠ []) :
    (cut sep n s).1 ≠ [] := by
  cases n with
  | zero => omega
  | succ n =>
    cases s with
    | nil => exact absurd rfl hs
    | cons c s =>
      unfold cut
      split_ifs <;> simp

/-- So less is left than there was. -/
theorem length_cut_snd_lt (sep : α) (hmax : 0 < max) {s : List α} (hs : s ≠ []) :
    (cut sep max s).2.length < s.length := by
  have happ := congrArg List.length (cut_append sep max s)
  have hpos := List.length_pos_of_ne_nil (cut_fst_ne_nil sep hmax hs)
  rw [List.length_append] at happ
  omega

/-- A cut takes no more than the maximum. -/
theorem length_cut_fst_le (n : Nat) (s : List α) : (cut sep n s).1.length ≤ n := by
  induction n generalizing s with
  | zero => exact Nat.le_refl 0
  | succ n ih =>
    cases s with
    | nil => exact Nat.zero_le _
    | cons c s =>
      unfold cut
      split_ifs
      · simp
      · exact Nat.succ_le_succ (ih s)

/-- A piece ends behind the first separator, and at `n` at the latest. -/
theorem cut_fst_eq_take (sep : α) (n : Nat) (s : List α) :
    (cut sep n s).1 = s.take (min (if sep ∈ s then s.idxOf sep + 1 else s.length) n) := by
  induction n generalizing s with
  | zero => rw [Nat.min_zero, List.take_zero, cut]
  | succ n ih =>
    cases s with
    | nil => rw [cut, List.take_nil]
    | cons c s =>
      unfold cut
      -- the cut ends at this element, or one behind where it ends in the rest
      by_cases hc : c = sep
      · rw [if_pos hc, if_pos (by simp [hc]), hc, List.idxOf_cons_self]
        simp
      · have hmem : sep ∈ c :: s ↔ sep ∈ s :=
          List.mem_cons.trans (or_iff_right fun h => hc h.symm)
        rw [if_neg hc, ih s]
        dsimp only
        by_cases hs : sep ∈ s
        · rw [if_pos hs, if_pos (hmem.mpr hs), List.idxOf_cons_ne _ hc, Nat.succ_min_succ,
            List.take_succ_cons]
        · rw [if_neg hs, if_neg (fun h => hs (hmem.mp h)), List.length_cons, Nat.succ_min_succ,
            List.take_succ_cons]

/-- A cut stops at the first separator, so only its last element can be one. -/
theorem sep_notMem_cut_dropLast (n : Nat) (s : List α) : sep ∉ (cut sep n s).1.dropLast := by
  induction n generalizing s with
  | zero => simp [cut]
  | succ n ih =>
    cases s with
    | nil => simp [cut]
    | cons c s =>
      unfold cut
      split_ifs with hc
      · simp
      · intro hmem
        -- the head is not the separator, and the tail is the cut of the tail
        cases hrest : (cut sep n s).1 with
        | nil => simp [hrest] at hmem
        | cons d t =>
          have htail := ih s
          rw [hrest] at htail hmem
          rw [List.dropLast_cons_cons, List.mem_cons] at hmem
          rcases hmem with rfl | hmem
          · exact hc rfl
          · exact htail hmem

/-- What a cut takes is a piece. -/
theorem isPiece_cut (hmax : 0 < max) {s : List α} (hs : s ≠ []) :
    IsPiece sep max (cut sep max s).1 where
  ne_nil := cut_fst_ne_nil sep hmax hs
  length_le := length_cut_fst_le max s
  sep_last := sep_notMem_cut_dropLast max s

/-- A cut that leaves something is closed. -/
theorem closed_cut {n : Nat} {s : List α} (hrest : (cut sep n s).2 ≠ []) :
    Closed sep n (cut sep n s).1 := by
  induction n generalizing s with
  | zero => exact Or.inr rfl
  | succ n ih =>
    cases s with
    | nil => exact absurd rfl hrest
    | cons c s =>
      unfold cut at hrest ⊢
      split_ifs with hc
      · exact Or.inl (by simp [hc])
      · rw [if_neg hc] at hrest
        rcases ih hrest with hlast | hfull
        · refine Or.inl ?_
          show (c :: (cut sep n s).1).getLast? = some sep
          rw [List.getLast?_cons, hlast]
          rfl
        · exact Or.inr (congrArg Nat.succ hfull)

/-- A closed piece is cut off whatever follows it. -/
theorem cut_closed_append {p : List α} (hp : IsPiece sep max p) (hclosed : Closed sep max p)
    (rest : List α) : cut sep max (p ++ rest) = (p, rest) := by
  obtain ⟨-, hle, hsep⟩ := hp
  -- along the piece, the bound shrinking with it as it does in `cut`
  induction p generalizing max with
  | nil =>
    rcases hclosed with hlast | hfull
    · simp at hlast
    · subst hfull
      rfl
  | cons c p ih =>
    cases max with
    | zero => simp at hle
    | succ n =>
      show cut sep (n + 1) (c :: (p ++ rest)) = (c :: p, rest)
      unfold cut
      cases p with
      | nil =>
        split_ifs with hc
        · rfl
        · rcases hclosed with hlast | hfull
          · exact absurd (by simpa using hlast) hc
          · -- a single symbol that is not the separator fills a bound of 1
            obtain rfl : n = 0 := by simpa using hfull.symm
            rfl
      | cons d t =>
        rw [List.dropLast_cons_cons, List.mem_cons, not_or] at hsep
        rw [if_neg (fun h => hsep.1 h.symm), ih ?_ (Nat.le_of_succ_le_succ hle) hsep.2]
        rcases hclosed with hlast | hfull
        · exact Or.inl (by rwa [List.getLast?_cons_cons] at hlast)
        · exact Or.inr (Nat.succ.inj hfull)

/-- A piece at the end of the text is cut off whole. -/
theorem cut_of_isPiece {p : List α} (hp : IsPiece sep max p) : cut sep max p = (p, []) := by
  by_cases hclosed : Closed sep max p
  · simpa using cut_closed_append hp hclosed []
  · by_cases hrest : (cut sep max p).2 = []
    · have happ := cut_append sep max p
      rw [hrest, List.append_nil] at happ
      exact Prod.ext happ hrest
    · -- a cut that leaves something is closed, and `p` has no closed part but itself
      exfalso
      have happ := cut_append sep max p
      rcases closed_cut hrest with hlast | hfull
      · refine hp.sep_last ?_
        rw [← happ, List.dropLast_append_of_ne_nil hrest]
        exact List.mem_append_left _ (List.mem_of_getLast? hlast)
      · have hlen := congrArg List.length happ
        have hpos := List.length_pos_of_ne_nil hrest
        have := hp.length_le
        rw [List.length_append] at hlen
        omega

/-! ## All pieces -/

/-- Fuel for the length of the list is enough, and more of it changes nothing. -/
theorem piecesFuel_eq (hmax : 0 < max) {a b : Nat} {s : List α} (ha : s.length ≤ a)
    (hb : s.length ≤ b) : piecesFuel sep max a s = piecesFuel sep max b s := by
  induction a generalizing b s with
  | zero =>
    obtain rfl := List.length_eq_zero_iff.mp (Nat.le_zero.mp ha)
    cases b <;> rfl
  | succ a ih =>
    cases b with
    | zero =>
      obtain rfl := List.length_eq_zero_iff.mp (Nat.le_zero.mp hb)
      rfl
    | succ b =>
      unfold piecesFuel
      split_ifs with hs
      · rfl
      · -- each cut takes something, so the fuel outlasts the text
        have hlt := length_cut_snd_lt sep hmax (s := s) (by simpa using hs)
        exact congrArg _ (ih (by omega) (by omega))

@[simp] theorem pieces_nil : pieces sep max [] = [] := rfl

/-- Cutting up a list cuts once and cuts up the rest. -/
theorem pieces_of_ne_nil (hmax : 0 < max) {s : List α} (hs : s ≠ []) :
    pieces sep max s = (cut sep max s).1 :: pieces sep max (cut sep max s).2 := by
  obtain ⟨c, t, rfl⟩ := List.exists_cons_of_ne_nil hs
  have hlt := length_cut_snd_lt sep hmax hs
  rw [List.length_cons] at hlt
  show (cut sep max (c :: t)).1 :: piecesFuel sep max t.length (cut sep max (c :: t)).2 = _
  rw [piecesFuel_eq hmax (by omega) (Nat.le_refl _)]
  rfl

/-- **Induction along the pieces of a text.** -/
theorem pieces_induction (hmax : 0 < max) (sep : α) {P : List α → Prop} (hnil : P [])
    (hcut : ∀ s, s ≠ [] → P (cut sep max s).2 → P s) (s : List α) : P s := by
  induction hlen : s.length using Nat.strongRecOn generalizing s with
  | _ n ih =>
    by_cases hs : s = []
    · exact hs ▸ hnil
    · exact hcut s hs (ih _ (hlen ▸ length_cut_snd_lt sep hmax hs) _ rfl)

/-- The pieces of a list make up the list. -/
theorem flatten_pieces (hmax : 0 < max) (s : List α) : (pieces sep max s).flatten = s := by
  induction s using pieces_induction hmax sep with
  | hnil => rfl
  | hcut s hs ih => rw [pieces_of_ne_nil hmax hs, List.flatten_cons, ih, cut_append]

/-- Each of the pieces is one. -/
theorem isPiece_of_mem_pieces (hmax : 0 < max) {s p : List α} (h : p ∈ pieces sep max s) :
    IsPiece sep max p := by
  induction s using pieces_induction hmax sep with
  | hnil => cases h
  | hcut s hs ih =>
    rw [pieces_of_ne_nil hmax hs] at h
    rcases List.mem_cons.mp h with rfl | h
    · exact isPiece_cut hmax hs
    · exact ih h

/-- A list that is not empty has a piece. -/
theorem pieces_ne_nil (hmax : 0 < max) {s : List α} (hs : s ≠ []) : pieces sep max s ≠ [] := by
  rw [pieces_of_ne_nil hmax hs]
  exact List.cons_ne_nil _ _

/-- Every piece but the last is closed. -/
theorem closed_of_mem_dropLast (hmax : 0 < max) {s p : List α}
    (h : p ∈ (pieces sep max s).dropLast) : Closed sep max p := by
  induction s using pieces_induction hmax sep with
  | hnil => cases h
  | hcut s hs ih =>
    rw [pieces_of_ne_nil hmax hs] at h
    by_cases hrest : (cut sep max s).2 = []
    · simp [hrest] at h
    · rw [List.dropLast_cons_of_ne_nil (pieces_ne_nil hmax hrest)] at h
      rcases List.mem_cons.mp h with rfl | h
      · exact closed_cut hrest
      · exact ih h

/-- A closed piece is cut off whatever follows it. -/
theorem pieces_closed_append {p : List α} (hmax : 0 < max) (hp : IsPiece sep max p)
    (hclosed : Closed sep max p) (rest : List α) :
    pieces sep max (p ++ rest) = p :: pieces sep max rest := by
  rw [pieces_of_ne_nil hmax (List.append_ne_nil_of_left_ne_nil hp.ne_nil rest),
    cut_closed_append hp hclosed rest]

/-- A piece is cut into itself. -/
theorem pieces_of_isPiece {p : List α} (hmax : 0 < max) (hp : IsPiece sep max p) :
    pieces sep max p = [p] := by
  rw [pieces_of_ne_nil hmax hp.ne_nil, cut_of_isPiece hp]
  rfl

/-- **Closed pieces are cut back.** -/
theorem pieces_flatten_append (hmax : 0 < max) {ps : List (List α)}
    (hps : ∀ p ∈ ps, IsPiece sep max p ∧ Closed sep max p) (rest : List α) :
    pieces sep max (ps.flatten ++ rest) = ps ++ pieces sep max rest := by
  induction ps with
  | nil => rfl
  | cons p ps ih =>
    obtain ⟨hp, hclosed⟩ := hps p List.mem_cons_self
    rw [List.flatten_cons, List.append_assoc, pieces_closed_append hmax hp hclosed,
      ih (fun q hq => hps q (List.mem_cons_of_mem p hq))]
    rfl

omit [DecidableEq α] in
/-- What is left of a piece that is cut short is one. -/
theorem IsPiece.of_isPrefix {p q : List α} (h : IsPiece sep max q) (hpre : p <+: q) (hne : p ≠ []) :
    IsPiece sep max p := by
  refine ⟨hne, Nat.le_trans hpre.length_le h.length_le, fun hmem => ?_⟩
  obtain ⟨rest, rfl⟩ := hpre
  rcases List.eq_nil_or_concat rest with rfl | ⟨rest, c, rfl⟩
  · exact h.sep_last (by rwa [List.append_nil])
  · refine h.sep_last ?_
    rw [List.concat_eq_append, ← List.append_assoc, List.dropLast_concat]
    exact List.mem_append_left _ (List.dropLast_subset p hmem)

omit [DecidableEq α] in
/-- A text of some pieces that is cut short ends within one of them, the rest of which is cut
off. -/
theorem exists_take_flatten (ps : List (List α)) (n : Nat) :
    ∃ (front : List (List α)) (p : List α),
      ps.flatten.take n = front.flatten ++ p ∧ (∀ q ∈ front, q ∈ ps) ∧
        (p = [] ∨ ∃ rest, p ++ rest ∈ ps ∧ rest.length ≤ ps.flatten.length - n) := by
  induction ps generalizing n with
  | nil => exact ⟨[], [], List.take_nil, List.forall_mem_nil _, Or.inl rfl⟩
  | cons q ps ih =>
    rw [List.flatten_cons, List.length_append]
    -- the length ends within the first part or goes past it
    rcases Nat.le_total n q.length with hin | hpast
    · refine ⟨[], q.take n, ?_, List.forall_mem_nil _, Or.inr ⟨q.drop n, ?_, ?_⟩⟩
      · rw [List.take_append_of_le_length hin]
        rfl
      · rw [List.take_append_drop]
        exact List.mem_cons_self
      · rw [List.length_drop]
        omega
    · obtain ⟨front, p, htake, hfront, hp⟩ := ih (n - q.length)
      refine ⟨q :: front, p, ?_, ?_, ?_⟩
      · rw [List.take_append, List.take_of_length_le hpast, htake, List.flatten_cons,
          List.append_assoc]
      · rw [List.forall_mem_cons]
        exact ⟨List.mem_cons_self, fun q' hq' => List.mem_cons_of_mem q (hfront q' hq')⟩
      · rcases hp with rfl | ⟨rest, hmem, hlen⟩
        · exact Or.inl rfl
        · exact Or.inr ⟨rest, List.mem_cons_of_mem q hmem, by omega⟩

/-- A text that ends with the separator is cut on its own, whatever follows. -/
theorem pieces_append_of_getLast (hmax : 0 < max) {s : List α} (h : s.getLast? = some sep)
    (rest : List α) : pieces sep max (s ++ rest) = pieces sep max s ++ pieces sep max rest := by
  have hflat : (pieces sep max s).flatten = s := flatten_pieces hmax s
  have hps : ∀ p ∈ pieces sep max s, IsPiece sep max p ∧ Closed sep max p := by
    intro p hp
    refine ⟨isPiece_of_mem_pieces hmax hp, ?_⟩
    -- all pieces but the last are closed anyway
    rcases List.eq_nil_or_concat (pieces sep max s) with hnil | ⟨front, last, hconcat⟩
    · rw [hnil] at hp
      cases hp
    rw [List.concat_eq_append] at hconcat
    by_cases hlast : p = last
    · -- the last piece ends as the text does
      refine Or.inl ?_
      have hne : last ≠ [] := (isPiece_of_mem_pieces hmax (hlast ▸ hp)).ne_nil
      rw [← hflat, hconcat, List.flatten_append, List.flatten_singleton,
        List.getLast?_append_of_ne_nil _ hne] at h
      rw [hlast, h]
    · have hfront : p ∈ (pieces sep max s).dropLast := by
        rw [hconcat, List.mem_append, List.mem_singleton] at hp
        rw [hconcat, List.dropLast_concat]
        exact hp.resolve_right hlast
      exact closed_of_mem_dropLast hmax hfront
  have happ := pieces_flatten_append hmax hps rest
  rwa [hflat] at happ

/-! ## Texts that are cut apart -/

/-- The text is cut on its own, whatever follows. -/
def Apart (sep : α) (max : Nat) (s : List α) : Prop :=
  ∀ rest, pieces sep max (s ++ rest) = pieces sep max s ++ pieces sep max rest

theorem apart_nil : Apart sep max [] := fun _ => rfl

/-- A text that ends in a separator is cut on its own. -/
theorem apart_of_getLast (hmax : 0 < max) {s : List α} (h : s.getLast? = some sep) :
    Apart sep max s := pieces_append_of_getLast hmax h

/-- A closed piece is cut on its own. -/
theorem apart_of_closed (hmax : 0 < max) {p : List α} (hp : IsPiece sep max p)
    (hclosed : Closed sep max p) : Apart sep max p := fun rest => by
  rw [pieces_closed_append hmax hp hclosed, pieces_of_isPiece hmax hp]
  rfl

/-- Texts each cut on their own, one after the other, are cut one by one. -/
theorem pieces_flatMap_append {β : Type*} {f : β → List α} {xs : List β}
    (h : ∀ x ∈ xs, Apart sep max (f x)) (rest : List α) :
    pieces sep max (xs.flatMap f ++ rest)
      = xs.flatMap (fun x => pieces sep max (f x)) ++ pieces sep max rest := by
  induction xs with
  | nil => rfl
  | cons x xs ih =>
    rw [List.forall_mem_cons] at h
    rw [List.flatMap_cons, List.append_assoc, h.1, ih h.2, List.flatMap_cons, List.append_assoc]

end

end Pieces
