import SN110.Lib.Memory
import Mathlib.Data.List.Nodup
import Mathlib.Algebra.Group.Nat.Defs

/-!
# Relocation of words

A memory is a byte for each address. Its words are little-endian and stand at any address, so that
two of them can overlap. Relocating a list of sites by a base adds the base to the word at each
site, one after the other.

* `word_addWords`: what becomes of a word that no other site overlaps.
* `relocates_iff`: when the relocation of one list of sites adds the base exactly once to every
  word of another.
-/

namespace Words

open Memory

/-- The word at `s`. -/
def word (m : Nat → UInt8) (s : Nat) : UInt32 :=
  UInt32.ofNat ((m s).toNat + (m (s + 1)).toNat <<< 8 + (m (s + 2)).toNat <<< 16 +
    (m (s + 3)).toNat <<< 24)

/-- `m` with the word at `s` replaced. -/
def setWord (m : Nat → UInt8) (s : Nat) (w : UInt32) : Nat → UInt8 :=
  fun v => if s ≤ v ∧ v < s + 4 then load (le32 w) (v - s) else m v

/-- `m` with `b` added to the word at `s`. -/
def addWord (m : Nat → UInt8) (b : UInt32) (s : Nat) : Nat → UInt8 := setWord m s (word m s + b)

/-- `m` with `b` added at each of the sites in turn. -/
def addWords (m : Nat → UInt8) (b : UInt32) (sites : List Nat) : Nat → UInt8 :=
  sites.foldl (fun m s => addWord m b s) m

/-- The words at `s` and `t` do not overlap. -/
def Separate (s t : Nat) : Prop := s + 4 ≤ t ∨ t + 4 ≤ s

instance (s t : Nat) : Decidable (Separate s t) := inferInstanceAs (Decidable (_ ∨ _))

/-- The byte at `v` is not in the word at `s`. -/
def Outside (v s : Nat) : Prop := v < s ∨ s + 4 ≤ v

variable {m : Nat → UInt8} {b w : UInt32} {s t v : Nat}

/-! ## One word -/

/-- A word is the sum of its bytes' place values. -/
theorem toNat_word (m : Nat → UInt8) (s : Nat) :
    (word m s).toNat = (m s).toNat + 256 * (m (s + 1)).toNat + 65536 * (m (s + 2)).toNat +
      16777216 * (m (s + 3)).toNat := by
  have h0 := (m s).toNat_lt
  have h1 := (m (s + 1)).toNat_lt
  have h2 := (m (s + 2)).toNat_lt
  have h3 := (m (s + 3)).toNat_lt
  simp only [word, UInt32.toNat_ofNat']
  omega

/-- A word is decided by its four bytes. -/
theorem word_congr {m' : Nat → UInt8} (h : ∀ k < 4, m (s + k) = m' (t + k)) :
    word m s = word m' t := by
  have h0 := h 0 (by decide)
  have h1 := h 1 (by decide)
  have h2 := h 2 (by decide)
  have h3 := h 3 (by decide)
  rw [Nat.add_zero, Nat.add_zero] at h0
  rw [word, word, h0, h1, h2, h3]

/-- A word is read back from its little-endian bytes. -/
theorem word_le32 (w : UInt32) : word (load (le32 w)) 0 = w := by
  apply UInt32.toNat_inj.mp
  have hw := w.toNat_lt
  rw [toNat_word]
  simp only [le32, load, List.getD_cons_zero, List.getD_cons_succ, UInt8.toNat_ofNat']
  omega

/-- The bytes of a word are the ones it was read from. -/
theorem load_le32_word {k : Nat} (hk : k < 4) : load (le32 (word m s)) k = m (s + k) := by
  have h0 := (m s).toNat_lt
  have h1 := (m (s + 1)).toNat_lt
  have h2 := (m (s + 2)).toNat_lt
  have h3 := (m (s + 3)).toNat_lt
  apply UInt8.toNat_inj.mp
  rcases (by omega : k = 0 ∨ k = 1 ∨ k = 2 ∨ k = 3) with rfl | rfl | rfl | rfl
  all_goals
    simp only [le32, load, List.getD_cons_zero, List.getD_cons_succ, UInt8.toNat_ofNat',
      toNat_word, Nat.add_zero]
    omega

theorem setWord_of_outside (h : Outside v s) : setWord m s w v = m v :=
  if_neg fun ⟨hle, hlt⟩ => h.elim (fun h => by omega) (fun h => by omega)

@[simp] theorem word_setWord_self : word (setWord m s w) s = w := by
  have hbytes : ∀ k < 4, setWord m s w (s + k) = load (le32 w) (0 + k) := by
    intro k hk
    rw [setWord, if_pos (by omega), Nat.add_sub_cancel_left, Nat.zero_add]
  rw [word_congr hbytes, word_le32]

/-- Writing a word leaves a separate one as it was. -/
theorem word_setWord_of_separate (h : Separate s t) : word (setWord m s w) t = word m t := by
  refine word_congr fun k hk => setWord_of_outside ?_
  rcases h with h | h
  · exact Or.inr (by omega)
  · exact Or.inl (by omega)

/-- Storing a word where it was read changes nothing. -/
theorem store_le32_word (buf : List UInt8) (s : Nat) :
    store buf s (le32 (word (load buf) s)) = buf := by
  apply List.ext_getElem
  · rw [length_store]
  · intro v hv hv'
    rw [← load_eq_getElem hv, ← load_eq_getElem hv', load_store]
    split_ifs with hin
    · have hlt : v < s + 4 := hin.2.1
      rw [load_le32_word (by omega), Nat.add_sub_cancel' hin.1]
    · rfl

/-! ## Many words -/

@[simp] theorem addWords_nil : addWords m b [] = m := rfl

@[simp] theorem addWords_cons {sites : List Nat} :
    addWords m b (t :: sites) = addWords (addWord m b t) b sites := rfl

/-- A byte outside all sites is left alone. -/
theorem addWords_of_outside {sites : List Nat} (h : ∀ t ∈ sites, Outside v t) :
    addWords m b sites v = m v := by
  induction sites generalizing m with
  | nil => rfl
  | cons t sites ih =>
    rw [addWords_cons, ih fun u hu => h u (List.mem_cons_of_mem t hu)]
    exact setWord_of_outside (h t List.mem_cons_self)

/-- A word that no other site overlaps is relocated as often as it is listed. -/
theorem word_addWords {sites : List Nat} (h : ∀ t ∈ sites, t ≠ s → Separate t s) :
    word (addWords m b sites) s = word m s + UInt32.ofNat (sites.count s) * b := by
  induction sites generalizing m with
  | nil => simp
  | cons t sites ih =>
    rw [addWords_cons, ih fun u hu => h u (List.mem_cons_of_mem t hu)]
    by_cases hts : t = s
    · subst hts
      rw [List.count_cons_self, addWord, word_setWord_self, UInt32.ofNat_add, UInt32.add_mul,
        UInt32.add_comm (_ * b), UInt32.add_assoc]
      simp
    · rw [List.count_cons_of_ne hts, addWord,
        word_setWord_of_separate (h t List.mem_cons_self hts)]

/-- Two words that overlap cannot both have 2 added to them. -/
theorem separate_of_add_two {m' : Nat → UInt8} (hs : word m' s = word m s + 2)
    (ht : word m' t = word m t + 2) (hst : s < t) : s + 4 ≤ t := by
  by_contra hlt
  obtain ⟨k, rfl⟩ := Nat.exists_eq_add_of_lt hst
  have hs' := congrArg UInt32.toNat hs
  have ht' := congrArg UInt32.toNat ht
  rw [UInt32.toNat_add, toNat_word, toNat_word] at hs' ht'
  have hm := fun v => (m v).toNat_lt
  have hm' := fun v => (m' v).toNat_lt
  -- words that overlap by one to three bytes: both cannot have grown by 2
  rcases (by omega : k = 0 ∨ k = 1 ∨ k = 2) with rfl | rfl | rfl
  all_goals
    have h0 := hm s
    have h1 := hm (s + 1)
    have h2 := hm (s + 2)
    have h3 := hm (s + 3)
    have h4 := hm (s + 4)
    have h5 := hm (s + 5)
    have h6 := hm (s + 6)
    have h0' := hm' s
    have h1' := hm' (s + 1)
    have h2' := hm' (s + 2)
    have h3' := hm' (s + 3)
    have h4' := hm' (s + 4)
    have h5' := hm' (s + 5)
    have h6' := hm' (s + 6)
    simp only [Nat.add_assoc, Nat.reduceAdd, UInt32.reduceToNat] at hs' ht'
    omega

/-- The base has been added exactly once to the word at each site, and nothing else has changed. -/
structure Relocates (m m' : Nat → UInt8) (b : UInt32) (sites : List Nat) : Prop where
  word_eq : ∀ s ∈ sites, word m' s = word m s + b
  frame : ∀ v, (∀ s ∈ sites, Outside v s) → m' v = m v

/-! ## A base in the top byte -/

/-- A base of `2 ^ 24` is added to the last byte of the word. -/
theorem addWord_top (m : Nat → UInt8) (s : Nat) :
    addWord m 0x1000000 s = Function.update m (s + 3) (m (s + 3) + 1) := by
  have hword : word m s + 0x1000000 = word (Function.update m (s + 3) (m (s + 3) + 1)) s := by
    apply UInt32.toNat_inj.mp
    have h0 := (m s).toNat_lt
    have h1 := (m (s + 1)).toNat_lt
    have h2 := (m (s + 2)).toNat_lt
    have h3 := (m (s + 3)).toNat_lt
    rw [UInt32.toNat_add, toNat_word, toNat_word, Function.update_self,
      Function.update_of_ne (by omega), Function.update_of_ne (by omega),
      Function.update_of_ne (by omega), UInt8.toNat_add]
    simp only [UInt32.reduceToNat, UInt8.reduceToNat]
    omega
  funext v
  rw [addWord, hword, setWord]
  split_ifs with hin
  · rw [load_le32_word (by omega), Nat.add_sub_cancel' hin.1]
  · rw [Function.update_of_ne (by omega)]

/-- A base of 2^24 adds 1 to a word's top byte for each time the site is listed. -/
theorem addWords_top (m : Nat → UInt8) (sites : List Nat) (s : Nat) :
    addWords m 0x1000000 sites (s + 3) = m (s + 3) + UInt8.ofNat (sites.count s) := by
  induction sites generalizing m with
  | nil => simp
  | cons t sites ih =>
    rw [addWords_cons, ih, addWord_top]
    by_cases hts : t = s
    · subst hts
      rw [Function.update_self, List.count_cons_self, UInt8.ofNat_add, UInt8.add_assoc,
        UInt8.add_comm 1]
      rfl
    · rw [Function.update_of_ne (by omega), List.count_cons_of_ne hts]

/-- The other bytes of a word that is relocated by it stay as they are. -/
theorem eq_of_add_top {m' : Nat → UInt8} (h : word m' s = word m s + 0x1000000) {k : Nat}
    (hk : k < 3) : m' (s + k) = m (s + k) := by
  have hbyte : m' (s + k) = addWord m 0x1000000 s (s + k) := by
    rw [addWord, ← h, setWord, if_pos (by omega), Nat.add_sub_cancel_left,
      load_le32_word (by omega)]
  rw [hbyte, addWord_top, Function.update_of_ne (by omega)]

/-- A list that relocates the sites lists nothing else. -/
theorem mem_of_relocates {listed sites : List Nat}
    (h : Relocates m (addWords m 0x1000000 listed) 0x1000000 sites) (ht : t ∈ listed)
    (hcount : listed.count t < 256) : t ∈ sites := by
  by_contra hnot
  have hsame : addWords m 0x1000000 listed (t + 3) = m (t + 3) := by
    by_cases houtside : ∀ s ∈ sites, Outside (t + 3) s
    · exact h.frame (t + 3) houtside
    · -- the last byte of the word is another one of a site
      push Not at houtside
      obtain ⟨s, hs, hin⟩ := houtside
      have hst : s ≠ t := fun heq => hnot (heq ▸ hs)
      obtain ⟨hlo, hhi⟩ := not_or.mp hin
      have hsplit : t + 3 = s + (t + 3 - s) := by omega
      rw [hsplit]
      exact eq_of_add_top (h.word_eq s hs) (by omega)
  -- with a base of 2^24 the top byte grows at each listed site
  rw [addWords_top] at hsame
  have hpos := List.count_pos_iff.mpr ht
  have hzero := congrArg UInt8.toNat hsame
  have hbyte := (m (t + 3)).toNat_lt
  rw [UInt8.toNat_add, UInt8.toNat_ofNat_of_lt' hcount] at hzero
  omega

/-- **Which list relocates the given sites**, whatever the base: one that has each of them once, and
nothing else. And only sites that do not overlap can be relocated at all. -/
theorem relocates_iff {listed sites : List Nat} (hextra : ∀ t ∉ sites, listed.count t < 256)
    (hlen : listed.length < 2 ^ 32) :
    (∀ b, Relocates m (addWords m b listed) b sites) ↔
      (∀ t ∈ listed, t ∈ sites) ∧ (∀ s ∈ sites, ∀ t ∈ sites, s ≠ t → Separate s t) ∧
        ∀ s ∈ sites, listed.count s = 1 := by
  constructor
  · intro h
    have hsub : ∀ t ∈ listed, t ∈ sites := fun t ht =>
      by_contra fun hnot => hnot (mem_of_relocates (h _) ht (hextra t hnot))
    -- the base 2 shows that sites do not overlap, the base 1 that each is listed once
    have hseparate : ∀ s ∈ sites, ∀ t ∈ sites, s ≠ t → Separate s t := by
      intro s hs t ht hst
      have hs' := (h 2).word_eq s hs
      have ht' := (h 2).word_eq t ht
      rcases Nat.lt_or_gt_of_ne hst with hlt | hlt
      · exact Or.inl (separate_of_add_two hs' ht' hlt)
      · exact Or.inr (separate_of_add_two ht' hs' hlt)
    refine ⟨hsub, hseparate, fun s hs => ?_⟩
    have hone := (h 1).word_eq s hs
    rw [word_addWords fun t ht hts => hseparate t (hsub t ht) s hs hts, UInt32.mul_one,
      UInt32.add_right_inj] at hone
    have hcount := congrArg UInt32.toNat hone
    rwa [UInt32.toNat_ofNat_of_lt' (Nat.lt_of_le_of_lt List.count_le_length hlen)] at hcount
  · rintro ⟨hsub, hseparate, hcount⟩ b
    refine ⟨fun s hs => ?_, fun v hv => addWords_of_outside fun t ht => hv t (hsub t ht)⟩
    rw [word_addWords fun t ht hts => hseparate t (hsub t ht) s hs hts, hcount s hs]
    exact congrArg (word m s + ·) (UInt32.one_mul b)

end Words
