import SN110.Minilib.Text
import SN110.Lib.Checked

/-!
# Comparing strings (`minilib.c`)

`strcmp`, `strncmp`, `memcmp` and `getenv` as they run on pointers: a pointer is what its array
holds from there on, and every load is checked.

* `Orders`: the sign of a comparison says how two texts are ordered.
* `comparisons_order`: all three comparisons order texts as lists of bytes are ordered.
* `getenv_lookup`: `getenv` looks a name up in the environment, the first entry before the others.
-/

namespace SN110

open Checked Memory Parts

/-! ## The code -/

/-- `strlen`. -/
def strlen : List UInt8 → Except Fault Nat
  | [] => .error (.load 0)
  | c :: s =>
    if c = 0 then .ok 0
    else do
      let n ← strlen s
      .ok (n + 1)

/-- `strcmp`. -/
def strcmp : List UInt8 → List UInt8 → Except Fault Int
  | c :: s1, d :: s2 =>
    if c ≠ 0 ∧ c = d then strcmp s1 s2 else .ok ((c.toNat : Int) - d.toNat)
  | _, _ => .error (.load 0)

/-- `strncmp`. -/
def strncmp : List UInt8 → List UInt8 → Nat → Except Fault Int
  | _, _, 0 => .ok 0
  | c :: s1, d :: s2, n + 1 =>
    if c ≠ 0 ∧ c = d then strncmp s1 s2 n else .ok ((c.toNat : Int) - d.toNat)
  | _, _, _ => .error (.load 0)

/-- `memcmp`. -/
def memcmp : List UInt8 → List UInt8 → Nat → Except Fault Int
  | _, _, 0 => .ok 0
  | c :: a, d :: b, n + 1 =>
    if c ≠ d then .ok ((c.toNat : Int) - d.toNat) else memcmp a b n
  | _, _, _ => .error (.load 0)

/-- The loop of `getenv` over the entries that are left. -/
def getenvLoop (name : List UInt8) (len : Nat) :
    List (List UInt8) → Except Fault (Option (List UInt8))
  | [] => .ok none
  | env :: rest => do
    let r ← strncmp env name len
    if r = 0 then do
      let c ← fetch env len
      if c = equals then .ok (some (env.drop (len + 1))) else getenvLoop name len rest
    else getenvLoop name len rest

/-- `getenv`; `none` is `NULL`. -/
def getenv (environ : Option (List (List UInt8))) (name : Option (List UInt8)) :
    Except Fault (Option (List UInt8)) :=
  match environ, name with
  | some environ, some name => do
    let len ← strlen name
    getenvLoop name len environ
  | _, _ => .ok none

/-! ## Order -/

/-- The pointer is to the text. -/
def PointsTo (s t : List UInt8) : Prop := 0 ∉ t ∧ ∃ rest, s = t ++ 0 :: rest

/-- The result of a comparison of two texts. -/
structure Orders (r : Int) (t t' : List UInt8) : Prop where
  before : r < 0 ↔ t < t'
  same : r = 0 ↔ t = t'
  behind : 0 < r ↔ t' < t

section

variable {s s' t t' : List UInt8}

theorem orders_refl (t : List UInt8) : Orders 0 t t where
  before := iff_of_false (Int.lt_irrefl 0) (List.lt_irrefl t)
  same := iff_of_true rfl rfl
  behind := iff_of_false (Int.lt_irrefl 0) (List.lt_irrefl t)

/-- A first byte that both texts have decides nothing. -/
theorem Orders.cons {r : Int} (h : Orders r t t') (c : UInt8) : Orders r (c :: t) (c :: t') where
  before := by rw [h.before, List.cons_lt_cons_self]
  same := by rw [h.same, List.cons_inj_right]
  behind := by rw [h.behind, List.cons_lt_cons_self]

/-- Two first bytes that differ decide. -/
theorem orders_of_ne {c d : UInt8} (h : c ≠ d) (t t' : List UInt8) :
    Orders ((c.toNat : Int) - d.toNat) (c :: t) (d :: t') := by
  have hne : c.toNat ≠ d.toNat := fun heq => h (UInt8.toNat_inj.mp heq)
  have hlt := @UInt8.lt_iff_toNat_lt c d
  have hgt := @UInt8.lt_iff_toNat_lt d c
  refine ⟨?_, ?_, ?_⟩
  · rw [List.cons_lt_cons_iff, or_iff_left (fun heq => h heq.1), hlt]
    omega
  · rw [List.cons.injEq]
    exact iff_of_false (by omega) (fun heq => h heq.1)
  · rw [List.cons_lt_cons_iff, or_iff_left (fun heq => h heq.1.symm), hgt]
    omega

/-- The end of a text is before any byte. -/
theorem orders_nil_cons {d : UInt8} (h : d ≠ 0) (t' : List UInt8) :
    Orders (((0 : UInt8).toNat : Int) - d.toNat) [] (d :: t') := by
  have hpos : 0 < d.toNat := Nat.pos_of_ne_zero fun hzero => h (UInt8.toNat_inj.mp hzero)
  refine ⟨iff_of_true ?_ (List.nil_lt_cons d t'), iff_of_false ?_ (List.cons_ne_nil d t').symm,
    iff_of_false ?_ (List.not_lt_nil _)⟩
  all_goals
    rw [show (0 : UInt8).toNat = 0 from rfl]
    omega

/-- With the operands swapped, the result changes its sign. -/
theorem Orders.swap {r : Int} (h : Orders r t t') : Orders (-r) t' t where
  before := by rw [← h.behind]; omega
  same := by rw [eq_comm (a := t'), ← h.same]; omega
  behind := by rw [← h.before]; omega

/-- A text is behind the empty one, by its first byte. -/
theorem orders_cons_nil {c : UInt8} (h : c ≠ 0) (t : List UInt8) :
    Orders ((c.toNat : Int) - (0 : UInt8).toNat) (c :: t) [] := by
  rw [← Int.neg_sub]
  exact (orders_nil_cons h t).swap

/-- A pointer to a text points to its first byte, which is no NUL, and behind it to the rest. -/
theorem PointsTo.cons {c : UInt8} (h : PointsTo s (c :: t)) :
    c ≠ 0 ∧ ∃ s₀, s = c :: s₀ ∧ PointsTo s₀ t := by
  obtain ⟨hno, rest, rfl⟩ := h
  rw [List.mem_cons, not_or] at hno
  exact ⟨fun hc => hno.1 hc.symm, _, rfl, hno.2, rest, rfl⟩

/-- A pointer to the empty text points to a NUL. -/
theorem PointsTo.nil (h : PointsTo s []) : ∃ rest, s = 0 :: rest := h.2

/-- `strlen` counts the bytes before the NUL. -/
theorem strlen_eq (h : PointsTo s t) : strlen s = .ok t.length := by
  induction t generalizing s with
  | nil =>
    obtain ⟨rest, rfl⟩ := h.nil
    exact if_pos rfl
  | cons c t ih =>
    obtain ⟨hc, s, rfl, hs⟩ := h.cons
    rw [strlen, if_neg hc, ih hs]
    rfl

/-- `strcmp` orders two texts, and reads nothing behind their NULs. -/
theorem strcmp_orders (h : PointsTo s t) (h' : PointsTo s' t') :
    ∃ r, strcmp s s' = .ok r ∧ Orders r t t' := by
  induction t generalizing s s' t' with
  | nil =>
    obtain ⟨rest, rfl⟩ := h.nil
    cases t' with
    | nil =>
      obtain ⟨rest', rfl⟩ := h'.nil
      exact ⟨0, rfl, orders_refl []⟩
    | cons d t' =>
      obtain ⟨hd, s', rfl, -⟩ := h'.cons
      exact ⟨_, if_neg fun hboth => hboth.1 rfl, orders_nil_cons hd t'⟩
  | cons c t ih =>
    obtain ⟨hc, s, rfl, hs⟩ := h.cons
    cases t' with
    | nil =>
      obtain ⟨rest', rfl⟩ := h'.nil
      exact ⟨_, if_neg fun hboth => hc hboth.2, orders_cons_nil hc t⟩
    | cons d t' =>
      obtain ⟨hd, s', rfl, hs'⟩ := h'.cons
      -- equal bytes go on, different ones decide
      by_cases hcd : c = d
      · subst hcd
        obtain ⟨r, hrun, horders⟩ := ih hs hs'
        exact ⟨r, (if_pos ⟨hc, rfl⟩).trans hrun, horders.cons c⟩
      · exact ⟨_, if_neg fun hboth => hcd hboth.2, orders_of_ne hcd t t'⟩

/-- `strncmp` orders the first `n` bytes of two texts. -/
theorem strncmp_orders (h : PointsTo s t) (h' : PointsTo s' t') (n : Nat) :
    ∃ r, strncmp s s' n = .ok r ∧ Orders r (t.take n) (t'.take n) := by
  induction n generalizing s s' t t' with
  -- nothing is left to be compared
  | zero => exact ⟨0, by rw [strncmp], orders_refl []⟩
  | succ n ih =>
    cases t with
    | nil =>
      obtain ⟨rest, rfl⟩ := h.nil
      cases t' with
      | nil =>
        obtain ⟨rest', rfl⟩ := h'.nil
        exact ⟨0, rfl, orders_refl []⟩
      | cons d t' =>
        obtain ⟨hd, s', rfl, -⟩ := h'.cons
        exact ⟨_, if_neg fun hboth => hboth.1 rfl, orders_nil_cons hd _⟩
    | cons c t =>
      obtain ⟨hc, s, rfl, hs⟩ := h.cons
      cases t' with
      | nil =>
        obtain ⟨rest', rfl⟩ := h'.nil
        exact ⟨_, if_neg fun hboth => hc hboth.2, orders_cons_nil hc _⟩
      | cons d t' =>
        obtain ⟨hd, s', rfl, hs'⟩ := h'.cons
        by_cases hcd : c = d
        · subst hcd
          obtain ⟨r, hrun, horders⟩ := ih hs hs'
          exact ⟨r, (if_pos ⟨hc, rfl⟩).trans hrun, horders.cons c⟩
        · exact ⟨_, if_neg fun hboth => hcd hboth.2, orders_of_ne hcd _ _⟩

/-- `memcmp` orders the first `n` bytes of two buffers. -/
theorem memcmp_orders {a b : List UInt8} {n : Nat} (ha : n ≤ a.length) (hb : n ≤ b.length) :
    ∃ r, memcmp a b n = .ok r ∧ Orders r (a.take n) (b.take n) := by
  induction n generalizing a b with
  | zero => exact ⟨0, by rw [memcmp], orders_refl []⟩
  | succ n ih =>
    obtain ⟨c, a, rfl⟩ := List.exists_cons_of_length_pos (Nat.lt_of_lt_of_le n.succ_pos ha)
    obtain ⟨d, b, rfl⟩ := List.exists_cons_of_length_pos (Nat.lt_of_lt_of_le n.succ_pos hb)
    by_cases hcd : c = d
    · subst hcd
      obtain ⟨r, hrun, horders⟩ := ih (Nat.le_of_succ_le_succ ha) (Nat.le_of_succ_le_succ hb)
      exact ⟨r, (if_neg fun hne => hne rfl).trans hrun, horders.cons c⟩
    · exact ⟨_, if_pos hcd, orders_of_ne hcd _ _⟩

end

/-- **The comparisons order texts** as lists of bytes are ordered: `strcmp` whole ones, `strncmp`
and `memcmp` their first bytes. None reads past the end of a text. -/
theorem comparisons_order {s s' t t' : List UInt8} (h : PointsTo s t) (h' : PointsTo s' t')
    (n : Nat) {a b : List UInt8} (ha : n ≤ a.length) (hb : n ≤ b.length) :
    (∃ r, strcmp s s' = .ok r ∧ Orders r t t') ∧
      (∃ r, strncmp s s' n = .ok r ∧ Orders r (t.take n) (t'.take n)) ∧
      ∃ r, memcmp a b n = .ok r ∧ Orders r (a.take n) (b.take n) :=
  ⟨strcmp_orders h h', strncmp_orders h h' n, memcmp_orders ha hb⟩

/-- The three comparisons on two names, and on one with memory behind it. -/
theorem comparisons_order_names :
    (∃ r, strcmp (ascii "dmx1" ++ [0, 7]) (ascii "dmx2" ++ [0]) = .ok r ∧
        Orders r (ascii "dmx1") (ascii "dmx2")) ∧
      (∃ r, strncmp (ascii "dmx1" ++ [0, 7]) (ascii "dmx2" ++ [0]) 3 = .ok r ∧
        Orders r ((ascii "dmx1").take 3) ((ascii "dmx2").take 3)) ∧
      ∃ r, memcmp [1, 2, 3] [1, 2, 4] 3 = .ok r ∧
        Orders r ([1, 2, 3].take 3) ([1, 2, 4].take 3) :=
  comparisons_order ⟨by decide, [7], rfl⟩ ⟨by decide, [], rfl⟩ 3 (by decide) (by decide)

/-! ## The environment -/

/-- An entry of the environment for a variable. -/
def EntryFor (env : List UInt8) (var : List UInt8 × List UInt8) : Prop :=
  PointsTo env (var.1 ++ equals :: var.2)

section

variable {env name n : List UInt8} {var : List UInt8 × List UInt8}

/-- Names without a `=` are told apart by the `=` behind them. -/
theorem eq_of_prefix_entry (hn : equals ∉ n) (hvar : equals ∉ var.1) {u : List UInt8}
    (h : var.1 ++ equals :: var.2 = n ++ equals :: u) : n = var.1 := by
  have hcut := congrArg (List.takeWhile (· ≠ equals)) h
  rwa [takeWhile_append_sep hvar, takeWhile_append_sep hn, eq_comm] at hcut

/-- The two tests of `getenv` on an entry. -/
theorem entry_test (henv : EntryFor env var) (hname : PointsTo name n) (hn : equals ∉ n)
    (hvar : equals ∉ var.1) :
    ∃ r, strncmp env name n.length = .ok r ∧
      (r = 0 → ∃ c, fetch env n.length = .ok c ∧ (c = equals ↔ n = var.1)) ∧
      (r ≠ 0 → n ≠ var.1) := by
  obtain ⟨r, hrun, horders⟩ := strncmp_orders henv hname n.length
  have hsame : r = 0 ↔ n <+: var.1 ++ equals :: var.2 := by
    rw [horders.same, List.take_length, List.prefix_iff_eq_take, eq_comm]
  refine ⟨r, hrun, fun hzero => ?_, fun hne heq => hne (hsame.mpr ?_)⟩
  · obtain ⟨u, hu⟩ := hsame.mp hzero
    obtain ⟨-, rest, hbytes⟩ := henv
    rw [← hu, List.append_assoc] at hbytes
    -- the byte behind the name, or the NUL
    obtain ⟨c, behind, hbehind⟩ : ∃ c behind, u ++ 0 :: rest = c :: behind :=
      List.exists_cons_of_ne_nil (by simp)
    rw [hbehind] at hbytes
    refine ⟨c, ?_, ?_, ?_⟩
    · rw [fetch_eq_ok (by rw [hbytes, List.length_append, List.length_cons]; omega), hbytes,
        load_append, if_neg (Nat.lt_irrefl _), Nat.sub_self]
      rfl
    · rintro rfl
      cases u with
      | nil =>
        rw [List.nil_append, List.cons.injEq] at hbehind
        exact absurd hbehind.1 (by decide)
      | cons d u =>
        rw [List.cons_append, List.cons.injEq] at hbehind
        rw [hbehind.1] at hu
        exact eq_of_prefix_entry hn hvar hu.symm
    · rintro rfl
      rw [List.append_cancel_left_eq] at hu
      rw [hu, List.cons_append, List.cons.injEq] at hbehind
      exact hbehind.1.symm
  · rw [heq]
    exact List.prefix_append _ _

/-- Behind the `=` of an entry stands the value. -/
theorem EntryFor.value (h : EntryFor env var) : PointsTo (env.drop (var.1.length + 1)) var.2 := by
  obtain ⟨hno, rest, rfl⟩ := h
  refine ⟨fun hmem => hno (List.mem_append_right _ (List.mem_cons_of_mem _ hmem)), rest, ?_⟩
  rw [List.append_assoc, ← List.drop_drop, List.drop_left]
  rfl

/-- **`getenv` looks a name up**: it returns a pointer to the value of the first entry of exactly
that name, or `NULL`, and reads nothing behind the end of an entry. -/
theorem getenv_lookup {environ : List (List UInt8)} {vars : List (List UInt8 × List UInt8)}
    (henviron : List.Forall₂ EntryFor environ vars) (hvars : ∀ var ∈ vars, equals ∉ var.1)
    (hname : PointsTo name n) (hn : equals ∉ n) :
    ∃ r, getenv (some environ) (some name) = .ok r ∧ Option.Rel PointsTo r (vars.lookup n) := by
  unfold getenv
  dsimp only
  rw [strlen_eq hname, ok_bind]
  induction henviron with
  | nil => exact ⟨none, rfl, .none⟩
  | @cons env var environ vars henv henviron ih =>
    rw [List.forall_mem_cons] at hvars
    obtain ⟨r, hrun, hsame, hother⟩ := entry_test henv hname hn hvars.1
    obtain ⟨k, v⟩ := var
    rw [getenvLoop, hrun, ok_bind, List.lookup_cons]
    -- the name agrees as far as it goes: only an `=` behind it makes it the variable
    by_cases hzero : r = 0
    · obtain ⟨c, hfetch, hc⟩ := hsame hzero
      rw [if_pos hzero, hfetch, ok_bind]
      by_cases heq : n = k
      · subst heq
        rw [if_pos (hc.mpr rfl), beq_self_eq_true]
        exact ⟨_, rfl, .some henv.value⟩
      · rw [if_neg (fun h => heq (hc.mp h)), beq_eq_false_iff_ne.mpr heq]
        exact ih hvars.2
    · rw [if_neg hzero, beq_eq_false_iff_ne.mpr (hother hzero)]
      exact ih hvars.2

end

/-- Two variables, one of them a prefix of the other. -/
theorem getenv_lookup_request :
    ∃ r, getenv (some [ascii "REQUEST=1" ++ [0], ascii "REQUEST_METHOD=POST" ++ [0]])
        (some (ascii "REQUEST_METHOD" ++ [0])) = .ok r ∧
      Option.Rel PointsTo r (List.lookup (ascii "REQUEST_METHOD")
        [(ascii "REQUEST", ascii "1"), (ascii "REQUEST_METHOD", ascii "POST")]) :=
  getenv_lookup (.cons ⟨by decide, [], by decide⟩ (.cons ⟨by decide, [], by decide⟩ .nil))
    (by decide) ⟨by decide, [], rfl⟩ (by decide)

end SN110
