import Mathlib.Data.List.Basic

/-!
# A file written a block at a time

A program empties a file and then writes it block after block, without looking at what a write
has taken. A write may take only the beginning of its block, and the program may stop after any
of the operations.

* `taken` is what the file holds when write `i` takes at most `takes i`.
* `foldl_fileOps_take`: the file after a run that is cut off.
* `taken_take_eq_flatten_iff`: the file is whole exactly when no block was left out or cut.
-/

namespace Writes

variable {α : Type*}

/-- An operation on the file. -/
inductive FileOp (α : Type*) where
  | truncate
  | write (block : List α) (takes : Nat)

/-- What the operation does to the file; `none` is no file. -/
def FileOp.apply (file : Option (List α)) : FileOp α → Option (List α)
  | .truncate => some []
  | .write block takes => some (file.getD [] ++ block.take takes)

/-- The writes of some blocks; `takes` says how much each one takes. -/
def writeOps : (Nat → Nat) → List (List α) → List (FileOp α)
  | _, [] => []
  | takes, block :: blocks =>
    .write block (takes 0) :: writeOps (fun i => takes (i + 1)) blocks

/-- What the writes take. -/
def taken : (Nat → Nat) → List (List α) → List α
  | _, [] => []
  | takes, block :: blocks => block.take (takes 0) ++ taken (fun i => takes (i + 1)) blocks

theorem take_writeOps (takes : Nat → Nat) (blocks : List (List α)) (k : Nat) :
    (writeOps takes blocks).take k = writeOps takes (blocks.take k) := by
  induction blocks generalizing takes k with
  | nil => simp [writeOps]
  | cons block blocks ih =>
    cases k with
    | zero => rfl
    | succ k =>
      show _ :: (writeOps _ blocks).take k = _ :: writeOps _ (blocks.take k)
      rw [ih]

theorem foldl_writeOps (takes : Nat → Nat) (blocks : List (List α)) (content : List α) :
    (writeOps takes blocks).foldl FileOp.apply (some content)
      = some (content ++ taken takes blocks) := by
  induction blocks generalizing takes content with
  | nil => exact congrArg some (List.append_nil content).symm
  | cons block blocks ih =>
    -- each write appends, so what the first one took goes to the content
    show (writeOps _ blocks).foldl FileOp.apply (some (content ++ block.take (takes 0))) = _
    rw [ih, List.append_assoc]
    rfl

/-- **The file after a run that is cut off**: as it was before the first operation, and what the
writes so far have taken after it. -/
theorem foldl_fileOps_take (takes : Nat → Nat) (blocks : List (List α)) (file : Option (List α))
    (k : Nat) :
    ((FileOp.truncate :: writeOps takes blocks).take k).foldl FileOp.apply file
      = if k = 0 then file else some (taken takes (blocks.take (k - 1))) := by
  cases k with
  | zero => rfl
  | succ k =>
    show ((writeOps takes blocks).take k).foldl FileOp.apply (some []) = _
    rw [take_writeOps, foldl_writeOps, if_neg (Nat.succ_ne_zero k)]
    rfl

theorem length_taken_le (takes : Nat → Nat) (blocks : List (List α)) (k : Nat) :
    (taken takes (blocks.take k)).length ≤ blocks.flatten.length := by
  induction blocks generalizing takes k with
  | nil => simp [taken]
  | cons block blocks ih =>
    cases k with
    | zero => exact Nat.zero_le _
    | succ k =>
      have hrest := ih (fun i => takes (i + 1)) k
      show (block.take (takes 0) ++ taken _ (blocks.take k)).length ≤ _
      rw [List.flatten_cons, List.length_append, List.length_append, List.length_take]
      omega

/-- **When the file is whole**: the run has come to its last block and every write has taken its
block. -/
theorem taken_take_eq_flatten_iff {blocks : List (List α)} (hne : ∀ block ∈ blocks, block ≠ [])
    (takes : Nat → Nat) (k : Nat) :
    taken takes (blocks.take k) = blocks.flatten ↔
      blocks.length ≤ k ∧ ∀ i, ∀ block ∈ blocks[i]?, block.length ≤ takes i := by
  induction blocks generalizing takes k with
  | nil => simp [taken]
  | cons block blocks ih =>
    rw [List.forall_mem_cons] at hne
    obtain ⟨hblock, hblocks⟩ := hne
    cases k with
    | zero =>
      -- nothing has been written, and the first block is not empty
      refine iff_of_false (fun h => hblock ?_) (fun h => absurd h.1 (Nat.not_succ_le_zero _))
      exact (List.append_eq_nil_iff.mp h.symm).1
    | succ k =>
      have hshift := ih hblocks (fun i => takes (i + 1)) k
      have hbound := length_taken_le (fun i => takes (i + 1)) blocks k
      show block.take (takes 0) ++ taken _ (blocks.take k) = block ++ blocks.flatten ↔ _
      rw [List.length_cons, Nat.add_le_add_iff_right]
      constructor
      · intro h
        -- a write that is cut is never made up for by the later ones
        have hlen := congrArg List.length h
        rw [List.length_append, List.length_append, List.length_take] at hlen
        have hfull : block.length ≤ takes 0 := by omega
        rw [List.take_of_length_le hfull] at h
        obtain ⟨hk, hrest⟩ := hshift.mp (List.append_cancel_left h)
        refine ⟨hk, fun i => ?_⟩
        cases i with
        | zero => simpa using hfull
        | succ i => simpa using hrest i
      · rintro ⟨hk, hall⟩
        have hfull : block.length ≤ takes 0 := hall 0 block rfl
        rw [List.take_of_length_le hfull]
        exact congrArg _ (hshift.mpr ⟨hk, fun i => by simpa using hall (i + 1)⟩)

end Writes
