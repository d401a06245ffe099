import SN110.Minilib.Text

/-!
# Buffered output (`minilib.c`)

A `FILE` opened for writing holds back up to `MINI_FILE_BUFSZ` bytes. What `fwrite`, `fputs` and
`fclose` hand to the system is here the list of the blocks of their `write` calls; their results
are not looked at. `OpenFile` is the `struct` itself, on which `Minilib.Output` and `Minilib.Input`
run the functions.

* `MiniFile.flatten_blocks`: the blocks put together are the texts, in order.
* `MiniFile.blocks_ne_nil`: there is no empty `write`.
-/

namespace SN110

/-- `MINI_FILE_BUFSZ`. -/
abbrev miniFileBufsz : Nat := 256

/-- A `struct _mini_file`, without its descriptor. -/
structure OpenFile where
  mode : UInt8
  buf : Vector UInt8 miniFileBufsz
  bufPos : Int32
  bufLen : Int32
  inUse : Bool

/-- What `fopen` makes of a slot of `_files`; the buffer stays what it was. -/
def OpenFile.fopen (mode : UInt8) (buf : Vector UInt8 miniFileBufsz) : OpenFile :=
  ⟨mode, buf, 0, 0, true⟩

/-- A `struct _mini_file` in mode `w`: the bytes before `buf_pos`. -/
structure MiniFile where
  buf : List UInt8
  length_le : buf.length ≤ miniFileBufsz

/-- The `FILE` that `fopen` returns. -/
def MiniFile.empty : MiniFile := ⟨[], Nat.zero_le _⟩

/-- The `write` of the buffer, if it holds anything. -/
def MiniFile.flush (f : MiniFile) : List (List UInt8) := if f.buf = [] then [] else [f.buf]

/-- `fwrite` of `src`, which `fputs` calls with its text. -/
def MiniFile.fwrite (f : MiniFile) (src : List UInt8) : MiniFile × List (List UInt8) :=
  -- the text is buffered if it fits behind what is there; otherwise the buffer is flushed first,
  -- and a text larger than the buffer is written past it
  if src = [] then (f, [])
  else if hfits : f.buf.length + src.length ≤ miniFileBufsz then
    (⟨f.buf ++ src, by rwa [List.length_append]⟩, [])
  else if hlarge : src.length ≤ miniFileBufsz then (⟨src, hlarge⟩, f.flush)
  else (MiniFile.empty, f.flush ++ [src])

/-- `fclose`. -/
def MiniFile.fclose (f : MiniFile) : List (List UInt8) := f.flush

/-- The `write` calls of some texts put one after another, and of the `fclose` after them. -/
def MiniFile.blocks : MiniFile → List (List UInt8) → List (List UInt8)
  | f, [] => f.fclose
  | f, src :: srcs => (f.fwrite src).2 ++ (f.fwrite src).1.blocks srcs

/-! ## Nothing is lost between the texts and the blocks -/

theorem MiniFile.flatten_flush (f : MiniFile) : f.flush.flatten = f.buf := by
  unfold MiniFile.flush
  split_ifs with hnil
  · rw [hnil]
    rfl
  · exact List.flatten_singleton

/-- What `fwrite` has passed on and what it holds back is what was held back and the text. -/
theorem MiniFile.fwrite_flatten (f : MiniFile) (src : List UInt8) :
    (f.fwrite src).2.flatten ++ (f.fwrite src).1.buf = f.buf ++ src := by
  unfold MiniFile.fwrite
  split_ifs with hnil hfits hlarge
  · rw [hnil, List.append_nil]
    rfl
  · rfl
  · show f.flush.flatten ++ src = _
    rw [f.flatten_flush]
  · -- a text larger than the buffer goes out behind it
    show (f.flush ++ [src]).flatten ++ [] = _
    rw [List.append_nil, List.flatten_append, f.flatten_flush, List.flatten_singleton]

theorem MiniFile.flatten_blocks (f : MiniFile) (srcs : List (List UInt8)) :
    (f.blocks srcs).flatten = f.buf ++ srcs.flatten := by
  induction srcs generalizing f with
  | nil =>
    show f.flush.flatten = f.buf ++ []
    rw [f.flatten_flush, List.append_nil]
  | cons src srcs ih =>
    show ((f.fwrite src).2 ++ (f.fwrite src).1.blocks srcs).flatten = f.buf ++ (src ++ srcs.flatten)
    rw [List.flatten_append, ih, ← List.append_assoc, f.fwrite_flatten, List.append_assoc]

theorem MiniFile.flush_ne_nil (f : MiniFile) : ∀ block ∈ f.flush, block ≠ [] := by
  intro block hblock
  unfold MiniFile.flush at hblock
  split_ifs at hblock with hnil
  · cases hblock
  · rwa [List.mem_singleton.mp hblock]

theorem MiniFile.fwrite_ne_nil (f : MiniFile) (src : List UInt8) :
    ∀ block ∈ (f.fwrite src).2, block ≠ [] := by
  unfold MiniFile.fwrite
  split_ifs with hnil hfits hlarge
  · exact List.forall_mem_nil _
  · exact List.forall_mem_nil _
  · exact f.flush_ne_nil
  · intro block hblock
    rcases List.mem_append.mp hblock with hblock | hblock
    · exact f.flush_ne_nil block hblock
    · rwa [List.mem_singleton.mp hblock]

theorem MiniFile.blocks_ne_nil (f : MiniFile) (srcs : List (List UInt8)) :
    ∀ block ∈ f.blocks srcs, block ≠ [] := by
  induction srcs generalizing f with
  | nil => exact f.flush_ne_nil
  | cons src srcs ih =>
    intro block hblock
    rcases List.mem_append.mp hblock with hblock | hblock
    · exact f.fwrite_ne_nil src block hblock
    · exact ih _ block hblock

end SN110
