import SN110.Lib.Checked

/-!
# A buffer that counts what does not fit

A program puts a text into a buffer of `size` bytes one character after another. It keeps the last
byte free, drops what does not fit, and goes on counting, in a 32-bit counter. In the end it puts a
NUL behind what it has stored.

Where the next character is `*s++` and that is evaluated only when there is room, a character that
does not fit is not dropped. It waits: the loop around it counts on with the same character, until
the counter has wrapped and there is room at the front again. In a buffer of one byte it waits for
ever.

* `Sink.spin_eq`: where a character that waits is taken at last.
* `Sink.putOuts_eq`: as long as no character has to wait, the buffer holds as much of the text as
  fits, and the counter is its length.
* `Sink.pos_lt_of_late`: after a character that has waited, the counter is behind for good.
* `Sink.finish_eq`: the NUL.
-/

namespace Checked

/-- The buffer and the counter. -/
structure Sink (cap : Nat) where
  buf : Vector UInt8 cap
  pos : UInt32

variable {cap : Nat}

/-- `if (pos < size - 1) buf[pos] = c; pos++;`, for a character that is at hand. -/
def Sink.putChar (size : UInt32) (sink : Sink cap) (c : UInt8) : Except Fault (Sink cap) := do
  let buf ← if sink.pos < size - 1 then put sink.buf sink.pos.toNat c else .ok sink.buf
  .ok ⟨buf, sink.pos + 1⟩

/-- Characters that are at hand. -/
def Sink.putAll (size : UInt32) (sink : Sink cap) : List UInt8 → Except Fault (Sink cap)
  | [] => .ok sink
  | c :: s => do
    let sink ← Sink.putChar size sink c
    Sink.putAll size sink s

/-- The rounds of `if (pos < size - 1) buf[pos] = *s++; pos++;` from `pos` on: where the character
is taken. A round without room leaves `s` where it is. When the counter wraps without having found
room, every position has been passed, and there is none at all. -/
def Sink.spin (size pos : UInt32) : Option UInt32 :=
  if pos < size - 1 then some pos
  else if pos + 1 = 0 then if 0 < size - 1 then some 0 else none
  else Sink.spin size (pos + 1)
termination_by 2 ^ 32 - pos.toNat
decreasing_by
  rename_i hwrap
  have hlt := pos.toNat_lt
  have hnext : (pos + 1).toNat = (pos.toNat + 1) % 2 ^ 32 := UInt32.toNat_add pos 1
  have hne : (pos + 1).toNat ≠ 0 := fun h => hwrap (UInt32.toNat_inj.mp h)
  omega

/-- The next character of a text is put, after as many rounds as it takes. -/
def Sink.putNext (size : UInt32) (sink : Sink cap) (c : UInt8) : Except Fault (Sink cap) :=
  match Sink.spin size sink.pos with
  | some pos => do
    let buf ← put sink.buf pos.toNat c
    .ok ⟨buf, pos + 1⟩
  | none => .error .forever

/-- `while (*s) { if (pos < size - 1) buf[pos] = *s++; pos++; }`. -/
def Sink.putString (size : UInt32) (sink : Sink cap) : List UInt8 → Except Fault (Sink cap)
  | [] => .ok sink
  | c :: s => do
    let sink ← Sink.putNext size sink c
    Sink.putString size sink s

/-- `buf[(pos < size) ? pos : size - 1] = '\0';`. -/
def Sink.finish (size : UInt32) (sink : Sink cap) : Except Fault (Vector UInt8 cap) :=
  put sink.buf (if sink.pos < size then sink.pos else size - 1).toNat 0

/-! ## Both kinds of characters -/

/-- A character on its way into the buffer: at hand, or taken from a text when there is room. -/
structure Out where
  char : UInt8
  taken : Bool

/-- A character that is at hand. -/
def Out.hand (c : UInt8) : Out := ⟨c, false⟩

/-- A character that is taken from a text. -/
def Out.next (c : UInt8) : Out := ⟨c, true⟩

/-- One character. -/
def Sink.putOut (size : UInt32) (sink : Sink cap) (o : Out) : Except Fault (Sink cap) :=
  if o.taken then sink.putNext size o.char else sink.putChar size o.char

/-- Characters of both kinds. -/
def Sink.putOuts (size : UInt32) (sink : Sink cap) : List Out → Except Fault (Sink cap)
  | [] => .ok sink
  | o :: outs => do
    let sink ← sink.putOut size o
    Sink.putOuts size sink outs

/-- The text that is put. -/
def outText (outs : List Out) : List UInt8 := outs.map Out.char

/-- No character from a text comes behind the first `room` characters. -/
def NoneWaits (room : Nat) (outs : List Out) : Prop := ∀ o ∈ outs.drop room, o.taken = false

instance (room : Nat) (outs : List Out) : Decidable (NoneWaits room outs) :=
  inferInstanceAs (Decidable (∀ o ∈ outs.drop room, o.taken = false))

theorem outText_append (xs ys : List Out) : outText (xs ++ ys) = outText xs ++ outText ys :=
  List.map_append

theorem length_outText (outs : List Out) : (outText outs).length = outs.length :=
  List.length_map Out.char

/-- Characters in hand are output as they are. -/
theorem outText_hand (s : List UInt8) : outText (s.map .hand) = s := by
  unfold outText
  rw [List.map_map]
  exact List.map_id s

/-- Characters fetched one by one are output as they are. -/
theorem outText_next (s : List UInt8) : outText (s.map .next) = s := by
  unfold outText
  rw [List.map_map]
  exact List.map_id s

/-- Where everything fits, nothing has to wait. -/
theorem noneWaits_of_length_le {room : Nat} {outs : List Out} (h : outs.length ≤ room) :
    NoneWaits room outs := by
  unfold NoneWaits
  rw [List.drop_of_length_le h]
  exact List.forall_mem_nil _

section

variable {size : UInt32} {sink : Sink cap}

/-- Two sequences are put one after the other. -/
theorem Sink.putOuts_append (xs ys : List Out) (sink : Sink cap) :
    sink.putOuts size (xs ++ ys) = sink.putOuts size xs >>= fun sink => sink.putOuts size ys := by
  induction xs generalizing sink with
  | nil => rfl
  | cons o xs ih =>
    rw [List.cons_append, putOuts, putOuts, bind_assoc]
    exact bind_congr fun sink => ih sink

/-- Characters at hand are characters of the one kind. -/
theorem Sink.putAll_eq (s : List UInt8) (sink : Sink cap) :
    sink.putAll size s = sink.putOuts size (s.map .hand) := by
  induction s generalizing sink with
  | nil => rfl
  | cons c s ih =>
    rw [putAll, List.map_cons, putOuts]
    exact bind_congr fun sink => ih sink

/-- The characters of a text are characters of the other kind. -/
theorem Sink.putString_eq (s : List UInt8) (sink : Sink cap) :
    sink.putString size s = sink.putOuts size (s.map .next) := by
  induction s generalizing sink with
  | nil => rfl
  | cons c s ih =>
    rw [putString, List.map_cons, putOuts]
    exact bind_congr fun sink => ih sink

theorem Sink.putOuts_singleton (o : Out) (sink : Sink cap) :
    sink.putOuts size [o] = sink.putOut size o := by
  rw [putOuts]
  exact bind_pure _

/-! ## Waiting -/

/-- **Where a character is taken**: at once when there is room, and otherwise at the front. -/
theorem Sink.spin_eq (size pos : UInt32) :
    spin size pos
      = if pos < size - 1 then some pos else if 0 < size - 1 then some 0 else none := by
  induction pos using Sink.spin.induct size with
  | case1 pos hroom => rw [spin, if_pos hroom, if_pos hroom]
  | case2 pos hroom hwrap hfront => rw [spin, if_neg hroom, if_pos hwrap, if_neg hroom]
  | case3 pos hroom hwrap hfront => rw [spin, if_neg hroom, if_pos hwrap, if_neg hroom]
  | case4 pos hroom hwrap ih =>
    -- behind a position without room there is none before the wrap
    have hnext : ¬ pos + 1 < size - 1 := by
      have hlt := pos.toNat_lt
      have hsum : (pos + 1).toNat = (pos.toNat + 1) % 2 ^ 32 := UInt32.toNat_add pos 1
      have hne : (pos + 1).toNat ≠ 0 := fun h => hwrap (UInt32.toNat_inj.mp h)
      rw [UInt32.lt_iff_toNat_lt] at hroom ⊢
      omega
    rw [spin, if_neg hroom, if_neg hwrap, ih, if_neg hroom, if_neg hnext]

/-- A character that has room is put like one that is at hand. -/
theorem Sink.putNext_of_lt (hroom : sink.pos < size - 1) (c : UInt8) :
    sink.putNext size c = sink.putChar size c := by
  unfold putNext putChar
  rw [spin_eq, if_pos hroom, if_pos hroom]

/-- In a buffer of one byte there is never room. -/
theorem Sink.putNext_size_one (sink : Sink cap) (c : UInt8) :
    sink.putNext 1 c = .error .forever := by
  have hnone : spin 1 sink.pos = none := by
    rw [spin_eq, if_neg (by exact UInt32.not_lt_zero), if_neg (by decide)]
  unfold putNext
  rw [hnone]

/-- The counter after a character that was at hand. -/
theorem Sink.pos_of_putChar {sink' : Sink cap} {c : UInt8} (h : sink.putChar size c = .ok sink') :
    sink'.pos = sink.pos + 1 := by
  unfold putChar at h
  dsimp only at h
  split_ifs at h
  · obtain ⟨buf, -, hsink⟩ := exists_of_bind_eq_ok h
    exact congrArg Sink.pos (Except.ok.inj hsink).symm
  · exact congrArg Sink.pos (Except.ok.inj h).symm

/-- The counter after a character that has waited. -/
theorem Sink.pos_of_putNext {sink' : Sink cap} {c : UInt8} (hfull : ¬ sink.pos < size - 1)
    (h : sink.putNext size c = .ok sink') : sink'.pos = 1 ∧ 0 < size - 1 := by
  unfold putNext at h
  rw [spin_eq, if_neg hfull] at h
  by_cases hfront : 0 < size - 1
  · rw [if_pos hfront] at h
    obtain ⟨buf, -, hsink⟩ := exists_of_bind_eq_ok h
    exact ⟨(congrArg Sink.pos (Except.ok.inj hsink)).symm, hfront⟩
  · rw [if_neg hfront] at h
    cases h

/-- A character does not take the counter further than by one. -/
theorem Sink.pos_putOut_le {sink' : Sink cap} {o : Out} {n d : Nat}
    (hpos : sink.pos.toNat + d ≤ n) (hn : n + 1 < 2 ^ 32) (h : sink.putOut size o = .ok sink') :
    sink'.pos.toNat + d ≤ n + 1 := by
  have hcount : sink'.pos = sink.pos + 1 → sink'.pos.toNat + d ≤ n + 1 := by
    intro heq
    have hsum : (sink.pos + 1).toNat = (sink.pos.toNat + 1) % 2 ^ 32 := UInt32.toNat_add sink.pos 1
    rw [heq]
    omega
  unfold putOut at h
  split_ifs at h with htaken
  · by_cases hroom : sink.pos < size - 1
    · rw [putNext_of_lt hroom] at h
      exact hcount (pos_of_putChar h)
    · rw [(pos_of_putNext hroom h).1]
      show 1 + d ≤ n + 1
      omega
  · exact hcount (pos_of_putChar h)

/-- Putting moves the position by one for each output at most. -/
theorem Sink.pos_putOuts_le {outs : List Out} {sink sink' : Sink cap} {n d : Nat}
    (hpos : sink.pos.toNat + d ≤ n) (hn : n + outs.length < 2 ^ 32)
    (h : sink.putOuts size outs = .ok sink') : sink'.pos.toNat + d ≤ n + outs.length := by
  induction outs generalizing sink n with
  | nil =>
    obtain rfl := Except.ok.inj h
    exact hpos
  | cons o outs ih =>
    rw [List.length_cons] at hn ⊢
    obtain ⟨next, hput, hrest⟩ := exists_of_bind_eq_ok h
    have hle := @ih next (n + 1) (pos_putOut_le hpos (by omega) hput) (by omega) hrest
    omega

/-- **After a character that has waited** the counter is behind the length of the text for good. -/
theorem Sink.pos_lt_of_late {outs : List Out} {sink' : Sink cap} {buf : Vector UInt8 cap}
    (hsize : 1 ≤ size.toNat) (hlen : outs.length < 2 ^ 32)
    (hlate : ¬ NoneWaits (size.toNat - 1) outs)
    (h : Sink.putOuts size ⟨buf, 0⟩ outs = .ok sink') : sink'.pos.toNat < outs.length := by
  have hsub : (size - 1).toNat = size.toNat - 1 :=
    UInt32.toNat_sub_of_le size 1 (UInt32.le_iff_toNat_le.mpr hsize)
  unfold NoneWaits at hlate
  push Not at hlate
  obtain ⟨o, hmem, htaken⟩ := hlate
  obtain ⟨before, behind, hdrop⟩ := List.append_of_mem hmem
  have houts : outs = (outs.take (size.toNat - 1) ++ before) ++ o :: behind := by
    rw [List.append_assoc, ← hdrop, List.take_append_drop]
  generalize hfirst : outs.take (size.toNat - 1) ++ before = first at houts
  have hroom : size.toNat - 1 ≤ first.length := by
    have hdropped : 0 < (outs.drop (size.toNat - 1)).length := List.length_pos_of_mem hmem
    rw [List.length_drop] at hdropped
    rw [← hfirst, List.length_append, List.length_take]
    omega
  rw [houts, List.length_append, List.length_cons] at hlen
  rw [houts, putOuts_append] at h
  obtain ⟨reached, hput, hrest⟩ := exists_of_bind_eq_ok h
  obtain ⟨next, hnext, hlast⟩ := exists_of_bind_eq_ok hrest
  have hreached := @pos_putOuts_le cap size first ⟨buf, 0⟩ reached 0 0 (Nat.le_refl 0) (by omega)
    hput
  -- the character has room only where the counter is behind already
  have hbehind : next.pos.toNat + 1 ≤ first.length + 1 := by
    by_cases hfits : reached.pos < size - 1
    · rw [UInt32.lt_iff_toNat_lt, hsub] at hfits
      exact pos_putOut_le (by omega) (by omega) hnext
    · unfold putOut at hnext
      rw [if_pos (by simpa using htaken)] at hnext
      obtain ⟨hone, hfront⟩ := pos_of_putNext hfits hnext
      rw [UInt32.lt_iff_toNat_lt, hsub] at hfront
      change 0 < size.toNat - 1 at hfront
      rw [hone]
      show 1 + 1 ≤ first.length + 1
      omega
  have hend := pos_putOuts_le hbehind (by omega) hlast
  rw [houts, List.length_append, List.length_cons]
  omega

end

/-! ## Texts that nothing has to wait for -/

/-- What the sink holds after a text. -/
def Sink.after (size : UInt32) (buf : Vector UInt8 cap) (text : List UInt8) : Sink cap :=
  ⟨overlay buf (text.take (size.toNat - 1)), UInt32.ofNat text.length⟩

theorem Sink.after_nil (size : UInt32) (buf : Vector UInt8 cap) :
    Sink.after size buf [] = ⟨buf, 0⟩ := by
  simp [after]

section

variable {size : UInt32} (hsize : 1 ≤ size.toNat) (hcap : size.toNat ≤ cap)
  {buf : Vector UInt8 cap} {text : List UInt8}

include hsize

theorem toNat_size_sub_one : (size - 1).toNat = size.toNat - 1 :=
  UInt32.toNat_sub_of_le size 1 (UInt32.le_iff_toNat_le.mpr hsize)

/-- There is room behind a text that is not as long as the buffer. -/
theorem Sink.after_hasRoom (hlen : text.length < 2 ^ 32) :
    (Sink.after size buf text).pos < size - 1 ↔ text.length < size.toNat - 1 := by
  have hpos : (UInt32.ofNat text.length).toNat = text.length := by
    rw [UInt32.toNat_ofNat']
    omega
  show UInt32.ofNat text.length < size - 1 ↔ _
  rw [UInt32.lt_iff_toNat_lt, hpos, toNat_size_sub_one hsize]

include hcap

/-- One more character is stored, or only counted. -/
theorem Sink.putChar_eq (c : UInt8) (hlen : text.length < 2 ^ 32) :
    Sink.putChar size (Sink.after size buf text) c = .ok (Sink.after size buf (text ++ [c])) := by
  have hpos : (UInt32.ofNat text.length).toNat = text.length := by
    rw [UInt32.toNat_ofNat']
    omega
  -- `pos` counts every character, stored or not
  have hnext : UInt32.ofNat text.length + 1 = UInt32.ofNat (text ++ [c]).length := by
    rw [List.length_append, List.length_singleton, UInt32.ofNat_add]
    rfl
  have hfits : UInt32.ofNat text.length < size - 1 ↔ text.length < size.toNat - 1 :=
    @after_hasRoom cap size hsize buf text hlen
  unfold putChar after
  dsimp only
  rw [hnext]
  by_cases hroom : text.length < size.toNat - 1
  · -- everything so far has been stored, and there is room for this one
    have hall : text.take (size.toNat - 1) = text := List.take_of_length_le (Nat.le_of_lt hroom)
    have hall' : (text ++ [c]).take (size.toNat - 1) = text ++ [c] :=
      List.take_of_length_le (by rw [List.length_append, List.length_singleton]; omega)
    rw [if_pos (hfits.mpr hroom), hall, hall', hpos, put_overlay c (by omega), ok_bind]
  · have hsame : (text ++ [c]).take (size.toNat - 1) = text.take (size.toNat - 1) :=
      List.take_append_of_le_length (Nat.le_of_not_lt hroom)
    rw [if_neg (fun h => hroom (hfits.mp h)), hsame, ok_bind]

/-- **The buffer after a text** is the one after what was there before it and the text, when no
character of the text has to wait. -/
theorem Sink.putOuts_eq (outs : List Out) (hlen : (text ++ outText outs).length < 2 ^ 32)
    (hroom : NoneWaits (size.toNat - 1 - text.length) outs) :
    Sink.putOuts size (Sink.after size buf text) outs
      = .ok (Sink.after size buf (text ++ outText outs)) := by
  induction outs generalizing text with
  | nil =>
    rw [outText, List.map_nil, List.append_nil, putOuts]
  | cons o outs ih =>
    have hsplit : text ++ outText (o :: outs) = text ++ [o.char] ++ outText outs := by
      simp [outText]
    rw [hsplit] at hlen ⊢
    have hshort : text.length < 2 ^ 32 := by
      rw [List.length_append, List.length_append] at hlen
      omega
    -- by induction each output finds the sink as it is after the text so far
    have hput : (Sink.after size buf text).putOut size o
        = .ok (Sink.after size buf (text ++ [o.char])) := by
      unfold putOut
      split_ifs with htaken
      · -- a character from a text has room
        have hfits : text.length < size.toNat - 1 := by
          by_contra hfull
          have hzero : size.toNat - 1 - text.length = 0 := by omega
          rw [NoneWaits, hzero, List.drop_zero, List.forall_mem_cons, htaken] at hroom
          exact absurd hroom.1 (by decide)
        rw [putNext_of_lt ((after_hasRoom hsize hshort).mpr hfits), putChar_eq hsize hcap _ hshort]
      · exact putChar_eq hsize hcap _ hshort
    have hrest : NoneWaits (size.toNat - 1 - (text ++ [o.char]).length) outs := by
      intro o' hmem
      refine hroom o' ?_
      rw [List.length_append, List.length_singleton] at hmem
      rcases Nat.eq_zero_or_pos (size.toNat - 1 - text.length) with hzero | hpos
      · rw [hzero, List.drop_zero]
        exact List.mem_cons_of_mem o (List.mem_of_mem_drop hmem)
      · obtain ⟨k, hk⟩ : ∃ k, size.toNat - 1 - text.length = k + 1 :=
          ⟨size.toNat - 1 - text.length - 1, by omega⟩
        rw [hk, List.drop_succ_cons]
        rwa [show size.toNat - 1 - (text.length + 1) = k by omega] at hmem
    rw [putOuts, hput, ok_bind]
    exact ih hlen hrest

/-- The NUL stands behind what has been stored. -/
theorem Sink.finish_eq (hlen : text.length < 2 ^ 32) :
    Sink.finish size (Sink.after size buf text)
      = .ok (overlay buf (text.take (size.toNat - 1) ++ [0])) := by
  have hpos : (UInt32.ofNat text.length).toNat = text.length := by
    rw [UInt32.toNat_ofNat']
    omega
  -- the NUL goes behind the text, or over the last byte where the text was cut
  have hindex : (if UInt32.ofNat text.length < size then UInt32.ofNat text.length
      else size - 1).toNat = (text.take (size.toNat - 1)).length := by
    rw [List.length_take]
    split_ifs with hlt
    · rw [UInt32.lt_iff_toNat_lt, hpos] at hlt
      omega
    · rw [UInt32.lt_iff_toNat_lt, hpos] at hlt
      rw [toNat_size_sub_one hsize]
      omega
  have hbound : (text.take (size.toNat - 1)).length < cap := by
    rw [List.length_take]
    omega
  unfold finish after
  dsimp only
  rw [hindex, put_overlay 0 hbound]

end

end Checked
