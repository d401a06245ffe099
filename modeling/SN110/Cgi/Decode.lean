import SN110.Cgi.Formdata
import SN110.Lib.Checked

/-!
# Decoding inverts encoding (`url_decode`)

Every byte of a text has several encodings. The decoder reads all of them back
(`urlDecodeFrom_of_urlEncodes`), and where its output is too short for the text it stops between two
bytes of the text, never inside an escape.

`urlDecodeLoop` is the decoder with its output array, every store checked. The invariant of its loop
is that the array holds what has been decoded first (`urlDecodeLoop_eq`).
-/

namespace SN110

open Memory Checked

/-! ## Encodings -/

/-- The text is an encoding of the value: a byte stands for itself if it is neither `%` nor `+`, a
space may be a `+`, and any byte may be a `%` with two hex digits. -/
inductive UrlEncodes : List UInt8 → List UInt8 → Prop where
  | nil : UrlEncodes [] []
  | plain {c : UInt8} {enc val : List UInt8} (hpercent : c ≠ percent) (hplus : c ≠ plus) :
      UrlEncodes enc val → UrlEncodes (c :: enc) (c :: val)
  | space {enc val : List UInt8} : UrlEncodes enc val → UrlEncodes (plus :: enc) (space :: val)
  | hex {h l : UInt8} {hi lo : Nat} {enc val : List UInt8} (hhi : hexDigit h = some hi)
      (hlo : hexDigit l = some lo) : UrlEncodes enc val →
        UrlEncodes (percent :: h :: l :: enc) (UInt8.ofNat (16 * hi + lo) :: val)

/-- A hexadecimal digit is none of the other characters. -/
theorem hexDigit_ne {c x : UInt8} {n : Nat} (hc : hexDigit c = some n) (hx : hexDigit x = none) :
    c ≠ x := by
  rintro rfl
  rw [hc] at hx
  cases hx

/-- An encoding of a text is a text. -/
theorem no_nul_of_urlEncodes {enc val : List UInt8} (h : UrlEncodes enc val) (hval : 0 ∉ val) :
    0 ∉ enc := by
  induction h with
  | nil => exact List.not_mem_nil
  | plain _ _ _ ih =>
    simp only [List.mem_cons, not_or] at hval ⊢
    exact ⟨hval.1, ih hval.2⟩
  | space _ ih =>
    simp only [List.mem_cons, not_or] at hval ⊢
    exact ⟨by decide, ih hval.2⟩
  | hex hhi hlo _ ih =>
    simp only [List.mem_cons, not_or] at hval ⊢
    exact ⟨by decide, (hexDigit_ne hhi (by decide)).symm, (hexDigit_ne hlo (by decide)).symm,
      ih hval.2⟩

/-! ## One round of the decoder -/

/-- Only a `%` begins an escape. -/
theorem percentByte_of_ne {c : UInt8} (h : c ≠ percent) (rest : List UInt8) :
    percentByte (c :: rest) = none := by
  match rest with
  | [] => rfl
  | [_] => rfl
  | _ :: _ :: _ => exact if_neg h

/-- A plain character is decoded to itself. -/
theorem urlDecodeFrom_plain {c : UInt8} (hpercent : c ≠ percent) (hplus : c ≠ plus) (room : Nat)
    (rest : List UInt8) :
    urlDecodeFrom (room + 1) (c :: rest) = c :: urlDecodeFrom room rest := by
  conv_lhs => unfold urlDecodeFrom
  rw [percentByte_of_ne hpercent]
  dsimp only
  rw [if_neg hplus]

/-- A `+` is decoded to a space. -/
theorem urlDecodeFrom_plus (room : Nat) (rest : List UInt8) :
    urlDecodeFrom (room + 1) (plus :: rest) = space :: urlDecodeFrom room rest := by
  conv_lhs => unfold urlDecodeFrom
  rw [percentByte_of_ne (by decide)]
  rfl

/-- A `%` with two digits is decoded to their byte. -/
theorem urlDecodeFrom_hex {h l : UInt8} {hi lo : Nat} (hhi : hexDigit h = some hi)
    (hlo : hexDigit l = some lo) (room : Nat) (rest : List UInt8) :
    urlDecodeFrom (room + 1) (percent :: h :: l :: rest)
      = UInt8.ofNat (16 * hi + lo) :: urlDecodeFrom room rest := by
  have hbyte : percentByte (percent :: h :: l :: rest)
      = some (UInt8.ofNat (16 * hi + lo), rest) := by
    simp only [percentByte, hhi, hlo, if_pos]
  conv_lhs => unfold urlDecodeFrom
  rw [hbyte]

/-- **The decoder reads every encoding back**, as far as there is room. -/
theorem urlDecodeFrom_of_urlEncodes {enc val : List UInt8} (h : UrlEncodes enc val) (room : Nat) :
    urlDecodeFrom room enc = val.take room := by
  induction h generalizing room with
  | nil => cases room <;> rfl
  | plain hpercent hplus _ ih =>
    cases room with
    | zero => rfl
    | succ room => rw [urlDecodeFrom_plain hpercent hplus, ih, List.take_succ_cons]
  | space _ ih =>
    cases room with
    | zero => rfl
    | succ room => rw [urlDecodeFrom_plus, ih, List.take_succ_cons]
  | hex hhi hlo _ ih =>
    cases room with
    | zero => rfl
    | succ room => rw [urlDecodeFrom_hex hhi hlo, ih, List.take_succ_cons]

/-! ## The output array -/

variable {cap : Nat}

/-- The loop of `url_decode` and the NUL behind it: `i` bytes have been stored in `dst`. -/
def urlDecodeLoop (maxlen : Nat) (src : List UInt8) (dst : Vector UInt8 cap) (i : Nat) :
    Except Fault (Vector UInt8 cap) :=
  match src with
  | [] => put dst i 0
  | c :: rest =>
    if i < maxlen - 1 then
      match percentByte (c :: rest) with
      | some (b, rest') => do
        let dst ← put dst i b
        urlDecodeLoop maxlen rest' dst (i + 1)
      | none => do
        let dst ← put dst i (if c = plus then space else c)
        urlDecodeLoop maxlen rest dst (i + 1)
    else put dst i 0
termination_by maxlen - i

/-- `url_decode`, every store checked: what `dst` holds afterwards. -/
def urlDecodeInto (dst : Vector UInt8 cap) (src : List UInt8) (maxlen : Nat) :
    Except Fault (Vector UInt8 cap) :=
  urlDecodeLoop maxlen (cstr src) dst 0

/-- What has been decoded stands first in the array, and the NUL behind all of it. -/
theorem urlDecodeLoop_eq {maxlen : Nat} (hcap : maxlen ≤ cap) (dst : Vector UInt8 cap)
    (src : List UInt8) {out : List UInt8} (hout : out.length < maxlen) :
    urlDecodeLoop maxlen src (overlay dst out) out.length
      = .ok (overlay dst (out ++ urlDecodeFrom (maxlen - 1 - out.length) src ++ [0])) := by
  induction hroom : maxlen - 1 - out.length generalizing src out with
  | zero =>
    -- the room is used up, whatever is left of the source
    have hstop : urlDecodeLoop maxlen src (overlay dst out) out.length
        = put (overlay dst out) out.length 0 := by
      unfold urlDecodeLoop
      cases src with
      | nil => rfl
      | cons c rest => exact if_neg (by omega)
    rw [hstop, put_overlay 0 (by omega)]
    cases src <;> simp [urlDecodeFrom]
  | succ room ih =>
    -- a byte is stored and the loop goes on behind it
    have hstep : ∀ (b : UInt8) (rest : List UInt8),
        (put (overlay dst out) out.length b >>= fun dst' =>
          urlDecodeLoop maxlen rest dst' (out.length + 1))
          = .ok (overlay dst (out ++ b :: urlDecodeFrom room rest ++ [0])) := by
      intro b rest
      have hnext := @ih rest (out ++ [b])
        (by rw [List.length_append, List.length_singleton]; omega)
        (by rw [List.length_append, List.length_singleton]; omega)
      rw [put_overlay b (by omega), ok_bind]
      rw [List.length_append, List.length_singleton] at hnext
      rw [hnext, List.append_assoc out [b], List.singleton_append]
    cases src with
    | nil =>
      unfold urlDecodeLoop
      rw [put_overlay 0 (by omega)]
      simp [urlDecodeFrom]
    | cons c rest =>
      rw [urlDecodeLoop, if_pos (by omega)]
      show _ = Except.ok (overlay dst (out ++ (match percentByte (c :: rest) with
        | some (b, rest') => b :: urlDecodeFrom room rest'
        | none => (if c = plus then space else c) :: urlDecodeFrom room rest) ++ [0]))
      cases percentByte (c :: rest) with
      | none => exact hstep _ _
      | some taken => exact hstep _ _

/-- Storing into a buffer of `maxlen` bytes, `url_decode` leaves the decoded text and its NUL. -/
theorem urlDecodeInto_eq {maxlen : Nat} (hmaxlen : 1 ≤ maxlen) (hcap : maxlen ≤ cap)
    (dst : Vector UInt8 cap) (src : List UInt8) :
    urlDecodeInto dst src maxlen = .ok (overlay dst (urlDecode (cstr src) maxlen ++ [0])) := by
  have hloop := @urlDecodeLoop_eq cap maxlen hcap dst (cstr src) [] hmaxlen
  rwa [overlay_nil] at hloop

/-- **Decoding inverts every encoding.** Of an encoding of a text the decoder stores the first bytes
of the text that there is room for and a NUL, and leaves the rest of the array alone. -/
theorem urlDecodeInto_of_urlEncodes {enc val : List UInt8} (h : UrlEncodes enc val)
    (hval : 0 ∉ val) {maxlen : Nat} (hmaxlen : 1 ≤ maxlen) (hcap : maxlen ≤ cap)
    (dst : Vector UInt8 cap) :
    ∃ stored, urlDecodeInto dst enc maxlen = .ok stored ∧
      ∀ i : Fin cap, stored.get i
        = if i.val < min val.length (maxlen - 1) then load val i
          else if i.val = min val.length (maxlen - 1) then 0 else dst.get i := by
  have hstored := urlDecodeInto_eq hmaxlen hcap dst enc
  rw [cstr_of_no_nul (no_nul_of_urlEncodes h hval), urlDecode, urlDecodeFrom_of_urlEncodes h]
    at hstored
  exact ⟨_, hstored, getElem_overlay_nul dst val (maxlen - 1)⟩

/-- Room for three bytes of four, the last of which is written as an escape. -/
theorem urlDecodeInto_of_urlEncodes_cut :
    ∃ stored, urlDecodeInto (Vector.replicate 6 9) (ascii "%4a+b%2B") 4 = .ok stored ∧
      ∀ i : Fin 6, stored.get i
        = if i.val < min (ascii "J b+").length 3 then load (ascii "J b+") i
          else if i.val = min (ascii "J b+").length 3 then 0 else (Vector.replicate 6 9).get i :=
  urlDecodeInto_of_urlEncodes
    (@UrlEncodes.hex 52 97 4 10 _ _ rfl rfl (UrlEncodes.space (UrlEncodes.plain (by decide)
      (by decide) (@UrlEncodes.hex 50 66 2 11 _ _ rfl rfl UrlEncodes.nil))))
    (by decide) (by decide) (by decide) (Vector.replicate 6 9)

end SN110
