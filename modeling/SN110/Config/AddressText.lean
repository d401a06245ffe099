import SN110.Config.Format
import SN110.Minilib.Scan
import SN110.Minilib.Vsnprintf

/-!
# An address printed and read (`parse_ip` over `sscanf`)

`_utoa` and `sscanf` are written separately, one subtracting place values and one multiplying by
ten. A number that is printed is scanned back, and with it the four of a dotted address.

* `parseIpInto_eq`: `parse_ip` as it runs over its format is `parseIp`, whatever its locals hold.
* `sscanfInto_radixText` and `vsnprintf_dotted`: a printed number is scanned back, and an address is
  printed as its dotted text.
-/

namespace SN110

open Checked Memory

/-- `parse_ip`, with what its four locals hold at the start. -/
def parseIpInto (str : List UInt8) (a b c d : UInt32) : Except Fault UInt32 := do
  let (matched, args) ←
    sscanfInto (ascii "%u.%u.%u.%u") str [.uint a, .uint b, .uint c, .uint d]
  if matched = 4 then
    match args with
    | [.uint a, .uint b, .uint c, .uint d] =>
      if a > 255 ∨ b > 255 ∨ c > 255 ∨ d > 255 then .ok 0
      else .ok ((a <<< 24) ||| (b <<< 16) ||| (c <<< 8) ||| d)
    | _ => .error (.load 0)
  else .ok 0

/-! ## The format of an address -/

theorem text_dottedFormat : dottedFormat.flatMap Directive.text = ascii "%u.%u.%u.%u" := by decide

theorem readable_dottedFormat : ∀ d ∈ dottedFormat, d.Readable := by
  have hdot : (Directive.literal 46).Readable := show (46 : UInt8) ≠ percentSign by decide
  have hunsigned : Directive.unsigned.Readable := trivial
  simp [dottedFormat, hdot, hunsigned]

/-- The format converts nothing but numbers. -/
theorem number_of_mem_dotted {str : List UInt8} {v : Scanned} (h : v ∈ sscanf dottedFormat str) :
    ∃ n, v = .number n := by
  obtain ⟨d, hd, hgives⟩ := gives_of_mem_sscanf h
  cases v with
  | number n => exact ⟨n, rfl⟩
  | text t =>
    have hkind : d = .unsigned ∨ d = .literal 46 := by
      simpa [dottedFormat, or_comm, or_left_comm] using hd
    rcases hkind with rfl | rfl <;> exact hgives.elim

theorem exists_of_length_dotted {str : List UInt8} (h : (sscanf dottedFormat str).length = 4) :
    ∃ a b c d, sscanf dottedFormat str = [.number a, .number b, .number c, .number d] := by
  have hnumber := @number_of_mem_dotted str
  match hvalues : sscanf dottedFormat str, h with
  | [w, x, y, z], _ =>
    rw [hvalues] at hnumber
    obtain ⟨a, rfl⟩ := @hnumber w (by simp)
    obtain ⟨b, rfl⟩ := @hnumber x (by simp)
    obtain ⟨c, rfl⟩ := @hnumber y (by simp)
    obtain ⟨d, rfl⟩ := @hnumber z (by simp)
    exact ⟨a, b, c, d, rfl⟩

/-- **`parse_ip`** needs none of what its locals hold at the start. -/
theorem parseIpInto_eq (str : List UInt8) (a b c d : UInt32) :
    parseIpInto str a b c d = .ok (parseIp str) := by
  have hfit : ArgsFit dottedFormat [.uint a, .uint b, .uint c, .uint d] := trivial
  obtain ⟨after, hscan, hstored⟩ := sscanfInto_text readable_dottedFormat hfit str
  rw [text_dottedFormat] at hscan
  unfold parseIpInto parseIp
  rw [hscan, ok_bind]
  dsimp only
  -- the code looks at the number of conversions only
  by_cases hall : (sscanf dottedFormat str).length = 4
  · obtain ⟨a', b', c', d', hvalues⟩ := exists_of_length_dotted hall
    have hafter := hstored hall
    rw [hvalues] at hafter
    rw [if_pos hall, hafter, hvalues]
    dsimp only [List.zipWith, Dest.store]
    split_ifs <;> rfl
  · -- without the four numbers there is no address
    rw [if_neg hall]
    split
    · rename_i hvalues
      rw [hvalues] at hall
      exact absurd rfl hall
    · rfl

/-! ## Printing and scanning -/

/-- A printed number is scanned back. -/
theorem sscanfInto_radixText (v old : UInt32) (uppercase : Bool) :
    sscanfInto (ascii "%u") (radixText 10 uppercase v.toNat) [.uint old] = .ok (1, [.uint v]) := by
  have hlt : v.toNat < 10 ^ 10 := Nat.lt_trans v.toNat_lt (by decide)
  have hvalues : sscanf [.unsigned] (radixText 10 uppercase v.toNat) = [.number v] := by
    have hscan := @sscanf_unsigned _ [] (utoa_ne_nil hlt) (isDigit_of_mem_utoa hlt) (by simp) []
    rw [List.append_nil, digitsValue_utoa hlt, UInt32.ofNat_toNat] at hscan
    rw [radixText_ten hlt]
    exact hscan
  have hfit : ArgsFit [.unsigned] [.uint old] := trivial
  obtain ⟨after, hscan, hstored⟩ :=
    sscanfInto_text (by simp [Directive.Readable]) hfit (radixText 10 uppercase v.toNat)
  rw [hvalues] at hscan hstored
  rw [hstored rfl] at hscan
  exact hscan

/-- The pieces of `"%u.%u.%u.%u"`. -/
def dottedPieces : List FormatPiece :=
  [.number .u false none, .literal 46, .number .u false none, .literal 46, .number .u false none,
    .literal 46, .number .u false none]

/-- The four bytes of an address, as they are printed. -/
def octetArgs (ip : UInt32) : List PrintArg :=
  [.word ((ip >>> 24) &&& 0xFF), .word ((ip >>> 16) &&& 0xFF), .word ((ip >>> 8) &&& 0xFF),
    .word (ip &&& 0xFF)]

theorem expansion_dottedPieces (ip : UInt32) :
    expansion dottedPieces (octetArgs ip) = dotted ip := by
  have hoctet : ∀ x : UInt32,
      padded false 0 (radixText 10 false (x &&& 0xFF).toNat) = utoa (x &&& 0xFF).toNat := by
    intro x
    rw [radixText_ten (Nat.lt_trans (octet_lt x) (by decide))]
    simp [padded]
  have hexpand : ∀ a b c d : UInt32,
      expansion dottedPieces [.word a, .word b, .word c, .word d]
        = padded false 0 (radixText 10 false a.toNat) ++ 46 ::
          (padded false 0 (radixText 10 false b.toNat) ++ 46 ::
          (padded false 0 (radixText 10 false c.toNat) ++ 46 ::
          (padded false 0 (radixText 10 false d.toNat) ++ []))) := fun _ _ _ _ => rfl
  unfold octetArgs dotted
  rw [hexpand, hoctet, hoctet, hoctet, hoctet]
  simp only [List.append_assoc, List.cons_append, List.append_nil]

/-- `"%u.%u.%u.%u"` printed into 16 bytes. -/
theorem vsnprintf_dotted (ip : UInt32) (buf : Vector UInt8 16) :
    ∃ stored, vsnprintf buf 16 (ascii "%u.%u.%u.%u") (octetArgs ip)
        = .ok (stored, ((dotted ip).length : Int)) ∧ cstr stored.toList = dotted ip := by
  have htext : dottedPieces.flatMap FormatPiece.text = ascii "%u.%u.%u.%u" := by decide
  have hread : ∀ q ∈ dottedPieces, q.Readable := by
    have hdot : (FormatPiece.literal 46).Readable := show (46 : UInt8) ≠ 37 by decide
    have hnumber : (FormatPiece.number .u false none).Readable := by simp [FormatPiece.Readable]
    simp [dottedPieces, hdot, hnumber]
  have hlen := length_dotted_le ip
  have hprint := @vsnprintf_cstr 16 buf 16 (by decide) (by decide) dottedPieces (octetArgs ip) hread
    trivial
  rw [htext, expansion_dottedPieces] at hprint
  refine hprint (Nat.lt_of_le_of_lt hlen (by decide)) (by omega) fun hmem => ?_
  exact forall_mem_dotted (fun _ hc => ne_of_isDigit hc (by decide)) (by decide) ip 0 hmem rfl

/-- **Printing and scanning are inverse**, for every 32-bit number and for every address. -/
theorem print_scan_inverse (v : UInt32) :
    (∀ (tmp : Vector UInt8 12) (buf : Vector UInt8 24) (uppercase : Bool),
      ∃ text, RepresentsNumber 10 uppercase v.toNat text ∧
        utoaInto tmp v buf Base.ten uppercase = .ok (overlay buf text, text.length) ∧
        ∀ old, sscanfInto (ascii "%u") text [.uint old] = .ok (1, [.uint v])) ∧
    (∀ (tmp : Vector UInt8 12) (buf : Vector UInt8 24) (uppercase : Bool),
      ∃ text, RepresentsNumber 16 uppercase v.toNat text ∧
        utoaInto tmp v buf Base.sixteen uppercase = .ok (overlay buf text, text.length)) ∧
    ∀ (buf : Vector UInt8 16) (a b c d : UInt32),
      ∃ stored len, vsnprintf buf 16 (ascii "%u.%u.%u.%u") (octetArgs v) = .ok (stored, len) ∧
        parseIpInto (cstr stored.toList) a b c d = .ok v := by
  refine ⟨fun tmp buf uppercase => ?_, fun tmp buf uppercase => ?_, fun buf a b c d => ?_⟩
  · exact ⟨_, representsNumber_radixText (by decide) uppercase _,
      utoaInto_ten tmp v buf (by decide) uppercase, fun old => sscanfInto_radixText v old uppercase⟩
  · exact ⟨_, representsNumber_radixText (by decide) uppercase _,
      utoaInto_sixteen tmp v buf (by decide) uppercase⟩
  · obtain ⟨stored, hprint, hstored⟩ := vsnprintf_dotted v buf
    refine ⟨stored, _, hprint, ?_⟩
    rw [hstored, parseIpInto_eq, parseIp_dotted]

end SN110
