import SN110.Cgi.Decode
import SN110.Cgi.Page
import SN110.Lib.Tags

/-!
# What a browser makes of a page

The browser's side of the settings page, as far as it goes into what is posted: the tags of the
page, the controls among them with their values unescaped, and the body that is made of the
controls. How a byte of a value is encoded is left open where the decoder reads all the ways back.

* `submitted`: the names and values that a page submits when nothing on it is edited.
* `IsBody`: the bodies for a list of names and values.
* `cstr_urlDecode` and `formPairs_of_isBody`: the form parser takes such a body apart again.
-/

namespace SN110

open Tags

/-! ## The page -/

/-- The delimiters of HTML. -/
def html : Delimiters UInt8 where
  lt := 60
  gt := 62
  slash := 47
  blank := space
  eq := equals
  quote := 34
  raw := [ascii "style", ascii "script"]
  blank_ne_gt := by decide
  eq_ne_gt := by decide
  eq_ne_blank := by decide

/-- The five entities and what they stand for. -/
def entities : List (List UInt8 × UInt8) :=
  [(ascii "&amp;", 38), (ascii "&lt;", 60), (ascii "&gt;", 62), (ascii "&quot;", 34),
    (ascii "&#39;", 39)]

/-- The entity at the start of a text. -/
def entityAt (s : List UInt8) : Option (List UInt8 × UInt8) :=
  entities.find? fun entity => entity.1.isPrefixOf s

/-- The value of an attribute, with at most `fuel` characters in it. -/
def htmlUnescapeFrom : Nat → List UInt8 → List UInt8
  | 0, _ => []
  | _ + 1, [] => []
  | fuel + 1, c :: s =>
    match entityAt (c :: s) with
    | some (entity, char) => char :: htmlUnescapeFrom fuel ((c :: s).drop entity.length)
    | none => c :: htmlUnescapeFrom fuel s

/-- The value of an attribute. -/
def htmlUnescape (s : List UInt8) : List UInt8 := htmlUnescapeFrom s.length s

/-- The attribute of a name, and its value if it has one. -/
def attributeOf (tag : Tag UInt8) (name : List UInt8) : Option (Option (List UInt8)) :=
  (tag.attrs.find? fun attr => attr.1 = name).map Prod.snd

/-- The unescaped value of an attribute. -/
def attributeValue (tag : Tag UInt8) (name : List UInt8) : List UInt8 :=
  htmlUnescape (((attributeOf tag name).getD none).getD [])

/-- What an input submits: a text or a number its value, a radio button its value if it is checked,
anything else nothing. -/
def submits (tag : Tag UInt8) : Option (List UInt8 × List UInt8) :=
  let type := attributeValue tag (ascii "type")
  if tag.name = ascii "input" ∧
      (type = ascii "text" ∨ type = ascii "number" ∨
        type = ascii "radio" ∧ (attributeOf tag (ascii "checked")).isSome) then
    some (attributeValue tag (ascii "name"), attributeValue tag (ascii "value"))
  else none

/-- The names and values that a page submits. -/
def submitted (page : List UInt8) : List (List UInt8 × List UInt8) :=
  (scan html page).filterMap submits

/-! ## The body -/

/-- The text is an encoding of the value. A byte may stand for itself unless it has a meaning of its
own in a body, a space may be a `+`, and any byte may be a `%` with two hex digits. -/
inductive Encodes : List UInt8 → List UInt8 → Prop where
  | nil : Encodes [] []
  | plain {c : UInt8} {enc val : List UInt8} (hpercent : c ≠ percent) (hplus : c ≠ plus)
      (hampersand : c ≠ ampersand) : Encodes enc val → Encodes (c :: enc) (c :: val)
  | space {enc val : List UInt8} : Encodes enc val → Encodes (plus :: enc) (space :: val)
  | hex {h l : UInt8} {hi lo : Nat} {enc val : List UInt8} (hhi : hexDigit h = some hi)
      (hlo : hexDigit l = some lo) : Encodes enc val →
        Encodes (percent :: h :: l :: enc) (UInt8.ofNat (16 * hi + lo) :: val)

/-- The body is made of the names and values: `name=value`, with a `&` between two of them. -/
def IsBody : List (List UInt8 × List UInt8) → List UInt8 → Prop
  | [], body => body = []
  | [pair], body => ∃ enc, Encodes enc pair.2 ∧ body = pair.1 ++ equals :: enc
  | pair :: pairs, body => ∃ enc rest, Encodes enc pair.2 ∧ IsBody pairs rest ∧
      body = pair.1 ++ equals :: (enc ++ ampersand :: rest)

/-! ## Unescaping -/

/-- Only an `&` begins an entity. -/
theorem entityAt_of_ne {c : UInt8} (h : c ≠ 38) (s : List UInt8) : entityAt (c :: s) = none := by
  have hhead : ∀ entity ∈ entities, entity.1.head? = some 38 := by decide
  refine List.find?_eq_none.mpr fun entity hentity => ?_
  obtain ⟨t, ht⟩ := List.head?_eq_some_iff.mp (hhead entity hentity)
  rw [ht]
  simp [List.isPrefixOf, Ne.symm h]

/-- Fuel for the length of the text is enough to read an escaped text back. -/
theorem htmlUnescapeFrom_htmlEscape (s : List UInt8) {fuel : Nat} (h : s.length ≤ fuel) :
    htmlUnescapeFrom fuel (htmlEscape s) = s := by
  induction s generalizing fuel with
  | nil => cases fuel <;> rfl
  | cons c s ih =>
    obtain ⟨fuel, rfl⟩ : ∃ n, fuel = n + 1 := ⟨fuel - 1, by rw [List.length_cons] at h; omega⟩
    have hrest := ih (Nat.le_of_succ_le_succ h)
    show htmlUnescapeFrom (fuel + 1) (htmlEscapeByte c ++ htmlEscape s) = c :: s
    unfold htmlEscapeByte
    -- each entity is read as its character, and a byte that is not escaped starts none
    split_ifs with hamp hlt hgt hquot hapos
    · rw [hamp]
      exact congrArg (List.cons 38) hrest
    · rw [hlt]
      exact congrArg (List.cons 60) hrest
    · rw [hgt]
      exact congrArg (List.cons 62) hrest
    · rw [hquot]
      exact congrArg (List.cons 34) hrest
    · rw [hapos]
      exact congrArg (List.cons 39) hrest
    · show (match entityAt (c :: htmlEscape s) with
        | some (entity, char) => _
        | none => c :: htmlUnescapeFrom fuel (htmlEscape s)) = c :: s
      rw [entityAt_of_ne hamp]
      exact congrArg (List.cons c) hrest

/-- Escaping makes no text shorter. -/
theorem length_le_htmlEscape (s : List UInt8) : s.length ≤ (htmlEscape s).length := by
  induction s with
  | nil => exact le_rfl
  | cons c s ih =>
    have hbyte : 1 ≤ (htmlEscapeByte c).length := by
      unfold htmlEscapeByte
      split_ifs <;> exact Nat.succ_le_succ (Nat.zero_le _)
    show s.length + 1 ≤ (htmlEscapeByte c ++ htmlEscape s).length
    rw [List.length_append]
    omega

/-- **An escaped text is unescaped to itself.** -/
theorem htmlUnescape_htmlEscape (s : List UInt8) : htmlUnescape (htmlEscape s) = s :=
  htmlUnescapeFrom_htmlEscape s (length_le_htmlEscape s)

/-- What is in an escaped text: neither brackets nor quotes. -/
theorem notMem_htmlEscape {x : UInt8} (hx : x = 60 ∨ x = 62 ∨ x = 34 ∨ x = 39) (s : List UInt8) :
    x ∉ htmlEscape s := by
  intro hmem
  obtain ⟨c, -, hc⟩ := List.mem_flatMap.mp hmem
  unfold htmlEscapeByte at hc
  rcases hx with rfl | rfl | rfl | rfl
  all_goals
    split_ifs at hc with hamp hlt hgt hquot hapos
    · exact absurd hc (by decide)
    · exact absurd hc (by decide)
    · exact absurd hc (by decide)
    · exact absurd hc (by decide)
    · exact absurd hc (by decide)
    · have heq := List.mem_singleton.mp hc
      subst heq
      contradiction

/-- A text without `&` is read as it is. -/
theorem htmlUnescape_plain {s : List UInt8} (h : 38 ∉ s) : htmlUnescape s = s := by
  unfold htmlUnescape
  induction s with
  | nil => rfl
  | cons c s ih =>
    rw [List.mem_cons, not_or] at h
    show (match entityAt (c :: s) with
      | some (entity, char) => _
      | none => c :: htmlUnescapeFrom s.length s) = c :: s
    rw [entityAt_of_ne (Ne.symm h.1), ih h.2]

/-! ## Decoding -/

/-- An encoding of the form is one of `url_decode`'s. -/
theorem Encodes.urlEncodes {enc val : List UInt8} (h : Encodes enc val) : UrlEncodes enc val := by
  induction h with
  | nil => exact UrlEncodes.nil
  | plain hpercent hplus _ _ ih => exact UrlEncodes.plain hpercent hplus ih
  | space _ ih => exact UrlEncodes.space ih
  | hex hhi hlo _ ih => exact UrlEncodes.hex hhi hlo ih

/-- An encoding is decoded, with room for the value. -/
theorem urlDecodeFrom_of_encodes {enc val : List UInt8} (h : Encodes enc val) {room : Nat}
    (hroom : val.length ≤ room) : urlDecodeFrom room enc = val := by
  rw [urlDecodeFrom_of_urlEncodes h.urlEncodes, List.take_of_length_le hroom]

/-- Three bytes at most stand for one, and none of them is a `&` or, in the encoding of a text, a
NUL. -/
theorem length_le_of_encodes {enc val : List UInt8} (h : Encodes enc val) :
    enc.length ≤ 3 * val.length := by
  induction h with
  | nil => exact le_rfl
  | plain _ _ _ _ ih => rw [List.length_cons, List.length_cons]; omega
  | space _ ih => rw [List.length_cons, List.length_cons]; omega
  | hex _ _ _ ih => simp only [List.length_cons]; omega

/-- An encoding of a text without NUL has neither `&` nor NUL. -/
theorem notMem_of_encodes {enc val : List UInt8} (h : Encodes enc val) (hval : 0 ∉ val) :
    ampersand ∉ enc ∧ 0 ∉ enc := by
  refine ⟨?_, no_nul_of_urlEncodes h.urlEncodes hval⟩
  clear hval
  induction h with
  | nil => exact List.not_mem_nil
  | plain _ _ hampersand _ ih =>
    simp only [List.mem_cons, not_or]
    exact ⟨Ne.symm hampersand, ih⟩
  | space _ ih =>
    simp only [List.mem_cons, not_or]
    exact ⟨by decide, ih⟩
  | hex hhi hlo _ ih =>
    simp only [List.mem_cons, not_or]
    exact ⟨by decide, (hexDigit_ne hhi (by decide)).symm, (hexDigit_ne hlo (by decide)).symm, ih⟩

/-- A name and a value that fit the form parser's buffers. -/
structure FitsForm (pair : List UInt8 × List UInt8) : Prop where
  name : equals ∉ pair.1 ∧ pair.1.length ≤ 63
  no_nul : 0 ∉ pair.1 ∧ 0 ∉ pair.2
  value : pair.2.length ≤ 63

/-- Read up to its NUL, what `url_decode` leaves is the value. -/
theorem cstr_urlDecode {enc val : List UInt8} (h : Encodes enc val) (hval : 0 ∉ val)
    (hlen : val.length ≤ 63) : cstr (urlDecode enc 192) = val := by
  unfold urlDecode
  rw [urlDecodeFrom_of_encodes h (hlen.trans (by decide)), cstr_of_no_nul hval]

/-- **The form parser takes the body apart** into the names and values. -/
theorem formPairs_of_isBody {pairs : List (List UInt8 × List UInt8)} {body : List UInt8}
    (h : IsBody pairs body) (hfits : ∀ pair ∈ pairs, FitsForm pair) :
    formPairs body = pairs ∧ 0 ∉ body := by
  induction pairs generalizing body with
  -- the last pair has no `&` behind it, so it is a case of its own
  | nil =>
    obtain rfl : body = [] := h
    exact ⟨formPairs_nil, List.not_mem_nil⟩
  | cons pair pairs ih =>
    obtain ⟨⟨hname, hnul, hlen⟩, hrest⟩ := List.forall_mem_cons.mp hfits
    cases pairs with
    | nil =>
      obtain ⟨enc, henc, rfl⟩ := h
      obtain ⟨hamp, hno⟩ := notMem_of_encodes henc hnul.2
      have hfit := length_le_of_encodes henc
      constructor
      · rw [formPairs_last hname ⟨hamp, by omega⟩, cstr_urlDecode henc hnul.2 hlen]
      · simp only [List.mem_append, List.mem_cons, not_or]
        exact ⟨hnul.1, by decide, hno⟩
    | cons pair' pairs =>
      obtain ⟨enc, rest, henc, hbody, rfl⟩ := h
      obtain ⟨hamp, hno⟩ := notMem_of_encodes henc hnul.2
      have hfit := length_le_of_encodes henc
      obtain ⟨hpairs, hnorest⟩ := ih hbody hrest
      constructor
      · rw [formPairs_cons hname ⟨hamp, by omega⟩, cstr_urlDecode henc hnul.2 hlen, hpairs]
      · simp only [List.mem_append, List.mem_cons, not_or]
        exact ⟨hnul.1, by decide, hno, by decide, hnorest⟩

/-! ## The usual encoding -/

/-- A byte as `application/x-www-form-urlencoded` has it. -/
def urlEncodeByte (c : UInt8) : List UInt8 :=
  if c = space then [plus]
  else if isDigit c = true ∨ (65 ≤ c ∧ c ≤ 90) ∨ (97 ≤ c ∧ c ≤ 122) ∨ c ∈ ascii "*-._" then [c]
  else percent :: hexByte c

def urlEncode (val : List UInt8) : List UInt8 := val.flatMap urlEncodeByte

/-- The names and values as a body. -/
def formBody : List (List UInt8 × List UInt8) → List UInt8
  | [] => []
  | [pair] => pair.1 ++ equals :: urlEncode pair.2
  | pair :: pairs => pair.1 ++ equals :: (urlEncode pair.2 ++ ampersand :: formBody pairs)

/-- What the browser sends is an encoding of the value. -/
theorem encodes_urlEncode (val : List UInt8) : Encodes (urlEncode val) val := by
  induction val with
  | nil => exact Encodes.nil
  | cons c val ih =>
    show Encodes (urlEncodeByte c ++ urlEncode val) (c :: val)
    unfold urlEncodeByte
    split_ifs with hspace hplain
    -- a space is sent as `+`
    · rw [hspace]
      exact Encodes.space ih
    · -- none of these bytes has a meaning of its own
      have hmeaning : ∀ x ∈ [percent, plus, ampersand], ¬ (isDigit x = true ∨ (65 ≤ x ∧ x ≤ 90) ∨
          (97 ≤ x ∧ x ≤ 122) ∨ x ∈ ascii "*-._") := by decide
      have hne : ∀ x ∈ [percent, plus, ampersand], c ≠ x := by
        rintro x hx rfl
        exact hmeaning c hx hplain
      exact Encodes.plain (hne _ (by decide)) (hne _ (by decide)) (hne _ (by decide)) ih
    -- any other byte as its two hexadecimal digits
    · have hc := c.toNat_lt
      have hbyte : UInt8.ofNat (16 * (c.toNat / 16) + c.toNat % 16) = c := by
        rw [Nat.div_add_mod, UInt8.ofNat_toNat]
      have hhex := Encodes.hex (hexDigit_hexChar (show c.toNat / 16 < 16 by omega))
        (hexDigit_hexChar (show c.toNat % 16 < 16 by omega)) ih
      rwa [hbyte] at hhex

/-- What the browser makes of the pairs is a body for them. -/
theorem isBody_formBody (pairs : List (List UInt8 × List UInt8)) :
    IsBody pairs (formBody pairs) := by
  induction pairs with
  | nil => rfl
  | cons pair pairs ih =>
    cases pairs with
    | nil => exact ⟨_, encodes_urlEncode pair.2, rfl⟩
    | cons pair' pairs => exact ⟨_, _, encodes_urlEncode pair.2, ih, rfl⟩

end SN110
