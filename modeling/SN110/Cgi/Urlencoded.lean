import SN110.Cgi.Fields
import SN110.Lib.Parts

/-!
# The body as urlencoded data

Urlencoded data are split at every `&`, and each piece at its first `=`. The scanner of
`parse_formdata` looks for the `=` first, and both of its loops stop where their buffers are full:

* a piece without `=` that is shorter than the buffer of a name runs on into the next one;
* a value that is longer than its buffer goes on as another pair.

`readsUrlencoded_iff` says when the scanner reads urlencoded data all the same; names with values
that fit are read so (`takenApart_of_equals`).
-/

namespace SN110

open Assign Parts

/-! ## The reading -/

/-- The name and the value of a piece. -/
def splitPiece (piece : List UInt8) : List UInt8 × List UInt8 :=
  (piece.takeWhile (· ≠ equals), skipByte equals (piece.dropWhile (· ≠ equals)))

/-- What a piece assigns: the value is decoded whole. -/
def pieceAssignment (piece : List UInt8) : List UInt8 × List UInt8 :=
  ((splitPiece piece).1, cstr (urlDecodeFrom (splitPiece piece).2.length (splitPiece piece).2))

/-- The assignments of the pieces from left to right, and the DHCP rule. -/
def urlencodedConfig (pieces : List (List UInt8)) (cfg : NodeConfig) : NodeConfig :=
  zeroDhcpAddresses ((pieces.map pieceAssignment).foldl applyPair cfg)

/-- What is left of the body at the start of each round of the scanner. -/
def formRounds (body : List UInt8) : List (List UInt8) :=
  if _h : body = [] then [] else body :: formRounds (formPair body).2.2
termination_by body.length
decreasing_by exact formPair_lt _h

/-- A piece of the body starts here. -/
def StartsPiece (body rest : List UInt8) : Prop :=
  rest = body ∨ ∃ front, body = front ++ ampersand :: rest

/-- The configuration is that of the pieces, and no part of a name or of a value is taken for a
pair. -/
structure ReadsUrlencoded (body : List UInt8) (cfg : NodeConfig) : Prop where
  config : parseFormdata body cfg = urlencodedConfig (body.splitOn ampersand) cfg
  pairs : ∀ rest ∈ formRounds body, StartsPiece body rest

/-! ## Pieces that run together -/

/-- A piece and those behind it, run together as the scanner takes them. -/
def runTogether (piece : List UInt8) : List (List UInt8) → List (List UInt8)
  | [] => [piece]
  | next :: pieces =>
    if equals ∈ piece ∨ 63 ≤ piece.length then piece :: runTogether next pieces
    else runTogether (piece ++ ampersand :: next) pieces

def takenTexts : List (List UInt8) → List (List UInt8)
  | [] => []
  | piece :: pieces => runTogether piece pieces

/-- The pieces that the scanner takes for themselves. -/
def ownPieces (pieces : List (List UInt8)) : List (List UInt8) :=
  (takenTexts pieces).filter fun text => ampersand ∉ text

/-- The value that the pieces give a field last. -/
def lastValue (field : FormField) (pieces : List (List UInt8)) : Option (List UInt8) :=
  last (valueFor field) (pieces.map pieceAssignment)

/-- A field is left the same by two lists of pieces. -/
def SameValue (cfg : NodeConfig) (field : FormField) (pieces pieces' : List (List UInt8)) : Prop :=
  Agrees (withValue cfg (lastValue field pieces) field)
    (withValue cfg (lastValue field pieces') field) field.key

/-- The address mode that the pieces leave. -/
def lastAddrMode (cfg : NodeConfig) (pieces : List (List UInt8)) : UInt8 :=
  (withValue cfg (lastValue .addrMode pieces) .addrMode).addrMode

/-- Every value fits its buffer, and the pieces that run together make no difference to a field. -/
structure TakenApart (pieces : List (List UInt8)) (cfg : NodeConfig) : Prop where
  values : ∀ text ∈ takenTexts pieces, (takeField equals 63 text).2.length ≤ 191
  fields : ∀ field : FormField,
    (field ∈ addressFields → lastAddrMode cfg pieces ≠ addrModeDhcp) →
      SameValue cfg field pieces (ownPieces pieces)

/-! ## A field of the body -/

/-- Skipping a separator leaves what is behind it. -/
theorem skipByte_isSuffix (sep : UInt8) (s : List UInt8) : skipByte sep s <:+ s := by
  cases s with
  | nil => exact List.suffix_rfl
  | cons c rest =>
    show (if c = sep then rest else c :: rest) <:+ c :: rest
    split_ifs
    · exact List.suffix_cons c rest
    · exact List.suffix_rfl

/-- A character that is not skipped stays where it is. -/
theorem skipByte_append {sep c : UInt8} (hc : c ≠ sep) (s rest : List UInt8) :
    skipByte sep (s ++ c :: rest) = skipByte sep s ++ c :: rest := by
  cases s with
  | nil => exact if_neg hc
  | cons d s =>
    show (if d = sep then s ++ c :: rest else d :: (s ++ c :: rest))
      = (if d = sep then s else d :: s) ++ c :: rest
    split_ifs <;> rfl

/-- What `takeField` leaves is the end of the body. -/
theorem takeField_isSuffix (sep : UInt8) (room : Nat) (body : List UInt8) :
    (takeField sep room body).2 <:+ body :=
  (skipByte_isSuffix sep _).trans (List.drop_suffix _ body)

/-- What it takes is the beginning of the body. -/
theorem takeField_append_drop (sep : UInt8) (room : Nat) (body : List UInt8) :
    (takeField sep room body).1 ++ body.drop (takeField sep room body).1.length = body :=
  List.prefix_iff_eq_append.mp ((List.take_prefix room _).trans (List.takeWhile_prefix _))

/-- A byte of the body is in the field or in the rest, or it is the separator between them. -/
theorem mem_takeField {sep c : UInt8} (hc : c ≠ sep) {room : Nat} {body : List UInt8}
    (h : c ∈ body) : c ∈ (takeField sep room body).1 ∨ c ∈ (takeField sep room body).2 := by
  rw [← takeField_append_drop sep room body, List.mem_append] at h
  refine h.imp_right fun hmem => ?_
  show c ∈ skipByte sep (body.drop (takeField sep room body).1.length)
  cases hdrop : body.drop (takeField sep room body).1.length with
  | nil =>
    rw [hdrop] at hmem
    cases hmem
  | cons d rest =>
    rw [hdrop, List.mem_cons] at hmem
    show c ∈ if d = sep then rest else d :: rest
    split_ifs with hd
    · exact hmem.resolve_left (fun heq => hc (heq.trans hd))
    · exact List.mem_cons.mpr hmem

/-- A field that ends inside a text is the same whatever follows. -/
theorem takeField_append {sep : UInt8} {room : Nat} {s : List UInt8} (h : sep ∈ s ∨ room ≤ s.length)
    {c : UInt8} (hc : c ≠ sep) (rest : List UInt8) :
    takeField sep room (s ++ c :: rest)
      = ((takeField sep room s).1, (takeField sep room s).2 ++ c :: rest) := by
  have hfield : ((s ++ c :: rest).takeWhile (· ≠ sep)).take room
      = (s.takeWhile (· ≠ sep)).take room := by
    rw [List.takeWhile_append]
    split_ifs with hall
    · -- the whole text is before the separator, and it fills the buffer
      have hs : s.takeWhile (· ≠ sep) = s := (List.takeWhile_prefix _).eq_of_length hall
      have hsep : sep ∉ s := fun hmem => by
        have hself := List.takeWhile_eq_self_iff.mp hs sep hmem
        simp at hself
      rw [hs, List.take_append_of_le_length (h.resolve_left hsep)]
    · rfl
  have hle : ((s.takeWhile (· ≠ sep)).take room).length ≤ s.length :=
    (List.length_take_le' _ _).trans (List.takeWhile_prefix _).length_le
  unfold takeField
  simp only [hfield]
  rw [List.drop_append_of_le_length hle, skipByte_append hc]

/-- A field that is longer than its buffer is taken up in the middle. -/
theorem takeField_full {sep : UInt8} {room : Nat} {s : List UInt8} (hsep : sep ∉ s)
    (hroom : room < s.length) (rest : List UInt8) :
    takeField sep room (s ++ rest) = (s.take room, s.drop room ++ rest) := by
  have hfield : ((s ++ rest).takeWhile (· ≠ sep)).take room = s.take room := by
    rw [List.takeWhile_append_of_pos (ne_of_notMem hsep), List.take_append_of_le_length hroom.le]
  have hlen : (s.take room).length = room := List.length_take_of_le hroom.le
  unfold takeField
  simp only [hfield, hlen]
  rw [List.drop_append_of_le_length hroom.le]
  -- the next byte is not the separator
  obtain ⟨c, tail, hdrop⟩ := List.exists_cons_of_ne_nil
    (show s.drop room ≠ [] from fun hnil => absurd (List.drop_eq_nil_iff.mp hnil) (by omega))
  have hc : c ∈ s := List.mem_of_mem_drop (hdrop ▸ List.mem_cons_self)
  rw [hdrop]
  exact Prod.ext rfl (if_neg (ne_of_mem_of_not_mem hc hsep))

/-! ## One text -/

section

variable {text : List UInt8}

/-- The value of a text that has run together is behind its last `&`. -/
theorem takeField_runOn (hequals : equals ∉ text) (hshort : text.length < 63) (next : List UInt8) :
    (takeField equals 63 (text ++ ampersand :: next)).2 <:+ next := by
  have hlen : text.length + 1
      ≤ (((text ++ ampersand :: next).takeWhile (· ≠ equals)).take 63).length := by
    rw [List.takeWhile_append_of_pos (ne_of_notMem hequals),
      List.takeWhile_cons_of_pos (by decide), List.length_take, List.length_append,
      List.length_cons]
    omega
  refine (skipByte_isSuffix equals _).trans ?_
  obtain ⟨k, hk⟩ := Nat.exists_eq_add_of_le hlen
  rw [hk, ← List.drop_drop]
  have hdrop : (text ++ ampersand :: next).drop (text.length + 1) = next := by
    rw [← List.drop_drop, List.drop_left]
    rfl
  rw [hdrop]
  exact List.drop_suffix k next

/-- A round of the scanner, when the value fits. -/
theorem formPair_fits (hvalue : ampersand ∉ (takeField equals 63 text).2)
    (hfits : (takeField equals 63 text).2.length ≤ 191) :
    formPair text = ((takeField equals 63 text).1, (takeField equals 63 text).2, []) := by
  unfold formPair
  simp only
  rw [takeField_end hvalue hfits]

/-- A pair that fits its buffers ends at the `&` behind it. -/
theorem formPair_append_fits (hends : equals ∈ text ∨ 63 ≤ text.length)
    (hvalue : ampersand ∉ (takeField equals 63 text).2)
    (hfits : (takeField equals 63 text).2.length ≤ 191) (rest : List UInt8) :
    formPair (text ++ ampersand :: rest)
      = ((takeField equals 63 text).1, (takeField equals 63 text).2, rest) := by
  unfold formPair
  rw [takeField_append hends (by decide)]
  simp only
  rw [takeField_sep hvalue hfits]

/-- A round of the scanner, when the value does not fit. -/
theorem formPair_full {s value : List UInt8} (hs : (takeField equals 63 s).2 = value)
    {front more : List UInt8} (hvalue : value = front ++ more) (hamp : ampersand ∉ front)
    (hlong : 191 < front.length) : (formPair s).2.2 = front.drop 191 ++ more := by
  show (takeField ampersand 191 (takeField equals 63 s).2).2 = _
  rw [hs, hvalue, takeField_full hamp hlong]

/-! ### What it assigns -/

/-- Decoding one byte leaves a shorter text. -/
theorem percentByte_shorter {c : UInt8} {rest : List UInt8} {taken : UInt8 × List UInt8}
    (h : percentByte (c :: rest) = some taken) : taken.2.length ≤ rest.length := by
  -- an escape takes two characters more, if they are digits
  match rest with
  | [] => cases h
  | [_] => cases h
  | d :: e :: rest =>
    simp only [percentByte] at h
    split_ifs at h
    cases hd : hexDigit d with
    | none =>
      rw [hd] at h
      cases h
    | some hi =>
      cases he : hexDigit e with
      | none =>
        rw [hd, he] at h
        cases h
      | some lo =>
        rw [hd, he] at h
        cases h
        show rest.length ≤ rest.length + 1 + 1
        omega

/-- With room for the whole text, the decoder takes it whole. -/
theorem urlDecodeFrom_congr {a b : Nat} {src : List UInt8} (ha : src.length ≤ a)
    (hb : src.length ≤ b) : urlDecodeFrom a src = urlDecodeFrom b src := by
  induction a generalizing b src with
  | zero =>
    obtain rfl := List.eq_nil_of_length_eq_zero (Nat.le_zero.mp ha)
    cases b <;> rfl
  | succ a ih =>
    cases src with
    | nil => cases b <;> rfl
    | cons c rest =>
      rw [List.length_cons] at ha hb
      obtain ⟨b, rfl⟩ := Nat.exists_eq_add_one_of_ne_zero (show b ≠ 0 by omega)
      unfold urlDecodeFrom
      cases hbyte : percentByte (c :: rest) with
      | none => exact congrArg (List.cons _) (ih (by omega) (by omega))
      | some taken =>
        have hshorter := percentByte_shorter hbyte
        exact congrArg (List.cons taken.1) (ih (by omega) (by omega))

/-- No field's name has an `&`. -/
theorem FormField.ampersand_notMem_name (field : FormField) : ampersand ∉ field.name := by
  have hall : ∀ field ∈ formFields, ampersand ∉ field.name := by decide
  exact hall field (mem_formFields field)

/-- Every field's name fits the 64 bytes for it. -/
theorem FormField.length_name_lt (field : FormField) : field.name.length < 63 := by
  have hall : ∀ field ∈ formFields, field.name.length < 63 := by decide
  exact hall field (mem_formFields field)

/-- A name that fits the buffer is taken as it stands in the piece. -/
theorem takeField_eq_splitPiece (h : (text.takeWhile (· ≠ equals)).length ≤ 63) :
    takeField equals 63 text = splitPiece text := by
  have hdrop : text.drop (text.takeWhile (· ≠ equals)).length = text.dropWhile (· ≠ equals) := by
    have hsplit := List.takeWhile_append_dropWhile (p := fun c => decide (c ≠ equals)) (l := text)
    exact List.append_cancel_left
      ((List.prefix_iff_eq_append.mp (List.takeWhile_prefix _)).trans hsplit.symm)
  unfold takeField splitPiece
  simp only [List.take_of_length_le h]
  rw [hdrop]

/-- **What a text assigns**: what it assigns as a piece, or nothing, if pieces have run together in
it. -/
theorem applyPair_taken (hvalue : ampersand ∉ (takeField equals 63 text).2)
    (hfits : (takeField equals 63 text).2.length ≤ 191) (cfg : NodeConfig) :
    applyPair cfg ((takeField equals 63 text).1, cstr (urlDecode (takeField equals 63 text).2 192))
      = if ampersand ∈ text then cfg else applyPair cfg (pieceAssignment text) := by
  split_ifs with hamp
  · -- the `&` is in the name
    have hname := (mem_takeField (show ampersand ≠ equals by decide) hamp).resolve_right hvalue
    refine applyPair_of_ne (fun field hfield => ?_) cfg
    rw [show (takeField equals 63 text).1 = field.name from hfield] at hname
    exact field.ampersand_notMem_name hname
  · by_cases hname : (text.takeWhile (· ≠ equals)).length ≤ 63
    · have hdecode : urlDecode (takeField equals 63 text).2 192
          = urlDecodeFrom (splitPiece text).2.length (splitPiece text).2 := by
        rw [← takeField_eq_splitPiece hname]
        exact urlDecodeFrom_congr hfits (le_refl _)
      rw [hdecode, takeField_eq_splitPiece hname]
      rfl
    · -- a name that does not fit is no field's, cut or whole
      have hcut : (takeField equals 63 text).1.length = 63 := List.length_take_of_le (by omega)
      rw [applyPair_of_ne, applyPair_of_ne]
      · intro field hfield
        have hlen := congrArg List.length hfield
        have hlt := field.length_name_lt
        have hwhole : (pieceAssignment text).1.length = (text.takeWhile (· ≠ equals)).length := rfl
        omega
      · intro field hfield
        have hlen := congrArg List.length hfield
        have hlt := field.length_name_lt
        dsimp only at hlen
        omega

end

/-! ## The texts of a body -/

/-- **The scanner assigns what the pieces assign that it takes for themselves**, if every value
fits. -/
theorem foldl_formPairs {piece : List UInt8} {pieces : List (List UInt8)}
    (hpieces : ∀ p ∈ pieces, ampersand ∉ p) (hvalue : ampersand ∉ (takeField equals 63 piece).2)
    (hfits : ∀ text ∈ runTogether piece pieces, (takeField equals 63 text).2.length ≤ 191)
    (cfg : NodeConfig) :
    (formPairs (joined ampersand piece pieces)).foldl applyPair cfg
      = (((runTogether piece pieces).filter fun text => ampersand ∉ text).map
          pieceAssignment).foldl applyPair cfg := by
  induction pieces generalizing piece cfg with
  | nil =>
    have hassign := applyPair_taken hvalue (hfits piece List.mem_cons_self) cfg
    have hpair := formPair_fits hvalue (hfits piece List.mem_cons_self)
    show (formPairs (piece ++ [])).foldl applyPair cfg
      = (([piece].filter fun text => ampersand ∉ text).map pieceAssignment).foldl applyPair cfg
    rw [List.append_nil]
    by_cases hnil : piece = []
    · -- nothing is left of the body, and an empty piece assigns nothing
      have hskip : applyPair cfg (pieceAssignment []) = cfg :=
        applyPair_of_ne (fun field h => field.name_ne_nil (Eq.symm h)) cfg
      rw [hnil, formPairs_nil]
      exact hskip.symm
    · rw [formPairs_of_ne_nil hnil, hpair, formPairs_nil, List.foldl_cons, hassign]
      split_ifs with hamp
      · rw [List.filter_cons_of_neg (by simpa using hamp)]
        rfl
      · rw [List.filter_cons_of_pos (by simpa using hamp)]
        rfl
  | cons next pieces ih =>
    rw [List.forall_mem_cons] at hpieces
    unfold runTogether at hfits ⊢
    split_ifs at hfits ⊢ with hends
    -- the piece has its `=` or its full name, so its value ends at the `&`
    · rw [List.forall_mem_cons] at hfits
      have hassign := applyPair_taken hvalue hfits.1 cfg
      have hpair := formPair_append_fits hends hvalue hfits.1 (joined ampersand next pieces)
      have hnext : ampersand ∉ (takeField equals 63 next).2 := fun hmem =>
        hpieces.1 ((takeField_isSuffix equals 63 next).subset hmem)
      rw [joined_cons, formPairs_of_ne_nil (by simp), hpair, List.foldl_cons, hassign]
      split_ifs with hamp
      · rw [List.filter_cons_of_neg (by simpa using hamp)]
        exact ih hpieces.2 hnext hfits.2 cfg
      · rw [List.filter_cons_of_pos (by simpa using hamp)]
        exact ih hpieces.2 hnext hfits.2 _
    · rw [not_or, Nat.not_le] at hends
      have hnext : ampersand ∉ (takeField equals 63 (piece ++ ampersand :: next)).2 := fun hmem =>
        hpieces.1 ((takeField_runOn hends.1 hends.2 next).subset hmem)
      rw [← joined_append]
      exact ih hpieces.2 hnext hfits cfg

/-! ## Where the rounds start -/

theorem formRounds_nil : formRounds [] = [] := by
  rw [formRounds]
  rfl

/-- A round takes one pair, and the loop goes on with what is left. -/
theorem formRounds_of_ne_nil {body : List UInt8} (h : body ≠ []) :
    formRounds body = body :: formRounds (formPair body).2.2 := by
  rw [formRounds, dif_neg h]

/-- The first round is on the whole body. -/
theorem mem_formRounds_self {body : List UInt8} (h : body ≠ []) : body ∈ formRounds body := by
  rw [formRounds_of_ne_nil h]
  exact List.mem_cons_self

section

variable {body s rest : List UInt8} (hstart : StartsPiece body s)

include hstart

/-- Behind a `&` a piece starts. -/
theorem startsPiece_behind {text : List UInt8} (hs : s = text ++ ampersand :: rest) :
    StartsPiece body rest := by
  rcases hstart with rfl | ⟨front, hbody⟩
  · exact Or.inr ⟨text, hs⟩
  · refine Or.inr ⟨front ++ ampersand :: text, ?_⟩
    rw [hbody, hs, List.append_assoc, List.cons_append]

/-- Behind another byte none does. -/
theorem not_startsPiece {text : List UInt8} {c : UInt8} (hc : c ≠ ampersand)
    (hs : s = text ++ c :: rest) : ¬ StartsPiece body rest := by
  have hbody : ∃ front, body = front ++ c :: rest := by
    rcases hstart with rfl | ⟨front, hbody⟩
    · exact ⟨text, hs⟩
    · exact ⟨front ++ ampersand :: text, by rw [hbody, hs, List.append_assoc, List.cons_append]⟩
  obtain ⟨front, hfront⟩ := hbody
  intro h
  rcases h with rfl | ⟨front', hfront'⟩
  · have hlen := congrArg List.length hfront
    rw [List.length_append, List.length_cons] at hlen
    omega
  · -- the byte before the rest is one byte
    rw [hfront] at hfront'
    have htail := (List.append_inj' hfront' rfl).2
    exact hc (List.cons.inj htail).1

/-- A value that does not fit goes on as a round of its own, in its middle. -/
theorem not_startsPiece_of_full {front more : List UInt8}
    (hvalue : (takeField equals 63 s).2 = front ++ more) (hamp : ampersand ∉ front)
    (hlong : 191 < front.length) :
    (formPair s).2.2 ∈ formRounds (formPair s).2.2 ∧ ¬ StartsPiece body (formPair s).2.2 := by
  have hrest := formPair_full rfl hvalue hamp hlong
  have hne : front.drop 191 ≠ [] := fun hnil => absurd (List.drop_eq_nil_iff.mp hnil) (by omega)
  constructor
  · rw [hrest]
    exact mem_formRounds_self (List.append_ne_nil_of_left_ne_nil hne more)
  · obtain ⟨before, hbefore⟩ := takeField_isSuffix equals 63 s
    -- the last byte that the buffer takes
    have hcut : front = front.take 190 ++ front[190] :: front.drop 191 := by
      rw [← List.drop_eq_getElem_cons, List.take_append_drop]
    refine @not_startsPiece body s _ hstart (before ++ front.take 190) front[190]
      (ne_of_mem_of_not_mem (List.getElem_mem _) hamp) ?_
    calc s = before ++ (front ++ more) := by rw [← hbefore, hvalue]
      _ = before ++ ((front.take 190 ++ front[190] :: front.drop 191) ++ more) := by rw [← hcut]
      _ = before ++ front.take 190 ++ front[190] :: (formPair s).2.2 := by
        rw [hrest, List.append_assoc, List.append_assoc, List.cons_append]

end

/-- **Every round starts at a piece exactly when every value fits.** -/
theorem startsPieces_iff {body piece : List UInt8} {pieces : List (List UInt8)}
    (hpieces : ∀ p ∈ pieces, ampersand ∉ p) (hvalue : ampersand ∉ (takeField equals 63 piece).2)
    (hstart : StartsPiece body (joined ampersand piece pieces)) :
    (∀ rest ∈ formRounds (joined ampersand piece pieces), StartsPiece body rest) ↔
      ∀ text ∈ runTogether piece pieces, (takeField equals 63 text).2.length ≤ 191 := by
  induction pieces generalizing piece with
  -- on the last piece, a value that does not fit goes on in a round of its own
  | nil =>
    rw [joined_nil] at hstart ⊢
    show _ ↔ ∀ text ∈ [piece], (takeField equals 63 text).2.length ≤ 191
    rw [List.forall_mem_singleton]
    by_cases hnil : piece = []
    · rw [hnil, formRounds_nil]
      exact iff_of_true (List.forall_mem_nil _) (Nat.zero_le 191)
    rw [formRounds_of_ne_nil hnil, List.forall_mem_cons]
    by_cases hfits : (takeField equals 63 piece).2.length ≤ 191
    · rw [formPair_fits hvalue hfits, formRounds_nil]
      exact iff_of_true ⟨hstart, List.forall_mem_nil _⟩ hfits
    · obtain ⟨hmem, hnot⟩ := not_startsPiece_of_full hstart (List.append_nil _).symm hvalue
        (Nat.not_le.mp hfits)
      exact iff_of_false (fun h => hnot (h.2 _ hmem)) hfits
  | cons next pieces ih =>
    rw [List.forall_mem_cons] at hpieces
    unfold runTogether
    split_ifs with hends
    · have hnext : ampersand ∉ (takeField equals 63 next).2 := fun hmem =>
        hpieces.1 ((takeField_isSuffix equals 63 next).subset hmem)
      rw [joined_cons] at hstart ⊢
      rw [formRounds_of_ne_nil (by simp), List.forall_mem_cons, List.forall_mem_cons]
      -- where the next round starts is decided by whether this value fits
      by_cases hfits : (takeField equals 63 piece).2.length ≤ 191
      · rw [formPair_append_fits hends hvalue hfits,
          ih hpieces.2 hnext (startsPiece_behind hstart rfl)]
        exact and_congr_left fun _ => iff_of_true hstart hfits
      · have hsplit : (takeField equals 63 (piece ++ ampersand :: joined ampersand next pieces)).2
            = (takeField equals 63 piece).2 ++ ampersand :: joined ampersand next pieces := by
          rw [takeField_append hends (by decide)]
        obtain ⟨hmem, hnot⟩ := not_startsPiece_of_full hstart hsplit hvalue (Nat.not_le.mp hfits)
        exact iff_of_false (fun h => hnot (h.2 _ hmem)) (fun h => hfits h.1)
    · rw [not_or, Nat.not_le] at hends
      have hnext : ampersand ∉ (takeField equals 63 (piece ++ ampersand :: next)).2 := fun hmem =>
        hpieces.1 ((takeField_runOn hends.1 hends.2 next).subset hmem)
      rw [← joined_append] at hstart ⊢
      exact ih hpieces.2 hnext hstart

/-- **Two lists of pieces make the same configuration** exactly when they leave every field the
same, the addresses only where they are not zeroed. -/
theorem urlencodedConfig_eq_iff (cfg : NodeConfig) (pieces pieces' : List (List UInt8)) :
    urlencodedConfig pieces cfg = urlencodedConfig pieces' cfg ↔
      ∀ field : FormField, (field ∈ addressFields → lastAddrMode cfg pieces ≠ addrModeDhcp) →
        SameValue cfg field pieces pieces' :=
  zeroed_applyPairs_eq_iff cfg (pieces.map pieceAssignment) (pieces'.map pieceAssignment)

/-! ## The body -/

/-- **The scanner reads urlencoded data** exactly when every value fits its buffer and the pieces
that run together make no difference to a field. -/
theorem readsUrlencoded_iff {body : List UInt8} (hnul : 0 ∉ body) (cfg : NodeConfig) :
    ReadsUrlencoded body cfg ↔ TakenApart (body.splitOn ampersand) cfg := by
  obtain ⟨piece, pieces, hsplit, hbody, hnot⟩ := exists_joined_splitOn ampersand body
  rw [List.forall_mem_cons] at hnot
  have hvalue : ampersand ∉ (takeField equals 63 piece).2 := fun hmem =>
    hnot.1 ((takeField_isSuffix equals 63 piece).subset hmem)
  have hrounds := startsPieces_iff hnot.2 hvalue (Or.inl hbody.symm)
  -- where every value fits, the loop reads the pieces as they are
  have hreads : (∀ text ∈ runTogether piece pieces, (takeField equals 63 text).2.length ≤ 191) →
      parseFormdata body cfg = urlencodedConfig (ownPieces (piece :: pieces)) cfg := by
    intro hfits
    unfold parseFormdata
    rw [cstr_of_no_nul hnul, hbody, foldl_formPairs hnot.2 hvalue hfits]
    rfl
  rw [← hbody] at hrounds
  constructor
  · intro h
    have hfits := hrounds.mp h.pairs
    have hconfig := h.config
    rw [hsplit] at hconfig ⊢
    rw [hreads hfits] at hconfig
    exact {
      values := hfits
      fields := (urlencodedConfig_eq_iff cfg _ _).mp hconfig.symm }
  · intro h
    rw [hsplit] at h
    have hconfig := (urlencodedConfig_eq_iff cfg _ _).mpr h.fields
    refine {
      config := ?_
      pairs := hrounds.mpr h.values }
    rw [hsplit, hreads h.values, hconfig]

/-- The first piece runs on into the second. -/
theorem readsUrlencoded_iff_runOn :
    ReadsUrlencoded (ascii "save&hostname=a") configDefaults ↔
      TakenApart ((ascii "save&hostname=a").splitOn ampersand) configDefaults :=
  readsUrlencoded_iff (by decide) configDefaults

/-- One pair, the value of which ends with the text of another one. -/
def overlongBody : List UInt8 :=
  ascii "x" ++ equals :: (List.replicate 191 97 ++ ascii "hostname=b")

/-- The end of an unknown name's value is posted as the hostname. -/
theorem overlongBody_misread : ¬ ReadsUrlencoded overlongBody configDefaults := by
  have hvalue : (takeField equals 63 overlongBody).2
      = (List.replicate 191 97 ++ ascii "hostname=b") ++ [] := by
    unfold overlongBody
    rw [takeField_sep (by decide) (by decide), List.append_nil]
  have hamp : ampersand ∉ List.replicate 191 97 ++ ascii "hostname=b" := by
    rw [List.mem_append, List.mem_replicate, not_or]
    exact ⟨by decide, by decide⟩
  obtain ⟨hmem, hnot⟩ := not_startsPiece_of_full (Or.inl rfl) hvalue hamp
    (by rw [List.length_append, List.length_replicate]; decide)
  have hne : overlongBody ≠ [] := List.append_ne_nil_of_left_ne_nil (by decide) _
  intro h
  refine hnot (h.pairs _ ?_)
  rw [formRounds_of_ne_nil hne]
  exact List.mem_cons_of_mem _ hmem

/-! ### Bodies without runs -/

/-- Pieces with a `=` are not run together. -/
theorem runTogether_of_equals {piece : List UInt8} {pieces : List (List UInt8)}
    (h : ∀ p ∈ piece :: pieces, equals ∈ p) : runTogether piece pieces = piece :: pieces := by
  induction pieces generalizing piece with
  | nil => rfl
  | cons next pieces ih =>
    rw [List.forall_mem_cons] at h
    unfold runTogether
    rw [if_pos (Or.inl h.1), ih h.2]

/-- Names with values that fit are taken apart as they should be. -/
theorem takenApart_of_equals {pieces : List (List UInt8)} (hamp : ∀ p ∈ pieces, ampersand ∉ p)
    (hequals : ∀ p ∈ pieces, equals ∈ p)
    (hfits : ∀ p ∈ pieces, (takeField equals 63 p).2.length ≤ 191) (cfg : NodeConfig) :
    TakenApart pieces cfg := by
  have htaken : takenTexts pieces = pieces := by
    cases pieces with
    | nil => rfl
    | cons piece pieces => exact runTogether_of_equals hequals
  have hown : ownPieces pieces = pieces := by
    unfold ownPieces
    rw [htaken]
    exact List.filter_eq_self.mpr fun p hp => by simpa using hamp p hp
  constructor
  · rw [htaken]
    exact hfits
  · intro field _
    unfold SameValue
    rw [hown]
    exact Agrees.refl _ _

end SN110
