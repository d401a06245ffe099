import SN110.Cgi.Body
import SN110.Lib.Checked

/-!
# Malformed MAC addresses (`parse_mac`)

`parse_mac` stores each byte as it reads it, and its result is not looked at. What is stored of a
value are the hex bytes that it starts with (`parseMac_eq`); a value that is cut or goes wrong later
on leaves them in the configuration, and then `cgi_config` does not ask the interface for its
address.

`macKept_iff` says for which files no such value does any harm.
-/

namespace SN110

open Memory Checked

/-! ## The text of a MAC address -/

/-- A hex byte of one or two digits, and its value. -/
inductive HexByteText : List UInt8 → Nat → Prop where
  | one {c : UInt8} {lo : Nat} (hc : hexDigit c = some lo) : HexByteText [c] lo
  | two {c d : UInt8} {hi lo : Nat} (hc : hexDigit c = some hi) (hd : hexDigit d = some lo) :
      HexByteText [c, d] (hi * 16 + lo)

/-- Hex bytes separated by colons, and the bytes. -/
inductive ColonHex : List UInt8 → List UInt8 → Prop where
  | last {t : List UInt8} {val : Nat} : HexByteText t val → ColonHex t [UInt8.ofNat val]
  | cons {t rest : List UInt8} {val : Nat} {bs : List UInt8} : HexByteText t val →
      ColonHex rest bs → ColonHex (t ++ 58 :: rest) (UInt8.ofNat val :: bs)

/-- The text of a MAC address: six hex bytes separated by colons. -/
def IsMacText (v : List UInt8) (mac : Vector UInt8 6) : Prop := ColonHex v mac.toList

/-- The hex bytes that a text starts with, a colon between any two of them; at most `n`. -/
def leadingHexBytes : Nat → List UInt8 → List UInt8
  | 0, _ => []
  | n + 1, s =>
    match parseHexByte s with
    | (none, _) => []
    | (some val, rest) =>
      UInt8.ofNat val :: if rest.head? = some 58 then leadingHexBytes n rest.tail else []

/-- A value gives its bytes to the MAC address or leaves it alone. -/
def SetsAllOrNone (v : List UInt8) (before after : Vector UInt8 6) : Prop :=
  IsMacText v after ∨ after = before

/-- What a MAC address text has to be in order to do no harm: well-formed, or one whose leading hex
bytes are those that the MAC address has already. -/
def MacHarmless (v : List UInt8) (before : Vector UInt8 6) : Prop :=
  (∃ mac, IsMacText v mac) ∨ leadingHexBytes 6 v <+: before.toList

/-! ## What is stored -/

/-- No more bytes are read than asked for. -/
theorem length_leadingHexBytes_le (n : Nat) (s : List UInt8) :
    (leadingHexBytes n s).length ≤ n := by
  induction n generalizing s with
  | zero => exact le_rfl
  | succ n ih =>
    unfold leadingHexBytes
    split
    · exact Nat.zero_le _
    · rw [List.length_cons]
      split_ifs
      · exact Nat.succ_le_succ (ih _)
      · exact Nat.succ_le_succ (Nat.zero_le _)

/-- The rounds from byte `out.length` on, on an address whose first bytes have been stored. -/
theorem parseMacFrom_eq (mac : Vector UInt8 6) (n : Nat) (p : List UInt8) {out : List UInt8}
    (h : out.length + n = 6) :
    (parseMacFrom ((List.finRange 6).drop out.length) p (overlay mac out)).2
      = overlay mac (out ++ leadingHexBytes n p) := by
  induction n generalizing p out with
  | zero =>
    rw [List.drop_of_length_le (by rw [List.length_finRange]; omega)]
    show overlay mac out = overlay mac (out ++ [])
    rw [List.append_nil]
  | succ n ih =>
    have hlt : out.length < (List.finRange 6).length := by rw [List.length_finRange]; omega
    have hset : ∀ b, (overlay mac out).set out.length b (by omega) = overlay mac (out ++ [b]) := by
      intro b
      have hput := @put_overlay 6 mac out b (by omega)
      rw [put, dif_pos (by omega)] at hput
      exact Except.ok.inj hput
    have hnext : ∀ (b : UInt8) (rest : List UInt8),
        (parseMacFrom ((List.finRange 6).drop (out.length + 1)) rest (overlay mac (out ++ [b]))).2
          = overlay mac (out ++ b :: leadingHexBytes n rest) := by
      intro b rest
      have hrest := @ih rest (out ++ [b])
        (by rw [List.length_append, List.length_singleton]; omega)
      rw [List.length_append, List.length_singleton, List.append_assoc] at hrest
      exact hrest
    rw [List.drop_eq_getElem_cons hlt, List.getElem_finRange]
    unfold parseMacFrom leadingHexBytes
    cases parseHexByte p with
    | mk val rest =>
      cases val with
      | none =>
        show overlay mac out = overlay mac (out ++ [])
        rw [List.append_nil]
      | some val =>
        have hstored := hset (UInt8.ofNat val)
        have hgo := hnext (UInt8.ofNat val)
        rw [← hstored] at hgo
        -- the value stops where a colon is missing, and the last byte needs none
        have hstop : (overlay mac out).set out.length (UInt8.ofNat val) (by omega)
            = overlay mac (out ++ UInt8.ofNat val :: []) := hstored
        dsimp only [Fin.cast_mk]
        by_cases hfive : out.length < 5
        · rw [if_pos hfive]
          split
          · exact hgo _
          · rename_i hcolon
            rw [if_neg]
            · exact hstop
            · intro hhead
              obtain ⟨tail, rfl⟩ := List.head?_eq_some_iff.mp hhead
              exact hcolon tail rfl
        · obtain rfl : n = 0 := by omega
          rw [if_neg hfive, hgo]
          unfold leadingHexBytes
          rw [ite_self]

/-- **What is stored of a value** are the hex bytes that it starts with. -/
theorem parseMac_eq (v : List UInt8) (mac : Vector UInt8 6) :
    (parseMac v mac).2 = overlay mac (leadingHexBytes 6 v) := by
  have hloop := @parseMacFrom_eq mac 6 v [] rfl
  rwa [overlay_nil] at hloop

/-- A byte's text is read up to the character behind it. -/
theorem parseHexByte_of_hexByteText {t : List UInt8} {val : Nat} (h : HexByteText t val)
    {rest : List UInt8} (hrest : ∀ c ∈ rest.head?, hexDigit c = none) :
    parseHexByte (t ++ rest) = (some val, rest) := by
  cases h with
  | @one c _ hc =>
    show parseHexByte (c :: rest) = _
    cases rest with
    | nil => simp only [parseHexByte, hc]
    | cons d rest => simp only [parseHexByte, hc, hrest d rfl]
  | @two c d _ _ hc hd =>
    show parseHexByte (c :: d :: rest) = _
    simp only [parseHexByte, hc, hd]

/-- A well-formed text starts with all its bytes. -/
theorem leadingHexBytes_of_colonHex {v bs : List UInt8} (h : ColonHex v bs) :
    leadingHexBytes bs.length v = bs := by
  induction h with
  | @last t val ht =>
    have hparse := @parseHexByte_of_hexByteText t val ht [] (by simp)
    rw [List.append_nil] at hparse
    show leadingHexBytes (0 + 1) t = _
    unfold leadingHexBytes
    rw [hparse]
    rfl
  | @cons t rest val bs ht _ ih =>
    have hcolon : ∀ c ∈ (58 :: rest).head?, hexDigit c = none := by
      intro c hc
      obtain rfl : 58 = c := by simpa using hc
      decide
    rw [List.length_cons]
    unfold leadingHexBytes
    rw [parseHexByte_of_hexByteText ht hcolon]
    exact congrArg _ ih

/-- All six bytes written over leave none of the old. -/
theorem overlay_toList (mac old : Vector UInt8 6) : overlay old mac.toList = mac := by
  apply Vector.ext
  intro i hi
  rw [getElem_overlay _ _ hi, dif_pos (by simpa using hi), Vector.getElem_toList]

/-- Storing bytes changes nothing exactly when they stand there already. -/
theorem overlay_eq_self_iff {mac : Vector UInt8 6} {bs : List UInt8} (h : bs.length ≤ 6) :
    overlay mac bs = mac ↔ bs <+: mac.toList := by
  rw [List.prefix_iff_getElem]
  constructor
  · intro heq
    refine ⟨by simpa using h, fun i hi => ?_⟩
    have hget := getElem_overlay mac bs (show i < 6 by omega)
    simp only [heq, dif_pos hi] at hget
    rw [Vector.getElem_toList, hget]
  · intro ⟨_, hall⟩
    apply Vector.ext
    intro i hi
    rw [getElem_overlay _ _ hi]
    split_ifs with hin
    · rw [hall i hin, Vector.getElem_toList]
    · rfl

/-- A well-formed address replaces the old one. -/
theorem parseMac_of_isMacText {v : List UInt8} {mac : Vector UInt8 6} (h : IsMacText v mac)
    (old : Vector UInt8 6) : (parseMac v old).2 = mac := by
  have hall := leadingHexBytes_of_colonHex h
  rw [Vector.length_toList] at hall
  rw [parseMac_eq, hall, overlay_toList]

/-- **One value**: when it sets all the bytes or none. -/
theorem setsAllOrNone_parseMac (v : List UInt8) (before : Vector UInt8 6) :
    SetsAllOrNone v before (parseMac v before).2 ↔ MacHarmless v before := by
  have hlen := length_leadingHexBytes_le 6 v
  unfold SetsAllOrNone MacHarmless
  constructor
  · intro h
    cases h with
    | inl htext => exact Or.inl ⟨_, htext⟩
    | inr hsame =>
      exact Or.inr ((overlay_eq_self_iff hlen).mp ((parseMac_eq v before).symm.trans hsame))
  · intro h
    cases h with
    | inl htext =>
      obtain ⟨mac, hmac⟩ := htext
      rw [parseMac_of_isMacText hmac]
      exact Or.inl hmac
    | inr hstored =>
      rw [parseMac_eq]
      exact Or.inr ((overlay_eq_self_iff hlen).mpr hstored)

/-! ## The lines of a file -/

/-- The file's lines up to one that gives `macaddr` a value, and the value. -/
def MacLine (content : List UInt8) (before : List (List UInt8)) (line v : List UInt8) : Prop :=
  (∃ after, linePieces content = before ++ line :: after) ∧ lineSets line = some (.macaddr, v)

/-- The MAC address when some lines have been processed. -/
def macAfter (lines : List (List UInt8)) : Vector UInt8 6 :=
  (lines.foldl loadLine configDefaults).mac

/-- A malformed MAC leaves the MAC alone, and the interface's is read if the file has no other. -/
structure MacKept (content : List UInt8) : Prop where
  line : ∀ before line v, MacLine content before line v →
    SetsAllOrNone v (macAfter before) (macAfter (before ++ [line]))
  fallback : (∀ before line v, MacLine content before line v → ¬ ∃ mac, IsMacText v mac) →
    (configLoad (some content)).2.mac = Vector.replicate 6 0 ∧
      ∀ env request strand, (postedConfig env request ⟨some content, strand⟩).mac
        = env.ifaceMac.getD (Vector.replicate 6 0)

/-- A line with an address is read over what the lines before have left. -/
theorem macAfter_concat {line v : List UInt8} (h : lineSets line = some (.macaddr, v))
    (before : List (List UInt8)) :
    macAfter (before ++ [line]) = (parseMac v (macAfter before)).2 := by
  unfold macAfter
  rw [List.foldl_append]
  show (loadLine (before.foldl loadLine configDefaults) line).mac = _
  unfold loadLine
  rw [h]
  rfl

/-- No other line touches the MAC address. -/
theorem macAfter_concat_of_ne {line : List UInt8} (h : ∀ v, lineSets line ≠ some (.macaddr, v))
    (before : List (List UInt8)) : macAfter (before ++ [line]) = macAfter before := by
  unfold macAfter
  rw [List.foldl_append]
  show (loadLine (before.foldl loadLine configDefaults) line).mac = _
  unfold loadLine
  cases hsets : lineSets line with
  | none => rfl
  | some kv =>
    have hne : Key.macaddr ≠ kv.1 := by
      intro heq
      exact h kv.2 (by rw [hsets, heq])
    exact agrees_applyKey_of_ne hne _ kv.2

/-- Lines that leave the MAC address alone one by one leave it at 0. -/
theorem macAfter_eq_zero {lines : List (List UInt8)}
    (h : ∀ before line v, (∃ after, lines = before ++ line :: after) →
      lineSets line = some (.macaddr, v) → macAfter (before ++ [line]) = macAfter before) :
    macAfter lines = Vector.replicate 6 0 := by
  induction lines using List.reverseRecOn with
  | nil => rfl
  | append_singleton lines line ih =>
    have hlines : macAfter lines = Vector.replicate 6 0 := by
      refine ih fun before line' v ⟨after, hafter⟩ hsets =>
        h before line' v ⟨after ++ [line], ?_⟩ hsets
      rw [hafter, List.append_assoc, List.cons_append]
    by_cases hmac : ∃ v, lineSets line = some (.macaddr, v)
    · obtain ⟨v, hv⟩ := hmac
      rw [h lines line v ⟨[], rfl⟩ hv, hlines]
    · rw [macAfter_concat_of_ne (fun v hv => hmac ⟨v, hv⟩), hlines]

/-- Posting a form keeps the address loaded. -/
theorem mac_postedConfig (env : CgiEnv) (request : PostRequest) (files : ConfigFiles) :
    (postedConfig env request files).mac = (cgiLoad env files.config).mac := by
  have hzeroed : (postedConfig env request files).mac = _ :=
    @agrees_zeroDhcpAddresses .macaddr (by decide) (by decide) (by decide) _
  rw [hzeroed]
  exact mac_postedFields _ _

/-- Without an address in the file the interface's is taken. -/
theorem mac_cgiLoad_of_zero {file : Option (List UInt8)} (env : CgiEnv)
    (h : (configLoad file).2.mac = Vector.replicate 6 0) :
    (cgiLoad env file).mac = env.ifaceMac.getD (Vector.replicate 6 0) := by
  unfold cgiLoad
  simp only [h, if_true]

/-- The loaded address is what the lines of the file leave. -/
theorem mac_configLoad (content : List UInt8) :
    (configLoad (some content)).2.mac = macAfter (linePieces content) :=
  agrees_inferAddrMode_of_ne (show Key.macaddr ≠ .addrMode by decide) _

/-- **Where a malformed MAC leaves the MAC alone**: in the files whose values for it all do no
harm. -/
theorem macKept_iff (content : List UInt8) :
    MacKept content ↔
      ∀ before line v, MacLine content before line v → MacHarmless v (macAfter before) := by
  have hline : ∀ before line v, MacLine content before line v →
      (SetsAllOrNone v (macAfter before) (macAfter (before ++ [line]))
        ↔ MacHarmless v (macAfter before)) := fun before line v h => by
    rw [macAfter_concat h.2, setsAllOrNone_parseMac]
  constructor
  · exact fun h before line v hmac => (hline before line v hmac).mp (h.line before line v hmac)
  · intro h
    refine ⟨fun before line v hmac => (hline before line v hmac).mpr (h before line v hmac),
      fun hnone => ?_⟩
    -- a value that is not well-formed has left the address as it was
    have hzero : (configLoad (some content)).2.mac = Vector.replicate 6 0 := by
      rw [mac_configLoad]
      refine macAfter_eq_zero fun before line v hafter hsets => ?_
      have hmac : MacLine content before line v := ⟨hafter, hsets⟩
      cases (hline before line v hmac).mpr (h before line v hmac) with
      | inl htext => exact absurd ⟨_, htext⟩ (hnone before line v hmac)
      | inr hsame => exact hsame
    refine ⟨hzero, fun env request strand => ?_⟩
    rw [mac_postedConfig, mac_cgiLoad_of_zero env hzero]

/-- An address that goes wrong at its third byte. -/
def brokenMacFile : List UInt8 := ascii "macaddr = 40:11:x2:33:44:55" ++ [lf]

/-- Its first two bytes are kept and saved, whatever the interface's address is. -/
theorem brokenMac_kept :
    (∀ env request, (postedConfig env request ⟨some brokenMacFile, none⟩).mac
        = #v[0x40, 0x11, 0, 0, 0, 0]) ∧
      ¬ MacKept brokenMacFile := by
  have hloaded : (configLoad (some brokenMacFile)).2.mac = #v[0x40, 0x11, 0, 0, 0, 0] := by decide
  constructor
  · intro env request
    rw [mac_postedConfig]
    unfold cgiLoad
    rw [if_neg (by rw [hloaded]; decide), hloaded]
  · intro h
    have hmac : MacLine brokenMacFile [] brokenMacFile (ascii "40:11:x2:33:44:55") :=
      ⟨⟨[], by decide⟩, by decide⟩
    -- the text is not one of six bytes, and the address has changed
    cases h.line [] _ _ hmac with
    | inl htext =>
      have hall := leadingHexBytes_of_colonHex htext
      rw [Vector.length_toList] at hall
      have hlen := congrArg List.length hall
      rw [Vector.length_toList] at hlen
      exact absurd hlen (by decide)
    | inr hsame => exact absurd hsame (by decide)

end SN110
