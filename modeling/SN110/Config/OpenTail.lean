import SN110.Config.Save

/-!
# A line that joins an open tail

When the old file does not end with a newline its last piece stays open, and the first line the
saving code appends is joined to it. `settings_joined_fits` says when the joined text still sets
the line's key: the tail is all blanks and leaves room for the key. In every other case nothing
in the joined text sets the key to its value. Two things can be there instead (`JoinedValue`): the
whole line as the value of a tail that ends with `=`, and what follows an `=` inside the line's
own value, where the joined text is cut after 255 bytes. Counting the `=` tells both from the
value itself (`JoinedValue.ne`).

## Why the count of `=` decides

A key's line has one `=` of its own and those of its value. If the joined text set the key to that
value after all, the text read back would have as many `=` as the value; but both forms of
`JoinedValue` have another number of them. So a tail that does not fit spoils the first key that is
appended, whatever the value is, and `TailOk` is exactly what has to be asked of the old file.
-/

namespace SN110

open Pieces

/-- The appended line of `key` still sets its key when it joins the tail. -/
def Fits (tail : List UInt8) (key : Key) : Prop :=
  (∀ c ∈ tail, isBlank c = true) ∧ tail.length + key.name.length + 1 ≤ 63

instance (tail : List UInt8) (key : Key) : Decidable (Fits tail key) := by
  unfold Fits
  infer_instance

/-! ## Counting the `=` -/

/-- Trimming takes no `=` away. -/
theorem count_equals_trim (s : List UInt8) :
    (trim s).count equals = s.count equals := by
  have hblank : ∀ bs : List UInt8, (∀ c ∈ bs, isBlank c = true) → bs.count equals = 0 := by
    intro bs hbs
    refine List.count_eq_zero.mpr fun hmem => ?_
    exact absurd (hbs equals hmem) (by decide)
  obtain ⟨front, back, hs, hfront, hback⟩ := exists_trim_eq s
  have hcount := congrArg (List.count equals) hs
  rw [List.count_append, List.count_append, hblank front hfront, hblank back hback] at hcount
  omega

/-- A value has no more `=` than the text it is taken from. -/
theorem count_equals_span_le (s : List UInt8) :
    (spanNoneOf 191 [lf, cr] s).count equals ≤ s.count equals :=
  (spanNoneOf_isPrefix 191 [lf, cr] s).sublist.count_le equals

theorem count_equals_name (key : Key) : key.name.count equals = 0 :=
  List.count_eq_zero.mpr key.equals_notMem_name

/-- A key's line has one `=` more than its value. -/
theorem count_equals_keyLine (config : NodeConfig) (key : Key) :
    (keyLine config key).count equals = (formatValue config key).count equals + 1 := by
  have hline : keyLine config key
      = key.name ++ ([space, equals, space] ++ (formatValue config key ++ [lf])) := rfl
  have hsep : [space, equals, space].count equals = 1 := by decide
  have hend : [lf].count equals = 0 := by decide
  rw [hline, List.count_append, List.count_append, List.count_append, count_equals_name, hsep,
    hend]
  omega

/-- The part of a text before its first `=` is determined by the text. -/
theorem split_at_equals {x y r s : List UInt8} (h : x ++ equals :: r = y ++ equals :: s)
    (hx : equals ∉ x) (hy : equals ∉ y) : x = y ∧ r = s := by
  have htake : ∀ {z t : List UInt8}, equals ∉ z →
      (z ++ equals :: t).takeWhile (· ≠ equals) = z := by
    intro z t hz
    rw [List.takeWhile_append_of_pos]
    · simp
    · intro c hc
      simp only [decide_eq_true_eq]
      rintro rfl
      exact hz hc
  have heq : x = y := by rw [← htake (t := r) hx, h, htake hy]
  subst heq
  exact ⟨rfl, (List.cons.inj (List.append_cancel_left h)).2⟩

/-! ## The joined text is cut once at most -/

section

variable {config : NodeConfig} {key : Key} {tail : List UInt8}

/-- An open piece has no line end. -/
theorem lf_notMem_of_open (hpiece : IsPiece lf maxPiece tail) (hopen : ¬ Closed lf maxPiece tail) :
    lf ∉ tail := by
  intro hmem
  have hsplit := List.dropLast_concat_getLast hpiece.ne_nil
  rw [← hsplit, List.mem_append, List.mem_singleton] at hmem
  rcases hmem with hmem | hlast
  · exact hpiece.sep_last hmem
  · exact hopen (Or.inl (by rw [List.getLast?_eq_some_getLast hpiece.ne_nil, ← hlast]))

/-- The joined text is one piece, or a full piece that holds the tail and something of the line,
and the rest of the line. -/
theorem linePieces_joined (h : CleanText config) (key : Key) (hpiece : IsPiece lf maxPiece tail)
    (hopen : ¬ Closed lf maxPiece tail) :
    ∃ front back, keyLine config key = front ++ back ∧ front ≠ [] ∧
      linePieces (tail ++ keyLine config key) = (tail ++ front) :: linePieces back ∧
      (∀ p ∈ linePieces back, p = back) ∧ (back = [] ∨ (tail ++ front).length = 255) := by
  have hnolf := lf_notMem_of_open hpiece hopen
  have hlen : tail.length < 255 :=
    lt_of_le_of_ne hpiece.length_le fun hfull => hopen (Or.inr hfull)
  obtain ⟨hline, hclosed⟩ := keyLine_isPiece h key
  have hshort := length_keyLine_le config key
  -- either the joined text is short enough for one piece, or `fgets` stops at byte 255
  by_cases hfit : (tail ++ keyLine config key).length ≤ 255
  · refine ⟨keyLine config key, [], (List.append_nil _).symm, hline.ne_nil, ?_,
      by simp [linePieces], Or.inl rfl⟩
    refine pieces_of_isPiece (by decide) ⟨?_, hfit, ?_⟩
    · exact List.append_ne_nil_of_left_ne_nil hpiece.ne_nil _
    · rw [List.dropLast_append_of_ne_nil hline.ne_nil, List.mem_append, not_or]
      exact ⟨hnolf, hline.sep_last⟩
  · rw [List.length_append] at hfit
    have hcut := (List.take_append_drop (255 - tail.length) (keyLine config key)).symm
    have hfrontLen :
        ((keyLine config key).take (255 - tail.length)).length = 255 - tail.length := by
      rw [List.length_take]
      omega
    have hbackLen : ((keyLine config key).drop (255 - tail.length)).length ≠ 0 := by
      rw [List.length_drop]
      omega
    generalize (keyLine config key).take (255 - tail.length) = front at hcut hfrontLen
    generalize (keyLine config key).drop (255 - tail.length) = back at hcut hbackLen
    have hback : back ≠ [] := fun hnil => hbackLen (by rw [hnil]; rfl)
    have hfull : (tail ++ front).length = 255 := by
      rw [List.length_append]
      omega
    -- the only newline of the line is at its end, so both parts are pieces
    have hdrop := hline.sep_last
    rw [hcut, List.dropLast_append_of_ne_nil hback, List.mem_append, not_or] at hdrop
    have hfirst : IsPiece lf maxPiece (tail ++ front) := by
      refine ⟨List.append_ne_nil_of_left_ne_nil hpiece.ne_nil _, hfull.le, fun hmem => ?_⟩
      rcases List.mem_append.mp (List.mem_of_mem_dropLast hmem) with hmem | hmem
      · exact hnolf hmem
      · exact hdrop.1 hmem
    have hrest : IsPiece lf maxPiece back := by
      refine ⟨hback, ?_, hdrop.2⟩
      have := congrArg List.length hcut
      rw [List.length_append] at this
      show back.length ≤ 255
      omega
    have hpieces : linePieces back = [back] := pieces_of_isPiece (by decide) hrest
    refine ⟨front, back, hcut, ?_, ?_, ?_, Or.inr hfull⟩
    · intro hnil
      rw [hnil, List.length_nil] at hfrontLen
      omega
    · rw [hcut, ← List.append_assoc]
      exact pieces_closed_append (by decide) hfirst (Or.inr hfull) back
    · intro p hp
      rw [hpieces] at hp
      exact List.mem_singleton.mp hp

/-! ## A tail of blanks -/

/-- A tail that fits leaves the appended line its meaning. -/
theorem settings_joined_fits (h : CleanText config) (hpiece : IsPiece lf maxPiece tail)
    (hopen : ¬ Closed lf maxPiece tail) (hfits : Fits tail key) :
    settings (tail ++ keyLine config key) = [setting config key] := by
  obtain ⟨hblank, hroom⟩ := hfits
  obtain ⟨front, back, hcut, -, hpieces, -, hback⟩ := linePieces_joined h key hpiece hopen
  have hshort := length_keyLine_le config key
  -- blanks before a name leave room in a piece for any line
  obtain rfl : back = [] := by
    refine hback.resolve_right fun hfull => ?_
    have := congrArg List.length hcut
    rw [List.length_append] at this hfull
    omega
  rw [List.append_nil] at hcut
  subst hcut
  unfold settings
  rw [hpieces, List.filterMap_cons, lineSets_blanks_keyLine h key hblank hroom]
  rfl

/-! ## Any other tail -/

/-- A value is empty only where the line ends at once. -/
theorem spanNoneOf_eq_nil {c : UInt8} {s : List UInt8}
    (h : spanNoneOf 191 [lf, cr] (c :: s) = []) : c = lf ∨ c = cr := by
  unfold spanNoneOf at h
  by_contra hc
  rw [not_or] at hc
  simp [hc.1, hc.2] at h

/-- And there it is. -/
theorem spanNoneOf_eq_nil_of {c : UInt8} (h : c = lf ∨ c = cr) (s : List UInt8) :
    spanNoneOf 191 [lf, cr] (c :: s) = [] := by
  unfold spanNoneOf
  rcases h with rfl | rfl <;> simp

/-- A line that is read as a value is read whole, up to its newline. -/
theorem spanNoneOf_keyLine (h : CleanText config) (key : Key) :
    spanNoneOf 191 [lf, cr] (keyLine config key)
      = key.name ++ (space :: equals :: space :: formatValue config key) := by
  rw [keyLine_eq_concat, spanNoneOf_append]
  · intro c hc
    have hplain := formatValue_plain h key
    simp only [List.mem_append, List.mem_cons] at hc
    rcases hc with hc | rfl | rfl | rfl | hc
    · have := Key.nameByte hc
      simp [this.ne_lf, this.ne_cr]
    · decide
    · decide
    · decide
    · simp [(hplain c hc).ne_lf, (hplain c hc).ne_cr]
  · have hname := key.length_name_le
    have hlen := length_formatValue_le config key
    simp only [List.length_append, List.length_cons]
    omega
  · simp

/-- What the first piece of the joined text can set: with a tail that ends in its first `=`, the
tail's key to the whole line. -/
theorem lineSets_joined_front (h : CleanText config) (hpiece : IsPiece lf maxPiece tail)
    (hnul : 0 ∉ tail) (hnone : lineSets tail = none) (hfits : ¬ Fits tail key)
    {front back w : List UInt8} {key' : Key} (hcut : keyLine config key = front ++ back)
    (hback : back = [] ∨ (tail ++ front).length = 255)
    (hset : lineSets (tail ++ front) = some (key', w)) :
    (∃ k, tail = k ++ [equals] ∧ equals ∉ k ∧ key'.name = trim k) ∧
      w = trim (key.name ++ (space :: equals :: space :: formatValue config key)) := by
  rw [lineSets_eq_some, scanLine_eq_some] at hset
  obtain ⟨hhead, k, rest, hline, hk, hkne, hklen, hvalue, hname, rfl⟩ := hset
  have hnul' : 0 ∉ tail ++ front := by
    rw [List.mem_append, not_or]
    exact ⟨hnul, fun hmem => keyLine_no_nul config key (hcut ▸ List.mem_append_left _ hmem)⟩
  rw [cstr_of_no_nul hnul'] at hline
  rcases List.append_eq_append_iff.mp hline with ⟨c, rfl, hfront⟩ | ⟨c, rfl, hrest⟩
  · -- the first `=` is the line's own: the key is the tail and the name
    exfalso
    have hkeyLine : (key.name ++ [space])
        ++ equals :: (space :: (formatValue config key ++ [lf]))
          = c ++ equals :: (rest ++ back) := by
      have hline : keyLine config key = (key.name ++ [space])
          ++ equals :: (space :: (formatValue config key ++ [lf])) := by
        simp [keyLine]
      rw [← hline, hcut, hfront, List.append_assoc, List.cons_append]
    have hnameNo : equals ∉ key.name ++ [space] := by
      rw [List.mem_append, not_or]
      exact ⟨key.equals_notMem_name, by decide⟩
    have hcNo : equals ∉ c := fun hmem => hk (List.mem_append_right _ hmem)
    obtain ⟨rfl, -⟩ := split_at_equals hkeyLine hnameNo hcNo
    by_cases hblank : ∀ c ∈ tail, isBlank c = true
    · refine hfits ⟨hblank, ?_⟩
      simp only [List.length_append, List.length_singleton] at hklen
      omega
    · -- the trimmed key is the name with something before it
      have hdrop : tail.dropWhile isBlank ≠ [] := fun hnil =>
        hblank (List.dropWhile_eq_nil_iff.mp hnil)
      have htrim : trim (tail ++ (key.name ++ [space])) = tail.dropWhile isBlank ++ key.name := by
        rw [← List.append_assoc, trim_append_blanks (by decide)]
        conv_lhs => rw [← List.takeWhile_append_dropWhile (p := isBlank) (l := tail)]
        rw [List.append_assoc, trim_blanks_append (fun c hc => List.mem_takeWhile_imp hc)]
        refine trim_of_trimmed ⟨fun c hc => ?_, fun c hc => ?_⟩
        · obtain ⟨d, t, hdt⟩ := List.exists_cons_of_ne_nil hdrop
          rw [hdt] at hc
          obtain rfl : d = c := by simpa using hc
          have := List.head_dropWhile_not isBlank (l := tail) hdrop
          simp only [hdt, List.head_cons] at this
          exact this
        · rw [List.getLast?_append_of_ne_nil _ key.name_ne_nil] at hc
          exact (Key.nameByte (List.mem_of_getLast? hc)).not_blank
      have hsuffix : key.name <:+ key'.name := ⟨_, by rw [hname, htrim]⟩
      obtain rfl := Key.eq_of_suffix hsuffix
      rw [htrim] at hname
      have hlen := congrArg List.length hname
      have := List.length_pos_of_ne_nil hdrop
      rw [List.length_append] at hlen
      omega
  · -- the first `=` is in the tail, which has no value
    cases c with
    | nil =>
      -- then it stands at the start of the line, where a name stands
      exfalso
      obtain ⟨d, t, hdt⟩ := List.exists_cons_of_ne_nil key.name_ne_nil
      have hd : NameByte d := Key.nameByte (by rw [hdt]; exact List.mem_cons_self)
      unfold keyLine at hcut
      rw [hdt, ← List.nil_append front, ← hrest] at hcut
      exact hd.ne_equals (List.cons.inj hcut).1
    | cons d t =>
      obtain ⟨rfl, rfl⟩ := List.cons.inj hrest
      have hspan : spanNoneOf 191 [lf, cr] t = [] := by
        by_contra hne
        have hscan : scanLine (k ++ equals :: t)
            = some (trim k, trim (spanNoneOf 191 [lf, cr] t)) := by
          rw [scanLine_eq_some]
          refine ⟨?_, k, t, cstr_of_no_nul hnul, hk, hkne, hklen, hne, rfl, rfl⟩
          rwa [List.head?_append_of_ne_nil _ (by simp)] at hhead
        rw [← hname] at hscan
        rw [lineSets_eq_some.mpr hscan] at hnone
        cases hnone
      cases t with
      | cons e u =>
        exfalso
        exact hvalue (spanNoneOf_eq_nil_of (spanNoneOf_eq_nil hspan) _)
      | nil =>
        -- the value is the line, which is not cut as the tail is short
        have hshort := length_keyLine_le config key
        obtain rfl : back = [] := by
          refine hback.resolve_right fun hfull => ?_
          have := congrArg List.length hcut
          simp only [List.length_append, List.length_cons, List.length_nil] at this hfull
          omega
        rw [List.append_nil] at hcut
        refine ⟨⟨k, rfl, hk, hname⟩, ?_⟩
        show trim (spanNoneOf 191 [lf, cr] front) = _
        rw [← hcut, spanNoneOf_keyLine h key]

/-- What the rest of the joined text can set: something after an `=` of the line's value. -/
theorem lineSets_joined_back {front back w : List UInt8} {key' : Key}
    (hcut : keyLine config key = front ++ back) (hfront : front ≠ [])
    (hset : lineSets back = some (key', w)) :
    w.count equals < (formatValue config key).count equals := by
  rw [lineSets_eq_some, scanLine_eq_some] at hset
  obtain ⟨-, k, rest, hline, hk, -, -, -, hname, rfl⟩ := hset
  have hnul : 0 ∉ back := fun hmem =>
    keyLine_no_nul config key (hcut ▸ List.mem_append_right _ hmem)
  rw [cstr_of_no_nul hnul] at hline
  subst hline
  -- where the cut goes through the line, before or behind its first `=`
  by_cases hfirst : equals ∈ front
  · -- the line's own `=` is gone, so this one is the value's
    have hcount := congrArg (List.count equals) hcut
    rw [count_equals_keyLine, List.count_append, List.count_append, List.count_cons_self] at hcount
    have hpos := List.count_pos_iff.mpr hfirst
    have hspan := count_equals_span_le rest
    rw [count_equals_trim]
    omega
  · -- the key would be a proper end of a name
    exfalso
    have hkeyLine : keyLine config key = (key.name ++ [space])
        ++ equals :: (space :: (formatValue config key ++ [lf])) := by
      simp [keyLine]
    rw [hkeyLine, ← List.append_assoc] at hcut
    have hnameNo : equals ∉ key.name ++ [space] := by
      rw [List.mem_append, not_or]
      exact ⟨key.equals_notMem_name, by decide⟩
    have hfrontNo : equals ∉ front ++ k := by
      rw [List.mem_append, not_or]
      exact ⟨hfirst, hk⟩
    obtain ⟨hsplit, -⟩ := split_at_equals hcut hnameNo hfrontNo
    rcases List.eq_nil_or_concat k with rfl | ⟨k', d, rfl⟩
    · -- an empty key is no name
      exact key'.name_ne_nil hname
    · rw [List.concat_eq_append] at hsplit hname
      rw [← List.append_assoc] at hsplit
      obtain ⟨hfrontk, hd⟩ := List.append_inj' hsplit rfl
      obtain rfl : space = d := by simpa using hd
      have hk' : ∀ c ∈ k', isBlank c = false := fun c hc =>
        (Key.nameByte (by rw [hfrontk]; exact List.mem_append_right _ hc)).not_blank
      rw [trim_append_blanks (by decide), trim_of_trimmed (trimmed_of_forall hk')] at hname
      have hsuffix : key'.name <:+ key.name := ⟨front, by rw [hfrontk, hname]⟩
      obtain rfl := Key.eq_of_suffix hsuffix
      have hlen := congrArg List.length hfrontk
      have := List.length_pos_of_ne_nil hfront
      rw [List.length_append, ← hname] at hlen
      omega

/-- The values that the text of a joined line can set: the whole line, or what follows an `=` in
the line's value. -/
def JoinedValue (config : NodeConfig) (key : Key) (w : List UInt8) : Prop :=
  w = trim (key.name ++ (space :: equals :: space :: formatValue config key)) ∨
    w.count equals < (formatValue config key).count equals

/-- **What a line that joins an open tail can still set.** -/
theorem settings_joined (h : CleanText config) (hpiece : IsPiece lf maxPiece tail)
    (hopen : ¬ Closed lf maxPiece tail) (hnul : 0 ∉ tail) (hnone : lineSets tail = none)
    (hfits : ¬ Fits tail key) {key' : Key} {w : List UInt8}
    (hmem : (key', w) ∈ settings (tail ++ keyLine config key)) : JoinedValue config key w := by
  obtain ⟨front, back, hcut, hfront, hpieces, hrest, hback⟩ :=
    linePieces_joined h key hpiece hopen
  unfold settings at hmem
  rw [hpieces] at hmem
  obtain ⟨line, hline, hset⟩ := List.mem_filterMap.mp hmem
  rcases List.mem_cons.mp hline with rfl | hline
  · exact Or.inl (lineSets_joined_front h hpiece hnul hnone hfits hcut hback hset).2
  · rw [hrest line hline] at hset
    exact Or.inr (lineSets_joined_back hcut hfront hset)

/-- None of them is the line's own value: the number of `=` in it differs. -/
theorem JoinedValue.ne {w : List UInt8} (h : JoinedValue config key w) :
    w ≠ trim (formatValue config key) := by
  rintro rfl
  rcases h with heq | hlt
  · have hcount := congrArg (List.count equals) heq
    have hsep : [space, equals, space].count equals = 1 := by decide
    rw [count_equals_trim, count_equals_trim] at hcount
    rw [show key.name ++ (space :: equals :: space :: formatValue config key)
      = key.name ++ ([space, equals, space] ++ formatValue config key) from rfl,
      List.count_append, List.count_append, count_equals_name, hsep] at hcount
    omega
  · rw [count_equals_trim] at hlt
    omega

end

/-! ## The old files whose end does no harm -/

/-- Nothing is appended to an open tail, or the first line appended to it still sets its key. -/
def TailOk (keys : List Key) (skip : Bool) (old : List UInt8) : Prop :=
  match openTail keys skip old, missingKeys keys skip old with
  | some tail, key :: _ => Fits tail key
  | _, _ => True

instance (keys : List Key) (skip : Bool) (old : List UInt8) : Decidable (TailOk keys skip old) := by
  unfold TailOk
  split <;> infer_instance

section

variable {keys : List Key} {skip : Bool} {config : NodeConfig} {old : List UInt8}

/-- **The settings of the new file** when the old file's end does no harm: one for each line put
in place of another and one for each line appended, all with the configuration's values. -/
theorem settings_savedText_of_tailOk (hk : ManagesLines keys skip) (h : CleanText config)
    (htail : TailOk keys skip old) :
    settings (savedText keys skip config old)
      = (writtenKeys keys skip old ++ missingKeys keys skip old).map (setting config) := by
  cases hopen : openTail keys skip old with
  | none => exact settings_savedText hk h (Or.inl hopen)
  | some tail =>
    cases hmissing : missingKeys keys skip old with
    | nil =>
      rw [settings_savedText hk h (Or.inr hmissing), hmissing]
    | cons key rest =>
      have hfits : Fits tail key := by
        unfold TailOk at htail
        rwa [hopen, hmissing] at htail
      rw [settings_savedText_open hk h hopen hmissing,
        settings_joined_fits h (isPiece_of_openTail hopen) (openTail_eq_some hopen).2.2 hfits]
      simp

/-- Where the tail is not in order, an open line meets a key to be appended that does not fit
behind it. -/
theorem exists_of_not_tailOk (htail : ¬ TailOk keys skip old) :
    ∃ tail key rest, openTail keys skip old = some tail ∧ missingKeys keys skip old = key :: rest ∧
      ¬ Fits tail key := by
  unfold TailOk at htail
  cases hopen : openTail keys skip old with
  | none => simp [hopen] at htail
  | some tail =>
    cases hmissing : missingKeys keys skip old with
    | nil => simp [hopen, hmissing] at htail
    | cons key rest =>
      rw [hopen, hmissing] at htail
      exact ⟨tail, key, rest, rfl, rfl, htail⟩

/-- **Otherwise a key is lost**: only the joined text can still set it, and not to its value. -/
theorem exists_lost_of_not_tailOk (hk : ManagesLines keys skip) (htail : ¬ TailOk keys skip old) :
    ∃ key ∈ keys, ∀ config, CleanText config → ∀ w,
      (key, w) ∈ settings (savedText keys skip config old) → JoinedValue config key w := by
  obtain ⟨tail, key, rest, hopen, hmissing, hfits⟩ := exists_of_not_tailOk htail
  have hmem : key ∈ missingKeys keys skip old := by rw [hmissing]; exact List.mem_cons_self
  refine ⟨key, (List.mem_filter.mp hmem).1, fun config h w hw => ?_⟩
  rw [settings_savedText_open hk h hopen hmissing, List.mem_append, List.mem_append] at hw
  have hkeep := action_of_openTail hopen
  -- the loop's lines, the joined text, and the other appended lines
  rcases hw with (hw | hw) | hw
  · -- the rewriting loop did not write the key
    obtain ⟨key', hwritten, heq⟩ := List.mem_map.mp hw
    obtain rfl : key' = key := congrArg Prod.fst heq
    exact absurd hwritten (notMem_writtenKeys_of_missing hmem)
  · exact settings_joined h (isPiece_of_openTail hopen) (openTail_eq_some hopen).2.2
      (no_nul_of_openTail hopen) (hk.keep tail hkeep) hfits hw
  · -- it stands once in the list
    obtain ⟨key', hrest, heq⟩ := List.mem_map.mp hw
    obtain rfl : key' = key := congrArg Prod.fst heq
    have hnodup : (key' :: rest).Nodup := hmissing ▸ hk.nodup.filter _
    exact absurd hrest (List.nodup_cons.mp hnodup).1

end

end SN110
