import SN110.Lib.Run

/-!
# The tags of a marked-up text

A scanner for texts with tags in angle brackets, as a machine that takes a character at a time and
puts out the tags. An attribute has a quoted value or none. What stands between the tags of certain
elements is raw text, in which only an end tag is looked for.

* `Scans d s t s' tags`: the text takes the scanner from one state to the other and shows it those
  tags. Texts are put together by `Scans.append`.
* `scans_plain`: a text without an opening bracket.
* `scans_render`: a tag that is written out is read back.
-/

namespace Tags

open Run

variable {α : Type*}

/-- A tag with its attributes. -/
structure Tag (α : Type*) where
  name : List α
  attrs : List (List α × Option (List α))
deriving DecidableEq

/-- The tag with one more attribute. -/
def Tag.add (tag : Tag α) (key : List α) (value : Option (List α)) : Tag α :=
  { tag with attrs := tag.attrs ++ [(key, value)] }

/-- The characters that delimit tags and attributes, and the elements with raw text in them. -/
structure Delimiters (α : Type*) where
  lt : α
  gt : α
  slash : α
  blank : α
  eq : α
  quote : α
  raw : List (List α)
  blank_ne_gt : blank ≠ gt
  eq_ne_gt : eq ≠ gt
  eq_ne_blank : eq ≠ blank

/-- Where in the text the scanner is. -/
inductive State (α : Type*) where
  | text
  | raw
  | rawLt
  | name (acc : List α)
  | attrs (tag : Tag α)
  | attr (tag : Tag α) (key : List α)
  | value (tag : Tag α) (key : List α)
  | quoted (tag : Tag α) (key acc : List α)
deriving DecidableEq

variable [DecidableEq α] (d : Delimiters α)

/-- What a closing bracket does. -/
def finish (tag : Tag α) : State α × List (Tag α) :=
  (if tag.name ∈ d.raw then .raw else .text, [tag])

def step : State α → α → State α × List (Tag α)
  | .text, c => (if c = d.lt then .name [] else .text, [])
  | .raw, c => (if c = d.lt then .rawLt else .raw, [])
  | .rawLt, c => (if c = d.slash then .name [c] else if c = d.lt then .rawLt else .raw, [])
  | .name acc, c =>
    if c = d.gt then finish d ⟨acc, []⟩
    else (if c = d.blank then .attrs ⟨acc, []⟩ else .name (acc ++ [c]), [])
  | .attrs tag, c =>
    if c = d.gt then finish d tag
    else (if c = d.blank then .attrs tag else .attr tag [c], [])
  | .attr tag key, c =>
    if c = d.gt then finish d (tag.add key none)
    else if c = d.blank then (.attrs (tag.add key none), [])
    else (if c = d.eq then .value tag key else .attr tag (key ++ [c]), [])
  | .value tag key, c => (if c = d.quote then .quoted tag key [] else .value tag key, [])
  | .quoted tag key acc, c =>
    (if c = d.quote then .attrs (tag.add key (some acc)) else .quoted tag key (acc ++ [c]), [])

/-- The tags of a text. -/
def scan (t : List α) : List (Tag α) := trace (step d) .text t

/-- The text takes the scanner from one state to the other and shows it these tags. -/
structure Scans (s : State α) (t : List α) (s' : State α) (tags : List (Tag α)) : Prop where
  state : finalState (step d) s t = s'
  tags : trace (step d) s t = tags

instance (s : State α) (t : List α) (s' : State α) (tags : List (Tag α)) :
    Decidable (Scans d s t s' tags) :=
  decidable_of_iff (finalState (step d) s t = s' ∧ trace (step d) s t = tags)
    ⟨fun h => ⟨h.1, h.2⟩, fun h => ⟨h.state, h.tags⟩⟩

variable {d}

theorem Scans.nil (s : State α) : Scans d s [] s [] := ⟨rfl, rfl⟩

theorem Scans.append {s s' s'' : State α} {t u : List α} {tags tags' : List (Tag α)}
    (h : Scans d s t s' tags) (h' : Scans d s' u s'' tags') :
    Scans d s (t ++ u) s'' (tags ++ tags') where
  state := by rw [finalState_append, h.state, h'.state]
  tags := by rw [trace_append, h.state, h.tags, h'.tags]

/-- A scan goes on from where its first character leads. -/
theorem Scans.cons {s s' s'' : State α} {c : α} {t : List α} {tags tags' : List (Tag α)}
    (h : step d s c = (s', tags)) (h' : Scans d s' t s'' tags') :
    Scans d s (c :: t) s'' (tags ++ tags') := by
  have hone : Scans d s [c] s' tags := by
    constructor
    · rw [finalState_cons, h]
      rfl
    · rw [trace_cons, h]
      exact List.append_nil _
  exact hone.append h'

theorem Scans.scan {t : List α} {s : State α} {tags : List (Tag α)} (h : Scans d .text t s tags) :
    scan d t = tags := h.tags

/-! ## Texts without tags -/

/-- Every character leaves the scanner where it is. -/
theorem scans_of_stays {s : State α} {t : List α} (h : ∀ c ∈ t, step d s c = (s, [])) :
    Scans d s t s [] := by
  induction t with
  | nil => exact Scans.nil s
  | cons c t ih =>
    rw [List.forall_mem_cons] at h
    exact Scans.cons h.1 (ih h.2)

/-- Text without `<` stays outside a tag. -/
theorem scans_plain {t : List α} (h : d.lt ∉ t) : Scans d .text t .text [] :=
  scans_of_stays fun c hc => by
    show (if c = d.lt then _ else _, _) = _
    rw [if_neg (ne_of_mem_of_not_mem hc h)]

/-! ## Writing tags out -/

variable (d)

/-- An attribute with a blank before it. -/
def renderAttr (attr : List α × Option (List α)) : List α :=
  match attr.2 with
  | none => d.blank :: attr.1
  | some v => d.blank :: (attr.1 ++ d.eq :: d.quote :: (v ++ [d.quote]))

def Tag.render (tag : Tag α) : List α :=
  d.lt :: (tag.name ++ tag.attrs.flatMap (renderAttr d) ++ [d.gt])

/-- The attribute's name and value hold no delimiter of their own. -/
structure CleanAttr (attr : List α × Option (List α)) : Prop where
  ne_nil : attr.1 ≠ []
  key : ∀ c ∈ attr.1, c ≠ d.gt ∧ c ≠ d.blank ∧ c ≠ d.eq
  value : ∀ v ∈ attr.2, d.quote ∉ v

structure CleanTag (tag : Tag α) : Prop where
  name : ∀ c ∈ tag.name, c ≠ d.gt ∧ c ≠ d.blank
  attrs : ∀ attr ∈ tag.attrs, CleanAttr d attr

/-- The scanner is at the end of an attribute, or of the name: a blank leads to the next attribute
and a closing bracket ends the tag. -/
structure Settled (s : State α) (tag : Tag α) : Prop where
  blank : step d s d.blank = (.attrs tag, [])
  gt : step d s d.gt = finish d tag

variable {d}

/-- A name that ends makes a tag without attributes. -/
theorem settled_name (acc : List α) : Settled d (.name acc) ⟨acc, []⟩ where
  blank := by simp [step, d.blank_ne_gt]
  gt := by simp [step]

/-- An attribute that ends without a value is added without one. -/
theorem settled_attr (tag : Tag α) (key : List α) :
    Settled d (.attr tag key) (tag.add key none) where
  blank := by simp [step, d.blank_ne_gt]
  gt := by simp [step]

/-- Between attributes nothing is to be added. -/
theorem settled_attrs (tag : Tag α) : Settled d (.attrs tag) tag where
  blank := by simp [step, d.blank_ne_gt]
  gt := by simp [step]

/-- Where every character of a text is added to what the state collects, the whole text is. -/
theorem scans_collect {collects : List α → State α} {t : List α}
    (h : ∀ acc, ∀ c ∈ t, step d (collects acc) c = (collects (acc ++ [c]), [])) (acc : List α) :
    Scans d (collects acc) t (collects (acc ++ t)) [] := by
  induction t generalizing acc with
  | nil =>
    rw [List.append_nil]
    exact Scans.nil _
  | cons c t ih =>
    have hrest := ih (fun acc c hc => h acc c (List.mem_cons_of_mem _ hc)) (acc ++ [c])
    rw [List.append_assoc] at hrest
    exact Scans.cons (h acc c List.mem_cons_self) hrest

/-- The characters of a name are added to it. -/
theorem scans_name {n : List α} (h : ∀ c ∈ n, c ≠ d.gt ∧ c ≠ d.blank) (acc : List α) :
    Scans d (.name acc) n (.name (acc ++ n)) [] :=
  scans_collect (fun acc c hc => by simp [step, (h c hc).1, (h c hc).2]) acc

/-- The characters of an attribute's name are added to it. -/
theorem scans_key {k : List α} (h : ∀ c ∈ k, c ≠ d.gt ∧ c ≠ d.blank ∧ c ≠ d.eq) (tag : Tag α)
    (acc : List α) : Scans d (.attr tag acc) k (.attr tag (acc ++ k)) [] := by
  refine scans_collect (fun acc c hc => ?_) acc
  obtain ⟨hgt, hblank, heq⟩ := h c hc
  simp [step, hgt, hblank, heq]

/-- The characters of a quoted value are added to it. -/
theorem scans_quoted {v : List α} (h : d.quote ∉ v) (tag : Tag α) (key acc : List α) :
    Scans d (.quoted tag key acc) v (.quoted tag key (acc ++ v)) [] := by
  refine scans_collect (fun acc c hc => ?_) acc
  have hquote : c ≠ d.quote := ne_of_mem_of_not_mem hc h
  simp [step, hquote]

/-- **One attribute** is read. -/
theorem scans_renderAttr {s : State α} {tag : Tag α} (hs : Settled d s tag)
    {attr : List α × Option (List α)} (h : CleanAttr d attr) :
    ∃ s', Scans d s (renderAttr d attr) s' [] ∧ Settled d s' (tag.add attr.1 attr.2) := by
  obtain ⟨key, value⟩ := attr
  obtain ⟨hne, hkey, hvalue⟩ := h
  obtain ⟨c, k, rfl⟩ := List.exists_cons_of_ne_nil hne
  rw [List.forall_mem_cons] at hkey
  obtain ⟨⟨hgt, hblank, heq⟩, hk⟩ := hkey
  -- the blank, and the first character of the name
  have hfirst : step d (.attrs tag) c = (.attr tag [c], []) := by simp [step, hgt, hblank]
  have hname : Scans d (.attrs tag) (c :: k) (.attr tag (c :: k)) [] :=
    Scans.cons hfirst (scans_key hk tag [c])
  cases value with
  | none =>
    show ∃ s', Scans d s (d.blank :: (c :: k)) s' [] ∧ _
    exact ⟨_, Scans.cons hs.blank hname, settled_attr tag (c :: k)⟩
  | some v =>
    show ∃ s', Scans d s (d.blank :: ((c :: k) ++ d.eq :: d.quote :: (v ++ [d.quote]))) s' [] ∧ _
    refine ⟨_, ?_, settled_attrs _⟩
    have hopen : step d (.attr tag (c :: k)) d.eq = (.value tag (c :: k), []) := by
      simp [step, d.eq_ne_gt, d.eq_ne_blank]
    have hquote : step d (.value tag (c :: k)) d.quote = (.quoted tag (c :: k) [], []) := by
      simp [step]
    have hclose : step d (.quoted tag (c :: k) v) d.quote
        = (.attrs (tag.add (c :: k) (some v)), []) := by
      simp [step]
    have hquoted := scans_quoted (hvalue v rfl) tag (c :: k) []
    exact Scans.cons hs.blank (hname.append (Scans.cons hopen (Scans.cons hquote
      (hquoted.append (Scans.cons hclose (Scans.nil _))))))

/-- Written attributes are read back one by one. -/
theorem scans_renderAttrs {s : State α} {tag : Tag α} (hs : Settled d s tag)
    {attrs : List (List α × Option (List α))} (h : ∀ attr ∈ attrs, CleanAttr d attr) :
    ∃ s', Scans d s (attrs.flatMap (renderAttr d)) s' [] ∧
      Settled d s' { tag with attrs := tag.attrs ++ attrs } := by
  induction attrs generalizing s tag with
  | nil =>
    refine ⟨s, Scans.nil s, ?_⟩
    rw [List.append_nil]
    exact hs
  | cons attr attrs ih =>
    rw [List.forall_mem_cons] at h
    obtain ⟨s', hscan, hs'⟩ := scans_renderAttr hs h.1
    obtain ⟨s'', hscan', hs''⟩ := ih hs' h.2
    refine ⟨s'', ?_, ?_⟩
    · rw [List.flatMap_cons]
      exact hscan.append hscan'
    · simpa [Tag.add] using hs''

/-- **A tag is read as it was written.** -/
theorem scans_render {tag : Tag α} (h : CleanTag d tag) :
    Scans d .text (tag.render d) (finish d tag).1 [tag] := by
  have hopen : step d .text d.lt = (.name [], []) := by simp [step]
  obtain ⟨s, hattrs, hs⟩ := scans_renderAttrs (settled_name tag.name) h.attrs
  exact Scans.cons hopen (((scans_name h.name []).append hattrs).append
    (Scans.cons hs.gt (Scans.nil _)))

end Tags
