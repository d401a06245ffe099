import SN110.Lib.Tags

/-!
# Marked-up texts with parts filled in

A text made of fixed parts and of parts that are filled in. What is filled in holds no opening
bracket and no quote, and it is put where it cannot do anything: between two tags or into a quoted
value (`FilledInPlace`). Two texts that differ in the filled parts only are then scanned in step
(`scans_alike`): they have the same tags with the same attributes, whose values differ in what is
filled in, and the same raw texts.
-/

namespace Tags

open Run

variable {α : Type*}

/-- A part of a text. -/
inductive TextPart (α : Type*) where
  | fixed (t : List α)
  | filled (t : List α)

def TextPart.text : TextPart α → List α
  | .fixed t => t
  | .filled t => t

/-- The text that the parts make up. -/
def textOf (parts : List (TextPart α)) : List α := parts.flatMap TextPart.text

/-! ## Alike -/

section

variable (R : List α → List α → Prop)

/-- Two parts: the same one, or two that are filled in. -/
inductive PartAlike : TextPart α → TextPart α → Prop where
  | fixed (t : List α) : PartAlike (.fixed t) (.fixed t)
  | filled {x y : List α} (h : R x y) : PartAlike (.filled x) (.filled y)

/-- Two texts with the same characters around what is filled in. -/
inductive TextAlike : List α → List α → Prop where
  | nil : TextAlike [] []
  | concat {t u : List α} (h : TextAlike t u) (c : α) : TextAlike (t ++ [c]) (u ++ [c])
  | filled {t u x y : List α} (h : TextAlike t u) (hxy : R x y) : TextAlike (t ++ x) (u ++ y)

/-- The same attribute, with values that are alike. -/
structure AttrAlike (a b : List α × Option (List α)) : Prop where
  key : a.1 = b.1
  value : Option.Rel (TextAlike R) a.2 b.2

/-- The same element with the same attributes. -/
structure TagAlike (a b : Tag α) : Prop where
  name : a.name = b.name
  attrs : List.Forall₂ (AttrAlike R) a.attrs b.attrs

/-- The scanner is in the same place. -/
inductive StateAlike : State α → State α → Prop where
  | text : StateAlike .text .text
  | raw : StateAlike .raw .raw
  | rawLt : StateAlike .rawLt .rawLt
  | name (acc : List α) : StateAlike (.name acc) (.name acc)
  | attrs {a b : Tag α} (h : TagAlike R a b) : StateAlike (.attrs a) (.attrs b)
  | attr {a b : Tag α} (h : TagAlike R a b) (key : List α) :
      StateAlike (.attr a key) (.attr b key)
  | value {a b : Tag α} (h : TagAlike R a b) (key : List α) :
      StateAlike (.value a key) (.value b key)
  | quoted {a b : Tag α} (h : TagAlike R a b) (key : List α) {acc acc' : List α}
      (hacc : TextAlike R acc acc') : StateAlike (.quoted a key acc) (.quoted b key acc')

variable {R}

/-- Tags alike stay so with one more attribute whose values are alike. -/
theorem TagAlike.add {a b : Tag α} (h : TagAlike R a b) (key : List α) {v w : Option (List α)}
    (hvalue : Option.Rel (TextAlike R) v w) : TagAlike R (a.add key v) (b.add key w) where
  name := h.name
  attrs := List.rel_append h.attrs (List.Forall₂.cons ⟨rfl, hvalue⟩ List.Forall₂.nil)

/-- Tags of one name without attributes are alike. -/
theorem tagAlike_of_name (acc : List α) : TagAlike R ⟨acc, []⟩ ⟨acc, []⟩ where
  name := rfl
  attrs := List.Forall₂.nil

end

/-! ## In step -/

variable [DecidableEq α]

/-- The characters of raw text. -/
def rawText (d : Delimiters α) : State α → List α → List α
  | _, [] => []
  | .raw, c :: t => c :: rawText d (step d .raw c).1 t
  | .rawLt, c :: t => c :: rawText d (step d .rawLt c).1 t
  | s, c :: t => rawText d (step d s c).1 t

/-- Where something may be filled in. -/
def Fillable : State α → Prop
  | .text => True
  | .quoted _ _ _ => True
  | _ => False

/-- Everything that is filled in comes where it may. -/
def FilledInPlace (d : Delimiters α) : State α → List (TextPart α) → Prop
  | _, [] => True
  | s, .fixed t :: parts => FilledInPlace d (finalState (step d) s t) parts
  | s, .filled t :: parts => Fillable s ∧ FilledInPlace d (finalState (step d) s t) parts

/-- Two runs of the scanner end alike and have shown alike tags and the same raw text. -/
structure ScansAlike (R : List α → List α → Prop) (d : Delimiters α) (s s' : State α)
    (t t' : List α) : Prop where
  state : StateAlike R (finalState (step d) s t) (finalState (step d) s' t')
  tags : List.Forall₂ (TagAlike R) (trace (step d) s t) (trace (step d) s' t')
  raw : rawText d s t = rawText d s' t'

variable {R : List α → List α → Prop} {d : Delimiters α}

/-- Finishing tags that are alike gives tags and states that are alike. -/
theorem finish_alike {a b : Tag α} (h : TagAlike R a b) :
    StateAlike R (finish d a).1 (finish d b).1 ∧
      List.Forall₂ (TagAlike R) (finish d a).2 (finish d b).2 := by
  unfold finish
  rw [h.name]
  refine ⟨?_, List.Forall₂.cons h List.Forall₂.nil⟩
  show StateAlike R (if b.name ∈ d.raw then _ else _) (if b.name ∈ d.raw then _ else _)
  split_ifs
  · exact StateAlike.raw
  · exact StateAlike.text

/-- **The same character** takes the scanner to the same place. -/
theorem step_alike {s s' : State α} (h : StateAlike R s s') (c : α) :
    StateAlike R (step d s c).1 (step d s' c).1 ∧
      List.Forall₂ (TagAlike R) (step d s c).2 (step d s' c).2 := by
  cases h with
  -- both are in states of one kind, so the same character leads both to one kind again
  | text =>
    refine ⟨?_, List.Forall₂.nil⟩
    show StateAlike R (if c = d.lt then _ else _) (if c = d.lt then _ else _)
    split_ifs
    · exact StateAlike.name []
    · exact StateAlike.text
  | raw =>
    refine ⟨?_, List.Forall₂.nil⟩
    show StateAlike R (if c = d.lt then _ else _) (if c = d.lt then _ else _)
    split_ifs
    · exact StateAlike.rawLt
    · exact StateAlike.raw
  | rawLt =>
    refine ⟨?_, List.Forall₂.nil⟩
    show StateAlike R (if c = d.slash then _ else if c = d.lt then _ else _)
      (if c = d.slash then _ else if c = d.lt then _ else _)
    split_ifs
    · exact StateAlike.name [c]
    · exact StateAlike.rawLt
    · exact StateAlike.raw
  | name acc =>
    simp only [step]
    split_ifs
    · exact finish_alike (tagAlike_of_name acc)
    · exact ⟨StateAlike.attrs (tagAlike_of_name acc), List.Forall₂.nil⟩
    · exact ⟨StateAlike.name _, List.Forall₂.nil⟩
  | attrs h =>
    simp only [step]
    split_ifs
    · exact finish_alike h
    · exact ⟨StateAlike.attrs h, List.Forall₂.nil⟩
    · exact ⟨StateAlike.attr h _, List.Forall₂.nil⟩
  | attr h key =>
    simp only [step]
    split_ifs
    · exact finish_alike (h.add key Option.Rel.none)
    · exact ⟨StateAlike.attrs (h.add key Option.Rel.none), List.Forall₂.nil⟩
    · exact ⟨StateAlike.value h key, List.Forall₂.nil⟩
    · exact ⟨StateAlike.attr h _, List.Forall₂.nil⟩
  | value h key =>
    refine ⟨?_, List.Forall₂.nil⟩
    show StateAlike R (if c = d.quote then _ else _) (if c = d.quote then _ else _)
    split_ifs
    · exact StateAlike.quoted h key TextAlike.nil
    · exact StateAlike.value h key
  | quoted h key hacc =>
    refine ⟨?_, List.Forall₂.nil⟩
    show StateAlike R (if c = d.quote then _ else _) (if c = d.quote then _ else _)
    split_ifs
    · exact StateAlike.attrs (h.add key (Option.Rel.some hacc))
    · exact StateAlike.quoted h key (hacc.concat c)

/-- The raw text of two stretches is that of the first and then of the second. -/
theorem rawText_append (s : State α) (t u : List α) :
    rawText d s (t ++ u) = rawText d s t ++ rawText d (finalState (step d) s t) u := by
  induction t generalizing s with
  | nil => rfl
  | cons c t ih => cases s <;> exact (by simp only [List.cons_append, rawText, ih, finalState_cons])

/-- Stretches that scan alike do so one after the other. -/
theorem ScansAlike.append {s s' : State α} {t t' u u' : List α} (h : ScansAlike R d s s' t t')
    (h' : ScansAlike R d (finalState (step d) s t) (finalState (step d) s' t') u u') :
    ScansAlike R d s s' (t ++ u) (t' ++ u') where
  state := by
    rw [finalState_append, finalState_append]
    exact h'.state
  tags := by
    rw [trace_append, trace_append]
    exact List.rel_append h.tags h'.tags
  raw := by rw [rawText_append, rawText_append, h.raw, h'.raw]

/-- A fixed text. -/
theorem scansAlike_fixed {s s' : State α} (h : StateAlike R s s') (t : List α) :
    ScansAlike R d s s' t t := by
  induction t generalizing s s' with
  | nil => exact ⟨h, List.Forall₂.nil, rfl⟩
  | cons c t ih =>
    have hstep := @step_alike _ _ R d _ _ h c
    have hrest := ih hstep.1
    refine ⟨hrest.state, List.rel_append hstep.2 hrest.tags, ?_⟩
    cases h <;> first
      | exact congrArg (List.cons c) hrest.raw
      | exact hrest.raw

/-! ## What is filled in -/

/-- A text that can do nothing where it is filled in. -/
def Inert (d : Delimiters α) (t : List α) : Prop := d.lt ∉ t ∧ d.quote ∉ t

/-- Text without `<` is none of a raw element. -/
theorem rawText_plain {t : List α} (h : d.lt ∉ t) : rawText d .text t = [] := by
  induction t with
  | nil => rfl
  | cons c t ih =>
    rw [List.mem_cons, not_or] at h
    have hstep : step d .text c = (.text, []) := by simp [step, Ne.symm h.1]
    show rawText d (step d .text c).1 t = []
    rw [hstep]
    exact ih h.2

/-- Nor is a quoted value. -/
theorem rawText_quoted {t : List α} (h : d.quote ∉ t) (tag : Tag α) (key acc : List α) :
    rawText d (.quoted tag key acc) t = [] := by
  induction t generalizing acc with
  | nil => rfl
  | cons c t ih =>
    rw [List.mem_cons, not_or] at h
    have hstep : step d (.quoted tag key acc) c = (.quoted tag key (acc ++ [c]), []) := by
      simp [step, Ne.symm h.1]
    show rawText d (step d (.quoted tag key acc) c).1 t = []
    rw [hstep]
    exact ih h.2 _

/-- Two texts that are filled in at the same place. -/
theorem scansAlike_filled {s s' : State α} (h : StateAlike R s s') (hs : Fillable s)
    {x y : List α} (hxy : R x y) (hx : Inert d x) (hy : Inert d y) :
    ScansAlike R d s s' x y := by
  cases h with
  | text =>
    have hscan := scans_plain hx.1
    have hscan' := scans_plain hy.1
    refine ⟨?_, ?_, ?_⟩
    · rw [hscan.state, hscan'.state]
      exact StateAlike.text
    · rw [hscan.tags, hscan'.tags]
      exact List.Forall₂.nil
    · rw [rawText_plain hx.1, rawText_plain hy.1]
  | @quoted a b h key acc acc' hacc =>
    have hscan := scans_quoted hx.2 a key acc
    have hscan' := scans_quoted hy.2 b key acc'
    refine ⟨?_, ?_, ?_⟩
    · rw [hscan.state, hscan'.state]
      exact StateAlike.quoted h key (hacc.filled hxy)
    · rw [hscan.tags, hscan'.tags]
      exact List.Forall₂.nil
    · rw [rawText_quoted hx.2, rawText_quoted hy.2]
  -- a text is filled in only between tags or inside a quoted value
  | raw => exact absurd hs id
  | rawLt => exact absurd hs id
  | name acc => exact absurd hs id
  | attrs _ => exact absurd hs id
  | attr _ _ => exact absurd hs id
  | value _ _ => exact absurd hs id

/-- Parts are in place when the first are, and the others from where these end. -/
theorem filledInPlace_append {s : State α} {parts parts' : List (TextPart α)} :
    FilledInPlace d s (parts ++ parts') ↔
      FilledInPlace d s parts ∧ FilledInPlace d (finalState (step d) s (textOf parts)) parts' := by
  induction parts generalizing s with
  | nil => exact (iff_of_eq (true_and _)).symm
  | cons part parts ih =>
    have hstate : finalState (step d) s (textOf (part :: parts))
        = finalState (step d) (finalState (step d) s part.text) (textOf parts) := by
      unfold textOf
      rw [List.flatMap_cons, finalState_append]
    rw [hstate]
    -- only a filled part is asked where it stands
    cases part with
    | fixed t => exact ih
    | filled t => exact (and_congr_right' ih).trans and_assoc.symm

/-- **The same fixed parts around what is filled in place** are scanned in step. -/
theorem scans_alike {parts parts' : List (TextPart α)}
    (h : List.Forall₂ (PartAlike R) parts parts')
    (hR : ∀ x y, R x y → Inert d x ∧ Inert d y) {s s' : State α} (hs : StateAlike R s s')
    (hplace : FilledInPlace d s parts) : ScansAlike R d s s' (textOf parts) (textOf parts') := by
  induction h generalizing s s' with
  | nil => exact ⟨hs, List.Forall₂.nil, rfl⟩
  | cons hpart _ ih =>
    cases hpart with
    | fixed t =>
      have hfixed := @scansAlike_fixed _ _ R d _ _ hs t
      exact hfixed.append (ih hfixed.state hplace)
    | filled hxy =>
      have hfilled := scansAlike_filled hs hplace.1 hxy (hR _ _ hxy).1 (hR _ _ hxy).2
      exact hfilled.append (ih hfilled.state hplace.2)

end Tags
