import SN110.Cgi.Controls
import SN110.Lib.Templates

/-!
# User texts on the settings page (`html_escape`)

The hostname and the port labels are the texts of the page that a user can choose. Escaped, they
hold nothing that ends a tag or a value (`escapesText`), and each of them is written between two
tags or into a quoted value (`filledInPlace_emitHtmlForm`). So two pages whose configurations have
other texts only are scanned in step (`sameMarkup`).
-/

namespace SN110

open Run Tags

/-! ## Escaping -/

/-- What an escaped text has to be like. -/
structure EscapesText (s : List UInt8) : Prop where
  no_delimiter : ∀ x ∈ ascii "<>\"'", x ∉ htmlEscape s
  /-- A `&` starts one of the five entities. -/
  ampersand : ∀ before after, htmlEscape s = before ++ 38 :: after →
    ∃ entity ∈ entities, entity.1 <+: 38 :: after
  decoded : htmlUnescape (htmlEscape s) = s

/-- A byte is written as its entity, or as it is. -/
theorem htmlEscapeByte_cases (c : UInt8) :
    (∃ entity ∈ entities, htmlEscapeByte c = entity.1) ∨ htmlEscapeByte c = [c] ∧ c ≠ 38 := by
  unfold htmlEscapeByte
  split_ifs with hamp
  · exact Or.inl ⟨(ascii "&amp;", 38), by decide, rfl⟩
  · exact Or.inl ⟨(ascii "&lt;", 60), by decide, rfl⟩
  · exact Or.inl ⟨(ascii "&gt;", 62), by decide, rfl⟩
  · exact Or.inl ⟨(ascii "&quot;", 34), by decide, rfl⟩
  · exact Or.inl ⟨(ascii "&#39;", 39), by decide, rfl⟩
  · exact Or.inr ⟨rfl, hamp⟩

/-- The byte's part of an escaped text holds a `&` at its start only, and then it is an entity. -/
theorem isEntity_of_htmlEscapeByte {c : UInt8} {before after : List UInt8}
    (h : htmlEscapeByte c = before ++ 38 :: after) :
    before = [] ∧ ∃ entity ∈ entities, entity.1 = 38 :: after := by
  cases htmlEscapeByte_cases c with
  | inl hentity =>
    obtain ⟨entity, hmem, heq⟩ := hentity
    -- an entity has its `&` in front and nowhere else
    have htail : ∀ entity ∈ entities, 38 ∉ entity.1.tail := by decide
    rw [heq] at h
    cases before with
    | nil => exact ⟨rfl, entity, hmem, h⟩
    | cons b before =>
      refine absurd ?_ (htail entity hmem)
      rw [h]
      simp
  | inr hplain =>
    obtain ⟨heq, hne⟩ := hplain
    rw [heq] at h
    have hmem : (38 : UInt8) ∈ [c] := by
      rw [h]
      simp
    exact absurd (List.mem_singleton.mp hmem).symm hne

/-- An `&` in an escaped text begins one of the entities. -/
theorem exists_entity_of_htmlEscape {s before after : List UInt8}
    (h : htmlEscape s = before ++ 38 :: after) :
    ∃ entity ∈ entities, entity.1 <+: 38 :: after := by
  induction s generalizing before with
  | nil =>
    cases before <;> cases h
  | cons c s ih =>
    have hcons : htmlEscapeByte c ++ htmlEscape s = before ++ 38 :: after := h
    -- the `&` is in what is written for this byte, or behind it
    cases List.append_eq_append_iff.mp hcons with
    | inl hbehind =>
      obtain ⟨before', -, hrest⟩ := hbehind
      exact ih hrest
    | inr hin =>
      obtain ⟨part, hbyte, hrest⟩ := hin
      cases part with
      | nil => exact @ih [] hrest.symm
      | cons b part =>
        obtain ⟨rfl, rfl⟩ := List.cons.inj hrest
        obtain ⟨-, entity, hmem, heq⟩ := isEntity_of_htmlEscapeByte hbyte
        exact ⟨entity, hmem, heq ▸ List.prefix_append _ _⟩

/-- `html_escape` leaves no delimiter and no bare `&`, whatever the text. -/
theorem escapesText (s : List UInt8) : EscapesText s where
  no_delimiter x hx := by
    have hall : ∀ x ∈ ascii "<>\"'", x = 60 ∨ x = 62 ∨ x = 34 ∨ x = 39 := by decide
    exact notMem_htmlEscape (hall x hx) s
  ampersand _ _ h := exists_entity_of_htmlEscape h
  decoded := htmlUnescape_htmlEscape s

/-! ## Pages with other texts -/

/-- The texts of a configuration. -/
inductive UserText where
  | hostname
  | label (port : Port)

def UserText.text (cfg : NodeConfig) : UserText → List UInt8
  | .hostname => cfg.hostname.text
  | .label i => (cfg.ports i).label.text

/-- The configuration with other texts. -/
def withTexts (cfg : NodeConfig) (hostname : CString 16) (labels : Port → CString 9) : NodeConfig :=
  { cfg with hostname := hostname, ports := fun i => { cfg.ports i with label := labels i } }

/-- The same call of `printf`, or `html_escape` of the same text of the two configurations. -/
inductive SameCall (a b : NodeConfig) : Fragment → Fragment → Prop where
  | printf (text : List UInt8) : SameCall a b (.printf text) (.printf text)
  | htmlEscape (t : UserText) : SameCall a b (.htmlEscape (t.text a)) (.htmlEscape (t.text b))

/-- Both are the same text of the two configurations, escaped. -/
def EscapedTexts (a b : NodeConfig) (x y : List UInt8) : Prop :=
  ∃ t : UserText, x = htmlEscape (t.text a) ∧ y = htmlEscape (t.text b)

/-- The pages of two configurations differ in the escaped texts only, and have the same tags with
the same attributes, the same style and the same script. -/
structure SameMarkup (a b : NodeConfig) : Prop where
  calls : List.Forall₂ (SameCall a b) (emitHtmlForm a) (emitHtmlForm b)
  tags : List.Forall₂ (TagAlike (EscapedTexts a b)) (scan html (pageBytes (emitHtmlForm a)))
    (scan html (pageBytes (emitHtmlForm b)))
  raw : rawText html .text (pageBytes (emitHtmlForm a))
    = rawText html .text (pageBytes (emitHtmlForm b))

section

variable (cfg : NodeConfig) (hostname : CString 16) (labels : Port → CString 9)

/-- Fixed texts are the same calls on both pages. -/
theorem sameCall_printfs {a b : NodeConfig} (texts : List (List UInt8)) :
    List.Forall₂ (SameCall a b) (texts.map .printf) (texts.map .printf) := by
  induction texts with
  | nil => exact List.Forall₂.nil
  | cons text texts ih => exact List.Forall₂.cons (SameCall.printf text) ih

/-- A text row differs in its escaped value only. -/
theorem sameCall_textRow {a b : NodeConfig} (label name maxlength : List UInt8) (t : UserText) :
    List.Forall₂ (SameCall a b) (textRow label name (t.text a) maxlength)
      (textRow label name (t.text b) maxlength) :=
  List.Forall₂.cons (SameCall.printf _) (List.Forall₂.cons (SameCall.htmlEscape t)
    (List.Forall₂.cons (SameCall.printf _) List.Forall₂.nil))

/-- One fixed text is the same call on both pages. -/
theorem sameCall_printf {a b : NodeConfig} (text : List UInt8) :
    List.Forall₂ (SameCall a b) [.printf text] [.printf text] := sameCall_printfs [text]

/-- The two page heads differ in the escaped hostname only. -/
theorem sameCall_pageHead :
    List.Forall₂ (SameCall cfg (withTexts cfg hostname labels)) (pageHead cfg)
      (pageHead (withTexts cfg hostname labels)) := by
  have hhost : SameCall cfg (withTexts cfg hostname labels) (.htmlEscape cfg.hostname.text)
      (.htmlEscape hostname.text) := SameCall.htmlEscape .hostname
  have htitle : List.Forall₂ (SameCall cfg (withTexts cfg hostname labels))
      [.printf (ascii "<!DOCTYPE html>\n<html><head><title>"), .htmlEscape cfg.hostname.text,
        .printf (ascii " Configuration</title>\n")]
      [.printf (ascii "<!DOCTYPE html>\n<html><head><title>"), .htmlEscape hostname.text,
        .printf (ascii " Configuration</title>\n")] :=
    List.Forall₂.cons (SameCall.printf _) (List.Forall₂.cons hhost (sameCall_printf _))
  refine List.rel_append (List.rel_append htitle (sameCall_printfs _)) ?_
  exact List.Forall₂.cons (SameCall.printf _) (List.Forall₂.cons (SameCall.printf _)
    (List.Forall₂.cons (SameCall.printf _) (List.Forall₂.cons hhost (sameCall_printfs
      [ascii "</h1>\n", ascii "<span class=\"mac\">MAC " ++ colonHex cfg.mac ++ ascii "</span>\n",
        ascii "</div>\n"]))))

/-- The two network parts differ in the escaped hostname only. -/
theorem sameCall_networkFieldset :
    List.Forall₂ (SameCall cfg (withTexts cfg hostname labels)) (networkFieldset cfg)
      (networkFieldset (withTexts cfg hostname labels)) :=
  List.rel_append (List.rel_append (List.rel_append (List.rel_append (List.rel_append
    (List.rel_append (List.rel_append (sameCall_printf _) (sameCall_textRow _ _ _ .hostname))
      (sameCall_printf _)) (sameCall_printf _)) (sameCall_printf _)) (sameCall_printf _))
        (sameCall_printf _)) (sameCall_printf _)

/-- The protocol part has none of the texts in it. -/
theorem sameCall_protocolFieldset {a : NodeConfig} :
    List.Forall₂ (SameCall a (withTexts cfg hostname labels)) (protocolFieldset cfg)
      (protocolFieldset (withTexts cfg hostname labels)) :=
  List.rel_append (List.rel_append (List.rel_append (sameCall_printf _) (sameCall_printf _))
    (sameCall_printf _)) (sameCall_printf _)

/-- A port's part differs in the escaped label only. -/
theorem sameCall_portFieldset (i : Port) :
    List.Forall₂ (SameCall cfg (withTexts cfg hostname labels)) (portFieldset cfg i)
      (portFieldset (withTexts cfg hostname labels) i) :=
  List.rel_append (List.rel_append (List.rel_append (List.rel_append (List.rel_append
    (sameCall_printf _) (sameCall_printf _)) (sameCall_printf _))
      (sameCall_textRow _ _ _ (.label i))) (sameCall_printf _))
        (List.Forall₂.cons (SameCall.printf _) (sameCall_printf _))

/-- The display part has none of the texts in it. -/
theorem sameCall_lcdFieldset {a : NodeConfig} :
    List.Forall₂ (SameCall a (withTexts cfg hostname labels)) (lcdFieldset cfg)
      (lcdFieldset (withTexts cfg hostname labels)) :=
  List.rel_append (List.rel_append (List.rel_append (sameCall_printf _) (sameCall_printf _))
    (sameCall_printf _)) (sameCall_printf _)

/-- **The calls of the two pages** are the same but for the escaped texts. -/
theorem sameCall_emitHtmlForm :
    List.Forall₂ (SameCall cfg (withTexts cfg hostname labels)) (emitHtmlForm cfg)
      (emitHtmlForm (withTexts cfg hostname labels)) := by
  have hform := List.rel_append (sameCall_pageHead cfg hostname labels)
    (sameCall_printf (ascii "<form method=\"POST\" action=\"/cgi-bin/cfgpost.cgi\">\n"))
  have hfields := List.rel_append (List.rel_append (List.rel_append (List.rel_append
    (List.rel_append hform (sameCall_networkFieldset cfg hostname labels))
      (sameCall_protocolFieldset cfg hostname labels))
        (sameCall_portFieldset cfg hostname labels 0))
          (sameCall_portFieldset cfg hostname labels 1)) (sameCall_lcdFieldset cfg hostname labels)
  have hend := List.rel_append hfields (@sameCall_printfs cfg (withTexts cfg hostname labels)
    [ascii "<input type=\"submit\" value=\"Save Configuration\">\n", ascii "</form>\n"])
  exact List.rel_append (List.rel_append hend (sameCall_printfs _)) (sameCall_printf _)

end

/-! ## Where the texts are written -/

/-- What a call writes, as a part of the page. -/
def Fragment.part : Fragment → TextPart UInt8
  | .printf text => .fixed text
  | .htmlEscape s => .filled (SN110.htmlEscape s)

/-- The parts of a page make up its bytes. -/
theorem textOf_part (page : List Fragment) : textOf (page.map Fragment.part) = pageBytes page := by
  unfold textOf pageBytes
  rw [List.flatMap_map]
  exact List.flatMap_congr fun call _ => by cases call <;> rfl

/-- Escaped texts come where they may, and behind the calls the page is between two tags. -/
structure Placed (page : List Fragment) : Prop where
  inPlace : FilledInPlace html .text (page.map Fragment.part)
  state : finalState (step html) .text (pageBytes page) = .text

/-- Two stretches of a page are in place when each is, the second from where the first ends. -/
theorem filledInPlace_part_append {page page' : List Fragment} {s : State UInt8} :
    FilledInPlace html s ((page ++ page').map Fragment.part) ↔
      FilledInPlace html s (page.map Fragment.part) ∧
        FilledInPlace html (finalState (step html) s (pageBytes page))
          (page'.map Fragment.part) := by
  rw [List.map_append, filledInPlace_append, textOf_part]

/-- Placed stretches after each other are placed. -/
theorem Placed.append {page page' : List Fragment} (h : Placed page) (h' : Placed page') :
    Placed (page ++ page') where
  inPlace := filledInPlace_part_append.mpr ⟨h.inPlace, h.state.symm ▸ h'.inPlace⟩
  state := by
    unfold pageBytes
    rw [List.flatMap_append, finalState_append]
    exact (congrArg (fun s => finalState (step html) s (pageBytes page')) h.state).trans h'.state

/-- A fixed text of the page has nothing to be placed, and ends between two tags. -/
theorem placed_printf {text : List UInt8} {pairs : List (List UInt8 × List UInt8)}
    (h : PageShows [.printf text] pairs) : Placed [.printf text] :=
  ⟨trivial, h.shows.state⟩

/-- Between two tags an escaped text may come. -/
theorem placed_escaped (s : List UInt8) : Placed [.htmlEscape s] :=
  ⟨⟨trivial, trivial⟩, (shows_escaped s).shows.state⟩

/-- The text of a row is its control's value. -/
theorem placed_textRow {label name maxlength : List UInt8} (hlabel : Literal label)
    (hname : Literal name) (hmax : Literal maxlength) (text : List UInt8) :
    Placed (textRow label name text maxlength) := by
  refine ⟨?_, (shows_textRow hlabel hname hmax text).shows.state⟩
  have hopen : finalState (step html) .text (ascii "<input type=\"text\" name=\"")
      = .quoted ⟨ascii "input", [(ascii "type", some (ascii "text"))]⟩ (ascii "name") [] := by
    decide
  have hnamed := (@scans_quoted _ _ html name hname.no_quote
    ⟨ascii "input", [(ascii "type", some (ascii "text"))]⟩ (ascii "name") []).state
  refine ⟨?_, trivial⟩
  rw [finalState_append, finalState_append, finalState_append, (shows_rowLabel hlabel).state, hopen,
    hnamed]
  trivial

/-- In the network part the hostname comes inside a quoted value. -/
theorem placed_networkFieldset (cfg : NodeConfig) : Placed (networkFieldset cfg) := by
  have hopen := placed_printf (@shows_const (ascii "<fieldset><legend>Network</legend>\n")
    (by decide +kernel))
  have hhost := @placed_textRow (ascii "Hostname") (ascii "hostname") (ascii "15") (by decide)
    (by decide) (by decide) cfg.hostname.text
  refine ⟨?_, (shows_networkFieldset cfg).shows.state⟩
  -- what follows the hostname is `printf` only
  unfold networkFieldset
  iterate 6 refine filledInPlace_part_append.mpr ⟨?_, trivial⟩
  exact (hopen.append hhost).inPlace

/-- The protocol part ends between two tags. -/
theorem placed_protocolFieldset (cfg : NodeConfig) : Placed (protocolFieldset cfg) :=
  ⟨trivial, (shows_protocolFieldset cfg).shows.state⟩

/-- The display part ends between two tags. -/
theorem placed_lcdFieldset (cfg : NodeConfig) : Placed (lcdFieldset cfg) :=
  ⟨trivial, (shows_lcdFieldset cfg).shows.state⟩

/-- In a port's part the label comes inside a quoted value. -/
theorem placed_portFieldset (cfg : NodeConfig) (i : Port) : Placed (portFieldset cfg i) := by
  obtain ⟨⟨hmodeName, huniverseName, hlabelName, -⟩, -, -, hlabelLit, -⟩ := portNames i
  have hbefore := ((placed_printf (shows_portOpen i)).append
    (placed_printf (shows_portMode cfg i))).append (placed_printf (shows_portUniverse cfg i))
  have hlabel := @placed_textRow (ascii "Label") _ (ascii "8") (by decide) hlabelLit (by decide)
    (cfg.ports i).label.text
  refine ⟨?_, (shows_portFieldset cfg i).shows.state⟩
  unfold portFieldset
  simp only [hmodeName, huniverseName, hlabelName]
  iterate 2 refine filledInPlace_part_append.mpr ⟨?_, trivial⟩
  exact (hbefore.append hlabel).inPlace

/-- In the page head the hostname comes between two tags. -/
theorem placed_pageHead (cfg : NodeConfig) : Placed (pageHead cfg) := by
  have htitle := placed_printf (@shows_const (ascii "<!DOCTYPE html>\n<html><head><title>")
    (by decide +kernel))
  have hhost := placed_escaped cfg.hostname.text
  have hstyle : Placed ([.printf (ascii " Configuration</title>\n")] ++ emitCss
      ++ [.printf (ascii "</head><body>\n"), .printf (ascii "<div class=\"header\">\n"),
        .printf (ascii "<h1>")]) := ⟨trivial, shows_pageStyle.shows.state⟩
  have hheading := placed_printf (@shows_const (ascii "</h1>\n") (by decide +kernel))
  have hdiv := placed_printf (@shows_const (ascii "</div>\n") (by decide +kernel))
  exact (((((htitle.append hhost).append hstyle).append hhost).append hheading).append
    (placed_printf (shows_mac cfg.mac))).append hdiv

/-- **The texts are written in place** all over the page. -/
theorem filledInPlace_emitHtmlForm (cfg : NodeConfig) :
    FilledInPlace html .text ((emitHtmlForm cfg).map Fragment.part) := by
  have hform := placed_printf (@shows_const
    (ascii "<form method=\"POST\" action=\"/cgi-bin/cfgpost.cgi\">\n") (by decide +kernel))
  have hfields := ((((((placed_pageHead cfg).append hform).append
    (placed_networkFieldset cfg)).append (placed_protocolFieldset cfg)).append
      (placed_portFieldset cfg 0)).append (placed_portFieldset cfg 1)).append
        (placed_lcdFieldset cfg)
  -- the end of the page is `printf` only
  unfold emitHtmlForm
  iterate 3 refine filledInPlace_part_append.mpr ⟨?_, trivial⟩
  exact hfields.inPlace

/-! ## The two pages in step -/

/-- Two escaped texts are both inert where they come. -/
theorem inert_of_escapedTexts {a b : NodeConfig} {x y : List UInt8} (h : EscapedTexts a b x y) :
    Inert html x ∧ Inert html y := by
  obtain ⟨t, rfl, rfl⟩ := h
  have hinert : ∀ s, Inert html (htmlEscape s) := fun s =>
    ⟨notMem_htmlEscape (Or.inl rfl) s, notMem_htmlEscape (Or.inr (Or.inr (Or.inl rfl))) s⟩
  exact ⟨hinert _, hinert _⟩

/-- The same calls give parts that are alike. -/
theorem partAlike_of_sameCall {a b : NodeConfig} {page page' : List Fragment}
    (h : List.Forall₂ (SameCall a b) page page') :
    List.Forall₂ (PartAlike (EscapedTexts a b)) (page.map Fragment.part)
      (page'.map Fragment.part) := by
  induction h with
  | nil => exact List.Forall₂.nil
  | cons hcall _ ih =>
    refine List.Forall₂.cons ?_ ih
    cases hcall with
    | printf text => exact PartAlike.fixed _
    | htmlEscape t => exact PartAlike.filled ⟨t, rfl, rfl⟩

/-- **The pages of two configurations with other texts** have the same markup. -/
theorem sameMarkup (cfg : NodeConfig) (hostname : CString 16) (labels : Port → CString 9) :
    SameMarkup cfg (withTexts cfg hostname labels) := by
  have hcalls := sameCall_emitHtmlForm cfg hostname labels
  have hscans := scans_alike (partAlike_of_sameCall hcalls)
    (fun _ _ => inert_of_escapedTexts) StateAlike.text (filledInPlace_emitHtmlForm cfg)
  rw [textOf_part, textOf_part] at hscans
  exact ⟨hcalls, hscans.tags, hscans.raw⟩

/-- Two texts with the same escaped text are the same, since the browser reads it back. -/
theorem htmlEscape_injective : Function.Injective htmlEscape := fun s t h => by
  have hdecoded := congrArg htmlUnescape h
  rwa [htmlUnescape_htmlEscape, htmlUnescape_htmlEscape] at hdecoded

/-- **User text stays text**: escaping hides every delimiter and can be undone, and the page of a
configuration with other texts has the same markup. -/
theorem userText_contained :
    (∀ s, EscapesText s) ∧ Function.Injective htmlEscape ∧
      ∀ cfg hostname labels, SameMarkup cfg (withTexts cfg hostname labels) :=
  ⟨escapesText, htmlEscape_injective, sameMarkup⟩

end SN110
