import SN110.Cgi.Browser
import SN110.Cgi.Fields
import SN110.Config.Format

/-!
# The controls of the settings page

The page is scanned row by row. `Shows text pairs` says that the text ends outside a tag and that
its inputs submit these names and values, so that the rows can be put together.

`submitted_emitHtmlForm`: the unedited page submits the fields of the configuration it was made
from, with nothing for a group of radio buttons of which none is checked.

## How the page is put together

A row is a text with the values of the configuration in it. Its fixed parts are scanned by `decide`;
a value is put into an attribute or between tags, where it ends neither because it is `Literal`, a
number or an address, or because it has been escaped. `Shows.append` and `shows_pageBytes_append`
put rows and fieldsets one behind the other, so that the page is a sum of lemmas of a row each.
`PageShows` also keeps what the library needs, that every `printf` fits its buffer.
-/

namespace SN110

open Run Tags

/-- The text ends outside a tag, and its inputs submit these names and values. -/
structure Shows (text : List UInt8) (pairs : List (List UInt8 × List UInt8)) : Prop where
  state : finalState (step html) .text text = .text
  pairs : (scan html text).filterMap submits = pairs

instance (text : List UInt8) (pairs : List (List UInt8 × List UInt8)) :
    Decidable (Shows text pairs) :=
  decidable_of_iff (finalState (step html) .text text = .text ∧
      (scan html text).filterMap submits = pairs)
    ⟨fun h => ⟨h.1, h.2⟩, fun h => ⟨h.state, h.pairs⟩⟩

/-- A text that scans from outside a tag to outside a tag shows what its tags submit. -/
theorem shows_of_scans {text : List UInt8} {tags : List (Tag UInt8)}
    (h : Scans html .text text .text tags) : Shows text (tags.filterMap submits) :=
  ⟨h.state, by rw [h.scan]⟩

/-- Two texts after each other show the pairs of the first and then of the second. -/
theorem Shows.append {s t : List UInt8} {pairs pairs' : List (List UInt8 × List UInt8)}
    (h : Shows s pairs) (h' : Shows t pairs') : Shows (s ++ t) (pairs ++ pairs') where
  state := by rw [finalState_append, h.state, h'.state]
  pairs := by
    show (trace (step html) .text (s ++ t)).filterMap submits = _
    rw [trace_append, h.state, List.filterMap_append]
    exact congrArg₂ _ h.pairs h'.pairs

/-- A text without `<` has no control in it. -/
theorem shows_plain {text : List UInt8} (h : 60 ∉ text) : Shows text [] :=
  shows_of_scans (scans_plain h)

/-- An input element. -/
def inputTag (attrs : List (List UInt8 × Option (List UInt8))) : Tag UInt8 := ⟨ascii "input", attrs⟩

/-- One `input` tag shows the pair it submits, if it submits one. -/
theorem shows_inputTag {attrs : List (List UInt8 × Option (List UInt8))}
    (h : ∀ attr ∈ attrs, CleanAttr html attr) {pair : Option (List UInt8 × List UInt8)}
    (hpair : submits (inputTag attrs) = pair) :
    Shows ((inputTag attrs).render html) pair.toList := by
  have hname : ∀ c ∈ ascii "input", c ≠ html.gt ∧ c ≠ html.blank := by decide
  have hshows := shows_of_scans (scans_render (show CleanTag html (inputTag attrs) from ⟨hname, h⟩))
  rw [List.filterMap_cons, hpair] at hshows
  cases pair <;> exact hshows

/-- An attribute of a control: a short name and a value without a quote. -/
theorem cleanAttr_some {key v : List UInt8}
    (hkey : key ≠ [] ∧ ∀ c ∈ key, c ≠ 62 ∧ c ≠ space ∧ c ≠ equals)
    (hv : 34 ∉ v) : CleanAttr html (key, some v) :=
  ⟨hkey.1, hkey.2, fun _ hw => Option.some.inj hw ▸ hv⟩

/-- A radio button is an `input` tag inside its label. -/
theorem radio_eq (name value : List UInt8) (checked : Bool) (caption : List UInt8) :
    radio name value checked caption
      = ascii "<label>" ++ ((inputTag ([(ascii "type", some (ascii "radio")),
          (ascii "name", some name), (ascii "value", some value)] ++
            if checked = true then [(ascii "checked", none)] else [])).render html
        ++ (ascii " " ++ caption ++ ascii "</label>")) := by
  cases checked <;> simp [radio, inputTag, Tag.render, renderAttr, html, ascii]

/-- A radio button submits its name and value exactly while it is checked. -/
theorem submits_radio {name value : List UInt8} (hname : 38 ∉ name) (hvalue : 38 ∉ value)
    (checked : Bool) :
    submits (inputTag ([(ascii "type", some (ascii "radio")), (ascii "name", some name),
        (ascii "value", some value)] ++ if checked = true then [(ascii "checked", none)] else []))
      = if checked = true then some (name, value) else none := by
  have hname' := htmlUnescape_plain hname
  have hvalue' := htmlUnescape_plain hvalue
  cases checked with
  | false => rfl
  | true =>
    show some (htmlUnescape name, htmlUnescape value) = some (name, value)
    rw [hname', hvalue']

/-! ## Rows -/

/-- A short text without a character that HTML or an attribute's value gives a meaning to. -/
structure Literal (s : List UInt8) : Prop where
  no_quote : 34 ∉ s
  no_amp : 38 ∉ s
  no_lt : 60 ∉ s
  length_le : s.length ≤ 15

instance (s : List UInt8) : Decidable (Literal s) :=
  decidable_of_iff (34 ∉ s ∧ 38 ∉ s ∧ 60 ∉ s ∧ s.length ≤ 15)
    ⟨fun ⟨hquote, hamp, hlt, hlen⟩ => ⟨hquote, hamp, hlt, hlen⟩,
      fun h => ⟨h.no_quote, h.no_amp, h.no_lt, h.length_le⟩⟩

/-- A dotted address needs no escaping: digits and dots only. -/
theorem literal_dotted (ip : UInt32) : Literal (dotted ip) where
  no_quote hmem :=
    forall_mem_dotted (fun _ hc => ne_of_isDigit hc (by decide)) (by decide) ip _ hmem rfl
  no_amp hmem :=
    forall_mem_dotted (fun _ hc => ne_of_isDigit hc (by decide)) (by decide) ip _ hmem rfl
  no_lt hmem :=
    forall_mem_dotted (fun _ hc => ne_of_isDigit hc (by decide)) (by decide) ip _ hmem rfl
  length_le := length_dotted_le ip

/-- Nor does a number. -/
theorem literal_utoa {n : Nat} (h : n < 10 ^ 10) : Literal (utoa n) where
  no_quote hmem := ne_of_isDigit (isDigit_of_mem_utoa h _ hmem) (by decide) rfl
  no_amp hmem := ne_of_isDigit (isDigit_of_mem_utoa h _ hmem) (by decide) rfl
  no_lt hmem := ne_of_isDigit (isDigit_of_mem_utoa h _ hmem) (by decide) rfl
  length_le := (length_utoa_le n).trans (by decide)

/-- The label before a row has no control in it. -/
theorem shows_rowLabel {label : List UInt8} (h : Literal label) : Shows (rowLabel label) [] := by
  have hopen : Shows (ascii "<div class=\"row\"><label>") [] := by decide
  have hclose : Shows (ascii "</label>") [] := by decide
  exact (hopen.append (shows_plain h.no_lt)).append hclose

/-- A row with one control. -/
theorem shows_row {label : List UInt8} (hlabel : Literal label)
    {attrs : List (List UInt8 × Option (List UInt8))} (h : ∀ attr ∈ attrs, CleanAttr html attr)
    {pair : List UInt8 × List UInt8} (hpair : submits (inputTag attrs) = some pair) :
    Shows (rowLabel label ++ ((inputTag attrs).render html ++ ascii "</div>\n")) [pair] := by
  have hclose : Shows (ascii "</div>\n") [] := by decide
  exact (shows_rowLabel hlabel).append ((shows_inputTag h hpair).append hclose)

/-- A part of the page: every `printf` of it has room for its text, and what is written shows
these controls. -/
structure PageShows (page : List Fragment) (pairs : List (List UInt8 × List UInt8)) : Prop where
  fits : ∀ call ∈ page, call.Fits
  shows : Shows (pageBytes page) pairs

instance (page : List Fragment) (pairs : List (List UInt8 × List UInt8)) :
    Decidable (PageShows page pairs) :=
  decidable_of_iff ((∀ call ∈ page, call.Fits) ∧ Shows (pageBytes page) pairs)
    ⟨fun h => ⟨h.1, h.2⟩, fun h => ⟨h.fits, h.shows⟩⟩

/-- A text of at most `printfMax` bytes shows on the page what it shows by itself. -/
theorem shows_printf {text : List UInt8} {pairs : List (List UInt8 × List UInt8)}
    (hlen : text.length ≤ printfMax) (h : Shows text pairs) :
    PageShows [.printf text] pairs := by
  have hbytes : pageBytes [.printf text] = text := List.append_nil text
  refine ⟨?_, by rwa [hbytes]⟩
  rw [List.forall_mem_singleton]
  exact hlen

/-- Pages after each other show their pairs after each other. -/
theorem shows_pageBytes_append {page page' : List Fragment}
    {pairs pairs' : List (List UInt8 × List UInt8)} (h : PageShows page pairs)
    (h' : PageShows page' pairs') :
    PageShows (page ++ page') (pairs ++ pairs') := by
  refine ⟨List.forall_mem_append.mpr ⟨h.fits, h'.fits⟩, ?_⟩
  have hshows := h.shows.append h'.shows
  unfold pageBytes at hshows ⊢
  rwa [List.flatMap_append]

theorem PageShows.of_eq {page : List Fragment} {pairs pairs' : List (List UInt8 × List UInt8)}
    (h : PageShows page pairs) (heq : pairs = pairs') : PageShows page pairs' := heq ▸ h

/-- An address row submits the address in dotted form. -/
theorem shows_addressRow {label name ident : List UInt8} (hlabel : Literal label)
    (hname : Literal name) (hident : Literal ident) (ip : UInt32) :
    PageShows (addressRow label name ident ip) [(name, dotted ip)] := by
  have hdotted := literal_dotted ip
  -- the `printf` text is the label, one `input` element and the end of the row
  have heq : rowLabel label ++ ascii "<input type=\"text\" name=\"" ++ name ++ ascii "\" id=\""
        ++ ident ++ ascii "\" value=\"" ++ dotted ip ++ ascii "\"></div>\n"
      = rowLabel label ++ ((inputTag [(ascii "type", some (ascii "text")),
          (ascii "name", some name), (ascii "id", some ident),
          (ascii "value", some (dotted ip))]).render html
        ++ ascii "</div>\n") := by
    simp [inputTag, Tag.render, renderAttr, html, ascii]
  have hsubmits : submits (inputTag [(ascii "type", some (ascii "text")),
      (ascii "name", some name), (ascii "id", some ident), (ascii "value", some (dotted ip))])
      = some (name, dotted ip) := by
    show some (htmlUnescape name, htmlUnescape (dotted ip)) = _
    rw [htmlUnescape_plain hname.no_amp, htmlUnescape_plain hdotted.no_amp]
  -- the values are short and need no escaping, so the text fits the buffer
  refine shows_printf ?_ ?_
  · have h1 := hlabel.length_le
    have h2 := hname.length_le
    have h3 := hident.length_le
    have h4 := hdotted.length_le
    simp [rowLabel, ascii, printfMax]
    omega
  · rw [heq]
    refine shows_row hlabel ?_ hsubmits
    simp only [List.forall_mem_cons]
    exact ⟨cleanAttr_some (by decide) (by decide), cleanAttr_some (by decide) hname.no_quote,
      cleanAttr_some (by decide) hident.no_quote, cleanAttr_some (by decide) hdotted.no_quote,
      List.forall_mem_nil _⟩

/-- A number row submits the number in decimal. -/
theorem shows_numberRow {label name lo hi : List UInt8} (hlabel : Literal label)
    (hname : Literal name) (hlo : Literal lo) (hhi : Literal hi) {n : Nat} (hn : n < 10 ^ 10) :
    PageShows (numberRow label name n lo hi) [(name, utoa n)] := by
  have hvalue := literal_utoa hn
  -- the same row with a number and its bounds
  have heq : rowLabel label ++ ascii "<input type=\"number\" name=\"" ++ name ++ ascii "\" value=\""
        ++ utoa n ++ ascii "\" min=\"" ++ lo ++ ascii "\" max=\"" ++ hi ++ ascii "\"></div>\n"
      = rowLabel label ++ ((inputTag [(ascii "type", some (ascii "number")),
          (ascii "name", some name), (ascii "value", some (utoa n)), (ascii "min", some lo),
          (ascii "max", some hi)]).render html ++ ascii "</div>\n") := by
    simp [inputTag, Tag.render, renderAttr, html, ascii]
  have hsubmits : submits (inputTag [(ascii "type", some (ascii "number")),
      (ascii "name", some name), (ascii "value", some (utoa n)), (ascii "min", some lo),
      (ascii "max", some hi)]) = some (name, utoa n) := by
    show some (htmlUnescape name, htmlUnescape (utoa n)) = _
    rw [htmlUnescape_plain hname.no_amp, htmlUnescape_plain hvalue.no_amp]
  refine shows_printf ?_ ?_
  · have h1 := hlabel.length_le
    have h2 := hname.length_le
    have h3 := hlo.length_le
    have h4 := hhi.length_le
    have h5 := hvalue.length_le
    simp [rowLabel, ascii, printfMax]
    omega
  · rw [heq]
    refine shows_row hlabel ?_ hsubmits
    simp only [List.forall_mem_cons]
    exact ⟨cleanAttr_some (by decide) (by decide), cleanAttr_some (by decide) hname.no_quote,
      cleanAttr_some (by decide) hvalue.no_quote, cleanAttr_some (by decide) hlo.no_quote,
      cleanAttr_some (by decide) hhi.no_quote, List.forall_mem_nil _⟩

/-- The user's text comes back as it is. -/
theorem shows_textRow {label name maxlength : List UInt8} (hlabel : Literal label)
    (hname : Literal name) (hmax : Literal maxlength) (text : List UInt8) :
    PageShows (textRow label name text maxlength) [(name, text)] := by
  have hquote : 34 ∉ htmlEscape text := notMem_htmlEscape (Or.inr (Or.inr (Or.inl rfl))) text
  have hbytes : pageBytes (textRow label name text maxlength)
      = (rowLabel label ++ ascii "<input type=\"text\" name=\"" ++ name ++ ascii "\" value=\"")
        ++ (htmlEscape text ++ (ascii "\" maxlength=\"" ++ maxlength ++ ascii "\"></div>\n")) := by
    simp [textRow, pageBytes, Fragment.bytes]
  -- the user's text is put by `html_escape`, which has no buffer to fill
  have hfits : ∀ call ∈ textRow label name text maxlength, call.Fits := by
    have h1 := hlabel.length_le
    have h2 := hname.length_le
    have h3 := hmax.length_le
    simp only [textRow, List.forall_mem_cons]
    refine ⟨?_, trivial, ?_, List.forall_mem_nil _⟩
    all_goals
      simp [Fragment.Fits, rowLabel, ascii, printfMax]
      omega
  have heq : (rowLabel label ++ ascii "<input type=\"text\" name=\"" ++ name ++ ascii "\" value=\"")
        ++ (htmlEscape text ++ (ascii "\" maxlength=\"" ++ maxlength ++ ascii "\"></div>\n"))
      = rowLabel label ++ ((inputTag [(ascii "type", some (ascii "text")),
          (ascii "name", some name), (ascii "value", some (htmlEscape text)),
          (ascii "maxlength", some maxlength)]).render html
        ++ ascii "</div>\n") := by
    simp [inputTag, Tag.render, renderAttr, html, ascii]
  -- the browser reads the escaped value back
  have hsubmits : submits (inputTag [(ascii "type", some (ascii "text")),
      (ascii "name", some name), (ascii "value", some (htmlEscape text)),
      (ascii "maxlength", some maxlength)]) = some (name, text) := by
    show some (htmlUnescape name, htmlUnescape (htmlEscape text)) = _
    rw [htmlUnescape_plain hname.no_amp, htmlUnescape_htmlEscape]
  refine ⟨hfits, ?_⟩
  rw [hbytes, heq]
  refine shows_row hlabel ?_ hsubmits
  simp only [List.forall_mem_cons]
  exact ⟨cleanAttr_some (by decide) (by decide), cleanAttr_some (by decide) hname.no_quote,
    cleanAttr_some (by decide) hquote, cleanAttr_some (by decide) hmax.no_quote,
    List.forall_mem_nil _⟩

/-- What a radio button submits. -/
def radioPair (name value : List UInt8) (checked : Bool) : List (List UInt8 × List UInt8) :=
  if checked = true then [(name, value)] else []

/-- A radio button submits its pair while checked, in at most 110 bytes of text. -/
theorem shows_radio {name value caption : List UInt8} (hname : Literal name)
    (hvalue : Literal value) (hcaption : Literal caption) (checked : Bool) :
    Shows (radio name value checked caption) (radioPair name value checked) ∧
      (radio name value checked caption).length ≤ 110 := by
  constructor
  · have hopen : Shows (ascii "<label>") [] := by decide
    have hspace : Shows (ascii " ") [] := by decide
    have hclose : Shows (ascii "</label>") [] := by decide
    -- `checked` is an attribute without a value
    have hclean : ∀ attr ∈ ([(ascii "type", some (ascii "radio")), (ascii "name", some name),
        (ascii "value", some value)] ++ if checked = true then [(ascii "checked", none)] else [] :
          List (List UInt8 × Option (List UInt8))), CleanAttr html attr := by
      rw [List.forall_mem_append]
      simp only [List.forall_mem_cons]
      refine ⟨⟨cleanAttr_some (by decide) (by decide), cleanAttr_some (by decide) hname.no_quote,
        cleanAttr_some (by decide) hvalue.no_quote, List.forall_mem_nil _⟩, ?_⟩
      split_ifs
      · rw [List.forall_mem_singleton]
        exact ⟨by decide, by decide, fun _ hv => by cases hv⟩
      · exact List.forall_mem_nil _
    have hinput := shows_inputTag hclean (submits_radio hname.no_amp hvalue.no_amp checked)
    have hrow := hopen.append (hinput.append ((hspace.append (shows_plain hcaption.no_lt)).append
      hclose))
    rw [radio_eq]
    cases checked <;> exact hrow
  · have h1 := hname.length_le
    have h2 := hvalue.length_le
    have h3 := hcaption.length_le
    cases checked <;> simp [radio, ascii] <;> omega

/-- Three radio buttons fit one `printf`, and submit what each of them submits. -/
theorem shows_radioRow {label r₁ r₂ r₃ : List UInt8} {p₁ p₂ p₃ : List (List UInt8 × List UInt8)}
    (hlabel : Literal label) (h₁ : Shows r₁ p₁ ∧ r₁.length ≤ 110)
    (h₂ : Shows r₂ p₂ ∧ r₂.length ≤ 110) (h₃ : Shows r₃ p₃ ∧ r₃.length ≤ 110) :
    PageShows (radioRow label [r₁, r₂, r₃]) (p₁ ++ (p₂ ++ (p₃ ++ []))) := by
  have hopen : Shows (ascii "<div class=\"radio-group\">") [] := by decide
  have hclose : Shows (ascii "</div></div>\n") [] := by decide
  have hnil : Shows [] [] := by decide
  have hradios : Shows [r₁, r₂, r₃].flatten (p₁ ++ (p₂ ++ (p₃ ++ []))) :=
    h₁.1.append (h₂.1.append (h₃.1.append hnil))
  refine shows_printf ?_ ?_
  · have hlen := hlabel.length_le
    have hlen₁ := h₁.2
    have hlen₂ := h₂.2
    have hlen₃ := h₃.2
    simp [rowLabel, ascii, printfMax]
    omega
  · have hrow := (((shows_rowLabel hlabel).append hopen).append hradios).append hclose
    rwa [List.append_nil] at hrow

/-! ## The page -/

/-- The value of a radio button, if it is checked. -/
def radioField (field : FormField) (value : List UInt8) (checked : Bool) :
    List (FormField × List UInt8) :=
  if checked = true then [(field, value)] else []

def networkFields (cfg : NodeConfig) : List (FormField × List UInt8) :=
  [(.hostname, cfg.hostname.text)]
    ++ (radioField .addrMode (ascii "dhcp") (cfg.addrMode = addrModeDhcp)
      ++ radioField .addrMode (ascii "static")
        (cfg.addrMode = addrModeStatic ∨ cfg.addrMode = addrModeSentinel)
      ++ radioField .addrMode (ascii "dhcp_static") (cfg.addrMode = addrModeDhcpStatic))
    ++ [(.ipaddr, dotted cfg.ipAddr), (.netmask, dotted cfg.netmask),
      (.gateway, dotted cfg.gateway)]

def protocolFields (cfg : NodeConfig) : List (FormField × List UInt8) :=
  radioField .protocol (ascii "sacn") (cfg.activeProtocol = protoSacn)
    ++ radioField .protocol (ascii "artnet") (cfg.activeProtocol = protoArtnet)
    ++ radioField .protocol (ascii "shownet") (cfg.activeProtocol = protoShownet)
    ++ [(.dmxHoldTime, utoa cfg.dmxHoldTime.toNat)]

def portFields (cfg : NodeConfig) (i : Port) : List (FormField × List UInt8) :=
  radioField (.portMode i) (ascii "tx") ((cfg.ports i).mode = dmxModeTx)
    ++ radioField (.portMode i) (ascii "rx") ((cfg.ports i).mode = dmxModeRx)
    ++ radioField (.portMode i) (ascii "off") ((cfg.ports i).mode = dmxModeOff)
    ++ [(.portUniverse i, utoa (cfg.ports i).dmxUniverse.toNat),
      (.portLabel i, (cfg.ports i).label.text), (.slotMonitor i, utoa (cfg.dmxSlotMonitor i).toNat)]

def lcdFields (cfg : NodeConfig) : List (FormField × List UInt8) :=
  [(.lcdContrast, utoa cfg.lcdContrast.toNat)]
    ++ (radioField .lcdBacklight (ascii "off") (cfg.lcdBacklight = lcdBacklightOff)
      ++ radioField .lcdBacklight (ascii "on") (cfg.lcdBacklight = lcdBacklightOn)
      ++ radioField .lcdBacklight (ascii "auto") (cfg.lcdBacklight = lcdBacklightAuto))

/-- The fields that the unedited page submits. -/
def submittedFields (cfg : NodeConfig) : List (FormField × List UInt8) :=
  networkFields cfg ++ protocolFields cfg ++ portFields cfg 0 ++ portFields cfg 1 ++ lcdFields cfg

/-- A field under its name in the form. -/
def named (field : FormField × List UInt8) : List UInt8 × List UInt8 := (field.1.name, field.2)

/-- The pair a button submits is the form field it stands for. -/
theorem map_named_radioField (field : FormField) (value : List UInt8) (checked : Bool) :
    (radioField field value checked).map named = radioPair field.name value checked := by
  cases checked <;> rfl

theorem lt_of_uint16 (n : UInt16) : n.toNat < 10 ^ 10 := n.toNat_lt.trans (by decide)

/-- Text of the page that no field shapes. -/
theorem shows_const {text : List UInt8} (h : text.length ≤ printfMax ∧ Shows text []) :
    PageShows [.printf text] [] := shows_printf h.1 h.2

/-- The network part of the page submits the network fields. -/
theorem shows_networkFieldset (cfg : NodeConfig) :
    PageShows (networkFieldset cfg) ((networkFields cfg).map named) := by
  -- one row after the other, in the order of the source
  have hopen := @shows_const (ascii "<fieldset><legend>Network</legend>\n") (by decide +kernel)
  have hhost := @shows_textRow (ascii "Hostname") (ascii "hostname") (ascii "15") (by decide)
    (by decide) (by decide) cfg.hostname.text
  have hmode := @shows_radioRow (ascii "Address Mode") _ _ _ _ _ _ (by decide)
    (@shows_radio (ascii "addr_mode") (ascii "dhcp") (ascii "DHCP") (by decide) (by decide)
      (by decide) (cfg.addrMode = addrModeDhcp))
    (@shows_radio (ascii "addr_mode") (ascii "static") (ascii "Static") (by decide) (by decide)
      (by decide) (cfg.addrMode = addrModeStatic ∨ cfg.addrMode = addrModeSentinel))
    (@shows_radio (ascii "addr_mode") (ascii "dhcp_static") (ascii "DHCP+Static") (by decide)
      (by decide) (by decide) (cfg.addrMode = addrModeDhcpStatic))
  have hnote := @shows_const
    (ascii "<p class=\"note\" id=\"addr_note\">DHCP+Static tries DHCP first, "
      ++ ascii "falls back to static IP.</p>\n") (by decide +kernel)
  have hip := @shows_addressRow (ascii "IP Address") (ascii "ipaddr") (ascii "f_ip") (by decide)
    (by decide) (by decide) cfg.ipAddr
  have hmask := @shows_addressRow (ascii "Netmask") (ascii "netmask") (ascii "f_nm") (by decide)
    (by decide) (by decide) cfg.netmask
  have hgateway := @shows_addressRow (ascii "Gateway") (ascii "gateway") (ascii "f_gw") (by decide)
    (by decide) (by decide) cfg.gateway
  have hclose := @shows_const (ascii "</fieldset>\n") (by decide +kernel)
  have hall := shows_pageBytes_append (shows_pageBytes_append (shows_pageBytes_append
    (shows_pageBytes_append (shows_pageBytes_append (shows_pageBytes_append
      (shows_pageBytes_append hopen hhost) hmode) hnote) hip) hmask) hgateway) hclose
  refine hall.of_eq ?_
  simp [networkFields, map_named_radioField, named, FormField.name]

/-- The protocol part of the page submits the protocol fields. -/
theorem shows_protocolFieldset (cfg : NodeConfig) :
    PageShows (protocolFieldset cfg) ((protocolFields cfg).map named) := by
  have hopen := @shows_const (ascii "<fieldset><legend>Protocol</legend>\n") (by decide +kernel)
  have hprotocol := @shows_radioRow (ascii "Protocol") _ _ _ _ _ _ (by decide)
    (@shows_radio (ascii "protocol") (ascii "sacn") (ascii "sACN") (by decide) (by decide)
      (by decide) (cfg.activeProtocol = protoSacn))
    (@shows_radio (ascii "protocol") (ascii "artnet") (ascii "Art-Net") (by decide) (by decide)
      (by decide) (cfg.activeProtocol = protoArtnet))
    (@shows_radio (ascii "protocol") (ascii "shownet") (ascii "ShowNet") (by decide) (by decide)
      (by decide) (cfg.activeProtocol = protoShownet))
  have hhold := @shows_numberRow (ascii "DMX Hold (s)") (ascii "dmx_hold_time") (ascii "0")
    (ascii "300") (by decide) (by decide) (by decide) (by decide) _ (lt_of_uint16 cfg.dmxHoldTime)
  have hclose := @shows_const (ascii "</fieldset>\n") (by decide +kernel)
  have hall := shows_pageBytes_append (shows_pageBytes_append (shows_pageBytes_append hopen
    hprotocol) hhold) hclose
  refine hall.of_eq ?_
  simp [protocolFields, map_named_radioField, named, FormField.name]

/-- The names and the digit of a port's fieldset. -/
theorem portNames (i : Port) :
    (ascii "port" ++ utoa i.val ++ ascii "_mode" = (FormField.portMode i).name ∧
      ascii "port" ++ utoa i.val ++ ascii "_universe" = (FormField.portUniverse i).name ∧
      ascii "port" ++ utoa i.val ++ ascii "_label" = (FormField.portLabel i).name ∧
      ascii "slot_monitor_" ++ utoa i.val = (FormField.slotMonitor i).name) ∧
    Literal (FormField.portMode i).name ∧ Literal (FormField.portUniverse i).name ∧
      Literal (FormField.portLabel i).name ∧ Literal (FormField.slotMonitor i).name := by
  revert i
  decide

/-- The heading of a port's fieldset has no control in it. -/
theorem shows_portOpen (i : Port) :
    PageShows [.printf (ascii "<fieldset><legend>Port " ++ utoa i.val
      ++ ascii "</legend>\n")] [] := by
  revert i
  decide +kernel

/-- The three mode buttons of a port submit the mode it is in. -/
theorem shows_portMode (cfg : NodeConfig) (i : Port) :
    PageShows (radioRow (ascii "Mode")
      [radio (FormField.portMode i).name (ascii "tx") ((cfg.ports i).mode = dmxModeTx) (ascii "TX"),
        radio (FormField.portMode i).name (ascii "rx") ((cfg.ports i).mode = dmxModeRx)
          (ascii "RX"),
        radio (FormField.portMode i).name (ascii "off") ((cfg.ports i).mode = dmxModeOff)
          (ascii "Off")])
      (radioPair (FormField.portMode i).name (ascii "tx") ((cfg.ports i).mode = dmxModeTx)
        ++ (radioPair (FormField.portMode i).name (ascii "rx") ((cfg.ports i).mode = dmxModeRx)
          ++ (radioPair (FormField.portMode i).name (ascii "off")
            ((cfg.ports i).mode = dmxModeOff) ++ []))) := by
  obtain ⟨-, hmodeLit, -⟩ := portNames i
  exact @shows_radioRow (ascii "Mode") _ _ _ _ _ _ (by decide)
    (@shows_radio _ (ascii "tx") (ascii "TX") hmodeLit (by decide) (by decide)
      ((cfg.ports i).mode = dmxModeTx))
    (@shows_radio _ (ascii "rx") (ascii "RX") hmodeLit (by decide) (by decide)
      ((cfg.ports i).mode = dmxModeRx))
    (@shows_radio _ (ascii "off") (ascii "Off") hmodeLit (by decide) (by decide)
      ((cfg.ports i).mode = dmxModeOff))

/-- The universe row of a port submits its universe. -/
theorem shows_portUniverse (cfg : NodeConfig) (i : Port) :
    PageShows (numberRow (ascii "Universe") (FormField.portUniverse i).name
      (cfg.ports i).dmxUniverse.toNat (ascii "1") (ascii "63999"))
      [((FormField.portUniverse i).name, utoa (cfg.ports i).dmxUniverse.toNat)] := by
  obtain ⟨-, -, huniverseLit, -⟩ := portNames i
  exact @shows_numberRow (ascii "Universe") _ (ascii "1") (ascii "63999") (by decide)
    huniverseLit (by decide) (by decide) _ (lt_of_uint16 (cfg.ports i).dmxUniverse)

/-- A port's part of the page submits the port's fields. -/
theorem shows_portFieldset (cfg : NodeConfig) (i : Port) :
    PageShows (portFieldset cfg i) ((portFields cfg i).map named) := by
  -- the names of a port's controls carry its digit
  obtain ⟨⟨hmodeName, huniverseName, hlabelName, hslotName⟩, -, -, hlabelLit, hslotLit⟩ :=
    portNames i
  have hlabel := @shows_textRow (ascii "Label") _ (ascii "8") (by decide) hlabelLit (by decide)
    (cfg.ports i).label.text
  have hslot := @shows_numberRow (ascii "Slot Monitor") _ (ascii "0") (ascii "512") (by decide)
    hslotLit (by decide) (by decide) _ (lt_of_uint16 (cfg.dmxSlotMonitor i))
  have hclose : PageShows [.printf (ascii
      "<p class=\"note\">DMX slot to monitor (0 = disabled, 1-512)</p>\n"),
      .printf (ascii "</fieldset>\n")] [] := by
    decide +kernel
  have hall := shows_pageBytes_append (shows_pageBytes_append (shows_pageBytes_append
    (shows_pageBytes_append (shows_pageBytes_append (shows_portOpen i) (shows_portMode cfg i))
      (shows_portUniverse cfg i)) hlabel) hslot) hclose
  unfold portFieldset
  simp only [hmodeName, huniverseName, hlabelName, hslotName]
  refine hall.of_eq ?_
  simp [portFields, map_named_radioField, named]

/-- The display part of the page submits the two display fields. -/
theorem shows_lcdFieldset (cfg : NodeConfig) :
    PageShows (lcdFieldset cfg) ((lcdFields cfg).map named) := by
  have hopen := @shows_const (ascii "<fieldset><legend>LCD</legend>\n") (by decide +kernel)
  have hcontrast := @shows_numberRow (ascii "Contrast") (ascii "lcd_contrast") (ascii "0")
    (ascii "255") (by decide) (by decide) (by decide) (by decide) _
    (cfg.lcdContrast.toNat_lt.trans (by decide))
  have hbacklight := @shows_radioRow (ascii "Backlight") _ _ _ _ _ _ (by decide)
    (@shows_radio (ascii "lcd_backlight") (ascii "off") (ascii "Off") (by decide) (by decide)
      (by decide) (cfg.lcdBacklight = lcdBacklightOff))
    (@shows_radio (ascii "lcd_backlight") (ascii "on") (ascii "On") (by decide) (by decide)
      (by decide) (cfg.lcdBacklight = lcdBacklightOn))
    (@shows_radio (ascii "lcd_backlight") (ascii "auto") (ascii "Auto") (by decide) (by decide)
      (by decide) (cfg.lcdBacklight = lcdBacklightAuto))
  have hclose := @shows_const (ascii "</fieldset>\n") (by decide +kernel)
  -- the rows put together
  have hall := shows_pageBytes_append (shows_pageBytes_append (shows_pageBytes_append hopen
    hcontrast) hbacklight) hclose
  refine hall.of_eq ?_
  simp [lcdFields, map_named_radioField, named, FormField.name]

/-- Text through `html_escape` has no `<` left, so no control. -/
theorem shows_escaped (s : List UInt8) : PageShows [.htmlEscape s] [] := by
  refine ⟨by simp [Fragment.Fits], ?_⟩
  show Shows (htmlEscape s ++ []) []
  rw [List.append_nil]
  exact shows_plain (notMem_htmlEscape (Or.inl rfl) s)

/-- The MAC address is shown, not submitted. -/
theorem shows_mac (mac : Vector UInt8 6) :
    PageShows [.printf (ascii "<span class=\"mac\">MAC " ++ colonHex mac ++ ascii "</span>\n")]
      [] := by
  have hopen : Shows (ascii "<span class=\"mac\">MAC ") [] := by decide
  have hclose : Shows (ascii "</span>\n") [] := by decide
  have hplain : Shows (colonHex mac) [] := shows_plain fun hmem =>
    forall_mem_colonHex (P := fun c => c ≠ 60) (by decide) (by decide) mac _ hmem rfl
  have hlen : (colonHex mac).length = 17 := rfl
  refine shows_printf ?_ ((hopen.append hplain).append hclose)
  simp [ascii, printfMax, hlen]

/-- The style sheet and the page's opening tags have no control in them. -/
theorem shows_pageStyle :
    PageShows ([.printf (ascii " Configuration</title>\n")] ++ emitCss
      ++ [.printf (ascii "</head><body>\n"), .printf (ascii "<div class=\"header\">\n"),
        .printf (ascii "<h1>")]) [] := by
  unfold emitCss
  repeat rw [ascii_ofList]
  decide +kernel

/-- Nothing before the form submits anything, also with the node's own names in it. -/
theorem shows_pageHead (cfg : NodeConfig) : PageShows (pageHead cfg) [] := by
  have htitle := @shows_const (ascii "<!DOCTYPE html>\n<html><head><title>") (by decide +kernel)
  have hheading := @shows_const (ascii "</h1>\n") (by decide +kernel)
  have hdiv := @shows_const (ascii "</div>\n") (by decide +kernel)
  have hhost := shows_escaped cfg.hostname.text
  exact shows_pageBytes_append (shows_pageBytes_append (shows_pageBytes_append
    (shows_pageBytes_append (shows_pageBytes_append (shows_pageBytes_append htitle hhost)
      shows_pageStyle) hhost) hheading) (shows_mac cfg.mac)) hdiv

/-- The controls of the whole page. -/
theorem shows_emitHtmlForm (cfg : NodeConfig) :
    PageShows (emitHtmlForm cfg) ((submittedFields cfg).map named) := by
  have hform := @shows_const (ascii "<form method=\"POST\" action=\"/cgi-bin/cfgpost.cgi\">\n")
    (by decide +kernel)
  have hend : PageShows [.printf (ascii "<input type=\"submit\" value=\"Save Configuration\">\n"),
      .printf (ascii "</form>\n")] [] := by
    decide +kernel
  -- the script is read as raw text, so its `<` begin no tag
  have hscript : PageShows emitScript [] := by
    unfold emitScript
    repeat rw [ascii_ofList]
    decide +kernel
  have hbody := @shows_const (ascii "</body></html>\n") (by decide +kernel)
  have hfields := shows_pageBytes_append (shows_pageBytes_append (shows_pageBytes_append
    (shows_pageBytes_append (shows_networkFieldset cfg) (shows_protocolFieldset cfg))
      (shows_portFieldset cfg 0)) (shows_portFieldset cfg 1)) (shows_lcdFieldset cfg)
  have hall := shows_pageBytes_append (shows_pageBytes_append (shows_pageBytes_append
    (shows_pageBytes_append (shows_pageBytes_append (shows_pageHead cfg) hform) hfields) hend)
      hscript) hbody
  -- the page grouped as the parts above are
  have hpage : emitHtmlForm cfg = pageHead cfg
      ++ [.printf (ascii "<form method=\"POST\" action=\"/cgi-bin/cfgpost.cgi\">\n")]
      ++ (networkFieldset cfg ++ protocolFieldset cfg ++ portFieldset cfg 0 ++ portFieldset cfg 1
        ++ lcdFieldset cfg)
      ++ [.printf (ascii "<input type=\"submit\" value=\"Save Configuration\">\n"),
        .printf (ascii "</form>\n")]
      ++ emitScript ++ [.printf (ascii "</body></html>\n")] := by
    unfold emitHtmlForm
    simp only [List.append_assoc]
  rw [hpage]
  refine hall.of_eq ?_
  simp [submittedFields]

/-- **The unedited page submits** the fields of the configuration it was made from. -/
theorem submitted_emitHtmlForm (cfg : NodeConfig) :
    submitted (pageBytes (emitHtmlForm cfg)) = (submittedFields cfg).map named :=
  (shows_emitHtmlForm cfg).shows.pairs

/-- **No `printf` of the page runs out of room**, whatever the configuration. -/
theorem fits_emitHtmlForm (cfg : NodeConfig) : ∀ call ∈ emitHtmlForm cfg, call.Fits :=
  (shows_emitHtmlForm cfg).fits

end SN110
