import SN110.Config.Parse

/-!
# The settings page (`cgi_config.c`)

What `emit_html_form` writes, as its calls of `printf` and `html_escape` in order. The two ports
have the same fieldset with another digit in it.
-/

namespace SN110

/-! ## Output -/

/-- What `html_escape` writes for a byte. -/
def htmlEscapeByte (c : UInt8) : List UInt8 :=
  if c = 38 then ascii "&amp;"
  else if c = 60 then ascii "&lt;"
  else if c = 62 then ascii "&gt;"
  else if c = 34 then ascii "&quot;"
  else if c = 39 then ascii "&#39;"
  else [c]

/-- `html_escape`. -/
def htmlEscape (s : List UInt8) : List UInt8 := s.flatMap htmlEscapeByte

/-- The size of `printf`'s buffer, less the NUL. -/
abbrev printfMax : Nat := 511

/-- A call that writes to the page. -/
inductive Fragment where
  | printf (text : List UInt8)
  | htmlEscape (s : List UInt8)

/-- There is room for the text in the buffer of `printf`. Behind the buffer the characters of a
format would not be cut off, but wait for its front. -/
def Fragment.Fits : Fragment → Prop
  | .printf text => text.length ≤ printfMax
  | .htmlEscape _ => True

instance : DecidablePred Fragment.Fits
  | .printf text => inferInstanceAs (Decidable (text.length ≤ printfMax))
  | .htmlEscape _ => inferInstanceAs (Decidable True)

/-- What a call that `Fits` writes, as all of the page do (`fits_emitHtmlForm`). -/
def Fragment.bytes : Fragment → List UInt8
  | .printf text => text
  | .htmlEscape s => SN110.htmlEscape s

/-- What is written in all. -/
def pageBytes (page : List Fragment) : List UInt8 := page.flatMap Fragment.bytes

/-! ## Style and script -/

/-- `emit_css`. -/
def emitCss : List Fragment :=
  List.map Fragment.printf [
    ascii "<style>\n",
    ascii "*\x7bbox-sizing:border-box;margin:0;padding:0\x7d\n",
    ascii "body\x7bfont-family:-apple-system,sans-serif;background:#1a1a2e;color:#e0e0e0;"
      ++ ascii "padding:0\x7d\n",
    ascii ".header\x7bbackground:#16213e;padding:14px 24px;border-bottom:2px solid #0f3460;"
      ++ ascii "display:flex;justify-content:space-between;align-items:center\x7d\n",
    ascii ".header h1\x7bfont-size:1.3em;color:#e94560;font-weight:600\x7d\n",
    ascii ".mac\x7bfont-family:\x27Courier New\x27,monospace;color:#8a8a9a;"
      ++ ascii "font-size:0.95em\x7d\n",
    ascii "form\x7bmax-width:560px;margin:20px auto;padding:0 16px\x7d\n",
    ascii "fieldset\x7bborder:1px solid #2a2a4a;border-radius:6px;padding:14px 16px;"
      ++ ascii "margin-bottom:16px;background:#16213e\x7d\n",
    ascii "legend\x7bcolor:#e94560;font-weight:600;padding:0 8px;font-size:0.95em\x7d\n",
    ascii ".row\x7bdisplay:flex;align-items:center;margin:8px 0\x7d\n",
    ascii ".row label\x7bwidth:130px;text-align:right;padding-right:12px;font-size:0.9em;"
      ++ ascii "color:#b0b0c0;flex-shrink:0\x7d\n",
    ascii ".row input[type=text],.row input[type=number]\x7bflex:1;padding:6px 8px;"
      ++ ascii "border:1px solid #2a2a4a;border-radius:4px;background:#0f0f23;color:#e0e0e0;"
      ++ ascii "font-size:0.9em\x7d\n",
    ascii ".radio-group\x7bdisplay:flex;gap:16px;flex:1\x7d\n",
    ascii ".radio-group label\x7bwidth:auto;text-align:left;padding-right:0;"
      ++ ascii "cursor:pointer\x7d\n",
    ascii ".note\x7bfont-size:0.8em;color:#7a7a8a;margin:4px 0 4px 142px\x7d\n",
    ascii "input[type=submit]\x7bdisplay:block;width:100%;padding:10px;margin:8px auto 24px;"
      ++ ascii "background:#e94560;color:#fff;border:none;border-radius:6px;font-size:1em;"
      ++ ascii "font-weight:600;cursor:pointer\x7d\n",
    ascii "input[type=submit]:hover\x7bbackground:#c73650\x7d\n",
    ascii "a\x7bcolor:#e94560\x7d\n",
    ascii "input[readonly]\x7bopacity:0.45;border-color:#1a1a2e !important;cursor:default\x7d\n",
    ascii "</style>\n"]

/-- The script at the end of `emit_html_form`. -/
def emitScript : List Fragment :=
  List.map Fragment.printf [
    ascii "<script>\n",
    ascii "(function()\x7b\n",
    ascii "var f=[document.getElementById(\x27f_ip\x27),document.getElementById(\x27f_nm\x27)"
      ++ ascii ",document.getElementById(\x27f_gw\x27)];\n",
    ascii "var note=document.getElementById(\x27addr_note\x27);\n",
    ascii "var radios=document.getElementsByName(\x27addr_mode\x27);\n",
    ascii "function u()\x7b\n",
    ascii "var m=\x27\x27;for(var i=0;i<radios.length;i++)\x7bif(radios[i].checked)"
      ++ ascii "m=radios[i].value\x7d\n",
    ascii "var ro=(m===\x27dhcp\x27);\n",
    ascii "for(var i=0;i<f.length;i++)\x7bif(ro)\x7bf[i].setAttribute(\x27readonly\x27,"
      ++ ascii "\x27readonly\x27)\x7delse\x7bf[i].removeAttribute(\x27readonly\x27)\x7d\x7d\n",
    ascii "if(m===\x27dhcp\x27)note.textContent=\x27IP assigned by DHCP server.\x27;\n",
    ascii "else if(m===\x27dhcp_static\x27)"
      ++ ascii "note.textContent=\x27Fallback IP if DHCP fails.\x27;\n",
    ascii "else note.textContent=\x27\x27;\n",
    ascii "\x7d\n",
    ascii "for(var i=0;i<radios.length;i++)\x7bradios[i].onchange=u\x7d\n",
    ascii "u();\n",
    ascii "\x7d)();\n",
    ascii "</script>\n"]

/-! ## Rows -/

/-- The start of a row of the form. -/
def rowLabel (label : List UInt8) : List UInt8 :=
  ascii "<div class=\"row\"><label>" ++ label ++ ascii "</label>"

/-- A radio button and its caption. -/
def radio (name value : List UInt8) (checked : Bool) (caption : List UInt8) : List UInt8 :=
  ascii "<label><input type=\"radio\" name=\"" ++ name ++ ascii "\" value=\"" ++ value ++ ascii "\""
    ++ (if checked = true then ascii " checked" else []) ++ ascii "> " ++ caption
    ++ ascii "</label>"

def radioRow (label : List UInt8) (radios : List (List UInt8)) : List Fragment :=
  [.printf (rowLabel label ++ ascii "<div class=\"radio-group\">" ++ radios.flatten
    ++ ascii "</div></div>\n")]

def addressRow (label name ident : List UInt8) (ip : UInt32) : List Fragment :=
  [.printf (rowLabel label ++ ascii "<input type=\"text\" name=\"" ++ name ++ ascii "\" id=\""
    ++ ident ++ ascii "\" value=\"" ++ dotted ip ++ ascii "\"></div>\n")]

def numberRow (label name : List UInt8) (value : Nat) (lo hi : List UInt8) : List Fragment :=
  [.printf (rowLabel label ++ ascii "<input type=\"number\" name=\"" ++ name ++ ascii "\" value=\""
    ++ utoa value ++ ascii "\" min=\"" ++ lo ++ ascii "\" max=\"" ++ hi ++ ascii "\"></div>\n")]

def textRow (label name text maxlength : List UInt8) : List Fragment :=
  [.printf (rowLabel label ++ ascii "<input type=\"text\" name=\"" ++ name ++ ascii "\" value=\""),
    .htmlEscape text,
    .printf (ascii "\" maxlength=\"" ++ maxlength ++ ascii "\"></div>\n")]

/-! ## The page -/

def networkFieldset (cfg : NodeConfig) : List Fragment :=
  [.printf (ascii "<fieldset><legend>Network</legend>\n")]
    ++ textRow (ascii "Hostname") (ascii "hostname") cfg.hostname.text (ascii "15")
    ++ radioRow (ascii "Address Mode")
      [radio (ascii "addr_mode") (ascii "dhcp") (cfg.addrMode = addrModeDhcp) (ascii "DHCP"),
        radio (ascii "addr_mode") (ascii "static")
          (cfg.addrMode = addrModeStatic ∨ cfg.addrMode = addrModeSentinel) (ascii "Static"),
        radio (ascii "addr_mode") (ascii "dhcp_static") (cfg.addrMode = addrModeDhcpStatic)
          (ascii "DHCP+Static")]
    ++ [.printf (ascii "<p class=\"note\" id=\"addr_note\">DHCP+Static tries DHCP first, "
      ++ ascii "falls back to static IP.</p>\n")]
    ++ addressRow (ascii "IP Address") (ascii "ipaddr") (ascii "f_ip") cfg.ipAddr
    ++ addressRow (ascii "Netmask") (ascii "netmask") (ascii "f_nm") cfg.netmask
    ++ addressRow (ascii "Gateway") (ascii "gateway") (ascii "f_gw") cfg.gateway
    ++ [.printf (ascii "</fieldset>\n")]

def protocolFieldset (cfg : NodeConfig) : List Fragment :=
  [.printf (ascii "<fieldset><legend>Protocol</legend>\n")]
    ++ radioRow (ascii "Protocol")
      [radio (ascii "protocol") (ascii "sacn") (cfg.activeProtocol = protoSacn) (ascii "sACN"),
        radio (ascii "protocol") (ascii "artnet") (cfg.activeProtocol = protoArtnet)
          (ascii "Art-Net"),
        radio (ascii "protocol") (ascii "shownet") (cfg.activeProtocol = protoShownet)
          (ascii "ShowNet")]
    ++ numberRow (ascii "DMX Hold (s)") (ascii "dmx_hold_time") cfg.dmxHoldTime.toNat (ascii "0")
      (ascii "300")
    ++ [.printf (ascii "</fieldset>\n")]

def portFieldset (cfg : NodeConfig) (i : Port) : List Fragment :=
  let digit := utoa i.val
  let mode := ascii "port" ++ digit ++ ascii "_mode"
  [.printf (ascii "<fieldset><legend>Port " ++ digit ++ ascii "</legend>\n")]
    ++ radioRow (ascii "Mode")
      [radio mode (ascii "tx") ((cfg.ports i).mode = dmxModeTx) (ascii "TX"),
        radio mode (ascii "rx") ((cfg.ports i).mode = dmxModeRx) (ascii "RX"),
        radio mode (ascii "off") ((cfg.ports i).mode = dmxModeOff) (ascii "Off")]
    ++ numberRow (ascii "Universe") (ascii "port" ++ digit ++ ascii "_universe")
      (cfg.ports i).dmxUniverse.toNat (ascii "1") (ascii "63999")
    ++ textRow (ascii "Label") (ascii "port" ++ digit ++ ascii "_label") (cfg.ports i).label.text
      (ascii "8")
    ++ numberRow (ascii "Slot Monitor") (ascii "slot_monitor_" ++ digit)
      (cfg.dmxSlotMonitor i).toNat (ascii "0") (ascii "512")
    ++ [.printf (ascii "<p class=\"note\">DMX slot to monitor (0 = disabled, 1-512)</p>\n"),
      .printf (ascii "</fieldset>\n")]

def lcdFieldset (cfg : NodeConfig) : List Fragment :=
  [.printf (ascii "<fieldset><legend>LCD</legend>\n")]
    ++ numberRow (ascii "Contrast") (ascii "lcd_contrast") cfg.lcdContrast.toNat (ascii "0")
      (ascii "255")
    ++ radioRow (ascii "Backlight")
      [radio (ascii "lcd_backlight") (ascii "off") (cfg.lcdBacklight = lcdBacklightOff)
          (ascii "Off"),
        radio (ascii "lcd_backlight") (ascii "on") (cfg.lcdBacklight = lcdBacklightOn) (ascii "On"),
        radio (ascii "lcd_backlight") (ascii "auto") (cfg.lcdBacklight = lcdBacklightAuto)
          (ascii "Auto")]
    ++ [.printf (ascii "</fieldset>\n")]

/-- What comes before the form. -/
def pageHead (cfg : NodeConfig) : List Fragment :=
  [.printf (ascii "<!DOCTYPE html>\n<html><head><title>"), .htmlEscape cfg.hostname.text,
      .printf (ascii " Configuration</title>\n")]
    ++ emitCss
    ++ [.printf (ascii "</head><body>\n"),
      .printf (ascii "<div class=\"header\">\n"),
      .printf (ascii "<h1>"), .htmlEscape cfg.hostname.text, .printf (ascii "</h1>\n"),
      .printf (ascii "<span class=\"mac\">MAC " ++ colonHex cfg.mac ++ ascii "</span>\n"),
      .printf (ascii "</div>\n")]

/-- `emit_html_form`. -/
def emitHtmlForm (cfg : NodeConfig) : List Fragment :=
  pageHead cfg
    ++ [.printf (ascii "<form method=\"POST\" action=\"/cgi-bin/cfgpost.cgi\">\n")]
    ++ networkFieldset cfg ++ protocolFieldset cfg ++ portFieldset cfg 0 ++ portFieldset cfg 1
    ++ lcdFieldset cfg
    ++ [.printf (ascii "<input type=\"submit\" value=\"Save Configuration\">\n"),
      .printf (ascii "</form>\n")]
    ++ emitScript ++ [.printf (ascii "</body></html>\n")]

end SN110
