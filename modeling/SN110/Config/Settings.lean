import SN110.Config.RoundTrip
import SN110.Lib.Assign

/-!
# What a loaded value comes from

A field of the configuration that `config_load` returns is decided by the last line that sets its
key, and is the default where there is none. The MAC address is not of this kind, since a text that
`parse_mac` refuses half way leaves some of its bytes.

* `agrees_configLoad`: so it is for every key but the address mode;
* `addrMode_configLoad`: the address mode, which is inferred where the file does not set it.
-/

namespace SN110

open Assign

/-- The text of a setting of the key. -/
def settingFor (key : Key) (kv : Key × List UInt8) : Option (List UInt8) :=
  if kv.1 = key then some kv.2 else none

/-- The text that the file gives the key last. -/
def keyText (file : Option (List UInt8)) (key : Key) : Option (List UInt8) :=
  last (settingFor key) (settings (file.getD []))

/-- What a key's field is after a text has been given to it, or not. -/
def withText (c : NodeConfig) (text : Option (List UInt8)) (key : Key) : NodeConfig :=
  text.elim c fun v => applyKey c v key

@[simp] theorem withText_none (c : NodeConfig) (key : Key) : withText c none key = c := rfl

@[simp] theorem withText_some (c : NodeConfig) (v : List UInt8) (key : Key) :
    withText c (some v) key = applyKey c v key := rfl

/-- Agreeing in a key is an equivalence. -/
theorem agrees_equivalence (key : Key) : Equivalence fun a b : NodeConfig => Agrees a b key where
  refl c := Agrees.refl c key
  symm := Agrees.symm
  trans := Agrees.trans

/-- A run of settings leaves a key what the last of them gives it. -/
theorem agrees_foldl_last {key : Key} (hmac : key ≠ .macaddr) (kvs : List (Key × List UInt8))
    (c : NodeConfig) :
    Agrees (kvs.foldl applySetting c) (withText c (last (settingFor key) kvs) key) key := by
  refine foldl_related (agrees_equivalence key) applySetting (fun c v => applyKey c v key)
    (fun s s' kv v hkv => ?_) (fun s kv hkv => ?_) c kvs
  · unfold settingFor at hkv
    split_ifs at hkv with heq
    cases hkv
    subst heq
    exact agrees_applyKey_applyKey hmac s s' kv.2
  · unfold settingFor at hkv
    split_ifs at hkv with heq
    exact agrees_applyKey_of_ne (Ne.symm heq) s kv.2

/-- A loaded key has the last text the file gives it, over the default. -/
theorem agrees_configLoad {key : Key} (hmac : key ≠ .macaddr) (hmode : key ≠ .addrMode)
    (file : Option (List UInt8)) :
    Agrees (configLoad file).2 (withText configDefaults (keyText file key) key) key := by
  cases file with
  | none => exact Agrees.refl configDefaults key
  | some content =>
    rw [configLoad_snd]
    exact (agrees_inferAddrMode_of_ne hmode _).trans
      (agrees_foldl_last hmac (settings content) configDefaults)

/-- An empty text is the null address. -/
theorem parseIp_nil : parseIp [] = 0 := by decide

/-- A missing address reads like one that cannot be parsed. -/
theorem ipAddr_configLoad (file : Option (List UInt8)) :
    (configLoad file).2.ipAddr = parseIp ((keyText file .nodeaddr).getD []) := by
  have h : Agrees _ _ .nodeaddr := agrees_configLoad (by decide) (by decide) file
  rw [show (configLoad file).2.ipAddr = _ from h]
  cases keyText file .nodeaddr with
  | none => exact parseIp_nil.symm
  | some v =>
    -- `0` is no dotted address either
    show (if v = ascii "0" then 0 else parseIp v) = parseIp v
    split_ifs with hzero
    · rw [hzero]
      decide
    · rfl

/-- No text is read as the sentinel. -/
theorem parseAddrMode_ne_sentinel (v : List UInt8) : parseAddrMode v ≠ addrModeSentinel := by
  unfold parseAddrMode
  split_ifs <;> decide

/-- Only the text `dhcp` is read as DHCP. -/
theorem parseAddrMode_eq_dhcp {v : List UInt8} :
    parseAddrMode v = addrModeDhcp ↔ v = ascii "dhcp" := by
  unfold parseAddrMode
  split_ifs with hdhcp
  · exact iff_of_true rfl hdhcp
  all_goals exact iff_of_false (by decide) hdhcp

/-- The address mode of a file that can be opened. -/
theorem addrMode_configLoad (content : List UInt8) :
    (configLoad (some content)).2.addrMode
      = match keyText (some content) .addrMode with
        | some v => parseAddrMode v
        | none =>
          if parseIp ((keyText (some content) .nodeaddr).getD []) = 0 then addrModeDhcp
          else addrModeStatic := by
  have hip := ipAddr_configLoad (some content)
  have hread : ((settings content).foldl applySetting configDefaults).addrMode
      = (withText configDefaults (keyText (some content) .addrMode) .addrMode).addrMode :=
    agrees_foldl_last (show Key.addrMode ≠ .macaddr by decide) (settings content) configDefaults
  rw [configLoad_snd] at hip ⊢
  cases hmode : keyText (some content) .addrMode with
  | some v =>
    rw [hmode] at hread
    have hne : ((settings content).foldl applySetting configDefaults).addrMode
        ≠ addrModeSentinel := by
      rw [hread]
      exact parseAddrMode_ne_sentinel v
    show (inferAddrMode _).addrMode = _
    rw [inferAddrMode_of_ne hne]
    exact hread
  | none =>
    rw [hmode] at hread
    -- the default stands for a mode that has not been read
    have hsentinel : ((settings content).foldl applySetting configDefaults).addrMode
        = addrModeSentinel := hread
    change (inferAddrMode _).ipAddr = _ at hip
    show (inferAddrMode _).addrMode = _
    unfold inferAddrMode at hip ⊢
    rw [if_pos hsentinel] at hip ⊢
    show (if ((settings content).foldl applySetting configDefaults).ipAddr = 0 then _ else _) = _
    rw [show ((settings content).foldl applySetting configDefaults).ipAddr = _ from hip]

end SN110
