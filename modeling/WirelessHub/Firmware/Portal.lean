import Mathlib.Tactic.Common
import WirelessHub.Framework.Search

/-!
# The setup portal

The way of a network name through `wifi_manager.c`: from a scan into the option list of the
portal page, and from the form that comes back into the stored credentials. A C string is the
list of the bytes in front of its zero byte. The buffers on the way have a fixed size each, and
what does not fit is cut off without a word.
-/

namespace WirelessHub.Firmware

open Framework

namespace Portal

def ascii (text : List Char) : List UInt8 := text.map fun c => UInt8.ofNat c.toNat

def cString (buf : List UInt8) : List UInt8 := buf.takeWhile (· ≠ 0)

/-- `wifi_scan`: the slot that a scanned name is copied to. -/
def scanSlot (ssid : List UInt8) : List UInt8 := (cString ssid).take 32

/-- The bytes that `html_escape` replaces. -/
def entities : List (UInt8 × List UInt8) :=
  [(0x26, ascii ['&', 'a', 'm', 'p', ';']), (0x22, ascii ['&', 'q', 'u', 'o', 't', ';']),
    (0x3C, ascii ['&', 'l', 't', ';']), (0x3E, ascii ['&', 'g', 't', ';'])]

def entity (b : UInt8) : List UInt8 := (entities.lookup b).getD [b]

/-- The loop of `html_escape` with `o` bytes in a buffer of `dstLen`. -/
def htmlEscape (dstLen o : Nat) : List UInt8 → List UInt8
  | [] => []
  | b :: src =>
      if o < dstLen - 7 then entity b ++ htmlEscape dstLen (o + (entity b).length) src else []

def optionOpen : List UInt8 :=
  ascii ['<', 'o', 'p', 't', 'i', 'o', 'n', ' ', 'v', 'a', 'l', 'u', 'e', '=', '"']

def optionMid : List UInt8 := ascii ['"', '>']

def optionClose : List UInt8 := ascii ['<', '/', 'o', 'p', 't', 'i', 'o', 'n', '>']

/-- The option that `send_portal_html` writes for a slot, unless the slot is empty. -/
def optionHtml (slot : List UInt8) : Option (List UInt8) :=
  if slot = [] then none
  else
    let esc := htmlEscape 140 0 slot
    some ((optionOpen ++ esc ++ optionMid ++ esc ++ optionClose).take 319)

def isSpace (b : UInt8) : Bool := b = 32 || (9 ≤ b.toNat && b.toNat ≤ 13)

def hexVal (b : UInt8) : Option Nat :=
  if 48 ≤ b.toNat ∧ b.toNat ≤ 57 then some (b.toNat - 48)
  else if 65 ≤ b.toNat ∧ b.toNat ≤ 70 then some (b.toNat - 55)
  else if 97 ≤ b.toNat ∧ b.toNat ≤ 102 then some (b.toNat - 87)
  else none

/-- The digits in front, as a number. -/
def hexDigits (acc : Nat) : List UInt8 → Nat
  | [] => acc
  | b :: s => match hexVal b with
    | some v => hexDigits (16 * acc + v) s
    | none => acc

/-- `strtol` in base 16: spaces, a sign, `0x` and digits. -/
def strtol16 (s : List UInt8) : Int :=
  let s := s.dropWhile isSpace
  let neg := s.head? = some 0x2D
  let s := if s.head? = some 0x2B ∨ s.head? = some 0x2D then s.tail else s
  let s := if s.head? = some 0x30 ∧ (s.tail.head? = some 0x78 ∨ s.tail.head? = some 0x58) then s.drop 2
    else s
  if neg then -(hexDigits 0 s : Int) else hexDigits 0 s

/-- The loop of `url_decode` with room for `room` more bytes. -/
def urlDecode : Nat → List UInt8 → List UInt8
  | 0, _ => []
  | _ + 1, [] => []
  | room + 1, b :: src =>
      if b = 0x2B then 0x20 :: urlDecode room src
      else if b = 0x25 ∧ 2 ≤ src.length then
        UInt8.ofInt (strtol16 (src.take 2)) :: urlDecode room (src.drop 2)
      else b :: urlDecode room src

/-- `form_field`: the string that ends up in `out`, if the key is found. -/
def formField (body key : List UInt8) (outLen : Nat) : Option (List UInt8) :=
  let search := (key ++ ascii ['=']).take 63
  (strstr search body).map fun p =>
    let field := (p.drop search.length).takeWhile (· ≠ 0x26)
    cString (urlDecode (outLen - 1) (field.take 255))

def ssidListKey : List UInt8 := ascii ['s', 's', 'i', 'd', '_', 'l', 'i', 's', 't']
def ssidManualKey : List UInt8 := ascii ['s', 's', 'i', 'd', '_', 'm', 'a', 'n', 'u', 'a', 'l']
def passKey : List UInt8 := ascii ['p', 'a', 's', 's']

/-- `post_save_handler`: the arguments of `nvs_save_credentials`, if it is called. -/
def postSaveHandler (received : List UInt8) : Option (List UInt8 × List UInt8) :=
  if received = [] then none
  else
    let body := cString (received.take 511)
    let manual := (formField body ssidManualKey 32).getD []
    let ssid := if manual = [] then (formField body ssidListKey 32).getD [] else manual
    if ssid = [] then none else some (ssid, (formField body passKey 64).getD [])

/-! ## What the browser does -/

/-- The value of the entities in a text; `skip` bytes of the one before are left. -/
def htmlUnescape (skip : Nat) : List UInt8 → List UInt8
  | [] => []
  | b :: s => match skip with
    | skip + 1 => htmlUnescape skip s
    | 0 => match entities.find? fun e => e.2.isPrefixOf (b :: s) with
      | some e => e.1 :: htmlUnescape (e.2.length - 1) s
      | none => b :: htmlUnescape 0 s

/-- The option has the text both as its value and as its label. -/
def Carries (html text : List UInt8) : Prop :=
  ∃ value label, html = optionOpen ++ value ++ optionMid ++ label ++ optionClose ∧
    0x22 ∉ value ∧ 0x3C ∉ label ∧ htmlUnescape 0 value = text ∧ htmlUnescape 0 label = text

/-- A form encoding of a text. Any byte may be percent-encoded, with digits in either case.
A space is a `+` or percent-encoded, and `=`, `&`, `%`, `+` and zero are never left plain. -/
inductive Encodes : List UInt8 → List UInt8 → Prop
  | nil : Encodes [] []
  | plain {b : UInt8} {text enc : List UInt8}
      (unreserved : b ≠ 0x3D ∧ b ≠ 0x26 ∧ b ≠ 0x25 ∧ b ≠ 0x2B ∧ b ≠ 0x20 ∧ b ≠ 0)
      (rest : Encodes text enc) : Encodes (b :: text) (b :: enc)
  | space {text enc : List UInt8} (rest : Encodes text enc) : Encodes (0x20 :: text) (0x2B :: enc)
  | percent {b hi lo : UInt8} {h l : Nat} {text enc : List UInt8} (high : hexVal hi = some h)
      (low : hexVal lo = some l) (value : b.toNat = 16 * h + l) (rest : Encodes text enc) :
      Encodes (b :: text) (0x25 :: hi :: lo :: enc)

/-- The body of the form with the two encoded texts. -/
def formBody (ssid pass : List UInt8) : List UInt8 :=
  ssidListKey ++ 0x3D :: (ssid ++ 0x26 :: ssidManualKey ++ 0x3D :: (0x26 :: passKey ++ 0x3D :: pass))

end Portal
end WirelessHub.Firmware
