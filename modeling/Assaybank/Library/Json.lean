import Assaybank.Library.Schema
import Assaybank.Runtime.NumberText

/-!
Owns `JSON.stringify` without indentation.

It does not own `JSON.parse`, nor the order in which an object lists members whose names are
integers.
-/

namespace Assaybank.Library

open Assaybank.Runtime

/-- A unit as four hexadecimal digits. -/
def hexText (c : CodeUnit) : JsString :=
  [c.toNat / 4096, c.toNat / 256 % 16, c.toNat / 16 % 16, c.toNat % 16].map fun digit =>
    (js "0123456789abcdef").getD digit 0

/-- A unit inside a JSON string, when it is no half of a pair. -/
def quoteUnit (c : CodeUnit) : JsString :=
  if c = unit '"' then js "\\\""
  else if c = unit '\\' then js "\\\\"
  else if c = 0x08 then js "\\b"
  else if c = 0x09 then js "\\t"
  else if c = 0x0A then js "\\n"
  else if c = 0x0C then js "\\f"
  else if c = 0x0D then js "\\r"
  else if c < 0x20 ∨ isHighSurrogate c ∨ isLowSurrogate c then js "\\u" ++ hexText c
  else [c]

def quoteUnits : JsString → JsString
  | [] => []
  | [c] => quoteUnit c
  | c :: d :: rest =>
      if isHighSurrogate c && isLowSurrogate d then c :: d :: quoteUnits rest
      else quoteUnit c ++ quoteUnits (d :: rest)

/-- `JSON.stringify` of a string. -/
def jsonString (s : JsString) : JsString := js "\"" ++ quoteUnits s ++ js "\""

mutual

/-- `JSON.stringify`. -/
def jsonText : Value → JsString
  | .null => js "null"
  | .bool b => js (if b then "true" else "false")
  | .number n => numberText n
  | .nonFinite => js "null"
  | .string s => jsonString s
  | .array items => js "[" ++ joinWith (js ",") (jsonItems items) ++ js "]"
  | .object members => js "\x7b" ++ joinWith (js ",") (jsonMembers members) ++ js "\x7d"

def jsonItems : List Value → List JsString
  | [] => []
  | item :: rest => jsonText item :: jsonItems rest

def jsonMembers : List (JsString × Value) → List JsString
  | [] => []
  | (name, value) :: rest => (jsonString name ++ js ":" ++ jsonText value) :: jsonMembers rest

end

end Assaybank.Library
