import Assaybank.Markdown.Ast

/-!
Owns the decision on a destination (`packages/markdown/src/url.ts`): character
references decoded once, the characters a browser drops removed, and the scheme
tested against the allow list. It proves that what `safeUrl` returns is already
in the form a browser resolves and is harmless there.
-/

namespace Assaybank.Markdown

open Assaybank.Runtime

/-- Schemes a prompt may link to, without the colon. -/
def ALLOWED_SCHEMES : List JsString := [js "http", js "https", js "mailto"]

/-- `[a-zA-Z0-9+\-.]`. -/
def isSchemeUnit (c : CodeUnit) : Bool :=
  isAlpha c || isDigit c || c == unit '+' || c == unit '-' || c == unit '.'

/-- `/^([a-zA-Z][a-zA-Z0-9+\-.]*):/u`: the scheme without its colon. -/
def scheme (url : JsString) : Option JsString :=
  match url with
  | [] => none
  | first :: rest =>
      if isAlpha first then
        let name := rest.takeWhile isSchemeUnit
        if rest[name.length]? = some (unit ':') then some (first :: name) else none
      else none

/-- `String.fromCodePoint`, for a code point already known to be in range. -/
def fromCodePoint (code : Nat) : JsString :=
  if code < 0x10000 then [code.toUInt16]
  else [(0xD800 + (code - 0x10000) / 0x400).toUInt16, (0xDC00 + (code - 0x10000) % 0x400).toUInt16]

/-- The reference that starts at an ampersand followed by `#`, when the text after
the two is `body`: its code and how many units of `body` it takes, semicolon
included. `/&#(?:([0-9]{1,7})|[xX]([0-9a-fA-F]{1,6}));/`. -/
def numericEntity (body : JsString) : Option (Nat × Nat) :=
  let decimal := body.takeWhile isDigit
  if 1 ≤ decimal.length ∧ decimal.length ≤ 7 ∧ body[decimal.length]? = some (unit ';') then
    some (parseDigits 10 decimal, decimal.length + 1)
  else
    match body with
    | [] => none
    | mark :: rest =>
        let hex := rest.takeWhile isHexDigit
        if (mark = unit 'x' ∨ mark = unit 'X') ∧ 1 ≤ hex.length ∧ hex.length ≤ 6 ∧
            rest[hex.length]? = some (unit ';') then
          some (parseDigits 16 hex, hex.length + 2)
        else none

/-- The replacement of numeric character references. A match whose code is not a
code point is left as it stands, and the scan goes on after it. -/
def decodeNumeric : JsString → JsString
  | [] => []
  | c :: rest =>
      match rest with
      | [] => [c]
      | d :: body =>
          if c = unit '&' ∧ d = unit '#' then
            match numericEntity body with
            | some (code, taken) =>
                (if 0 < code ∧ code ≤ 0x10FFFF then fromCodePoint code
                  else c :: d :: body.take taken) ++ decodeNumeric (body.drop taken)
            | none => c :: decodeNumeric (d :: body)
          else c :: decodeNumeric (d :: body)
termination_by s => s.length
decreasing_by all_goals simp_all; try omega

/-- The named references a destination can carry, in the order they are replaced. -/
def NAMED_ENTITIES : List (JsString × JsString) :=
  [(js "&amp;", js "&"), (js "&lt;", js "<"), (js "&gt;", js ">"), (js "&quot;", js "\""),
    (js "&apos;", js "'"), (js "&colon;", js ":"), (js "&NewLine;", js "\n"),
    (js "&Tab;", js "\t")]

def decodeEntities (input : JsString) : JsString :=
  NAMED_ENTITIES.foldl (fun out entity => replaceAll entity.1 entity.2 out) (decodeNumeric input)

/-- Tab, line feed and carriage return: dropped by a browser wherever they stand. -/
def isDropped (c : CodeUnit) : Bool := c == unit '\t' || c == unit '\n' || c == unit '\r'

/-- C0 controls and space: trimmed by a browser at both ends. -/
def isControlOrSpace (c : CodeUnit) : Bool := c ≤ 0x20

/-- Removes the characters a browser drops from a URL before parsing it. -/
def normalise (input : JsString) : JsString :=
  ((input.filter fun c => !isDropped c).dropWhile isControlOrSpace).rdropWhile isControlOrSpace

/-- The destination to use, or `none` if the prompt may not link to it. -/
def safeUrl (raw : JsString) : Option JsString :=
  let url := normalise (decodeEntities raw)
  if url = [] then none
  else
    match scheme url with
    | none => if url.head? = some (unit '\\') then none else some url
    | some name => if name.map lowerAscii ∈ ALLOWED_SCHEMES then some url else none

/-! ### What a browser sees -/

/-- What a browser does to an `href` before it parses it: tab, line feed and carriage
return go wherever they stand, C0 controls and spaces go at both ends. -/
def browserPreprocess (href : JsString) : JsString :=
  let removed := href.filter fun c => !(c == 0x09 || c == 0x0A || c == 0x0D)
  (removed.dropWhile fun c => c ≤ 0x20).rdropWhile fun c => c ≤ 0x20

/-- A destination that is harmless once a browser has preprocessed it: no scheme or an
allowed one, and no leading backslash. -/
structure SafeDestination (href : JsString) : Prop where
  allowed : ∀ name, scheme (browserPreprocess href) = some name →
    name.map lowerAscii ∈ ALLOWED_SCHEMES
  noBackslash : (browserPreprocess href).head? ≠ some (unit '\\')

theorem browserPreprocess_eq_normalise (href : JsString) :
    browserPreprocess href = normalise href := rfl

private theorem mem_normalise_kept {input : JsString} {c : CodeUnit}
    (member : c ∈ normalise input) : isDropped c = false := by
  unfold normalise at member
  have kept := (List.dropWhile_sublist isControlOrSpace).subset
    ((List.rdropWhile_prefix isControlOrSpace _).sublist.subset member)
  simpa using (List.mem_filter.mp kept).2

private theorem normalise_head (input : JsString) (c : CodeUnit)
    (first : (normalise input).head? = some c) : isControlOrSpace c = false := by
  unfold normalise at first
  generalize (input.filter fun c => !isDropped c) = stripped at first
  obtain ⟨tail, trimmed⟩ := List.rdropWhile_prefix isControlOrSpace
    (stripped.dropWhile isControlOrSpace)
  have head : (stripped.dropWhile isControlOrSpace).head? = some c := by
    rw [← trimmed]
    cases shape : (stripped.dropWhile isControlOrSpace).rdropWhile isControlOrSpace with
    | nil => simp [shape] at first
    | cons d rest => simpa [shape] using first
  have := List.head?_dropWhile_not isControlOrSpace stripped
  rw [head] at this
  simpa using this

/-- A browser's preprocessing changes nothing in what `normalise` returned. -/
theorem normalise_normalise (input : JsString) : normalise (normalise input) = normalise input := by
  have noneDropped : (normalise input).filter (fun c => !isDropped c) = normalise input :=
    List.filter_eq_self.mpr fun c member => by simp [mem_normalise_kept member]
  have noneLeading : (normalise input).dropWhile isControlOrSpace = normalise input := by
    cases shape : normalise input with
    | nil => rfl
    | cons c rest =>
        have := normalise_head input c (by rw [shape]; rfl)
        simp [this]
  have noneTrailing : (normalise input).rdropWhile isControlOrSpace = normalise input :=
    List.rdropWhile_idempotent isControlOrSpace _
  calc
    normalise (normalise input) =
        (((normalise input).filter fun c => !isDropped c).dropWhile
          isControlOrSpace).rdropWhile isControlOrSpace := rfl
    _ = normalise input := by rw [noneDropped, noneLeading, noneTrailing]

/-- A scheme starts with a letter, and a backslash is not one. -/
theorem scheme_head {url name : JsString} (found : scheme url = some name) :
    url.head? ≠ some (unit '\\') := by
  intro backslash
  cases url with
  | nil => cases backslash
  | cons first rest =>
      cases backslash
      simp [scheme, isAlpha, isLower, isUpper, unit] at found

theorem safeUrl_safe {raw href : JsString} (accepted : safeUrl raw = some href) :
    SafeDestination href := by
  have stable := normalise_normalise (decodeEntities raw)
  unfold safeUrl at accepted
  generalize normalise (decodeEntities raw) = url at accepted stable
  simp only at accepted
  split at accepted
  · cases accepted
  cases found : scheme url with
  | none =>
      simp only [found] at accepted
      split at accepted
      · cases accepted
      · rename_i noBackslash
        cases accepted
        refine ⟨fun name named => ?_, ?_⟩
        · rw [browserPreprocess_eq_normalise, stable, found] at named
          cases named
        · rw [browserPreprocess_eq_normalise, stable]
          exact noBackslash
  | some name =>
      simp only [found] at accepted
      split at accepted
      · rename_i allowed
        cases accepted
        refine ⟨fun other named => ?_, ?_⟩
        · rw [browserPreprocess_eq_normalise, stable, found] at named
          cases named
          exact allowed
        · rw [browserPreprocess_eq_normalise, stable]
          exact scheme_head found
      · cases accepted

end Assaybank.Markdown
