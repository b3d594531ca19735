import Assaybank.Runtime.Text

/-!
Owns the patterns of the runtime's regular expressions: the tokens a pattern is read
into, the tree they make, and which patterns are refused. Nothing here knows the
repository.

Contract: `compile` follows the grammar of the language's 2024 edition, the legacy
syntax of patterns without the `u` flag included. What Unicode assigns (case folding,
properties, identifier characters) is a parameter, `Tables`. It does not own matching.
-/

namespace Assaybank.Runtime.RegExp

/-- The flags a pattern is compiled with. `g` and `y` belong to repeated matching. -/
structure Flags where
  ignoreCase : Bool
  multiline : Bool
  dotAll : Bool
  unicode : Bool
deriving DecidableEq, Repr

/-- What the runtime takes from Unicode. -/
structure Tables where
  /-- `Canonicalize` under `i`: simple case folding with `u`, upper-casing without. -/
  canonicalize : Bool → Nat → Nat
  /-- The set a property escape names; `none` where there is no such property. -/
  property : JsString → Option (Nat → Bool)
  isIdStart : Nat → Bool
  isIdPart : Nat → Bool

/-! ### Trees -/

/-- The sets of the class escapes. -/
inductive EscapeSet where
  | digit
  | space
  | word
  | property (name : JsString)
deriving DecidableEq, Repr

/-- What a character class is made of. -/
inductive ClassItem where
  | single (code : Nat)
  | range (low high : Nat)
  | escape (set : EscapeSet) (negated : Bool)
deriving DecidableEq, Repr

/-- The name of a capturing group, by code points. -/
abbrev GroupName := List Nat

/-- A pattern. -/
inductive Node where
  | empty
  | seq (first second : Node)
  | alt (first second : Node)
  | char (code : Nat)
  | any
  | charClass (items : List ClassItem) (negated : Bool)
  | lineStart
  | lineEnd
  | wordBoundary (negated : Bool)
  | backreference (index : Nat)
  | namedReference (name : GroupName)
  | group (inner : Node)
  | capture (index : Nat) (inner : Node)
  | look (behind negated : Bool) (inner : Node)
  | repetition (inner : Node) (min : Nat) (max : Option Nat) (greedy : Bool)
deriving DecidableEq, Repr

/-- How a group opens. -/
inductive GroupStart where
  | nonCapturing
  | capturing (name : Option GroupName)
  | look (behind negated : Bool)
deriving DecidableEq, Repr

inductive Token where
  /-- A term of its own, and whether a quantifier may follow it. -/
  | term (node : Node) (quantifiable : Bool)
  | quantifier (min : Nat) (max : Option Nat) (greedy : Bool)
  | bar
  | openGroup (start : GroupStart)
  | closeGroup
  | openClass (negated : Bool)
  | classAtom (item : ClassItem)
  | classDash
  | closeClass
deriving DecidableEq, Repr

/-! ### Escapes -/

/-- What reading a pattern depends on: `named` says whether `\k` is a reference, and
`groups` is how many groups the whole pattern captures. -/
structure Context where
  tables : Tables
  unicode : Bool
  named : Bool
  groups : Nat

def isOctalDigit (c : CodeUnit) : Bool := unit '0' ≤ c && c ≤ unit '7'

/-- `^ $ \ . * + ? ( ) [ ] { } |` and `/`. -/
def isSyntaxUnit (c : CodeUnit) : Bool := (js "^$\\.*+?()[]\x7b\x7d|/").contains c

/-- The code point of a surrogate pair. -/
def pairCode (high low : CodeUnit) : Nat :=
  0x10000 + (high.toNat - 0xD800) * 0x400 + (low.toNat - 0xDC00)

/-- A unit of the pattern and, with `u`, the second half of its surrogate pair. -/
def sourceCharacter (unicode : Bool) (c : CodeUnit) (rest : JsString) : Nat × JsString :=
  match rest with
  | d :: more =>
      if unicode && isHighSurrogate c && isLowSurrogate d then (pairCode c d, more)
      else (c.toNat, rest)
  | [] => (c.toNat, rest)

/-- `count` hexadecimal digits. -/
def hexDigits (count : Nat) (s : JsString) : Option (Nat × JsString) :=
  if (s.take count).length = count ∧ (s.take count).all isHexDigit then
    some (parseDigits 16 (s.take count), s.drop count)
  else none

/-- The code of a `\u` escape after its `u`: four digits, a surrogate pair of two such
escapes, or with `u` any code point in braces. -/
def unicodeEscape (unicode : Bool) (s : JsString) : Option (Nat × JsString) :=
  match hexDigits 4 s with
  | some (code, rest) =>
      if unicode && isHighSurrogate code.toUInt16 && (js "\\u").isPrefixOf rest then
        match hexDigits 4 (rest.drop 2) with
        | some (second, after) =>
            if isLowSurrogate second.toUInt16 then
              some (pairCode code.toUInt16 second.toUInt16, after)
            else some (code, rest)
        | none => some (code, rest)
      else some (code, rest)
  | none =>
      if unicode && s.head? = some (unit '\x7b') then
        let digits := s.tail.takeWhile isHexDigit
        if digits ≠ [] ∧ s.tail[digits.length]? = some (unit '\x7d') ∧
            parseDigits 16 digits ≤ 0x10FFFF then
          some (parseDigits 16 digits, s.tail.drop (digits.length + 1))
        else none
      else none

/-- A legacy octal escape: up to three digits after `0` to `3`, up to two after `4` to `7`. -/
def legacyOctal (s : JsString) : Nat × JsString :=
  let longest := if s.head?.any (· ≤ unit '3') then 3 else 2
  let digits := (s.takeWhile isOctalDigit).take longest
  (parseDigits 8 digits, s.drop digits.length)

/-- The character an escape stands for, when what follows the backslash is `c :: rest`. -/
def characterEscape (context : Context) (c : CodeUnit) (rest : JsString) :
    Option (Nat × JsString) :=
  if c = unit 'f' then some (0x0C, rest)
  else if c = unit 'n' then some (0x0A, rest)
  else if c = unit 'r' then some (0x0D, rest)
  else if c = unit 't' then some (0x09, rest)
  else if c = unit 'v' then some (0x0B, rest)
  else if c = unit 'c' then
    if rest.head?.any isAlpha then some ((rest.headD 0).toNat % 32, rest.tail)
    else if context.unicode then none
    else some ((unit '\\').toNat, c :: rest)
  else if context.unicode && c = unit '0' then
    if rest.head?.any isDigit then none else some (0, rest)
  else if !context.unicode && isOctalDigit c then some (legacyOctal (c :: rest))
  else if c = unit 'x' ∧ (hexDigits 2 rest).isSome then hexDigits 2 rest
  else if c = unit 'u' ∧ (unicodeEscape context.unicode rest).isSome then
    unicodeEscape context.unicode rest
  else if context.unicode then
    if isSyntaxUnit c then some (c.toNat, rest) else none
  else if context.named && c = unit 'k' then none
  else some (c.toNat, rest)

/-- `\d`, `\s`, `\w` and their complements. -/
def simpleSet (c : CodeUnit) : Option (EscapeSet × Bool) :=
  if c = unit 'd' then some (.digit, false)
  else if c = unit 'D' then some (.digit, true)
  else if c = unit 's' then some (.space, false)
  else if c = unit 'S' then some (.space, true)
  else if c = unit 'w' then some (.word, false)
  else if c = unit 'W' then some (.word, true)
  else none

/-- What stands in delimiters, and the text after the closing one. -/
def delimited (opening closing : CodeUnit) (s : JsString) : Option (JsString × JsString) :=
  let inner := s.tail.takeWhile (· != closing)
  if s.head? = some opening ∧ s.tail[inner.length]? = some closing then
    some (inner, s.tail.drop (inner.length + 1))
  else none

/-- A class escape, when what follows the backslash is `c :: rest`; `some none` is one that
is refused. -/
def classEscape (context : Context) (c : CodeUnit) (rest : JsString) :
    Option (Option ((EscapeSet × Bool) × JsString)) :=
  match simpleSet c with
  | some set => some (some (set, rest))
  | none =>
      if context.unicode && (c = unit 'p' || c = unit 'P') then
        match delimited (unit '\x7b') (unit '\x7d') rest with
        | some (name, after) =>
            if (context.tables.property name).isSome then
              some (some ((.property name, decide (c = unit 'P')), after))
            else some none
        | none => some none
      else none

/-! ### Group names -/

/-- The code points of a group name, its escapes read. -/
def nameCodes (s : JsString) : Option (List Nat) :=
  match s with
  | [] => some []
  | c :: rest =>
      if c = unit '\\' then
        match rest with
        | [] => none
        | u :: after =>
            if u = unit 'u' then
              match unicodeEscape true after with
              | some (code, more) =>
                  if more.length ≤ after.length then (nameCodes more).map (code :: ·) else none
              | none => none
            else none
      else
        match rest with
        | [] => some [c.toNat]
        | d :: more =>
            if isHighSurrogate c && isLowSurrogate d then
              (nameCodes more).map (pairCode c d :: ·)
            else (nameCodes (d :: more)).map (c.toNat :: ·)
termination_by s.length
decreasing_by all_goals simp_all; try omega

/-- A name that may be given to a group. -/
def isGroupName (tables : Tables) (name : GroupName) : Bool :=
  match name with
  | [] => false
  | first :: rest =>
      let isMark := fun code => code == (unit '$').toNat || code == (unit '_').toNat
      (tables.isIdStart first || isMark first) &&
        rest.all fun code =>
          tables.isIdPart code || isMark code || code == 0x200C || code == 0x200D

/-- `<name>`. -/
def groupName (tables : Tables) (s : JsString) : Option (GroupName × JsString) :=
  match delimited (unit '<') (unit '>') s with
  | none => none
  | some (source, after) =>
      match nameCodes source with
      | none => none
      | some name => if isGroupName tables name then some (name, after) else none

/-! ### Tokens -/

/-- `{n}`, `{n,}` or `{n,m}`. -/
def bracedBounds (s : JsString) : Option ((Nat × Option Nat) × JsString) :=
  let low := s.tail.takeWhile isDigit
  let after := s.tail.drop low.length
  if s.head? = some (unit '\x7b') ∧ low ≠ [] then
    if after.head? = some (unit '\x7d') then
      some ((parseDigits 10 low, some (parseDigits 10 low)), after.tail)
    else if after.head? = some (unit ',') then
      let high := after.tail.takeWhile isDigit
      let last := after.tail.drop high.length
      if last.head? = some (unit '\x7d') then
        some ((parseDigits 10 low, if high = [] then none else some (parseDigits 10 high)),
          last.tail)
      else none
    else none
  else none

/-- The bounds of a quantifier. -/
def quantifierBounds (s : JsString) : Option ((Nat × Option Nat) × JsString) :=
  if s.head? = some (unit '*') then some ((0, none), s.tail)
  else if s.head? = some (unit '+') then some ((1, none), s.tail)
  else if s.head? = some (unit '?') then some ((0, some 1), s.tail)
  else bracedBounds s

/-- The opening of a group after its parenthesis. -/
def groupStart (tables : Tables) (rest : JsString) : Option (GroupStart × JsString) :=
  if rest.head? = some (unit '?') then
    let mark := rest.tail
    if mark.head? = some (unit ':') then some (.nonCapturing, mark.tail)
    else if mark.head? = some (unit '=') then some (.look false false, mark.tail)
    else if mark.head? = some (unit '!') then some (.look false true, mark.tail)
    else if (js "<=").isPrefixOf mark then some (.look true false, mark.drop 2)
    else if (js "<!").isPrefixOf mark then some (.look true true, mark.drop 2)
    else (groupName tables mark).map fun found => (.capturing (some found.1), found.2)
  else some (.capturing none, rest)

/-- What a backslash outside a class starts, when what follows it is `c :: rest`. -/
def escapeToken (context : Context) (c : CodeUnit) (rest : JsString) : Option (Token × JsString) :=
  if c = unit 'b' then some (.term (.wordBoundary false) false, rest)
  else if c = unit 'B' then some (.term (.wordBoundary true) false, rest)
  else
    match classEscape context c rest with
    | some found =>
        found.map fun set => (.term (.charClass [.escape set.1.1 set.1.2] false) true, set.2)
    | none =>
        let digits := (c :: rest).takeWhile isDigit
        let index := parseDigits 10 digits
        if isDigit c && c != unit '0' && index ≤ context.groups then
          some (.term (.backreference index) true, (c :: rest).drop digits.length)
        else if context.named && c = unit 'k' then
          (groupName context.tables rest).map fun found =>
            (.term (.namedReference found.1) true, found.2)
        else
          (characterEscape context c rest).map fun found => (.term (.char found.1) true, found.2)

/-- The token a unit outside a class starts, and whether a class opens with it. -/
def termToken (context : Context) (c : CodeUnit) (rest : JsString) :
    Option (Token × Bool × JsString) :=
  if c = unit '^' then some (.term .lineStart false, false, rest)
  else if c = unit '$' then some (.term .lineEnd false, false, rest)
  else if c = unit '.' then some (.term .any true, false, rest)
  else if c = unit '|' then some (.bar, false, rest)
  else if c = unit ')' then some (.closeGroup, false, rest)
  else if c = unit '(' then
    (groupStart context.tables rest).map fun found => (.openGroup found.1, false, found.2)
  else if c = unit '[' then
    if rest.head? = some (unit '^') then some (.openClass true, true, rest.tail)
    else some (.openClass false, true, rest)
  else if c = unit '\\' then
    match rest with
    | [] => none
    | d :: after => (escapeToken context d after).map fun found => (found.1, false, found.2)
  else
    match quantifierBounds (c :: rest) with
    | some ((min, max), after) =>
        if max.any (· < min) then none
        else if after.head? = some (unit '?') then some (.quantifier min max false, false, after.tail)
        else some (.quantifier min max true, false, after)
    | none =>
        if context.unicode && (c = unit '\x7b' || c = unit '\x7d' || c = unit ']') then none
        else
          let found := sourceCharacter context.unicode c rest
          some (.term (.char found.1) true, false, found.2)

/-- What a backslash inside a class starts, when what follows it is `c :: rest`. -/
def classEscapeToken (context : Context) (c : CodeUnit) (rest : JsString) :
    Option (ClassItem × JsString) :=
  if c = unit 'b' then some (.single 0x08, rest)
  else if context.unicode && c = unit '-' then some (.single (unit '-').toNat, rest)
  else if !context.unicode && c = unit 'c' &&
      rest.head?.any (fun d => isDigit d || d == unit '_') then
    some (.single ((rest.headD 0).toNat % 32), rest.tail)
  else
    match classEscape context c rest with
    | some found => found.map fun set => (.escape set.1.1 set.1.2, set.2)
    | none => (characterEscape context c rest).map fun found => (.single found.1, found.2)

/-- The token a unit inside a class starts, and whether the class goes on after it. -/
def classToken (context : Context) (c : CodeUnit) (rest : JsString) :
    Option (Token × Bool × JsString) :=
  if c = unit ']' then some (.closeClass, false, rest)
  else if c = unit '-' then some (.classDash, true, rest)
  else if c = unit '\\' then
    match rest with
    | [] => none
    | d :: after =>
        (classEscapeToken context d after).map fun found => (.classAtom found.1, true, found.2)
  else
    let found := sourceCharacter context.unicode c rest
    some (.classAtom (.single found.1), true, found.2)

/-- The tokens of a pattern from a unit on; `inClass` says whether a class is open there. -/
def tokens (context : Context) (inClass : Bool) (s : JsString) : Option (List Token) :=
  match s with
  | [] => if inClass then none else some []
  | c :: rest =>
      match if inClass then classToken context c rest else termToken context c rest with
      | none => none
      | some (token, inClass, after) =>
          if after.length < (c :: rest).length then
            (tokens context inClass after).map (token :: ·)
          else none
termination_by s.length
decreasing_by assumption

/-- How many groups a pattern captures, and whether it names one: a first reading that skips
escapes and classes. -/
def captures (inClass : Bool) : JsString → Nat × Bool
  | [] => (0, false)
  | [c] => (if !inClass && c = unit '(' then 1 else 0, false)
  | c :: d :: rest =>
      if c = unit '\\' then captures inClass rest
      else if inClass then captures (c != unit ']') (d :: rest)
      else if c = unit '[' then captures true (d :: rest)
      else if c = unit '(' then
        let (count, named) := captures false (d :: rest)
        if d != unit '?' then (count + 1, named)
        else if rest.head? = some (unit '<') ∧ rest[1]? ≠ some (unit '=') ∧
            rest[1]? ≠ some (unit '!') then
          (count + 1, true)
        else (count, named)
      else captures false (d :: rest)

/-! ### Parsing -/

/-- A disjunction that is being read: its alternatives so far and the terms of the current
one, last first, each with whether a quantifier may follow. -/
structure Branch where
  alternatives : List Node
  terms : List (Node × Bool)

def Branch.start : Branch := ⟨[], []⟩

def Branch.push (branch : Branch) (node : Node) (quantifiable : Bool) : Branch :=
  { branch with terms := (node, quantifiable) :: branch.terms }

/-- The terms of the current alternative, one after the other. -/
def Branch.sequence (branch : Branch) : Node :=
  branch.terms.foldl (fun node term => .seq term.1 node) .empty

/-- The disjunction. -/
def Branch.node (branch : Branch) : Node :=
  branch.alternatives.foldl (fun node alternative => .alt alternative node) branch.sequence

/-- The class that is being read: its items, last first, and what may start a range. -/
structure ClassState where
  negated : Bool
  items : List ClassItem
  pending : Option ClassItem
  /-- A `-` after the pending item. -/
  dash : Bool

/-- What two items with a `-` between them add to a class. -/
def rangeItems (unicode : Bool) (low high : ClassItem) : Option (List ClassItem) :=
  match low, high with
  | .single first, .single last => if first ≤ last then some [.range first last] else none
  | _, _ => if unicode then none else some [low, .single (unit '-').toNat, high]

/-- Reads an item of a class. -/
def ClassState.add (unicode : Bool) (state : ClassState) (item : ClassItem) : Option ClassState :=
  match state.pending with
  | none => some { state with pending := some item }
  | some low =>
      if state.dash then
        (rangeItems unicode low item).map fun items =>
          { state with items := items ++ state.items, pending := none, dash := false }
      else some { state with items := low :: state.items, pending := some item }

/-- Reads a `-` in a class. -/
def ClassState.addDash (unicode : Bool) (state : ClassState) : Option ClassState :=
  if state.pending.isSome && !state.dash then some { state with dash := true }
  else state.add unicode (.single (unit '-').toNat)

/-- The items of a class that ends. -/
def ClassState.close (state : ClassState) : List ClassItem :=
  (if state.dash then [.single (unit '-').toNat] else []) ++ state.pending.toList ++ state.items

/-- A group that is being read, or an assertion. -/
inductive Opener where
  | nonCapturing
  | capturing (index : Nat)
  | look (behind negated : Bool)
deriving DecidableEq, Repr

/-- The term a group makes when it closes, and whether a quantifier may follow. Without `u`
it may follow a lookahead. -/
def Opener.term (unicode : Bool) (inner : Node) : Opener → Node × Bool
  | .nonCapturing => (.group inner, true)
  | .capturing index => (.capture index inner, true)
  | .look behind negated => (.look behind negated inner, !behind && !unicode)

structure ParseState where
  inner : Branch
  /-- The groups around it, innermost first, with the disjunction each stands in. -/
  outer : List (Opener × Branch)
  openClass : Option ClassState
  groups : Nat
  names : List (GroupName × Nat)

def ParseState.start : ParseState := ⟨.start, [], none, 0, []⟩

def ParseState.push (state : ParseState) (node : Node) (quantifiable : Bool) : ParseState :=
  { state with inner := state.inner.push node quantifiable }

/-- Opens a group. -/
def ParseState.enter (state : ParseState) (start : GroupStart) : ParseState :=
  match start with
  | .nonCapturing =>
      { state with inner := .start, outer := (.nonCapturing, state.inner) :: state.outer }
  | .look behind negated =>
      { state with inner := .start, outer := (.look behind negated, state.inner) :: state.outer }
  | .capturing name =>
      { state with
        inner := .start
        outer := (.capturing (state.groups + 1), state.inner) :: state.outer
        groups := state.groups + 1
        names := (name.map fun given => (given, state.groups + 1)).toList ++ state.names }

/-- Reads one token. -/
def ParseState.step (unicode : Bool) (state : ParseState) (token : Token) : Option ParseState :=
  match token with
  | .term node quantifiable => some (state.push node quantifiable)
  | .quantifier min max greedy =>
      match state.inner.terms with
      | (node, true) :: rest =>
          some { state with
            inner := { state.inner with terms := (.repetition node min max greedy, false) :: rest } }
      | _ => none
  | .bar =>
      some { state with inner := ⟨state.inner.sequence :: state.inner.alternatives, []⟩ }
  | .openGroup start => some (state.enter start)
  | .closeGroup =>
      match state.outer with
      | [] => none
      | (opener, branch) :: rest =>
          let term := opener.term unicode state.inner.node
          some { state with inner := branch.push term.1 term.2, outer := rest }
  | .openClass negated => some { state with openClass := some ⟨negated, [], none, false⟩ }
  | .classAtom item =>
      state.openClass.bind fun open_ =>
        (open_.add unicode item).map fun next => { state with openClass := some next }
  | .classDash =>
      state.openClass.bind fun open_ =>
        (open_.addDash unicode).map fun next => { state with openClass := some next }
  | .closeClass =>
      state.openClass.map fun open_ =>
        { (state.push (.charClass open_.close open_.negated) true) with openClass := none }

/-- A pattern that has been compiled, with the numbers of its named groups. -/
structure Compiled where
  node : Node
  names : List (GroupName × Nat)

/-- Whether a token refers to a group by a name the pattern gives. -/
def Token.isKnown (names : List (GroupName × Nat)) : Token → Bool
  | .term (.namedReference name) _ => names.any (·.1 == name)
  | _ => true

/-- The context a pattern is read in. -/
def contextOf (tables : Tables) (flags : Flags) (pattern : JsString) : Context :=
  let found := captures false pattern
  ⟨tables, flags.unicode, flags.unicode || found.2, found.1⟩

/-- The pattern a list of tokens makes. -/
def parse (unicode : Bool) (read : List Token) : Option Compiled :=
  match read.foldlM (ParseState.step unicode) ParseState.start with
  | none => none
  | some state =>
      if state.outer.isEmpty ∧ state.openClass.isNone ∧ (state.names.map Prod.fst).Nodup ∧
          read.all (Token.isKnown state.names) then
        some ⟨state.inner.node, state.names⟩
      else none

/-- `new RegExp(pattern, flags)`; `none` where it throws. -/
def compile (tables : Tables) (flags : Flags) (pattern : JsString) : Option Compiled :=
  (tokens (contextOf tables flags pattern) false pattern).bind (parse flags.unicode)

end Assaybank.Runtime.RegExp
