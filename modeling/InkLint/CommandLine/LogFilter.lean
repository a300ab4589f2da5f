import InkLint.Event
import InkLint.Text.Blank
import InkLint.Text.Pattern

/-!
# Log filters

A filter is a list of directives with commas between them. A directive has up to three parts: the
beginning of a source, a scope in square brackets, and a level after an equals sign. A scope names
a span, a field in braces, or both, and a field may come with a value. A level alone is for
everything, and a directive without a level shows everything it is about.

Fields are looked for in events, spans and values only in what surrounds an event. A run opens no
spans, so a directive that asks for a span or for a value decides nothing, though it must be well
formed like any other. Of the other directives that are about an event the most specific decides:
the one with the longest source, then one with a field.
-/

namespace InkLint

/-! ## Levels -/

/-- The level with a number. -/
def Level.ofRank? (n : Nat) : Option Level :=
  Level.all.find? (·.rank == n)

/-- The number a text of decimal digits stands for; a plus sign may stand in front. -/
def decimal? (text : List Char) : Option Nat :=
  let digits := if text.head? = some '+' then text.drop 1 else text
  if digits.isEmpty || !digits.all Char.isDigit then none
  else some (digits.foldl (fun n c => 10 * n + (c.toNat - '0'.toNat)) 0)

/-- The level a text names, by its number or by its name in any letter case. -/
def Level.ofText? (text : List Char) : Option Level :=
  match decimal? text with
  | some n => Level.ofRank? n
  | none => Level.all.find? (·.name.toList == text.map Char.toUpper)

/-! ## Values of fields -/

/-- Whether a text is a decimal number with a fraction or an exponent, without a sign. -/
def isDecimal (text : List Char) : Bool :=
  let mantissa := text.takeWhile fun c => c != 'e' && c != 'E'
  let digits := mantissa.filter (· != '.')
  let exponent := (text.drop mantissa.length).drop 1
  let unsigned :=
    if exponent.head? = some '+' ∨ exponent.head? = some '-' then exponent.drop 1 else exponent
  !digits.isEmpty && digits.all Char.isDigit && mantissa.length ≤ digits.length + 1 &&
    (mantissa.length == text.length || (!unsigned.isEmpty && unsigned.all Char.isDigit))

/-- Whether a text can be the value of a field: a number or a pattern. Only after a plus sign is a
number not a pattern anyway. -/
def isFieldValue (text : List Char) : Bool :=
  match text with
  | '+' :: rest =>
    isDecimal rest ||
      ["inf", "infinity", "nan"].contains (String.ofList (rest.map Char.toLower))
  | _ => isPattern text

/-! ## Directives -/

/-- A field that a directive asks for. -/
structure FieldTest where
  name : List Char
  /-- The value it must have, if that matters. -/
  value : Option (List Char) := none
deriving DecidableEq, Repr

/-- The test a text stands for; what follows a second equals sign is not looked at. -/
def FieldTest.parse? (text : List Char) : Option FieldTest :=
  match text.splitOn '=' with
  | [] => none
  | [name] => if name.isEmpty then none else some { name := name }
  | name :: value :: _ => if isFieldValue value then some ⟨name, some value⟩ else none

/-- How much is shown of certain events. -/
structure Directive where
  /-- How their source starts. -/
  source : List Char := []
  /-- The span around them. -/
  span : Option (List Char) := none
  /-- A field they have. -/
  field : Option FieldTest := none
  level : Level := .trace
deriving DecidableEq, Repr

namespace Directive

/-- Whether a source can start with this character. -/
def startsSource (c : Char) : Bool :=
  c == '-' || c == ':' || c == '_' || isLetter c || isNumber c

/-- A text without the blanks around it. -/
def trim (text : List Char) : List Char :=
  ((text.dropWhile isBlank).reverse.dropWhile isBlank).reverse

/-- The part of a text between two of its bytes. -/
def cut? (text : List Char) (start stop : Nat) : Option (List Char) :=
  Utf8.decode? (((Utf8.encode text).take stop).drop start)

/-- The part of a text from one of its bytes on. -/
def cutFrom? (text : List Char) (start : Nat) : Option (List Char) :=
  Utf8.decode? ((Utf8.encode text).drop start)

/-- The number of bytes of a text. -/
def width (text : List Char) : Nat :=
  (Utf8.encode text).length

/-- The directive with the level that stands from a byte on; an empty one shows everything. -/
def withLevel? (text : List Char) (start : Nat) (d : Directive) : Option Directive := do
  let level ← cutFrom? text start
  if level.isEmpty then return { d with level := .trace }
  else return { d with level := ← Level.ofText? level }

/-- Reads what follows a scope: nothing, or a level. -/
def readTail? (text : List Char) (pos : Nat) (d : Directive) : List Char → Option Directive
  | [] => some d
  | '=' :: _ => withLevel? text (pos + 1) d
  | _ => none

/-- Reads a field and what follows; the rest comes after the opening brace. -/
def readField? (text : List Char) (pos : Nat) (d : Directive) (rest : List Char) :
    Option Directive := do
  let next := pos + width (rest.takeWhile (· != '\x7d'))
  match rest.dropWhile (· != '\x7d') with
  | _ :: ']' :: rest =>
    let field ← FieldTest.parse? (← cut? text pos next)
    readTail? text (next + 2) { d with field := some field } rest
  | _ => none

/-- Reads a scope and what follows; the rest comes after the opening bracket. A span that is left
out before a field is none, but between brackets alone even an empty one counts. -/
def readScope? (text : List Char) (pos : Nat) (d : Directive) (rest : List Char) :
    Option Directive := do
  let isEnd (c : Char) : Bool := c == ']' || c == '\x7b'
  let next := pos + width (rest.takeWhile (!isEnd ·))
  match rest.dropWhile (!isEnd ·) with
  | ']' :: rest => readTail? text (next + 1) { d with span := ← cut? text pos next } rest
  | '\x7b' :: rest =>
    let span ← cut? text pos next
    let span := if span.isEmpty then none else some span
    readField? text (next + 1) { d with span := span } rest
  | _ => none

/-- The directive a text stands for. Blanks around it are skipped when its parts are told apart, but
the parts are then taken from the text with its blanks, at the same distances from its start. -/
def parse? (text : List Char) : Option Directive := do
  let isEnd (c : Char) : Bool := c == '=' || c == '['
  let core := trim text
  let next := width (core.takeWhile (!isEnd ·))
  match core.head?, core.dropWhile (!isEnd ·) with
  | some '[', _ => readScope? text 1 {} (core.drop 1)
  | some c, rest =>
    if startsSource c then
      match rest with
      | '=' :: _ => withLevel? text (next + 1) { source := ← cut? text 0 next }
      | '[' :: rest => readScope? text (next + 1) { source := ← cut? text 0 next } rest
      | _ =>
        match Level.ofText? text with
        | some level => some { level := level }
        | none => some { source := text }
    else none
  | none, _ => none

/-- Whether the directive can be about an event at all. -/
def isStatic (d : Directive) : Bool :=
  d.span.isNone && d.field.all (·.value.isNone)

/-- Whether the directive is about an event. A message is a field as well. -/
def covers (d : Directive) (e : Event) : Bool :=
  d.isStatic && d.source.isPrefixOf e.source.toList &&
    d.field.all fun field => ("message" :: e.fields.map (·.1)).contains (String.ofList field.name)

/-- Whether a directive is at least as specific as another about the same event. Of two with
different fields the one whose field comes later in the alphabet counts as more specific. -/
def overrides (d other : Directive) : Bool :=
  other.source.length < d.source.length ||
    (other.source.length == d.source.length &&
      match other.field, d.field with
      | none, _ => true
      | some _, none => false
      | some f, some g => !g.name.lex f.name (· < ·))

end Directive

/-! ## Filters -/

/-- A filter for events. -/
abbrev LogFilter := List Directive

namespace LogFilter

/-- The filter a text stands for, if every directive in it can be understood. -/
def parse? (text : List Char) : Option LogFilter :=
  ((text.splitOn ',').filter (!·.isEmpty)).mapM Directive.parse?

/-- The directive that decides about an event. -/
def deciding? (f : LogFilter) (e : Event) : Option Directive :=
  (f.filter (·.covers e)).foldl
    (fun best d => if best.all (d.overrides ·) then some d else best) none

/-- Whether an event is shown. -/
def enables (f : LogFilter) (e : Event) : Bool :=
  (f.deciding? e).any (e.level.rank ≤ ·.level.rank)

/-- The filter that shows warnings and errors. -/
def quiet : LogFilter :=
  [{ level := .warn }]

end LogFilter

end InkLint
