/-
Module: TrustRegion.Log.Filter
Purpose: Which events a listener hears, given as text: directives between commas, each naming a
  target and a level. Of the directives whose target an event's target begins with, the one with the
  longest target decides. Places in a directive are counted in bytes from where its blanks end, but
  its parts are cut from the text with these blanks.
Main exports: Directive, Directive.ofText, LogFilter, LogFilter.ofText?, LogFilter.hears
-/
import TrustRegion.Log
import TrustRegion.Log.FieldTest
import TrustRegion.Text.Bytes

namespace TrustRegion

/-- The least important level that is heard; nothing is heard without one. -/
abbrev LevelLimit := Option Level

/-- The rank of a limit: zero for none. -/
def LevelLimit.rank : LevelLimit → Nat
  | none => 0
  | some l => l.rank

/-- One rule of a filter. -/
structure Directive where
  target : Option String
  limit : LevelLimit
  /-- Inside which span the rule applies. -/
  span : Option String
  /-- What is asked of the fields of an event. -/
  fields : List FieldTest
deriving DecidableEq, Repr, Inhabited

namespace Directive

/-- Text without regard to the case of ASCII letters. -/
def sameIgnoringCase (a b : String) : Bool :=
  a.toList.map Char.toLower == b.toList.map Char.toLower

/-- A limit by its name, or by its rank with an optional plus sign. The empty text means errors. -/
def limitOfText? (s : String) : Option LevelLimit :=
  let named : List (String × LevelLimit) :=
    [("off", none), ("error", some .error), ("warn", some .warn), ("info", some .info),
      ("debug", some .debug), ("trace", some .trace)]
  let digits := match s.toList with
    | '+' :: rest => rest
    | all => all
  if !digits.isEmpty && digits.all Char.isDigit then
    named[digits.foldl (fun n c => 10 * n + (c.toNat - '0'.toNat)) 0]?.map Prod.snd
  else if s.isEmpty then some (some .error)
  else (named.find? fun entry => sameIgnoringCase entry.1 s).map Prod.snd

/-- Where the reading of a directive stands, with the place where the current part begins. -/
inductive Reading where
  | start
  | levelOrTarget (first : Nat)
  | span (first : Nat)
  | field (first : Nat)
  | fields
  | afterSpan
  | level (first : Nat)
deriving DecidableEq, Repr, Inhabited

/-- Why a text is no directive. -/
inductive Refusal where
  | malformed
  /-- A part begins or ends inside of a character. -/
  | cutCharacter
deriving DecidableEq, Repr, Inhabited

/-- The part of a text between two places. -/
def part (s : List Char) (first last : Nat) : Except Refusal String :=
  match Text.slice? s first last with
  | some part => .ok part
  | none => .error .cutCharacter

/-- Whether a directive may begin with a character. -/
def beginsWell (c : Char) : Bool :=
  c == '-' || c == ':' || c == '_' || Text.isAlphanumeric c

/-- Read one more character of a directive, which stands at the place `i`. -/
def readChar (s : List Char) (r : Reading) (d : Directive) (i : Nat) (c : Char) :
    Except Refusal (Reading × Directive) :=
  match r with
  | .start =>
      if c = '[' then .ok (.span (i + 1), d)
      else if beginsWell c then .ok (.levelOrTarget i, d)
      else .error .malformed
  | .levelOrTarget first =>
      if c = '=' then (part s first i).map fun t => (.level (i + 1), { d with target := some t })
      else if c = '[' then
        (part s first i).map fun t => (.span (i + 1), { d with target := some t })
      else .ok (r, d)
  | .span first =>
      if c = ']' then (part s first i).map fun t => (.afterSpan, { d with span := some t })
      else if c = '\x7b' then
        (part s first i).map fun t =>
          (.field (i + 1), { d with span := if t.isEmpty then none else some t })
      else .ok (r, d)
  | .field first =>
      if c = '\x7d' then
        match part s first i with
        | .error refusal => .error refusal
        | .ok t =>
            match FieldTest.ofText? t.toList with
            | some test => .ok (.fields, { d with fields := d.fields ++ [test] })
            | none => .error .malformed
      else .ok (r, d)
  | .fields => if c = ']' then .ok (.afterSpan, d) else .error .malformed
  | .afterSpan => if c = '=' then .ok (.level (i + 1), d) else .error .malformed
  | .level _ => .ok (r, d)

/-- Read the characters of a directive in order. -/
def readAll (s : List Char) :
    Reading → Directive → List (Char × Nat) → Except Refusal (Reading × Directive)
  | r, d, [] => .ok (r, d)
  | r, d, (c, i) :: rest =>
      match readChar s r d i c with
      | .ok (r, d) => readAll s r d rest
      | .error refusal => .error refusal

/-- Finish a directive where its text ends. A lone word is a level if there is one of that name and
a target heard at every level otherwise; a missing level means every level. -/
def finish (s : List Char) (r : Reading) (d : Directive) : Except Refusal Directive :=
  match r with
  | .levelOrTarget first =>
      (part s first (Text.byteLength s)).map fun word =>
        match limitOfText? word with
        | some limit => { d with limit, target := none }
        | none => { d with limit := some .trace, target := some word }
  | .level first =>
      match part s first (Text.byteLength s) with
      | .error refusal => .error refusal
      | .ok word =>
          if word.isEmpty then .ok { d with limit := some .trace }
          else
            match limitOfText? word with
            | some limit => .ok { d with limit }
            | none => .error .malformed
  | .afterSpan => .ok d
  | _ => .error .malformed

/-- A directive from its text. -/
def ofText (text : String) : Except Refusal Directive :=
  let s := text.toList
  let empty : Directive := { target := none, limit := some .trace, span := none, fields := [] }
  match readAll s .start empty (Text.byteOffsets 0 (Text.trimmed s)) with
  | .ok (r, d) => finish s r d
  | .error refusal => .error refusal

/-- Whether a directive can decide about an event outside of all spans. -/
def isStatic (d : Directive) : Bool :=
  d.span.isNone && d.fields.all fun test => test.value.isNone

/-- Whether a directive decides about events of a target. Events have one field, their message. -/
def concerns (d : Directive) (target : String) : Bool :=
  d.isStatic && d.fields.all (fun test => test.name == "message") &&
    match d.target with
    | none => true
    | some start => target.startsWith start

/-- How narrow a directive is: a longer target is narrower than any number of fields. -/
def narrowness (d : Directive) : Nat × Nat :=
  (match d.target with
    | none => 0
    | some t => t.utf8ByteSize + 1,
   d.fields.length)

/-- Whether a directive takes precedence over an earlier one. -/
def atLeastAsNarrow (d earlier : Directive) : Bool :=
  let (a, b) := d.narrowness
  let (a', b') := earlier.narrowness
  decide (a' < a) || (a == a' && decide (b' ≤ b))

end Directive

/-- A filter: its directives in the order of the text. -/
structure LogFilter where
  directives : List Directive
deriving Repr, Inhabited

namespace LogFilter

/-- The directives of the parts of a text, in order. A part that is malformed is passed over; if a
character is cut in one there are none at all. -/
def directivesOf? : List String → Option (List Directive)
  | [] => some []
  | text :: texts =>
      match Directive.ofText text with
      | .ok d => (directivesOf? texts).map (d :: ·)
      | .error .malformed => directivesOf? texts
      | .error .cutCharacter => none

/-- The filter that a text describes, unless a character is cut in it. If there are no directives
everything is heard up to `fallback`. -/
def ofText? (fallback : Level) (text : String) : Option LogFilter :=
  (directivesOf? (text.splitOn ",")).map fun directives =>
    if directives.isEmpty then
      ⟨[{ target := none, limit := some fallback, span := none, fields := [] }]⟩
    else ⟨directives⟩

/-- The directive that decides about a target: the narrowest one, and of equal ones the last. -/
def deciding (f : LogFilter) (target : String) : Option Directive :=
  (f.directives.filter fun d => d.concerns target).foldl
    (fun best d =>
      match best with
      | none => some d
      | some b => if d.atLeastAsNarrow b then some d else some b)
    none

/-- Whether events of a target and a level are heard. -/
def hears (f : LogFilter) (target : String) (level : Level) : Bool :=
  match f.deciding target with
  | none => false
  | some d => level.rank ≤ d.limit.rank

end LogFilter

end TrustRegion
