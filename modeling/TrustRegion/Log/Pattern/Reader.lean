/-
Module: TrustRegion.Log.Pattern.Reader
Purpose: Patterns from their text. The text comes from between braces and never holds a closing one,
  so neither a counted repetition nor anything else that ends with such a brace can be complete.
Main exports: Pattern.ofText?, Pattern.isPattern
-/
import TrustRegion.Log.Pattern
import TrustRegion.Text.Alphabet
import TrustRegion.Text.Blank

namespace TrustRegion.Pattern

/-! ### Blanks -/

/-- What follows blanks and comments. A comment goes from a number sign to the end of the line. -/
def skipBlanks (inComment : Bool) : List Char → List Char
  | [] => []
  | c :: s =>
      if inComment then skipBlanks (c != '\n') s
      else if Text.isBlank c then skipBlanks false s
      else if c = '#' then skipBlanks true s
      else c :: s

/-- What is left to read: in verbose mode blanks and comments are passed over. -/
def skip (verbose : Bool) (s : List Char) : List Char :=
  if verbose then skipBlanks false s else s

/-! ### Escapes -/

/-- The value of a hexadecimal digit. -/
def hexDigit? (c : Char) : Option Nat :=
  if c.isDigit then some (c.toNat - '0'.toNat)
  else if 'a' ≤ c ∧ c ≤ 'f' then some (c.toNat - 'a'.toNat + 10)
  else if 'A' ≤ c ∧ c ≤ 'F' then some (c.toNat - 'A'.toNat + 10)
  else none

/-- Read so many hexadecimal digits more. -/
def readHex (verbose : Bool) : (count value : Nat) → List Char → Option (Nat × List Char)
  | 0, value, s => some (value, s)
  | count + 1, value, s =>
      match skip verbose s with
      | [] => none
      | c :: s =>
          match hexDigit? c with
          | some digit => readHex verbose count (16 * value + digit) s
          | none => none

/-- How many hexadecimal digits follow a letter that announces a code point. -/
def hexLength? : Char → Option Nat
  | 'x' => some 2
  | 'u' => some 4
  | 'U' => some 8
  | _ => none

/-- The control character that a letter stands for. -/
def control? : Char → Option Char
  | 'a' => some '\x07'
  | 'f' => some '\x0c'
  | 't' => some '\t'
  | 'n' => some '\n'
  | 'r' => some '\r'
  | 'v' => some '\x0b'
  | _ => none

/-- What a single character stands for after a backslash. An ASCII character that is neither a letter
nor a digit stands for itself. -/
def escaped? (c : Char) : Option Pattern :=
  if c = 'd' ∨ c = 's' ∨ c = 'w' then some (.shorthand false)
  else if c = 'D' ∨ c = 'S' ∨ c = 'W' then some (.shorthand true)
  else if c = 'A' ∨ c = 'z' then some .lineEdge
  else if c = 'b' ∨ c = 'B' ∨ c = '<' ∨ c = '>' then some .wordEdge
  else
    match control? c with
    | some c => some (.char ⟨c, false⟩)
    | none => if c.isAlphanum || 128 ≤ c.toNat then none else some (.char ⟨c, false⟩)

/-- Read what follows a backslash. -/
def readEscape (verbose : Bool) : List Char → Option (Pattern × List Char)
  | [] => none
  | c :: s =>
      match hexLength? c with
      | none => (escaped? c).map fun p => (p, s)
      | some count =>
          match readHex verbose count 0 s with
          | none => none
          | some (value, s) =>
              if value.isValidChar then some (.char ⟨Char.ofNat value, c = 'x'⟩, s) else none

/-! ### Sets -/

/-- The names of the classes of ASCII characters. -/
def classNames : List String :=
  ["alnum", "alpha", "ascii", "blank", "cntrl", "digit", "graph", "lower", "print", "punct",
    "space", "upper", "word", "xdigit"]

/-- Read the name of a class after its opening bracket, and whether the class is negated. -/
def readClassName : List Char → Option (Bool × List Char)
  | ':' :: s =>
      let negated := s.head? == some '^'
      let s := if negated then s.drop 1 else s
      let name := s.takeWhile (· != ':')
      match s.drop name.length with
      | ':' :: ']' :: s =>
          if classNames.contains (String.ofList name) then some (negated, s) else none
      | _ => none
  | _ => none

/-- Read one character or one shorthand between brackets. -/
def readSetChar (verbose : Bool) : List Char → Option (PatternItem × List Char)
  | [] => none
  | '\\' :: s =>
      match readEscape verbose s with
      | some (.char c, s) => some (.single c, s)
      | some (.shorthand negated, s) => some (.shorthand negated, s)
      | _ => none
  | c :: s => some (.single ⟨c, false⟩, s)

/-- What stands after a dash, to tell a range from a dash that is an item. In verbose mode blanks do
not count. Of a comment its first character counts, and of blanks alone the first blank. -/
def afterDash? (verbose : Bool) (s : List Char) : Option Char :=
  if verbose then
    match s.dropWhile Text.isBlank with
    | '#' :: comment => (comment.dropWhile Text.isBlank).head?.or s.head?
    | rest => rest.head?.or s.head?
  else s.head?

/-- Outside of verbose mode it is the next character. -/
@[simp] theorem afterDash?_false (s : List Char) : afterDash? false s = s.head? := by
  simp [afterDash?]

/-- Read a range between brackets, or one item that begins none. A dash before another one or before
a closing bracket begins no range. -/
def readRange (verbose : Bool) (s : List Char) : Option (PatternItem × List Char) :=
  match readSetChar verbose s with
  | none => none
  | some (first, s) =>
      match skip verbose s with
      | '-' :: s =>
          let next := afterDash? verbose s
          if next = some ']' ∨ next = some '-' then some (first, '-' :: s)
          else
            match first, readSetChar verbose (skip verbose s) with
            | .single a, some (.single b, s) =>
                if a.char ≤ b.char then some (.range a b, s) else none
            | _, _ => none
      | s => some (first, s)

/-- Whether a set is negated, and what follows. -/
def readNegation (verbose : Bool) (s : List Char) : Bool × List Char :=
  match skip verbose s with
  | '^' :: s => (true, s)
  | s => (false, s)

/-- A set whose last items are given in reverse. -/
def closeSet (left : Option PatternSet) (items : List PatternItem) : PatternSet :=
  match left with
  | none => .items items.reverse
  | some left => .combined left (.items items.reverse)

/-- Whether a text begins with an operator on sets. -/
def startsWithOperator : List Char → Bool
  | '&' :: '&' :: _ => true
  | '-' :: '-' :: _ => true
  | '~' :: '~' :: _ => true
  | _ => false

/-- Read a set up to its closing bracket. While it is `leading`, dashes are items, and so is a closing
bracket that comes first. The fuel is more than the length of the text. -/
def readSet (verbose : Bool) : (fuel : Nat) → (leading : Bool) → (left : Option PatternSet) →
    (items : List PatternItem) → List Char → Option (PatternSet × List Char)
  | 0, _, _, _, _ => none
  | fuel + 1, leading, left, items, s =>
      match skip verbose s with
      | [] => none
      | c :: s =>
          if leading && c = '-' then
            readSet verbose fuel true left (.single ⟨c, false⟩ :: items) s
          else if c = ']' then
            if leading && items.isEmpty then
              readSet verbose fuel false left [.single ⟨c, false⟩] s
            else some (closeSet left items, s)
          else if c = '[' then
            match readClassName s with
            | some (negated, s) => readSet verbose fuel false left (.named negated :: items) s
            | none =>
                let (negated, s) := readNegation verbose s
                match readSet verbose fuel true none [] s with
                | some (set, s) => readSet verbose fuel false left (.nested negated set :: items) s
                | none => none
          else if startsWithOperator (c :: s) then
            readSet verbose fuel false (some (closeSet left items)) [] (s.drop 1)
          else
            match readRange verbose (c :: s) with
            | some (item, s) => readSet verbose fuel false left (item :: items) s
            | none => none

/-! ### Groups -/

/-- The flag of a letter. -/
def flag? : Char → Option Flag
  | 'i' => some .ignoreCase
  | 'm' => some .multiLine
  | 's' => some .dotAll
  | 'U' => some .swapGreed
  | 'u' => some .unicode
  | 'R' => some .carriageReturn
  | 'x' => some .verbose
  | _ => none

/-- Read flags up to the colon that begins a group or the parenthesis that ends a change. A flag is
named once, and a dash, which turns the flags after it off, comes once and not last. -/
def readFlags (on afterDash : Bool) (changes : FlagChanges) :
    List Char → Option (FlagChanges × Bool × List Char)
  | [] => none
  | c :: s =>
      if c = ':' ∨ c = ')' then
        if afterDash then none else some (changes.reverse, c = ':', s)
      else if c = '-' then
        if on then readFlags false true changes s else none
      else
        match flag? c with
        | none => none
        | some flag =>
            if changes.any fun change => change.1 = flag then none
            else readFlags on false ((flag, on) :: changes) s

/-- Whether a name of a group is well formed. -/
def isGroupName : List Char → Bool
  | [] => false
  | c :: s =>
      (c == '_' || Text.isLetter c) &&
        s.all fun c =>
          c == '_' || c == '.' || c == '[' || c == ']' || Text.isAlphanumeric c

/-- What an opening parenthesis begins. -/
inductive Opening where
  | group (changes : FlagChanges)
  | namedGroup (name : List Char)
  | flags (changes : FlagChanges)
deriving Repr, Inhabited

/-- Read the name of a group up to its closing angle bracket. -/
def readGroupName (s : List Char) : Option (Opening × List Char) :=
  let name := s.takeWhile (· != '>')
  match s.drop name.length with
  | '>' :: s => if isGroupName name then some (.namedGroup name, s) else none
  | _ => none

/-- Read what follows an opening parenthesis. -/
def readOpening : List Char → Option (Opening × List Char)
  | '?' :: 'P' :: '<' :: s => readGroupName s
  | '?' :: '<' :: s => readGroupName s
  | '?' :: s =>
      match readFlags true false [] s with
      | some (changes, true, s) => some (.group changes, s)
      | some (changes, false, s) => if changes.isEmpty then none else some (.flags changes, s)
      | none => none
  | s => some (.group [], s)

/-! ### Patterns -/

/-- Where the reading of a pattern stands. -/
structure Reading where
  rest : List Char
  verbose : Bool
  /-- The names of the groups so far. -/
  names : List (List Char)
deriving Repr, Inhabited

/-- Whether blanks are passed over after a change of flags. -/
def verboseAfter (verbose : Bool) (changes : FlagChanges) : Bool :=
  (changes.lookup .verbose).getD verbose

/-- Whether a repetition can follow a part. -/
def isRepeatable : Pattern → Bool
  | .setFlags _ => false
  | _ => true

/-- The alternatives of a group, given in reverse, and so the parts of the last one. -/
def closeGroup (branches parts : List Pattern) : Pattern :=
  match branches with
  | [] => .sequence parts.reverse
  | _ => .alternatives ((.sequence parts.reverse :: branches).reverse)

/-- The text after the mark of a repetition, which may be followed by a question mark. -/
def afterRepetition : List Char → List Char
  | '?' :: s => s
  | s => s

/-- Read alternatives up to the parenthesis that ends their group, which is left, or up to the end of
the text. The fuel is more than the length of the text. -/
def readGroup : (fuel : Nat) → Reading → (branches parts : List Pattern) →
    Option (Pattern × Reading)
  | 0, _, _, _ => none
  | fuel + 1, r, branches, parts =>
      let next (p : Pattern) (s : List Char) : Option (Pattern × Reading) :=
        readGroup fuel { r with rest := s } branches (p :: parts)
      let closing (changes : FlagChanges) : Option (Pattern × Reading) → Option (Pattern × Reading)
        | some (p, { rest := _ :: s, names, .. }) =>
            readGroup fuel { r with rest := s, names } branches (.group changes p :: parts)
        | _ => none
      match skip r.verbose r.rest with
      | [] => some (closeGroup branches parts, { r with rest := [] })
      | c :: s =>
          if c = ')' then some (closeGroup branches parts, { r with rest := c :: s })
          else if c = '|' then
            readGroup fuel { r with rest := s } (.sequence parts.reverse :: branches) []
          else if c = '(' then
            match readOpening (skip r.verbose s) with
            | none => none
            | some (.flags changes, s) =>
                let verbose := verboseAfter r.verbose changes
                readGroup fuel { r with rest := s, verbose } branches (.setFlags changes :: parts)
            | some (.group changes, s) =>
                let verbose := verboseAfter r.verbose changes
                closing changes (readGroup fuel { r with rest := s, verbose } [] [])
            | some (.namedGroup name, s) =>
                if r.names.contains name then none
                else closing [] (readGroup fuel { r with rest := s, names := name :: r.names } [] [])
          else if c = '*' ∨ c = '+' ∨ c = '?' then
            match parts with
            | [] => none
            | p :: parts =>
                if isRepeatable p then
                  readGroup fuel { r with rest := afterRepetition s } branches
                    (.repeated p :: parts)
                else none
          else if c = '\x7b' then none
          else if c = '[' then
            let (negated, s) := readNegation r.verbose s
            match readSet r.verbose fuel true none [] s with
            | some (set, s) => next (.bracketed negated set) s
            | none => none
          else if c = '\\' then
            match readEscape r.verbose s with
            | some (p, s) => next p s
            | none => none
          else if c = '.' then next .anyChar s
          else if c = '^' ∨ c = '$' then next .lineEdge s
          else next (.char ⟨c, false⟩) s

/-- A pattern from its text, if it is one. -/
def ofText? (s : List Char) : Option Pattern :=
  match readGroup (s.length + 1) { rest := s, verbose := false, names := [] } [] [] with
  | some (p, { rest := [], .. }) => some p
  | _ => none

/-- Whether a text is a pattern that can be matched. -/
def isPattern (s : List Char) : Bool :=
  match ofText? s with
  | some p => p.isMatchable
  | none => false

end TrustRegion.Pattern
