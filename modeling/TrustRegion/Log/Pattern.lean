/-
Module: TrustRegion.Log.Pattern
Purpose: Patterns for the values of fields, as trees, and which of them can be matched. The matcher
  works on the bytes of a text and has no tables of characters. In Unicode mode it therefore knows
  neither the cases nor the classes of letters, and outside of it a pattern must not match a part of
  a longer character.
Main exports: Flag, PatternSet, Pattern, Pattern.depth, Pattern.isMatchable
-/

namespace TrustRegion

/-- What a pattern can turn on and off. -/
inductive Flag where
  | ignoreCase
  | multiLine
  | dotAll
  | swapGreed
  | unicode
  /-- A line ends at a carriage return as well. -/
  | carriageReturn
  /-- Blanks and comments are not part of the pattern. -/
  | verbose
deriving DecidableEq, Repr, Inhabited

/-- Flags with their new values, in order. -/
abbrev FlagChanges := List (Flag × Bool)

/-- One character that stands for itself. -/
structure PatternChar where
  char : Char
  /-- Whether it is given by two hexadecimal digits, which may mean a byte. -/
  isByte : Bool
deriving DecidableEq, Repr, Inhabited

mutual

/-- The characters between brackets. -/
inductive PatternSet where
  | items (items : List PatternItem)
  /-- A union, an intersection or a difference of two sets. -/
  | combined (left right : PatternSet)

/-- One item between brackets. -/
inductive PatternItem where
  | single (c : PatternChar)
  | range (first last : PatternChar)
  /-- A class of ASCII characters by its name. -/
  | named (negated : Bool)
  /-- The digits, the blanks or the characters of words. -/
  | shorthand (negated : Bool)
  | nested (negated : Bool) (set : PatternSet)

end

/-- A pattern. Of an edge it does not matter here which one it is, and of a repetition not how
often. -/
inductive Pattern where
  | setFlags (changes : FlagChanges)
  | char (c : PatternChar)
  | anyChar
  /-- The start or the end of a line or of the text. -/
  | lineEdge
  /-- The start, the end or the inside of a word. -/
  | wordEdge
  | shorthand (negated : Bool)
  | bracketed (negated : Bool) (set : PatternSet)
  | repeated (p : Pattern)
  /-- A group with flags of its own. -/
  | group (changes : FlagChanges) (p : Pattern)
  | sequence (ps : List Pattern)
  | alternatives (ps : List Pattern)

/-! ### Nesting -/

mutual

/-- How deep brackets and unions are nested in a set. -/
def PatternSet.depth : PatternSet → Nat
  | .items [item] => item.depth
  | .items is => if is.isEmpty then 0 else PatternItem.maxDepth is + 1
  | .combined a b => max a.depth b.depth + 1

/-- How deep brackets and unions are nested in an item. -/
def PatternItem.depth : PatternItem → Nat
  | .nested _ set => set.depth + 1
  | _ => 0

/-- The depth of the deepest of some items. -/
def PatternItem.maxDepth : List PatternItem → Nat
  | [] => 0
  | item :: items => max item.depth (PatternItem.maxDepth items)

end

mutual

/-- How deep a pattern is nested. A sequence or a choice of several parts is one level. -/
def Pattern.depth : Pattern → Nat
  | .bracketed _ s => s.depth + 1
  | .repeated p => p.depth + 1
  | .group _ p => p.depth + 1
  | .sequence [p] => p.depth
  | .sequence ps => if ps.isEmpty then 0 else Pattern.maxDepth ps + 1
  | .alternatives [p] => p.depth
  | .alternatives ps => if ps.isEmpty then 0 else Pattern.maxDepth ps + 1
  | _ => 0

/-- The depth of the deepest of some patterns. -/
def Pattern.maxDepth : List Pattern → Nat
  | [] => 0
  | p :: ps => max p.depth (Pattern.maxDepth ps)

end

/-- How deep a pattern may be nested. -/
def Pattern.depthLimit : Nat := 250

/-! ### What can be matched -/

/-- The flags on which it depends whether a part can be matched. -/
structure PatternMode where
  ignoreCase : Bool
  unicode : Bool
deriving DecidableEq, Repr, Inhabited

namespace PatternMode

/-- The mode in which a pattern begins. -/
def initial : PatternMode :=
  { ignoreCase := false, unicode := true }

/-- The mode after a change of flags. -/
def change (m : PatternMode) (changes : FlagChanges) : PatternMode :=
  changes.foldl
    (fun m change =>
      match change with
      | (.ignoreCase, on) => { m with ignoreCase := on }
      | (.unicode, on) => { m with unicode := on }
      | _ => m)
    m

/-- Whether a character can be matched. Its other cases are known outside of Unicode mode only, and
there a byte beyond ASCII is a part of a character. -/
def takesChar (m : PatternMode) (c : PatternChar) : Bool :=
  if m.unicode then !m.ignoreCase else !c.isByte || c.char.toNat < 128

/-- Whether a character can be an item of a set, which outside of Unicode mode holds bytes. -/
def takesItem (m : PatternMode) (c : PatternChar) : Bool :=
  if m.unicode then !m.ignoreCase else c.char.toNat < 128

/-- Whether a class can be matched that is given by a name. -/
def takesNamed (m : PatternMode) (negated : Bool) : Bool :=
  if m.unicode then !m.ignoreCase else !negated

/-- Whether the digits, the blanks or the characters of words can be matched. -/
def takesShorthand (m : PatternMode) (negated : Bool) : Bool :=
  !m.unicode && !negated

end PatternMode

mutual

/-- Whether a set can be matched. -/
def PatternSet.isMatchable (m : PatternMode) : PatternSet → Bool
  | .items is => PatternItem.areMatchable m is
  | .combined a b => a.isMatchable m && b.isMatchable m

/-- Whether an item can be matched. -/
def PatternItem.isMatchable (m : PatternMode) : PatternItem → Bool
  | .single c => m.takesItem c
  | .range a b => m.takesItem a && m.takesItem b
  | .named negated => m.takesNamed negated
  | .shorthand negated => m.takesShorthand negated
  | .nested negated set => (m.unicode || !negated) && set.isMatchable m

/-- Whether all items can be matched. -/
def PatternItem.areMatchable (m : PatternMode) : List PatternItem → Bool
  | [] => true
  | item :: items => item.isMatchable m && PatternItem.areMatchable m items

end

mutual

/-- The mode after a pattern, if the pattern can be matched in the mode before it. Flags hold up to
the end of their group, also in later alternatives. -/
def Pattern.modeAfter? (m : PatternMode) : Pattern → Option PatternMode
  | .setFlags changes => some (m.change changes)
  | .char c => if m.takesChar c then some m else none
  | .anyChar => if m.unicode then some m else none
  | .lineEdge => some m
  | .wordEdge => if m.unicode then none else some m
  | .shorthand negated => if m.takesShorthand negated then some m else none
  | .bracketed negated s => if (m.unicode || !negated) && s.isMatchable m then some m else none
  | .repeated p => p.modeAfter? m
  | .group changes p => (p.modeAfter? (m.change changes)).map fun _ => m
  | .sequence ps => Pattern.modeAfterAll? m ps
  | .alternatives ps => Pattern.modeAfterAll? m ps

/-- The mode after several patterns, if all of them can be matched. -/
def Pattern.modeAfterAll? (m : PatternMode) : List Pattern → Option PatternMode
  | [] => some m
  | p :: ps =>
      match p.modeAfter? m with
      | some m => Pattern.modeAfterAll? m ps
      | none => none

end

/-- Whether a pattern can be matched. -/
def Pattern.isMatchable (p : Pattern) : Bool :=
  decide (p.depth ≤ depthLimit) && (p.modeAfter? PatternMode.initial).isSome

end TrustRegion
