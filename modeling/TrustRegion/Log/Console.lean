/-
Module: TrustRegion.Log.Console
Purpose: Events as lines on a terminal: a coloured level, the time and where the event came from in
  brackets, then its text, in which nothing is left that could steer the terminal.
Main exports: Origin, Line, Console.lines
-/
import TrustRegion.Log.Filter
import TrustRegion.Log.Message

namespace TrustRegion

/-- The name of a level. -/
def Level.name : Level → String
  | .error => "ERROR"
  | .warn => "WARN"
  | .info => "INFO"
  | .debug => "DEBUG"
  | .trace => "TRACE"

/-- The terminal's number for the colour of a level. -/
def Level.colour : Level → Nat
  | .error => 31
  | .warn => 33
  | .info => 32
  | .debug => 34
  | .trace => 35

/-- The name of a level in its colour. -/
def Level.label (l : Level) : String :=
  s!"\x1b[{l.colour}m{l.name}\x1b[0m"

/-- Where an event comes from. -/
structure Origin where
  /-- The part of a program, by which events are filtered. -/
  target : String
  /-- The place in its text. -/
  location : String
deriving DecidableEq, Repr, Inhabited

/-- An event on its way to the terminal. -/
structure Line where
  level : Level
  origin : Origin
  text : String
deriving DecidableEq, Repr, Inhabited

namespace Line

/-- What is shown of an origin: the place for debugging, the part otherwise. -/
def shownOrigin (l : Line) : String :=
  match l.level with
  | .debug | .trace => l.origin.location
  | _ => l.origin.target

/-- Whether a character steers a terminal although it is no blank: bell, backspace, form feed, escape
and delete. -/
def isSteering (c : Char) : Bool :=
  c == '\x07' || c == '\x08' || c == '\x0c' || c == '\x1b' || c == '\x7f'

/-- A character as it is shown. What steers a terminal is written by its code point. -/
def shownChar (c : Char) : String :=
  let digits := Nat.toDigits 16 c.toNat
  if isSteering c then "\\x" ++ String.ofList (List.replicate (2 - digits.length) '0' ++ digits)
  else if 128 ≤ c.toNat && c.toNat < 160 then "\\u\x7b" ++ String.ofList digits ++ "\x7d"
  else c.toString

/-- A line as it is printed at a time. -/
def printed (time : String) (l : Line) : String :=
  s!"[{l.level.label} {time} {l.shownOrigin}] " ++ String.join (l.text.toList.map shownChar)

/-- A text without the carriage return at its end. -/
def withoutReturn (s : String) : String :=
  let cs := s.toList
  if cs.getLast? = some '\r' then String.ofList cs.dropLast else s

/-- The rows that a line takes up. A row ends at a line feed, with a carriage return before it or
not. -/
def rows (time : String) (l : Line) : List String :=
  ((l.printed time).splitOn "\n").map withoutReturn

end Line

namespace Console

/-- The rows of what a filter lets through. -/
def lines (filter : LogFilter) (time : String) (ls : List Line) : List String :=
  (ls.filter fun l => filter.hears l.origin.target l.level).flatMap (Line.rows time)

/-- The line that says that a listener stays although another one was to be installed. -/
def listenerKept (line : String) : Line :=
  { level := .debug
    origin := { target := "dogleg::logger", location := "logger.rs:" ++ line }
    text := Event.text .listenerKept }

/-- The line of an error of a problem. Errors are shown with their target, so no place is kept. -/
def problemError (e : ProblemError Float) : Line :=
  { level := .error
    origin := { target := "dogleg::core", location := "" }
    text := e.message }

end Console

end TrustRegion
