import RemoteModels.Log

/-!
# Filters for reports

A filter says which reports are shown: directives between commas, each a level, a target, or both.
The directive with the longest target that a reporter's name starts with decides.

* `LogFilter.parse` — the filter of a text.
* `LogFilter.ofEnvironment` — the filter asked for, or warnings and errors.
* `LogFilter.admits` — whether a report is shown.
-/

set_option autoImplicit false

namespace RemoteModels

/-- Reports of a target, up to a rank of importance. -/
structure LogDirective where
  target : String
  rank : Nat
deriving DecidableEq

/-- The directives of a filter. -/
abbrev LogFilter := List LogDirective

namespace LogFilter

/-- The rank up to which a level shows reports. -/
def rankOf? (s : String) : Option Nat :=
  let word := String.ofList (s.toList.map Char.toLower)
  [("off", 0), ("error", 1), ("warn", 2), ("info", 3), ("debug", 4), ("trace", 5),
    ("0", 0), ("1", 1), ("2", 2), ("3", 3), ("4", 4), ("5", 5)].lookup word

def isTarget (s : String) : Bool :=
  s ≠ "" && s.toList.all fun c => c.isAlphanum || c == '_' || c == ':' || c == '-'

/-- A level alone, a target alone, or a target with its level. -/
def parseDirective (s : String) : Option LogDirective :=
  match rankOf? s, s.splitOn "=" with
  | some rank, _ => some ⟨"", rank⟩
  | none, [target] => if isTarget target then some ⟨target, 5⟩ else none
  | none, [target, level] =>
    if isTarget target then
      if level = "" then some ⟨target, 5⟩ else (rankOf? level).map (⟨target, ·⟩)
    else none
  | none, _ => none

/-- The filter of a text; an empty one shows errors. -/
def parse (s : String) : Option LogFilter :=
  match (s.splitOn ",").filter (· ≠ "") with
  | [] => some [⟨"", 1⟩]
  | parts => parts.mapM parseDirective

/-- Warnings and errors. -/
def warnings : LogFilter := [⟨"", 2⟩]

def ofEnvironment (value : Option String) : LogFilter :=
  match value with
  | some s => (parse s).getD warnings
  | none => warnings

/-- The more specific of two directives, the later one if they are equally so. -/
def moreSpecific (a b : LogDirective) : LogDirective :=
  if a.target.length ≤ b.target.length then b else a

/-- Whether a filter shows a report. -/
def admits (f : LogFilter) (e : LogEntry) : Bool :=
  match f.filter fun d => d.target.toList.isPrefixOf e.reporter.name.toList with
  | [] => false
  | d :: rest => e.level.rank ≤ (rest.foldl moreSpecific d).rank

end LogFilter
end RemoteModels
