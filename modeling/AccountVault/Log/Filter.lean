import AccountVault.Log
import AccountVault.Settings
import AccountVault.Text.Letter

/-!
# Log filters

A filter is a list of directives between commas. A directive sets how much is logged, for all events
or for those whose source's name begins with a target. The longest target that fits an event
decides, and of equal targets the later. Without any directive only errors are logged.
-/

namespace AccountVault.Log

structure Directive where
  /-- The beginning of the sources' names; none stands for all. -/
  target : Option String
  /-- The highest rank of an event's level that is let through. -/
  limit : Nat
  deriving DecidableEq

inductive DirectiveFault where
  | shape
  | level
  deriving DecidableEq

def DirectiveFault.message : DirectiveFault → String
  | shape => "invalid filter directive"
  | level =>
    "error parsing level filter: expected one of \"off\", \"error\", \"warn\", \"info\", " ++
      "\"debug\", \"trace\", or a number 0-5"

structure Ignored where
  text : String
  fault : DirectiveFault
  deriving DecidableEq

def Ignored.message (ignored : Ignored) : String :=
  "ignoring `" ++ ignored.text ++ "`: " ++ ignored.fault.message

namespace Directive

def all : Nat := 5

def levelNames : List (String × Nat) :=
  [("off", 0), ("error", 1), ("warn", 2), ("info", 3), ("debug", 4), ("trace", 5)]

def limit? (text : String) : Option Nat :=
  match Settings.natural? text with
  | some n => if n ≤ all then some n else none
  | none => levelNames.lookup (text.map Char.toLower)

def isStart (c : Char) : Bool := c = '-' || c = ':' || c = '_' || Letter.isLetterOrDigit c

/-- A directive is not trimmed, but the equals sign is looked for as if it were: blanks at the start
shift the cut between target and level. -/
def parse (text : String) : Except DirectiveFault Directive :=
  let chars := text.toList
  let trimmed := Blank.trimChars chars
  if !(trimmed.head?.any isStart) then .error .shape
  else
    let before := trimmed.takeWhile (· ≠ '=')
    if before.length = trimmed.length then
      match limit? text with
      | some limit => .ok ⟨none, limit⟩
      | none => .ok ⟨some text, all⟩
    else
      let level := String.ofList (chars.drop (before.length + 1))
      let target := String.ofList (chars.take before.length)
      if level.isEmpty then .ok ⟨some target, all⟩
      else
        match limit? level with
        | some limit => .ok ⟨some target, limit⟩
        | none => .error .level

def fit? (d : Directive) (source : String) : Option Nat :=
  match d.target with
  | none => some 0
  | some target =>
    if target.toList.isPrefixOf source.toList then some (target.utf8ByteSize + 1) else none

end Directive

abbrev Filter := List Directive

namespace Filter

def items (text : String) : List String :=
  ((text.toList.splitOn ',').map String.ofList).filter (· ≠ "")

def parse? (text : String) : Option Filter :=
  (items text).mapM fun item => (Directive.parse item).toOption

def parse (text : String) : Filter × List Ignored :=
  (items text).foldr (fun item (filter, ignored) =>
    match Directive.parse item with
    | .ok d => (d :: filter, ignored)
    | .error fault => (filter, ⟨item, fault⟩ :: ignored)) ([], [])

def decisive (source : String) (filter : Filter) : Option (Nat × Nat) :=
  filter.foldl (fun best d =>
    match d.fit? source, best with
    | none, best => best
    | some fit, none => some (fit, d.limit)
    | some fit, some (other, limit) =>
      if other ≤ fit then some (fit, d.limit) else some (other, limit)) none

def limitFor (filter : Filter) (source : String) : Nat :=
  if filter.isEmpty then 1 else ((decisive source filter).map (·.2)).getD 0

def lets (filter : Filter) (event : Event) : Bool :=
  event.level.rank ≤ filter.limitFor event.source.target

/-- The filter for a log level setting and an environment: a variable made for filters comes first,
if all of it is well-formed. -/
def ofEnvironment (env : Environment) (logLevel : String) : Filter × List Ignored :=
  match (env.exactly? "RUST_LOG").bind parse? with
  | some filter => (filter, [])
  | none => parse logLevel

end Filter

end AccountVault.Log
