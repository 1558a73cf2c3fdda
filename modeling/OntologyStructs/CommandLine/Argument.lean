import OntologyStructs.CommandLine.Flag
import OntologyStructs.Text.Decimal
import OntologyStructs.Text.Quoted

namespace OntologyStructs.CommandLine

inductive UsageError
  | ambiguous (argument : Text) (candidates : List Text)
  | unexpectedValue (flag : Flag) (value : Text)
  | missingValue (flag : Flag)
  | unrecognized (arguments : List Text)
  deriving DecidableEq, Repr

def UsageError.message : UsageError → Text
  | ambiguous argument candidates =>
    "ambiguous option: " ++ argument ++ " could match " ++ Text.join ", " candidates
  | unexpectedValue flag value =>
    "argument " ++ flag.shown ++ ": ignored explicit argument " ++ value.quoted
  | missingValue flag => "argument " ++ flag.shown ++ ": expected one argument"
  | unrecognized arguments => "unrecognized arguments: " ++ Text.join " " arguments

def endMark : Text := "--"

inductive Argument
  /-- A value of a flag, or too much. -/
  | plain (t : Text)
  /-- Neither a flag nor a value. -/
  | unknown (t : Text)
  /-- A flag in one of its spellings, perhaps with a value in the same argument. A short spelling has
  one dash. -/
  | flag (flag : Flag) (isShort : Bool) (value : Option Text)
  deriving DecidableEq, Repr

/-- A dash and decimal digits, perhaps with a point among or before them. A line feed at the end is let
through. -/
def isNegativeNumber (t : Text) : Bool :=
  match t.withoutFinalLineFeed with
  | c :: r =>
    let (whole, rest) := r.span CodePoint.isDecimal
    c = '-' && match rest with
      | [] => !whole.isEmpty
      | p :: ds => p = '.' && !ds.isEmpty && ds.all CodePoint.isDecimal
  | [] => false

def splitValue (t : Text) : Text × Option Text :=
  let sign : CodePoint := '='
  match t.span (· != sign) with
  | (before, _ :: value) => (before, some value)
  | (before, []) => (before, none)

namespace Argument

def ofDashed (t : Text) : Except UsageError Argument :=
  let (start, value) := splitValue t
  let candidates := Flag.spelled.filter fun (s, _) ↦ s.startsWith start
  let short := (Flag.find? (t.take 2)).map fun f ↦ Argument.flag f true (some (t.drop 2))
  match t.startsWith endMark, candidates, short with
  | true, [(_, f)], _ => .ok (.flag f false value)
  | true, _ :: _ :: _, _ => .error (.ambiguous t (candidates.map (·.1)))
  | false, _, some found => .ok found
  | _, _, _ =>
    .ok (if isNegativeNumber t || t.contains (' ' : CodePoint) then .plain t else .unknown t)

/-- What an argument is. Long spellings may be abbreviated, and a value may follow an equals sign, or
a short spelling at once. -/
def ofText (t : Text) : Except UsageError Argument :=
  if !t.startsWith "-" || t.length = 1 then .ok (.plain t)
  else match Flag.find? t, splitValue t with
    | some f, _ => .ok (.flag f (!t.startsWith endMark) none)
    | none, (start, some value) => match Flag.find? start with
      | some f => .ok (.flag f (!start.startsWith endMark) (some value))
      | none => ofDashed t
    | none, (_, none) => ofDashed t

def ofTexts : List Text → Except UsageError (List Argument × List Text)
  | [] => .ok ([], [])
  | t :: ts =>
    if t = endMark then .ok ([], t :: ts)
    else do
      let a ← ofText t
      let (as, rest) ← ofTexts ts
      return (a :: as, rest)

end Argument

/-- The flags of one argument with their values. Behind a short spelling that takes no value further
ones may stand. The last flag may still need its value. -/
def spread (flag : Flag) (isShort : Bool) :
    Text → Except UsageError (List (Flag × Option Text) × Option Flag)
  | [] =>
    if flag.takesValue then .ok ([(flag, some [])], none) else .error (.unexpectedValue flag [])
  | c :: r =>
    if flag.takesValue then .ok ([(flag, some (c :: r))], none)
    else if !isShort then .error (.unexpectedValue flag (c :: r))
    else match Flag.find? ['-', c], r with
      | none, _ => .error (.unexpectedValue flag (c :: r))
      | some next, [] => .ok ([(flag, none)], some next)
      | some next, _ :: _ => do
        let (flags, last) ← spread next true r
        return ((flag, none) :: flags, last)

end OntologyStructs.CommandLine
