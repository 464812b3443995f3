import DirectivePack.Log.Event
import DirectivePack.Text.Blank
import DirectivePack.Text.Letter
import DirectivePack.Text.Numeral

/-!
Filters that say which events are written.

A filter is a list of directives between commas.  A directive may name a target, a span with fields
in brackets, and a level: `warn`, `target=debug`, `[span{field}]=trace`.  For an event, the
most specific directive that applies decides: the one with the longest target, of these the one
with the most fields, of these the last.

The program opens no spans, so a directive that asks for one, or for the value of a field, applies
to no event.
-/

namespace DirectivePack

/-- Why a text is no filter. -/
inductive FilterFault where
  | badLevel
  | badDirective
deriving DecidableEq, Repr

def FilterFault.message : FilterFault → String
  | .badLevel =>
    "error parsing level filter: expected one of \"off\", \"error\", \"warn\", \"info\", \"debug\", \"trace\", or a number 0-5"
  | .badDirective => "invalid filter directive"

/-! ### Levels -/

/-- A number from 0 to 5, with a plus in front of it or not. -/
def rankOfNumber? (text : List Char) : Option Nat :=
  let digits := match text with
    | '+' :: rest => rest
    | _ => text
  match digitsValue? 10 digits with
  | some n => if n ≤ 5 then some n else none
  | none => none

/-- The rank up to which a text lets events through, by number or by name in any case. -/
def rankOfText? (text : List Char) : Option Nat :=
  match rankOfNumber? text with
  | some rank => some rank
  | none =>
    match String.ofList (text.map Char.toLower) with
    | "off" => some 0
    | "error" => some 1
    | "warn" => some 2
    | "info" => some 3
    | "debug" => some 4
    | "trace" => some 5
    | _ => none

/-! ### Directives -/

/-- A directive: where it applies, and up to which rank it lets events through. -/
structure FilterDirective where
  target? : Option (List Char)
  span? : Option (List Char)
  /-- The fields asked for, each with whether a value is asked of it. -/
  fields : List (List Char × Bool)
  rank : Nat
deriving DecidableEq, Repr

namespace FilterDirective

/-- Where in a directive the reading is, with the position at which the piece in hand starts. -/
inductive Place where
  | start
  | levelOrTarget (start : Nat)
  | span (start : Nat)
  | field (start : Nat)
  | fields
  | target
  | level (start : Nat)
deriving DecidableEq, Repr

def everything : FilterDirective :=
  ⟨none, none, [], Level.trace.rank⟩

/-- The piece of a text between two positions. -/
def piece (text : List Char) (start stop : Nat) : List Char :=
  (text.drop start).take (stop - start)

/-- The field that a text asks for; what is behind an equals sign is its value. -/
def fieldOf (text : List Char) : List Char × Bool :=
  (text.takeWhile (· != '='), text.contains '=')

/-- One character of a directive, at a position. -/
def step (text : List Char) (position : Nat) (c : Char) (place : Place) (d : FilterDirective) :
    Except FilterFault (Place × FilterDirective) :=
  match place, c with
  | .start, '[' => .ok (.span (position + 1), d)
  | .start, c =>
    if c == '-' || c == ':' || c == '_' || isLetterOrNumber c then .ok (.levelOrTarget position, d)
    else .error .badDirective
  | .levelOrTarget start, '=' =>
    .ok (.level (position + 1), { d with target? := some (piece text start position) })
  | .levelOrTarget start, '[' =>
    .ok (.span (position + 1), { d with target? := some (piece text start position) })
  | .levelOrTarget start, _ => .ok (.levelOrTarget start, d)
  | .target, '=' => .ok (.level (position + 1), d)
  | .span start, ']' => .ok (.target, { d with span? := some (piece text start position) })
  | .span start, '\x7b' =>
    let name := piece text start position
    .ok (.field (position + 1), { d with span? := if name.isEmpty then none else some name })
  | .span start, _ => .ok (.span start, d)
  | .field start, '\x7d' =>
    let name := piece text start position
    if name.isEmpty then .error .badDirective
    else .ok (.fields, { d with fields := d.fields ++ [fieldOf name] })
  | .field start, _ => .ok (.field start, d)
  | .fields, ']' => .ok (.target, d)
  | .level start, _ => .ok (.level start, d)
  | .fields, _ | .target, _ => .error .badDirective

/-- The characters of a directive, from a position on. -/
def steps (text : List Char) :
    List Char → Nat → Place → FilterDirective → Except FilterFault (Place × FilterDirective)
  | [], _, place, d => .ok (place, d)
  | c :: rest, position, place, d =>
    match step text position c place d with
    | .error fault => .error fault
    | .ok (place, d) => steps text rest (position + 1) place d

/-- The directive at the end of its text. -/
def finish (text : List Char) (place : Place) (d : FilterDirective) :
    Except FilterFault FilterDirective :=
  match place with
  | .levelOrTarget start =>
    let name := text.drop start
    match rankOfText? name with
    | some rank => .ok { d with rank := rank }
    | none => .ok { d with target? := some name }
  | .level start =>
    let name := text.drop start
    if name.isEmpty then .ok d
    else
      match rankOfText? name with
      | some rank => .ok { d with rank := rank }
      | none => .error .badLevel
  | .target => .ok d
  | .start | .span _ | .field _ | .fields => .error .badDirective

/-- The directive that a text is.  White space at its ends does not count among its characters, but
the pieces are cut from the text as it stands. -/
def parse (text : List Char) : Except FilterFault FilterDirective :=
  match steps text (trim text) 0 .start everything with
  | .error fault => .error fault
  | .ok (place, d) => finish text place d

/-- Whether the directive asks for no span and no value. -/
def isPlain (d : FilterDirective) : Bool :=
  d.span?.isNone && d.fields.all fun field => ! field.2

/-- Whether the directive asks for nothing that an event of this target lacks.  The only field of an
event is its message. -/
def appliesTo (target : String) (d : FilterDirective) : Bool :=
  d.isPlain &&
    (match d.target? with
      | none => true
      | some start => start.isPrefixOf target.toList) &&
    d.fields.all fun field => field.1 == "message".toList

/-- The bytes of the target, none at all coming before an empty one. -/
def targetSize (d : FilterDirective) : Nat :=
  match d.target? with
  | none => 0
  | some target => (String.ofList target).utf8ByteSize + 1

/-- Whether a directive is at least as specific as another. -/
def atLeastAsSpecific (d other : FilterDirective) : Bool :=
  other.targetSize < d.targetSize ||
    (other.targetSize == d.targetSize && other.fields.length ≤ d.fields.length)

end FilterDirective

/-! ### Filters -/

/-- The directives of a filter, in the order in which they are written. -/
structure LogFilter where
  directives : List FilterDirective
deriving DecidableEq, Repr

namespace LogFilter

def parseAll : List (List Char) → Except FilterFault (List FilterDirective)
  | [] => .ok []
  | text :: texts =>
    match FilterDirective.parse text with
    | .error fault => .error fault
    | .ok d =>
      match parseAll texts with
      | .error fault => .error fault
      | .ok ds => .ok (d :: ds)

/-- The filter that a text is.  No directive at all lets errors through. -/
def parse (text : String) : Except FilterFault LogFilter :=
  let pieces := (text.splitOn ",").filter fun piece => ! piece.isEmpty
  match parseAll (pieces.map String.toList) with
  | .error fault => .error fault
  | .ok [] => .ok ⟨[{ FilterDirective.everything with rank := Level.error.rank }]⟩
  | .ok directives => .ok ⟨directives⟩

/-- The directive that decides about events of a target: the most specific that applies, and of
several the last. -/
def deciding? (filter : LogFilter) (target : String) : Option FilterDirective :=
  (filter.directives.filter (FilterDirective.appliesTo target)).foldl
    (fun sofar d => match sofar with
      | some best => if d.atLeastAsSpecific best then some d else some best
      | none => some d)
    none

/-- Whether an event is written. -/
def lets (filter : LogFilter) (event : Event) : Bool :=
  match filter.deciding? event.target with
  | some d => event.level.rank ≤ d.rank
  | none => false

/-- The events that are written. -/
def written (filter : LogFilter) (events : List Event) : List Event :=
  events.filter filter.lets

end LogFilter

end DirectivePack
