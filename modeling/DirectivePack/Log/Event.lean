import DirectivePack.Config.Configuration
import DirectivePack.Pack
import DirectivePack.Unpack

/-!
What the program reports while it works: an event a step, each with a level, a target and a message.

Events are computed from the input beside the result, never the other way round, so no result hangs
on what is reported.  A step is reported before it is carried out; behind a step that fails nothing
more is reported.
-/

namespace DirectivePack

/-- How much an event matters, from what matters most to what matters least. -/
inductive Level where
  | error
  | warn
  | info
  | debug
  | trace
deriving DecidableEq, Repr

namespace Level

def name : Level → String
  | .error => "ERROR"
  | .warn => "WARN"
  | .info => "INFO"
  | .debug => "DEBUG"
  | .trace => "TRACE"

/-- The number of a level: the higher, the more is let through. -/
def rank : Level → Nat
  | .error => 1
  | .warn => 2
  | .info => 3
  | .debug => 4
  | .trace => 5

end Level

inductive Event where
  /-- The configuration is settled. -/
  | configured (configuration : Configuration)
  /-- So many bytes of input are there. -/
  | inputRead (bytes : Nat)
  /-- A directive string is a program. -/
  | parsed (format : String) (program : Program)
  /-- An operation is about to write behind so many bytes. -/
  | packing (op : Operation) (offset : Nat)
  /-- A program is done and leaves so many values. -/
  | valuesIgnored (count : Nat)
  | programPacked (values bytes operations : Nat)
  /-- An operation is about to read, with so many bytes in front of it. -/
  | unpacking (op : Operation) (unread : Nat)
  | programUnpacked (values bytes unread : Nat)
  /-- The command packed so many arguments. -/
  | packed (arguments bytes : Nat)
  /-- The command unpacked so many bytes. -/
  | unpacked (values bytes : Nat)
deriving DecidableEq, Repr

namespace Event

def level : Event → Level
  | .configured _ | .inputRead _ | .programPacked .. | .programUnpacked .. => .debug
  | .parsed .. | .packing .. | .valuesIgnored _ | .unpacking .. => .trace
  | .packed .. | .unpacked .. => .info

/-- The part of the program that reports the event. -/
def target : Event → String
  | .configured _ | .inputRead _ | .packed .. | .unpacked .. => "vpack"
  | .parsed .. => "voltage_pack::format"
  | .packing .. | .valuesIgnored _ | .programPacked .. => "voltage_pack::pack"
  | .unpacking .. | .programUnpacked .. => "voltage_pack::unpack"

def outputName : OutputForm → String
  | .hex => "Hex"
  | .raw => "Raw"
  | .json => "Json"

def message : Event → String
  | .configured c =>
    let level := Quoted.text c.logLevel
    let output := outputName c.output
    let limit := c.maxInputBytes
    s!"Configuration: VpackConfig \x7b log_level: {level}, output: {output}, max_input_bytes: {limit} \x7d"
  | .inputRead bytes => s!"Read {bytes} input bytes"
  | .parsed format program =>
    let quoted := Quoted.text format
    let canonical := program.text
    s!"Parsed format {quoted} into [{canonical}]"
  | .packing op offset =>
    let token := op.text
    s!"Pack {token} at offset {offset}"
  | .valuesIgnored count => s!"Ignoring {count} unconsumed values"
  | .programPacked values bytes operations =>
    s!"Packed {values} values into {bytes} bytes ({operations} operations)"
  | .unpacking op unread =>
    let token := op.text
    s!"Unpack {token} with {unread} bytes unread"
  | .programUnpacked values bytes unread =>
    s!"Unpacked {values} values from {bytes} bytes ({unread} unread)"
  | .packed arguments bytes => s!"Packed {arguments} values into {bytes} bytes"
  | .unpacked values bytes => s!"Unpacked {values} values from {bytes} bytes"

/-- The line of an event, with the time it carries. -/
def line (time : String) (event : Event) : String :=
  time ++ " [" ++ event.level.name ++ "] " ++ event.message

end Event

/-! ### The events of a program -/

namespace Program

/-- What the operations of a program report, with `offset` bytes already written. -/
def packSteps : Program → List Value → Nat → List Event
  | [], _, _ => []
  | op :: program, values, offset =>
    .packing op offset :: match op.pack values with
      | .error _ => []
      | .ok (bs, rest) => packSteps program rest (offset + bs.length)

/-- What packing by a program reports. -/
def packEvents (program : Program) (values : List Value) : List Event :=
  program.packSteps values 0 ++ match program.packFront values with
    | .error _ => []
    | .ok (bs, rest) =>
      (if rest.isEmpty then [] else [.valuesIgnored rest.length]) ++
        [.programPacked (values.length - rest.length) bs.length program.length]

/-- What the operations of a program report on the bytes in front of them. -/
def unpackSteps : Program → Bytes → List Event
  | [], _ => []
  | op :: program, bs =>
    .unpacking op bs.length :: match op.unpack bs with
      | .error _ => []
      | .ok (_, rest) => unpackSteps program rest

/-- What unpacking by a program reports. -/
def unpackEvents (program : Program) (bs : Bytes) : List Event :=
  program.unpackSteps bs ++ match program.unpackFront bs with
    | .error _ => []
    | .ok (values, rest) => [.programUnpacked values.length bs.length rest.length]

end Program

/-- What packing by a directive string reports. -/
def packEvents (format : String) (values : List Value) : List Event :=
  match Program.parse format with
  | .error _ => []
  | .ok program => .parsed format program :: program.packEvents values

/-- What unpacking by a directive string reports. -/
def unpackEvents (format : String) (bs : Bytes) : List Event :=
  match Program.parse format with
  | .error _ => []
  | .ok program => .parsed format program :: program.unpackEvents bs

end DirectivePack
