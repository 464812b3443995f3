import DirectivePack.Argument
import DirectivePack.Json.Encoding

/-!
The list of directives, as a table for readers or as a document.

Columns are as wide as their heads need; what is wider than its column is not cut.
-/

namespace DirectivePack

namespace Listing

/-! ### Columns -/

/-- A text at the left of a column. -/
def padded (width : Nat) (text : String) : String :=
  text.pushn ' ' (width - text.length)

/-- A text between marks of a terminal, or as it is. -/
def styled (colored : Bool) (style text : String) : String :=
  if colored then "\x1b[" ++ style ++ "m" ++ text ++ "\x1b[0m" else text

def bold : String := "1"

def boldBrightCyan : String := "1;96"

/-! ### Rows -/

def widthText (d : Directive) : String :=
  if d.width == 0 then "count" else d.width.repr

/-- The order, where it makes a difference. -/
def orderText (d : Directive) : String :=
  if d.encoding.isFixedWidthNumeric && 1 < d.width then d.order.name else "-"

def modifiersText (d : Directive) : String :=
  if d.acceptsNativeWidth then "_ ! < >" else "-"

def row (colored : Bool) (d : Directive) : String :=
  "  " ++ styled colored boldBrightCyan (String.singleton d.letter) ++ "   " ++
    padded 8 (widthText d) ++ padded 12 (orderText d) ++ padded 10 (modifiersText d) ++ d.summary

/-- The table, a line each. -/
def lines (colored : Bool) : List String :=
  [styled colored bold "=== Supported Directives ===",
    "",
    "  " ++ padded 4 "" ++ padded 8 "Width" ++ padded 12 "Order" ++ padded 10 "Modifiers" ++
      "Description"] ++
  Directive.table.map (row colored) ++
  ["",
    "Counts: none = 1, digits = n, '*' = all remaining",
    "For a/A/Z the count is a byte width, for H/h nibbles, for B/b bits"]

/-- The list in an output form.  Only a document differs from the table. -/
def text (colored : Bool) : OutputForm → String
  | .json => (Json.array (Directive.table.map Directive.toJson)).pretty ++ "\n"
  | .hex | .raw => String.join ((lines colored).map (· ++ "\n"))

end Listing

end DirectivePack
