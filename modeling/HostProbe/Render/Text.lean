import HostProbe.Capacity.Report
import HostProbe.Scenario.Basic

/-!
Plain and coloured text of reports. Colour only wraps a word in escape sequences, after columns
have been padded, so that it moves nothing.
-/

namespace HostProbe.Render

inductive Colour where
  | green
  | red
  deriving DecidableEq, Repr

/-- The escape sequence that starts a colour. -/
def Colour.start : Colour → String
  | .green => "\x1b[32m"
  | .red => "\x1b[31m"

/-- The escape sequence that returns to the default colour. -/
def colourEnd : String := "\x1b[39m"

/-- Colours a text if colours are on. -/
def paint (colours : Bool) (colour : Colour) (s : String) : String :=
  if colours then colour.start ++ s ++ colourEnd else s

def blanks (n : Nat) : String := String.ofList (List.replicate n ' ')

/-- Fills up with blanks on the right to a number of characters. -/
def padRight (width : Nat) (s : String) : String := s ++ blanks (width - s.length)

/-- Fills up with blanks on the left to a number of characters. -/
def padLeft (width : Nat) (s : String) : String := blanks (width - s.length) ++ s

/-- Ends every line with a line break. -/
def unlines (lines : List String) : String := String.join (lines.map (· ++ "\n"))

open Text.Decimal in
def capacityLines (colours : Bool) (r : Capacity.Report) : List String :=
  if r.isUsable then
    ["max accepted length: " ++ paint colours .green (ofInt r.maxLength),
      "body length:         " ++ ofNat r.bodyLength] ++
    (r.headroom.toList.map fun h => "headroom:            " ++ ofInt h) ++
    ["execute calls:       " ++ ofNat r.calls]
  else [paint colours .red "host rejected the minimal script; result -1"]

def capacityText (colours : Bool) (r : Capacity.Report) : String :=
  unlines (capacityLines colours r)

def mark (colours : Bool) (matched : Bool) : String :=
  if matched then paint colours .green "ok" else paint colours .red "MISMATCH"

def rowLine (colours : Bool) (r : Row) : String :=
  Text.Decimal.ofNat r.index ++ ". " ++ padRight 34 r.name ++ " " ++
    padLeft 14 r.observed.display ++ "  (expected " ++ r.expected.display ++ ")  " ++
    mark colours r.matched

def rowsText (colours : Bool) (rows : List Row) : String :=
  unlines (rows.map (rowLine colours))

end HostProbe.Render
