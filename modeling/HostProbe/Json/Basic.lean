import HostProbe.Text.Decimal

/-!
JSON documents. A number keeps its literal, so that no digit is lost. A string is a list of
characters in which an escape may also stand for half of a surrogate pair; such a string is
valid JSON but no text.
-/

namespace HostProbe

/-- A character of a string, or half of a surrogate pair that lacks its other half. -/
inductive Json.Piece where
  | char (c : Char)
  | surrogate (unit : Nat)
  deriving DecidableEq, Repr

inductive Json where
  | null
  | bool (b : Bool)
  | number (literal : String)
  | string (pieces : List Json.Piece)
  | array (items : List Json)
  | object (members : List (List Json.Piece × Json))

namespace Json

def textPieces (s : String) : List Piece := s.toList.map .char

def ofText (s : String) : Json := .string (textPieces s)

def ofNat (n : Nat) : Json := .number (Text.Decimal.ofNat n)

def ofInt (n : Int) : Json := .number (Text.Decimal.ofInt n)

def ofOption {α : Type} (f : α → Json) : Option α → Json
  | some a => f a
  | none => .null

/-- An object with text keys, in the given order. -/
def ofFields (fields : List (String × Json)) : Json :=
  .object (fields.map fun (key, v) => (textPieces key, v))

def Piece.char? : Piece → Option Char
  | .char c => some c
  | .surrogate _ => none

/-- The text of a string without unpaired surrogates. -/
def text? (pieces : List Piece) : Option String :=
  (pieces.mapM Piece.char?).map String.ofList

end Json

end HostProbe
