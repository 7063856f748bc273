import HostProbe.Text.Utf8

/-!
Texts of programs on the simulated machine. They are made of octets: each character is below
U+0100 and stands for one octet, so that lengths count octets and any input can be held.
-/

namespace HostProbe.Shell

abbrev Octets := List Char

namespace Octets

/-- The octets of a text in UTF-8. -/
def ofText (s : String) : Octets :=
  (Text.Utf8.encode s).map fun b => Char.ofNat b.toNat

/-- The text that octets encode, if they are valid UTF-8. -/
def toText? (l : Octets) : Option String :=
  Text.Utf8.decode (l.map fun c => UInt8.ofNat c.toNat)

/-- The text, with one character per octet if it is not valid UTF-8. -/
def toName (l : Octets) : String := l.toText?.getD (String.ofList l)

end Octets

/-- A character that separates words. -/
def isBlankOctet (c : Char) : Bool := c = ' ' || c = '\t'

def isNameStart (c : Char) : Bool := c.isAlpha || c = '_'

def isNameOctet (c : Char) : Bool := c.isAlphanum || c = '_'

/-- A name of a variable. -/
def isName : Octets → Bool
  | [] => false
  | c :: l => isNameStart c && l.all isNameOctet

end HostProbe.Shell
