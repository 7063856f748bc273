/-!
Blocks inside a text: cutting at a separator, looking for a block and replacing it.
-/

namespace HostProbe.Text

/-- The pieces between the occurrences of a separator; always at least one. -/
def pieces (separator : Char) (s : String) : List String :=
  (s.toList.splitOn separator).map String.ofList

/-- Whether `block` occurs in the text. -/
def containsBlock (block : List Char) : List Char → Bool
  | [] => block.isEmpty
  | c :: l => block.isPrefixOf (c :: l) || containsBlock block l

/-- Replaces from left to right, after leaving out the next `skip` characters; replaced text is
not looked at again. The block is not empty. -/
def replaceAfter (block new : List Char) : Nat → List Char → List Char
  | _, [] => []
  | skip + 1, _ :: l => replaceAfter block new skip l
  | 0, c :: l =>
    if block.isPrefixOf (c :: l) then new ++ replaceAfter block new (block.length - 1) l
    else c :: replaceAfter block new 0 l

/-- Replaces every occurrence of a non-empty block, occurrences being taken from the left and
without overlap. -/
def replaceBlock (block new : String) (s : String) : String :=
  String.ofList (replaceAfter block.toList new.toList 0 s.toList)

end HostProbe.Text
