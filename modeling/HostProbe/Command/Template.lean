import HostProbe.Text.Block

/-!
Argument templates. A template may name the script and the file that holds it; `expand` puts
their texts in. `simultaneous` is the same substitution in one pass over the template.
-/

namespace HostProbe.Command.Template

/-- Stands for the path of the script file. -/
def filePlaceholder : String := "\x7b\x7bcode_file\x7d\x7d"

/-- Stands for the text of the script. -/
def codePlaceholder : String := "\x7b\x7bcode\x7d\x7d"

/-- Replaces the path placeholder first, then the text placeholder. -/
def expand (template code file : String) : String :=
  Text.replaceBlock codePlaceholder code (Text.replaceBlock filePlaceholder file template)

/-- One pass from the left, after leaving out the next `skip` characters: whichever placeholder
starts here is replaced, and nothing that was put in is looked at again. -/
def simultaneousFrom (code file : List Char) : Nat → List Char → List Char
  | _, [] => []
  | skip + 1, _ :: l => simultaneousFrom code file skip l
  | 0, c :: l =>
    if filePlaceholder.toList.isPrefixOf (c :: l) then
      file ++ simultaneousFrom code file (filePlaceholder.length - 1) l
    else if codePlaceholder.toList.isPrefixOf (c :: l) then
      code ++ simultaneousFrom code file (codePlaceholder.length - 1) l
    else c :: simultaneousFrom code file 0 l

def simultaneous (template code file : String) : String :=
  String.ofList (simultaneousFrom code.toList file.toList 0 template.toList)

end HostProbe.Command.Template
