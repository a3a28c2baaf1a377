import Gateware.Text.CodeSet

/-!
# Blanks

The characters with the property White_Space, and the words between them.
-/

namespace Gateware.Text

def blankCodes : CodeSet := ⟨[
  0x9, 0xe, 0x20, 0x21, 0x85, 0x86, 0xa0, 0xa1, 0x1680, 0x1681, 0x2000, 0x200b, 0x2028, 0x202a,
  0x202f, 0x2030, 0x205f, 0x2060, 0x3000, 0x3001]⟩

def isBlank (c : Char) : Bool := blankCodes.contains c

def trim (s : Text) : Text := trimBy isBlank s

def trimEnd (s : Text) : Text := trimEndBy isBlank s

/-- The maximal runs of characters that are no blanks. -/
def words (s : Text) : List Text := wordsBy isBlank s

end Gateware.Text
