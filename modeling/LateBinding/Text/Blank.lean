import LateBinding.Text.Range

/-!
# Blank text

A text is *blank* if it is empty or made of white space alone (`isBlank`).
-/

namespace LateBinding

/-- The white-space characters. -/
def spaceRanges : CodeRanges := #[
  (0x9, 0xD), (0x20, 0x20), (0x85, 0x85), (0xA0, 0xA0), (0x1680, 0x1680), (0x2000, 0x200A),
  (0x2028, 0x2029), (0x202F, 0x202F), (0x205F, 0x205F), (0x3000, 0x3000)]

/-- Whether a text has no character but white space. -/
def isBlank (s : String) : Bool := s.toList.all spaceRanges.holds

end LateBinding
