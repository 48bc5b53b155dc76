/-!
# Hexadecimal digits
-/

namespace Rockstar.Text

/-- The number in hexadecimal, in lower case and without leading zeros. -/
def hex (n : Nat) : String := String.ofList (Nat.toDigits 16 n)

/-- The text with `fill` put before it until it has `width` characters. -/
def padLeft (width : Nat) (fill : Char) (s : String) : String :=
  String.ofList (List.replicate (width - s.length) fill) ++ s

/-- The number in hexadecimal after `0x`, with at least `width` digits. -/
def hexLiteral (width n : Nat) : String := "0x" ++ padLeft width '0' (hex n)

end Rockstar.Text
