import ShaderDefs.Text.Ranges

/-! Quoted text in which every character can be seen. -/

set_option autoImplicit false

namespace ShaderDefs.Text.Quoted

/-- The code points of controls, format characters, separators, private use and letters without a
shape, in Unicode 17.0. -/
def shapelessRanges : Ranges :=
  [(0x00, 0x20), (0x7F, 0xA0), (0xAD, 0xAD), (0x600, 0x605), (0x61C, 0x61C), (0x6DD, 0x6DD),
    (0x70F, 0x70F), (0x890, 0x891), (0x8E2, 0x8E2), (0x115F, 0x1160), (0x1680, 0x1680),
    (0x180E, 0x180E), (0x2000, 0x200F), (0x2028, 0x202F), (0x205F, 0x2064), (0x2066, 0x206F),
    (0x3000, 0x3000), (0x3164, 0x3164), (0xE000, 0xF8FF), (0xFEFF, 0xFEFF), (0xFFA0, 0xFFA0),
    (0xFFF9, 0xFFFB), (0x110BD, 0x110BD), (0x110CD, 0x110CD), (0x13430, 0x1343F),
    (0x1BCA0, 0x1BCA3), (0x1D173, 0x1D17A), (0xE0001, 0xE0001), (0xE0020, 0xE007F),
    (0xF0000, 0xFFFFD), (0x100000, 0x10FFFD)]

def isHidden (character : Char) : Bool :=
  character ≠ ' ' && (shapelessRanges.covers character || markRanges.covers character ||
    unassignedRanges.covers character)

def escape (quote character : Char) : String :=
  if character = '\x00' then "\\0"
  else if character = '\t' then "\\t"
  else if character = '\n' then "\\n"
  else if character = '\r' then "\\r"
  else if character = '\\' then "\\\\"
  else if character = quote then "\\" ++ quote.toString
  else if isHidden character then
    "\\u\x7b" ++ String.ofList (Nat.toDigits 16 character.toNat) ++ "\x7d"
  else character.toString

def encode (text : String) : String := "\"" ++ String.join (text.toList.map (escape '"')) ++ "\""

def encodeChar (character : Char) : String := "'" ++ escape '\'' character ++ "'"

end ShaderDefs.Text.Quoted
