import LuaChunk.Text.CharacterSets

/-!
# Quoted text

A text between double quotes, such that every character in it can be seen: quotes, backslashes and
the common controls are written with a backslash, and a character that has no printed form, that
shows as nothing, or that would attach to the character before it, is written by its number.
-/

namespace LuaChunk.Quoted

/-- Whether a character is written by its number. -/
def needsNumber (c : Char) : Bool :=
  !(' ' ≤ c && c ≤ '~') && (attaches c || defaultIgnorable.mem c || unprintable.mem c)

/-- A character written by its number, in hexadecimal without leading zeros. -/
def numbered (c : Char) : List Char :=
  ['\\', 'u', '\x7b'] ++ Nat.toDigits 16 c.toNat ++ ['\x7d']

/-- A character as it stands between the quotes. -/
def escape (c : Char) : List Char :=
  match c with
  | '\x00' => ['\\', '0']
  | '\t' => ['\\', 't']
  | '\r' => ['\\', 'r']
  | '\n' => ['\\', 'n']
  | '"' => ['\\', '"']
  | '\\' => ['\\', '\\']
  | c => if needsNumber c then numbered c else [c]

/-- A text between double quotes. -/
def ofString (s : String) : String :=
  String.ofList (['"'] ++ s.toList.flatMap escape ++ ['"'])

end LuaChunk.Quoted
