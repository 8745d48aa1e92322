/-!
# UTF-8 text as bytes

Offsets into a source count the bytes of its UTF-8 form, and the lexer reads those bytes one at a
time. `utf8` lists the bytes of a text; `ofBytes` reads bytes back one by one, a byte outside ASCII
as U+FFFD, since alone it is no character.

Results:
* `utf8_append`: the bytes of a concatenation are the concatenated bytes.
-/

namespace Monkey.Text

/-- The bytes of a text in UTF-8. -/
def utf8 (text : String) : List UInt8 :=
  text.toList.flatMap String.utf8EncodeChar

theorem utf8_append (s t : String) : utf8 (s ++ t) = utf8 s ++ utf8 t := by
  simp [utf8]

/-- An ASCII byte is its character; any other byte is U+FFFD. -/
def charOfByte (byte : UInt8) : Char :=
  if byte < 0x80 then Char.ofNat byte.toNat else '\uFFFD'

/-- The text of bytes taken one at a time. -/
def ofBytes (bytes : List UInt8) : String :=
  String.ofList (bytes.map charOfByte)

end Monkey.Text
