import Settlement.Text.Printable
import Settlement.Bytes.Hex

/-! Text between quotation marks, as error messages show it: single marks, or double ones around
text that holds single marks only, with escapes for the mark, the backslash and whatever has no
printed form. -/

namespace Settlement.Text

def quoteMark (t : Text) : Char :=
  if t.contains (CodePoint.ofChar '\'') && !t.contains (CodePoint.ofChar '"') then '"' else '\''

/-- The escape of a code point by number, with two, four or eight hexadecimal digits. -/
def numericEscape (n : Nat) : List Char :=
  if n < 0x100 then '\\' :: 'x' :: Hex.digits 2 n
  else if n < 0x10000 then '\\' :: 'u' :: Hex.digits 4 n
  else '\\' :: 'U' :: Hex.digits 8 n

def quotePoint (mark : Char) (c : CodePoint) : Text :=
  if c = CodePoint.ofChar mark ∨ c = CodePoint.ofChar '\\' then [CodePoint.ofChar '\\', c]
  else if c = CodePoint.ofChar '\n' then ofChars ['\\', 'n']
  else if c = CodePoint.ofChar '\r' then ofChars ['\\', 'r']
  else if c = CodePoint.ofChar '\t' then ofChars ['\\', 't']
  else if c.isPrintable then [c]
  else ofChars (numericEscape c.val)

def quoted (t : Text) : Text :=
  let mark := quoteMark t
  CodePoint.ofChar mark :: t.flatMap (quotePoint mark) ++ [CodePoint.ofChar mark]

end Settlement.Text
