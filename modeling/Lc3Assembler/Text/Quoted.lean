import Lc3Assembler.Text.Hidden
import Lc3Assembler.Text.Numeral

/-!
# Quoted text

Messages show a name or a token between quotes, with everything that would
not be visible escaped.  Single quotes are used unless the text holds single
quotes and no double quotes.
-/

namespace Lc3Assembler.Text

/-- A character that is shown as itself between quotes. -/
def isVisible (c : Char) : Bool :=
  if c.toNat < 0x80 then 0x20 ≤ c.toNat && c.toNat < 0x7F else !isHidden c

def quoteFor (text : List Char) : Char :=
  if text.contains '\'' && !text.contains '"' then '"' else '\''

/-- The shortest of the three numbered escapes that holds the code point. -/
def numberedEscape (c : Char) : List Char :=
  if c.toNat < 0x100 then '\\' :: 'x' :: numeral 16 2 c.toNat
  else if c.toNat < 0x10000 then '\\' :: 'u' :: numeral 16 4 c.toNat
  else '\\' :: 'U' :: numeral 16 8 c.toNat

def escapeChar (quote c : Char) : List Char :=
  if c = quote ∨ c = '\\' then ['\\', c]
  else if c = '\n' then ['\\', 'n']
  else if c = '\r' then ['\\', 'r']
  else if c = '\t' then ['\\', 't']
  else if isVisible c then [c]
  else numberedEscape c

/-- The text between quotes, escaped. -/
def quoted (text : String) : String :=
  let chars := text.toList
  let quote := quoteFor chars
  String.ofList (quote :: chars.flatMap (escapeChar quote) ++ [quote])

end Lc3Assembler.Text
