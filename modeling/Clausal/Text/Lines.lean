namespace Clausal.Text

def endsFileLine (c : Char) : Bool :=
  c == '\n' || c == '\r'

/-- The line ends of a text: those of a file, the vertical tab, the form feed, three separators, the
next line character and the line and paragraph separators. -/
def endsTextLine (c : Char) : Bool :=
  let n := c.toNat
  (0xA ≤ n && n ≤ 0xD) || (0x1C ≤ n && n ≤ 0x1E) || n == 0x85 || n == 0x2028 || n == 0x2029

/-- The ended lines, without their ends, and what stands after the last end. The first line begins
with what was read of it before. -/
def cutLines (ends : Char → Bool) (line : List Char) : List Char → List (List Char) × List Char
  | [] => ([], line)
  | '\r' :: '\n' :: cs =>
    let (lines, rest) := cutLines ends [] cs
    (line :: lines, rest)
  | c :: cs =>
    if ends c then
      let (lines, rest) := cutLines ends [] cs
      (line :: lines, rest)
    else cutLines ends (line ++ [c]) cs

/-- All lines; a text that ends with a line end has no empty line after it. -/
def lines (ends : Char → Bool) (cs : List Char) : List (List Char) :=
  let (ended, rest) := cutLines ends [] cs
  if rest.isEmpty then ended else ended ++ [rest]

end Clausal.Text
