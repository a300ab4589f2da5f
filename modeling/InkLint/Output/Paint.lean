/-!
# Colour

A painted text stands between an escape sequence that starts its colour and one that resets it. A
reset inside the text would end the colour early, so after each of them the colour starts again.
-/

namespace InkLint

/-- The colours that are used. -/
inductive Color where
  | green
  | yellow
  | blue
  | magenta
deriving DecidableEq, Repr

namespace Color

/-- The number of a colour in an escape sequence. -/
def code : Color → List Char
  | green => ['3', '2']
  | yellow => ['3', '3']
  | blue => ['3', '4']
  | magenta => ['3', '5']

/-- The sequence that starts a colour. -/
def start (c : Color) : List Char :=
  '\x1b' :: '[' :: c.code ++ ['m']

/-- The sequence that ends every colour. -/
def reset : List Char :=
  ['\x1b', '[', '0', 'm']

/-- The text with the colour started again after each reset in it. -/
def restart (c : Color) : List Char → List Char
  | '\x1b' :: '[' :: '0' :: 'm' :: rest => reset ++ c.start ++ c.restart rest
  | ch :: rest => ch :: c.restart rest
  | [] => []

/-- The text in a colour. -/
def paint (c : Color) (text : List Char) : List Char :=
  c.start ++ c.restart text ++ reset

end Color

end InkLint
