import RouteAtlas.Text.Pieces

/-!
# Painted text

On a terminal, words of a report can be painted: a style is switched on before them and off behind
them. Where a painted text itself switches styles off, its own style is switched on again.
-/

set_option autoImplicit false

namespace RouteAtlas

/-- How words are painted. -/
inductive Paint where
  | bold
  | dimmed
  | red
  | green
  | yellow
  | blue
  | boldCyan
  deriving DecidableEq, Repr

namespace Paint

/-- The codes of a style. -/
def codes : Paint → String
  | .bold => "1"
  | .dimmed => "2"
  | .red => "31"
  | .green => "32"
  | .yellow => "33"
  | .blue => "34"
  | .boldCyan => "1;36"

/-- The characters that switch a style on. -/
def switchOn (p : Paint) : String := "\x1b[" ++ p.codes ++ "m"

/-- The characters that switch every style off. -/
def switchOff : String := "\x1b[0m"

def apply (p : Paint) (colors : Bool) (s : String) : String :=
  if colors then
    p.switchOn ++ Text.replace switchOff (switchOff ++ p.switchOn) s ++ switchOff
  else s

end Paint

/-- A text with spaces behind it up to a width. -/
def Text.padTo (width : Nat) (s : String) : String :=
  s ++ String.ofList (List.replicate (width - s.length) ' ')

end RouteAtlas
