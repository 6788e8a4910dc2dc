/-!
# Coloured text

Escape sequences that a terminal shows as colours and weights.  A style encloses a text; styles can
be put around each other.
-/

namespace Linkage.Console

/-- A text between two escape sequences. -/
def escaped (opening closing text : String) : String :=
  s!"\x1b[{opening}m{text}\x1b[{closing}m"

/-- A text in a colour, by its number. -/
def coloured (colour : String) (text : String) : String := escaped colour "39" text

/-- A text in red. -/
def red : String → String := coloured "31"

/-- A text in green. -/
def green : String → String := coloured "32"

/-- A text in yellow. -/
def yellow : String → String := coloured "33"

/-- A text in blue. -/
def blue : String → String := coloured "34"

/-- A text in magenta. -/
def magenta : String → String := coloured "35"

/-- A text in cyan. -/
def cyan : String → String := coloured "36"

/-- A text in white. -/
def white : String → String := coloured "37"

/-- A text in bright yellow. -/
def brightYellow : String → String := coloured "93"

/-- A text in bright cyan. -/
def brightCyan : String → String := coloured "96"

/-- A text in bright white. -/
def brightWhite : String → String := coloured "97"

/-- A text in heavy type. -/
def bold : String → String := escaped "1" "0"

/-- A text in faint type. -/
def dimmed : String → String := escaped "2" "0"

/-- A text filled up with spaces at its end. -/
def padRight (width : Nat) (text : String) : String :=
  text ++ String.ofList (List.replicate (width - text.length) ' ')

/-- A text filled up with spaces at its front. -/
def padLeft (width : Nat) (text : String) : String :=
  String.ofList (List.replicate (width - text.length) ' ') ++ text

end Linkage.Console
