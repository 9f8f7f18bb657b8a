/-!
# Terminals

Whether a report is coloured. Colours are meant for a terminal, and the environment can ask for them
anywhere or nowhere.

## Main definitions

* `Terminal`: what is known of the place that the output goes to
* `Terminal.colored`: whether the output is coloured
-/

namespace GoOutline.CommandLine

/-- What is known of the place that the output goes to: whether it is a terminal, and the values of
the variables that speak about colours. -/
structure Terminal where
  isTerminal : Bool := false
  /-- The value of `CLICOLOR`: no colours when it is zero. -/
  color : Option String := none
  /-- The value of `NO_COLOR`: no colours, whatever the value is. -/
  noColor : Option String := none
  /-- The value of `CLICOLOR_FORCE`: colours anywhere unless it is zero. -/
  forceColor : Option String := none
  deriving DecidableEq, Repr, Inhabited

namespace Terminal

/-- The value of a variable turns something on: every value does, except zero. -/
def turnsOn (value : String) : Bool := value != "0"

/-- The output is coloured. To ask for colours everywhere is stronger than to ask for none. -/
def colored (t : Terminal) : Bool :=
  t.forceColor.any turnsOn || (t.noColor.isNone && t.color.all turnsOn && t.isTerminal)

end Terminal

end GoOutline.CommandLine
