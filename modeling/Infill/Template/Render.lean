import Infill.Data.Display
import Infill.Data.Lookup
import Infill.Log
import Infill.Template.Scan

/-!
# Filling a template

The placeholders of a template are found first and filled one after the other.  Each is replaced
where its reference then occurs first in the text, so text that was filled in is searched as well.
-/

set_option autoImplicit false

namespace Infill.Template

/-- The text that a placeholder stands for: nothing where its path leads nowhere or to a falsy node. -/
def valueOf (context : Json) (p : Placeholder) : Text :=
  Data.displayFound (Data.resolve context p.path)

/-- Puts the value of a placeholder where its reference first occurs. -/
def fill (context : Json) (output : Text) (p : Placeholder) : Text :=
  Text.replaceFirst p.reference (valueOf context p) output

/-- Fills placeholders in their order, each where its text comes first. -/
def fillAll (context : Json) (t : Text) (placeholders : List Placeholder) : Text :=
  placeholders.foldl (fill context) t

/-- Fills the template `t` with the data of `context`. -/
def render (t : Text) (context : Json) (d : Delimiters) : Traced ScanError Text := do
  let placeholders ← Traced.ofExcept (scan t d)
  Traced.say .debug .compiler ("Found " ++ toString placeholders.length ++ " tokens")
  pure (fillAll context t placeholders)

end Infill.Template
