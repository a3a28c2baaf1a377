import Gateware.Text.Basic

/-!
# Dependencies

The condition under which a port or bus exists is an expression over parameters, which the
packager wraps. `clean` leaves the expression itself.
-/

namespace Gateware.Dependency

open Text

/-- A wrapped parameter on one line, and the text after it. -/
def decoded? (s : Text) : Option (Text × Text) :=
  (stripStart? "spirit:decode(id(" s).bind fun r =>
    (cut? "))" r).filter fun (body, _) => !body.contains '\n'

/-- The expression without wrappers and parentheses. -/
def clean (raw : Text) : Text :=
  (substitute (fun _ s => decoded? s) raw).filter fun c => c != '(' && c != ')'

end Gateware.Dependency
