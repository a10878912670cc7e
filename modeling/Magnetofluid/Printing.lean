import Magnetofluid.Failure

/-!
# Printing

Actions that print lines on their way and may fail. What was printed before a failure stays printed.
-/

namespace Magnetofluid

/-- An action that prints lines and may fail. -/
abbrev Printing (K : Type) := EStateM (Failure K) (List String)

namespace Printing

variable {K : Type}

def say (lines : List String) : Printing K Unit := modify (· ++ lines)

theorem run_say (lines printed : List String) :
    (say lines : Printing K Unit).run printed = .ok () (printed ++ lines) := rfl

end Printing

end Magnetofluid
