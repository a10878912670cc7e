import Magnetofluid.Initial.Configuration

/-!
# What there is to choose from

The version of the library and the names that settings may give for the case and the backend.
-/

namespace Magnetofluid.Catalog

def version : String := "0.1.0"

/-- The initial conditions. -/
def cases : List String := CaseName.all.map CaseName.text

def backends : List String := Krylov.Backend.all.map Krylov.Backend.name

end Magnetofluid.Catalog
