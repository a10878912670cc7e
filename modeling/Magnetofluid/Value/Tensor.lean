import Magnetofluid.Tensor
import Magnetofluid.Value.Cast

/-!
# Values as arrays

Nested lists as tensors. All lists of one depth must have one length; that is noticed before any of their items is read
as a number.
-/

namespace Magnetofluid

variable {K : Type} [RealText K]

namespace Value

mutual

/-- The tensor of the items of nested lists. -/
def nested? : Value K → Option (AnyTensor (Value K))
  | list items => (nestedRows? items).bind AnyTensor.ofRows?
  | tuple items => (nestedRows? items).bind AnyTensor.ofRows?
  | v => some (.ofEntry v)

def nestedRows? : List (Value K) → Option (List (AnyTensor (Value K)))
  | [] => some []
  | item :: items => do return (← nested? item) :: (← nestedRows? items)

end

/-- The tensor of nested lists, each item read as an entry. -/
def toTensor {α : Type} (read : Value K → Except (Failure K) α) (v : Value K) : Except (Failure K) (AnyTensor α) := do
  let some items := v.nested? | throw .shape
  items.mapM read

/-- The entry of an array of real numbers. Nothing at all stands for no number. -/
def toRealEntry : Value K → Except (Failure K) K
  | null => .ok RealText.nan
  | v => v.toReal

def toReals (v : Value K) : Except (Failure K) (AnyTensor K) := v.toTensor toRealEntry

def indices (v : Value K) : Except (Failure K) (List Int) := do return (← v.toTensor toIndex).toList

end Value

end Magnetofluid
