import Magnetofluid.Linear.Vector

/-!
# Arrays of any shape

A tensor of shape `[m, n]` is a vector of `m` vectors of `n` entries, and so on: a tensor of shape `[n]` is a vector,
one of the empty shape is a single entry.

Where a tensor of some shape is needed, one of another shape can do: read from the last size to the first, a size of
one stands for any size, and sizes in front may be left out. `AnyTensor.stretch?` repeats the entries accordingly, and
`AnyTensor.zipWith?` stretches two tensors to the shape that they have in common.
-/

namespace Magnetofluid

def Tensor (α : Type) : List Nat → Type
  | [] => α
  | n :: shape => Vector (Tensor α shape) n

namespace Tensor

variable {α β γ : Type}

/-- An action on the entries, from the first to the last. -/
def mapM {f : Type → Type} [Monad f] (act : α → f β) : {shape : List Nat} → Tensor α shape → f (Tensor β shape)
  | [], a => act a
  | _ :: _, rows => Vector.mapM (mapM act) rows

/-- The entries of two tensors of one shape, combined. -/
def zipWith (f : α → β → γ) : {shape : List Nat} → Tensor α shape → Tensor β shape → Tensor γ shape
  | [], a, b => f a b
  | _ :: _, rows, rows' => Vector.zipWith (zipWith f) rows rows'

def toList : {shape : List Nat} → Tensor α shape → List α
  | [], a => [a]
  | _ :: _, rows => (Vector.toList rows).flatMap toList

/-- The tensor with its entries repeated along the sizes of the target that it has not, if all other sizes agree. -/
def stretch? : (own target : List Nat) → Tensor α own → Option (Tensor α target)
  | [], [], a => some a
  | _ :: _, [], _ => none
  | [], n :: target, a => (stretch? [] target a).map (Vector.replicate n)
  | k :: own, n :: target, rows =>
    if own.length < target.length then (stretch? (k :: own) target rows).map (Vector.replicate n)
    else if h : k = n then Vector.mapM (stretch? own target) (Vector.cast h rows)
    else if h : k = 1 then
      (stretch? own target (Vector.get rows ⟨0, by omega⟩)).map (Vector.replicate n)
    else none
  termination_by structural _ target => target

end Tensor

structure AnyTensor (α : Type) where
  shape : List Nat
  entries : Tensor α shape

namespace AnyTensor

variable {α β γ : Type}

def ofEntry (a : α) : AnyTensor α := ⟨[], a⟩

/-- The tensor of a sequence of entries. -/
def ofArray (xs : Array α) : AnyTensor α := ⟨[xs.size], Vec.ofEntries xs⟩

def ofList (xs : List α) : AnyTensor α := ofArray xs.toArray

/-- The entries as a tensor of a shape, if it is theirs. -/
def ofShape? (shape : List Nat) (x : AnyTensor α) : Option (Tensor α shape) :=
  if h : x.shape = shape then some (cast (by rw [h]) x.entries) else none

/-- The tensor of tensors of one shape. -/
def ofRows? : List (AnyTensor α) → Option (AnyTensor α)
  | [] => some (ofList [])
  | row :: rows => do
    let rows ← (row :: rows).mapM (ofShape? row.shape)
    return ⟨rows.toArray.size :: row.shape, Vec.ofEntries rows.toArray⟩

/-- An action on the entries, from the first to the last. -/
def mapM {f : Type → Type} [Monad f] (act : α → f β) (x : AnyTensor α) : f (AnyTensor β) := do
  return ⟨x.shape, ← x.entries.mapM act⟩

def map (f : α → β) (x : AnyTensor α) : AnyTensor β := x.mapM (f := Id) f

def toList (x : AnyTensor α) : List α := x.entries.toList

/-- Whether a shape can be stretched to a target, both from the last size to the first. -/
def reaches : (own target : List Nat) → Bool
  | [], _ => true
  | _ :: _, [] => false
  | k :: own, n :: target => (k = n || k = 1) && reaches own target

/-- The tensor stretched to a shape. -/
def stretch? (shape : List Nat) (x : AnyTensor α) : Option (Tensor α shape) :=
  if reaches x.shape.reverse shape.reverse then x.entries.stretch? x.shape shape else none

/-- The tensor without the first sizes that are one, beyond a number of sizes. -/
def dropOnes (rank : Nat) : AnyTensor α → AnyTensor α
  | ⟨[], a⟩ => ⟨[], a⟩
  | ⟨k :: shape, rows⟩ =>
    if shape.length < rank then ⟨k :: shape, rows⟩
    else if h : k = 1 then dropOnes rank ⟨shape, Vector.get rows ⟨0, by omega⟩⟩
    else ⟨k :: shape, rows⟩
  termination_by x => x.shape.length

/-- What a vector becomes when the tensor is put into it. Sizes of one in front do not count. -/
def fill? (n : Nat) (x : AnyTensor α) : Option (Vector α n) := stretch? [n] (x.dropOnes 1)

/-- The shape that two shapes can be stretched to, all from the last size to the first. -/
def commonReversed? : List Nat → List Nat → Option (List Nat)
  | [], shape => some shape
  | shape, [] => some shape
  | k :: shape, n :: shape' =>
    if k = n ∨ n = 1 then (commonReversed? shape shape').map (k :: ·)
    else if k = 1 then (commonReversed? shape shape').map (n :: ·)
    else none

/-- The entries of two tensors, stretched to the shape that they have in common and combined. -/
def zipWith? (f : α → β → γ) (x : AnyTensor α) (y : AnyTensor β) : Option (AnyTensor γ) := do
  let shape := (← commonReversed? x.shape.reverse y.shape.reverse).reverse
  return ⟨shape, Tensor.zipWith f (← x.stretch? shape) (← y.stretch? shape)⟩

end AnyTensor

end Magnetofluid
