import Magnetofluid.Scalar

/-!
# Vectors of numbers

`Vec K n` is a vector of `n` numbers. Sum, difference and negation are the entrywise ones of `Vector`;
this module adds scaling, the inner product, the Euclidean norm and the passage from lists of unchecked
length.
-/

namespace Magnetofluid

abbrev Vec (K : Type) (n : Nat) := Vector K n

/-- The sum of `f i` over all positions, from the first to the last. -/
@[specialize] def sumFin {K : Type} [Scalar K] (n : Nat) (f : Fin n → K) : K :=
  Fin.foldl n (fun s i => s + f i) 0

namespace Vec

variable {K : Type} [Scalar K] {n : Nat}

def zeros (n : Nat) : Vec K n := Vector.replicate n 0

def fill (n : Nat) (c : K) : Vec K n := Vector.replicate n c

/-- The vector of the given entries, if there are `n` of them. -/
def ofArray? {α : Type} (n : Nat) (xs : Array α) : Option (Vector α n) :=
  if h : xs.size = n then some ⟨xs, h⟩ else none

/-- The entries of an array as a vector of its size. -/
def ofEntries {α : Type} (xs : Array α) : Vector α xs.size := ⟨xs, rfl⟩

/-- The vector with one entry set. -/
@[inline] def put {α : Type} {n : Nat} (x : Vector α n) (i : Fin n) (a : α) : Vector α n := x.set i a i.isLt

/-- Three vectors of one length, one after the other. -/
def stack {α : Type} {n : Nat} (x y z : Vector α n) : Vector α (3 * n) := (x ++ y ++ z).cast (by omega)

@[specialize] def scale (c : K) (x : Vec K n) : Vec K n := .ofFn fun i => c * x.get i

/-- The vector `y + c x`. -/
@[specialize] def addScaled (y : Vec K n) (c : K) (x : Vec K n) : Vec K n :=
  .ofFn fun i => y.get i + c * x.get i

/-- The vector `y - c x`. -/
@[specialize] def subScaled (y : Vec K n) (c : K) (x : Vec K n) : Vec K n :=
  .ofFn fun i => y.get i - c * x.get i

@[specialize] def dot (x y : Vec K n) : K := sumFin n fun i => x.get i * y.get i

@[specialize] def norm (x : Vec K n) : K := Scalar.sqrt (dot x x)

def isZero (x : Vec K n) : Bool := x.all Scalar.isZero

/-- The largest magnitude of an entry, zero for the empty vector. An entry that is no number is passed
on. -/
def maxAbs (x : Vec K n) : K :=
  x.foldl (fun m a =>
    let a := Scalar.abs a
    if Scalar.lt m a then a else if Scalar.eq a a then m else a) 0

@[simp] theorem get_eq_getElem {α : Type} (x : Vector α n) (i : Fin n) : x.get i = x[i.val] := rfl

@[simp] theorem getElem_zeros (i : Nat) (h : i < n) : (zeros n : Vec K n)[i] = 0 := by
  simp [zeros]

@[simp] theorem getElem_scale (c : K) (x : Vec K n) (i : Nat) (h : i < n) :
    (scale c x)[i] = c * x[i] := by
  simp [scale]

@[simp] theorem getElem_addScaled (y : Vec K n) (c : K) (x : Vec K n) (i : Nat) (h : i < n) :
    (addScaled y c x)[i] = y[i] + c * x[i] := by
  simp [addScaled]

@[simp] theorem getElem_subScaled (y : Vec K n) (c : K) (x : Vec K n) (i : Nat) (h : i < n) :
    (subScaled y c x)[i] = y[i] - c * x[i] := by
  simp [subScaled]

end Vec

/-- The position that an index names in a sequence of `n` entries; a negative index counts from the
end. -/
def position? (n : Nat) (i : Int) : Option (Fin n) :=
  let k := if i < 0 then i + n else i
  if h : 0 ≤ k ∧ k < n then some ⟨k.toNat, by omega⟩ else none

end Magnetofluid
