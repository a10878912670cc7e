import Magnetofluid.Printing
import Magnetofluid.Text.Layout
import Magnetofluid.Value.Cast

/-!
# Banners of values

A banner of any values. Its lines are sums and multiples of them: those of texts and lists are made by joining and
repeating, those of numbers by computing. The upper rule is printed before it shows whether the lines below it can be
made.
-/

namespace Magnetofluid.Value

variable {K : Type} [RealText K]

/-- The number of parts of a value. -/
def size (v : Value K) : Except (Failure K) Nat := return (← v.parts).length

def product : Number K → Number K → Except (Failure K) (Value K)
  | .int i, .int j => .ok (.int (i * j))
  | .int i, .real y => do return .real ((← realOfInteger i) * y)
  | .real x, .int j => do return .real (x * (← realOfInteger j))
  | .real x, .real y => .ok (.real (x * y))

def times (count : Number K) (v : Value K) : Except (Failure K) (Value K) :=
  match count, v with
  | .int n, text s => .ok (.text (Text.repeated n s))
  | .int n, list items => .ok (.list (List.replicate n.toNat items).flatten)
  | _, v => do product count (← v.toNumber)

def plus : Value K → Value K → Except (Failure K) (Value K)
  | text s, text t => .ok (.text (s ++ t))
  | list xs, list ys => .ok (.list (xs ++ ys))
  | v, w => do
    match ← v.toNumber, ← w.toNumber with
    | .int i, .int j => return .int (i + j)
    | .int i, .real y => return .real ((← realOfInteger i) + y)
    | .real x, .int j => return .real (x + (← realOfInteger j))
    | .real x, .real y => return .real (x + y)

/-- The width of a banner of `size` parts, and how often its filling stands on each side of them. -/
def bannerWidths (size : Nat) (width : Number K) : Number K × Number K :=
  let narrow := match width with
    | .int n => decide (n < (size : Int))
    | .real x => Scalar.lt x (size : K)
  match if narrow then .int (size + 4) else width with
  | .int n => (.int (n + size % 2), .int ((n + size % 2 - size).fdiv 2 - 1))
  | .real x =>
    let x := x + ((size % 2 : Nat) : K)
    (.real x, .real (0.5 * (x - (size : K)) - 1))

def banner (v width edge fill : Value K) : Printing K Unit := do
  let (w, b) := bannerWidths (← MonadExcept.ofExcept v.size) (← MonadExcept.ofExcept width.toNumber)
  let rule ← MonadExcept.ofExcept (edge.times w)
  Printing.say (Text.lines rule.plain)
  let space ← MonadExcept.ofExcept (fill.times b)
  let left ← MonadExcept.ofExcept (edge.plus space)
  let right ← MonadExcept.ofExcept ((← MonadExcept.ofExcept (left.plus v)).plus space)
  Printing.say (Text.lines (← MonadExcept.ofExcept (right.plus edge)).plain)
  Printing.say (Text.lines rule.plain)

end Magnetofluid.Value
