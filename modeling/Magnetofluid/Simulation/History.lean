import Magnetofluid.Table.Csv

/-!
# Histories

What a simulation records after each step, and the table of these records.
-/

namespace Magnetofluid

structure Record (K : Type) where
  step : Int
  time : K
  /-- The size of the step as it was given. -/
  dt : Value K
  /-- The kinetic energy. -/
  ekin : K
  /-- The magnetic energy. -/
  emag : K
  /-- The largest size of the current. -/
  jmax : K
  newtonIts : Nat

namespace Record

variable {K : Type}

/-- The columns of records, as a table has them. -/
def columns (records : List (Record K)) : List (Csv.Column K) :=
  let column (name : String) (f : Record K → Value K) : Csv.Column K := ⟨name, records.map f⟩
  [column "step" fun r => .int r.step, column "time" fun r => .real r.time, column "dt" (·.dt),
    column "ekin" fun r => .real r.ekin, column "emag" fun r => .real r.emag,
    column "jmax" fun r => .real r.jmax, column "newton_its" fun r => .int r.newtonIts]

def table (records : List (Record K)) : Csv.Table K := ⟨records.length, columns records⟩

end Record

end Magnetofluid
