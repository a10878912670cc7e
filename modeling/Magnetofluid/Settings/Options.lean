import Magnetofluid.Settings.Entry

/-!
# Output options
-/

namespace Magnetofluid.Settings

structure Options where
  output : String
  /-- The number of steps from one snapshot to the next. -/
  writeFreq : Int
  /-- Whether the name of the output directory begins with a time stamp. -/
  useTstamp : Bool
  silent : Bool
deriving DecidableEq, Repr

namespace Options

variable {K : Type} [RealText K]

def ofEntries (es : Entries K) : Except (Failure K) Options := do
  let output ← (given es "output" (.text "example")).toText
  let writeFreq ← (given es "write_freq" (.int 100)).toInteger
  let useTstamp := (given es "use_tstamp" (.bool true)).isTrue
  let silent := (given es "silent" (.bool false)).isTrue
  require .outputFrequency (1 ≤ writeFreq)
  return { output, writeFreq, useTstamp, silent }

def toEntries (o : Options) : Entries K :=
  [entry "output" (.text o.output), entry "write_freq" (.int o.writeFreq),
    entry "use_tstamp" (.bool o.useTstamp), entry "silent" (.bool o.silent)]

end Options

end Magnetofluid.Settings
