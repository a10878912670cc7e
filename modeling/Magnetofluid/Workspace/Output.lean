import Magnetofluid.Text.Layout
import Magnetofluid.Workspace.Basic

/-!
# Output directories

An output directory is new or empty, so that it never holds earlier results.
-/

namespace Magnetofluid.Workspace

variable {K : Type}

/-- The name of an output directory; the last part of the name may get the moment before it. -/
def outputName (now : Moment) (name : String) (stamped : Bool) : String :=
  let base := (if stamped then now.stamp ++ "_" else "") ++ Files.basePart name
  Files.join (Files.directoryPart name) base

/-- Makes an output directory, or takes one that is there and empty, and says where it is. -/
def makeOutput (name : String) (stamped : Bool) : Work K String := do
  let s ← get
  let outdir := outputName s.now name stamped
  if Files.exists? s.files outdir then
    unless (← change (Files.namesIn outdir)).isEmpty do throw .outputNotEmpty
  else change (Files.makePath false outdir)
  say (Text.banner ("Writing output into: " ++ outdir) 60 " " " ")
  return outdir

end Magnetofluid.Workspace
