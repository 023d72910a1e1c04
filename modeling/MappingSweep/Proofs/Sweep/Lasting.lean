import MappingSweep.Proofs.Lasting
import MappingSweep.Proofs.Run.Frame

/-!
# Logs that last

The directory of a trial is made empty before its simulator runs, and nobody takes anything away
from it after that while the sweep is under way.  A log that is new in a trial's directory, at
whatever point of the sweep, is still there when the sweep has ended.
-/

namespace MappingSweep
namespace Sweep

variable {plan : Plan} {template : Template} {simulator : Simulator} {α : Type} {q : Place}
  {start : FileSystem} {t : Trial}

/-- What stands at the place stays there. -/
def StaysAt (q : Place) (w w' : World Funnel) : Prop :=
  FileSystem.Grows (· ≠ q) w.files w'.files

theorem StaysAt.trans {w w' w'' : World Funnel} (h : StaysAt q w w') (h' : StaysAt q w' w'') :
    StaysAt q w w'' :=
  FileSystem.Grows.trans h h'

theorem StaysAt.of_grows {inside : Place → Prop} {w w' : World Funnel}
    (h : FileSystem.Grows inside w.files w'.files) (hq : ¬ inside q) : StaysAt q w w' :=
  h.mono fun _ hr hrq => hq (hrq ▸ hr)

end Sweep
end MappingSweep
