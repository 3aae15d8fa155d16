import Clausal.CommandLine.Run
import Clausal.Random.Sampling

namespace Clausal.CommandLine

/-- Some files on a host that measures no time. Without a seed the entropy makes the draws. -/
def FileSystem.host {m : Type → Type} (files : FileSystem m) (entropy : Nat) :
    Host m Random.Generator :=
  { files with clock := callClock, elapsed := 0, rng := Random.rng entropy }

end Clausal.CommandLine
