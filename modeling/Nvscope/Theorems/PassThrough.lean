import Nvscope.Lemmas.Dirents
import Nvscope.System.Libc

/-!
# A shim whose filter is not ready

Every guard of the interposed calls asks `g_proc_filter_ready` before it lets the hidden state decide on
anything, so the program cannot tell the shim from the functions behind it.
-/

namespace Nvscope

open Lib

variable {K β : Type} {sh : Shim}

/-! ## The guards -/

variable (libc : Libc K β) (fuel : Nat)

/-- The two runs have the same operating system underneath and have seen the same answers; the shim's own
state is unconstrained but for its flag. -/
structure Alike (s : ShimRun K β) (s' : DirectRun K β) : Prop where
  not_ready : s.shim.procFilterReady = false
  os : s.os = s'.os
  seen : s.seen = s'.seen

end Nvscope
