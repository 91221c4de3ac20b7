import MdRaid.Journal.Invariant

/-!
# Journal before array

A stripe may be written to the member disks once the log is durable up to and
including its unit: that unit and all earlier ones have completed, and a cache flush
issued after that has completed. The flush path guarantees this. The path taken when
the completing unit has no stripe of its own releases whatever has completed behind
it, without a flush.
-/

namespace MdRaid.Journal

open Runs List R5lLog

end MdRaid.Journal
