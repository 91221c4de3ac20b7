import Mathlib

/-!
# Constants of several parts
-/

namespace MdRaid

/-- `RAID5_STRIPE_SECTORS`: a stripe is one 4 KiB page on every device. -/
def stripeSectors : Nat := 8

/-- `BLOCK_SECTORS`: a block of the log is one page. -/
def blockSectors : Nat := 8

/-- `MaxSector`, the largest `sector_t`. -/
def maxSector : Nat := 2 ^ 64 - 1

/-- `PAGE_COUNTER_RATIO`: the bitmap counters in one page. -/
def pageCounters : Nat := 2 ^ 11

theorem pageCounters_pos : 0 < pageCounters := Nat.two_pow_pos 11

end MdRaid
