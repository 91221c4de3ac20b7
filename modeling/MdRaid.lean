import MdRaid.Raid0.Size
import MdRaid.Isal.ErasureCode
import MdRaid.Isal.Recovery
import MdRaid.Isal.XorSyndrome
import MdRaid.Stripe.Written
import MdRaid.Stripe.Scrub
import MdRaid.Journal.Ordering
import MdRaid.Journal.FlushSpace
import MdRaid.Journal.Checkpoint
import MdRaid.Journal.UnitSize
import MdRaid.Journal.RecoveryScan
import MdRaid.Reshape.Generations
import MdRaid.Requests.ChainInv
import MdRaid.Requests.DeferBios
import MdRaid.Requests.Dispatch
import MdRaid.Requests.Overwrite
import MdRaid.Resync.SyncMax
import MdRaid.Resync.Checkpoint
import MdRaid.Resync.Interrupt
import MdRaid.Members.PplLogs
import MdRaid.Ppl.Limits
import MdRaid.Takeover.InPlace
import MdRaid.Takeover.Refusal
import MdRaid.Superblock.Behind
import MdRaid.Superblock.Offsets
import MdRaid.WriteIntent.CopySlot
import MdRaid.WriteIntent.Exact
