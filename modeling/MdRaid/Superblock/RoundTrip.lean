import MdRaid.Superblock.Version1

/-!
# What a superblock keeps

A member's superblock is written and read back into an empty array and an empty member.
What comes back is what the kernel had, with these exceptions: geometry that is only
planned is not kept, an array that is not in sync has to be resynced from the start unless
its journal is clean, a failed member has no place any more, and the layout of a level 0
array is not marked as one that counts.
-/

namespace MdRaid.Superblock.Version1

open List Version1.Rdev Superblock1 Function Version1

/-! ## The page written -/

/-- The features of an array and its member. -/
def features (mddev : Mddev) (rdev : Rdev) (sb : Superblock1) : Feature → Bool
  | .bitmapOffset => mddev.bitmap.isSome && !mddev.bitmapFile
  | .recoveryOffset => rdev.recovering
  | .reshapeActive => decide (mddev.reshapePosition ≠ maxSector)
  | .badBlocks => decide (rdev.badblocksCount ≠ 0 ∧ sb.bblogOffset ≠ 0)
  | .replacement => rdev.replacement
  | .reshapeBackwards => decide (mddev.reshapePosition ≠ maxSector) &&
      decide (mddev.deltaDisks = 0) && mddev.reshapeBackwards
  | .newOffset => decide (mddev.reshapePosition ≠ maxSector) &&
      decide (rdev.newDataOffset ≠ rdev.dataOffset)
  | .recoveryBitmap =>
    rdev.recovering && decide (0 ≤ rdev.savedRaidDisk.toInt) && mddev.bitmap.isSome
  | .clustered => mddev.clustered
  | .journal => mddev.hasJournal
  | .ppl => mddev.hasPpl && !mddev.hasMultiplePpls
  | .multiplePpls => mddev.hasPpl && mddev.hasMultiplePpls
  | .raid0Layout => false

section

variable (words : Superblock1 → List (BitVec 32)) (dev : Device) (mddev : Mddev)
  (others : List Rdev) (rdev : Rdev) (sb : Superblock1)

theorem sync_featureMap :
    (super1Sync words dev mddev others rdev sb).2.featureMap = features mddev rdev sb := by
  funext f
  simp only [super1Sync, syncTail, syncLog, syncRoles, syncPage, syncReshape, syncRecovery,
    syncBitmap, syncState, setIf, Bool.false_or]
  cases f <;>
    simp only [features, reduceCtorEq, decide_true, decide_false, Bool.and_true, Bool.and_false,
      Bool.or_false, Bool.false_or]

theorem calcSb1Csum_sbCsum (csum : BitVec 32) :
    calcSb1Csum words { sb with sbCsum := csum } = calcSb1Csum words sb := rfl

theorem sync_sbCsum : calcSb1Csum words (super1Sync words dev mddev others rdev sb).2 =
    (super1Sync words dev mddev others rdev sb).2.sbCsum :=
  calcSb1Csum_sbCsum words _ _

end

/-! ## The roles written -/

theorem foldl_max_le {α : Type*} (f : α → Int) {b : Int} :
    ∀ {l : List α} {a : Int}, a ≤ b → (∀ x ∈ l, f x ≤ b) → l.foldl (fun m x => max m (f x)) a ≤ b
  | [], _, ha, _ => ha
  | x :: l, a, ha, hl => by
    rw [foldl_cons]
    refine foldl_max_le f (max_le ha (hl x mem_cons_self)) fun y hy => ?_
    exact hl y (mem_cons_of_mem x hy)

theorem le_foldl_max {α : Type*} (f : α → Int) :
    ∀ {l : List α} {a b : Int}, (b ≤ a ∨ ∃ x ∈ l, b ≤ f x) → b ≤ l.foldl (fun m x => max m (f x)) a
  | [], _, _, h => h.elim id fun ⟨_, hx, _⟩ => absurd hx not_mem_nil
  | y :: l, a, b, h => by
    rw [foldl_cons]
    refine le_foldl_max f ?_
    rcases h with ha | ⟨x, hx, hle⟩
    · exact .inl (ha.trans (le_max_left _ _))
    · rcases mem_cons.mp hx with rfl | hx
      · exact .inl (hle.trans (le_max_right _ _))
      · exact .inr ⟨x, hx, hle⟩

/-- The entries of `dev_roles` that count after a sync. -/
def devCount (rdevs : List Rdev) (sb : Superblock1) : Nat :=
  (max (highestDev rdevs) sb.maxDev.toNat).toNat

/-- The members have numbers of their own that the page has room for. -/
structure Numbered (rdevs : List Rdev) (sb : Superblock1) : Prop where
  nodup : (rdevs.map descNr).Nodup
  room : ∀ rdev ∈ rdevs, 0 ≤ rdev.descNr.toInt ∧ rdev.descNr.toInt < 1920
  maxDev : sb.maxDev.toNat ≤ 1920

theorem Numbered.devCount_le {rdevs : List Rdev} {sb : Superblock1} (h : Numbered rdevs sb) :
    devCount rdevs sb ≤ 1920 := by
  have hhigh : highestDev rdevs ≤ 1920 :=
    foldl_max_le (fun rdev : Rdev => rdev.descNr.toInt + 1) (by decide) fun rdev hr => by
      have hroom := h.room rdev hr
      omega
  have hmax := h.maxDev
  unfold devCount
  omega

theorem lt_devCount {rdevs : List Rdev} {sb : Superblock1} {rdev : Rdev} (hr : rdev ∈ rdevs) :
    rdev.descNr.toInt < devCount rdevs sb := by
  have hhigh : rdev.descNr.toInt + 1 ≤ highestDev rdevs :=
    le_foldl_max (fun rdev : Rdev => rdev.descNr.toInt + 1) (.inr ⟨rdev, hr, le_rfl⟩)
  unfold devCount
  omega

theorem foldl_roles_of_not_mem {k : Nat} : ∀ {rdevs : List Rdev} {roles : Nat → BitVec 16},
    (∀ rdev ∈ rdevs, rdev.descNr.toNat ≠ k) →
    rdevs.foldl (fun roles rdev => update roles rdev.descNr.toNat rdev.role) roles k =
      roles k
  | [], _, _ => rfl
  | rdev :: rdevs, roles, h => by
    rw [foldl_cons, foldl_roles_of_not_mem fun r hr => h r (mem_cons_of_mem rdev hr),
      update_of_ne (h rdev mem_cons_self).symm]

/-- The member's own entry is its role. -/
theorem syncRoles_self {others : List Rdev} {rdev : Rdev} {sb : Superblock1}
    (h : Numbered (rdev :: others) sb) :
    (syncRoles (rdev :: others) sb).devRoles rdev.descNr.toNat = rdev.role := by
  have hother : ∀ r ∈ others, r.descNr.toNat ≠ rdev.descNr.toNat := by
    intro r hr heq
    have hnodup := nodup_cons.mp h.nodup
    exact hnodup.1 (mem_map.mpr ⟨r, hr, BitVec.eq_of_toNat_eq heq⟩)
  simp only [syncRoles, foldl_cons]
  rw [foldl_roles_of_not_mem hother, update_self]

theorem syncRoles_maxDev {rdevs : List Rdev} {sb : Superblock1} (h : Numbered rdevs sb) :
    (syncRoles rdevs sb).maxDev.toNat = devCount rdevs sb := by
  have hle := h.devCount_le
  unfold devCount at hle ⊢
  simp only [syncRoles, BitVec.toNat_ofInt]
  omega

/-! ## States that can be stored -/

/-- What a member can be. -/
inductive Rdev.Member (mddev : Mddev) (rdev : Rdev) : Prop where
  | faulty (hf : rdev.faulty = true)
  | inSync (hf : rdev.faulty = false) (hs : rdev.inSync = true) (hj : rdev.journal = false)
      (hd : rdev.raidDisk.toNat < roleMax.toNat)
  | recovering (hf : rdev.faulty = false) (hs : rdev.inSync = false) (hj : rdev.journal = false)
      (hd : rdev.raidDisk.toNat < roleMax.toNat)
  | journal (hf : rdev.faulty = false) (hs : rdev.inSync = false) (hj : rdev.journal = true)
      (hd : rdev.raidDisk = 0) (hm : mddev.hasJournal = true)
  | spare (hf : rdev.faulty = false) (hs : rdev.inSync = false) (hj : rdev.journal = false)
      (hd : rdev.raidDisk = -1)

def Mddev.Reshapes (mddev : Mddev) : Prop := mddev.reshapePosition ≠ maxSector

instance (mddev : Mddev) : Decidable mddev.Reshapes := by
  unfold Mddev.Reshapes
  infer_instance

/-- The page is the member's own and the member's space is laid out as its superblock needs it; a
partial parity log is kept without a bitmap or a journal; and a reshape goes the way its change of
the number of disks asks for, over a distance the page has bits for. -/
structure Storable (dev : Device) (mddev : Mddev) (others : List Rdev) (rdev : Rdev)
    (sb : Superblock1) : Prop where
  magic : sb.magic = mdSbMagic
  major : sb.majorVersion = 1
  start : super1SbStart dev = some rdev.sbStart
  superOffset : sb.superOffset = rdev.sbStart
  devNumber : sb.devNumber = rdev.descNr
  numbered : Numbered (rdev :: others) sb
  sectors : 10 ≤ rdev.sectors
  fits : rdev.sectors ≤ roomForData dev rdev.sbStart rdev.dataOffset
  data : dev.minorVersion ≠ 0 →
    dataStart dev rdev.sbStart (devCount (rdev :: others) sb) ≤ rdev.dataOffset ∧
      (mddev.Reshapes →
        dataStart dev rdev.sbStart (devCount (rdev :: others) sb) ≤ rdev.newDataOffset)
  badBlocks : rdev.badblocksCount ≠ 0 →
    sb.bblogOffset ≠ 0 ∧ sb.bblogSize ≤ 8 ∧ dev.badBlocksRead = true
  member : rdev.Member mddev
  ppl : mddev.hasPpl = true → (mddev.bitmap = none ∨ mddev.bitmapFile = true) ∧
    mddev.hasJournal = false ∧ rdev.pplSize.toNat < 2 ^ 16 ∧
    rdev.pplSector = rdev.sbStart + rdev.pplOffset.signExtend 64
  direction : mddev.Reshapes → (mddev.deltaDisks.toInt < 0 → mddev.reshapeBackwards = true) ∧
    (0 < mddev.deltaDisks.toInt → mddev.reshapeBackwards = false)
  distance : mddev.Reshapes → -2 ^ 31 ≤ (rdev.newDataOffset - rdev.dataOffset).toInt ∧
    (rdev.newDataOffset - rdev.dataOffset).toInt < 2 ^ 31

/-- An array without a description, as `md_alloc` leaves it. -/
def emptyMddev : Mddev where
  uuid := 0
  ctime := 0
  utime := 0
  level := 0
  layout := 0
  chunkSectors := 0
  raidDisks := 0
  devSectors := 0
  events := 0
  inSync := false
  recoveryCp := 0
  reshapePosition := maxSector
  deltaDisks := 0
  newLevel := 0
  newLayout := 0
  newChunkSectors := 0
  reshapeBackwards := false
  pers := false
  bitmap := none
  bitmapFile := false
  bitmapOffset := 0
  clustered := false
  frozen := false
  journalClean := false
  hasJournal := false
  hasPpl := false
  hasMultiplePpls := false

/-- A member as `md_rdev_init` leaves it. -/
def emptyRdev : Rdev where
  descNr := -1
  raidDisk := -1
  savedRaidDisk := -1
  dataOffset := 0
  newDataOffset := 0
  sectors := 0
  sbStart := 0
  sbSize := 0
  recoveryOffset := 0
  journalTail := 0
  correctedErrors := 0
  pplOffset := 0
  pplSize := 0
  pplSector := 0
  badblocksCount := 0
  faulty := false
  inSync := false
  bitmapSync := false
  journal := false
  writeMostly := false
  failFast := false
  replacement := false

/-- The superblock is read into an empty array and an empty member. -/
def readBack (words : Superblock1 → List (BitVec 32)) (dev : Device) (sb : Superblock1) :
    Except Errno (Mddev × Rdev) := do
  let (rdev, _) ← super1Load words dev emptyRdev sb none
  super1Validate emptyMddev none rdev sb

/-- What a superblock keeps of the array. -/
structure ArrayRestored (mddev mddev' : Mddev) : Prop where
  level : mddev'.level = mddev.level
  layout : mddev.level ≠ 0 → mddev'.layout = mddev.layout
  chunkSectors : mddev'.chunkSectors = mddev.chunkSectors
  raidDisks : mddev'.raidDisks = mddev.raidDisks
  devSectors : mddev'.devSectors = mddev.devSectors
  events : mddev'.events = mddev.events
  resyncOffset : mddev'.recoveryCp =
    if mddev.inSync then mddev.recoveryCp else if mddev.journalClean then maxSector else 0
  reshapePosition : mddev'.reshapePosition = mddev.reshapePosition
  newLevel : mddev'.newLevel = if mddev.Reshapes then mddev.newLevel else mddev.level
  newLayout : mddev'.newLayout = if mddev.Reshapes then mddev.newLayout else mddev.layout
  newChunkSectors :
    mddev'.newChunkSectors = if mddev.Reshapes then mddev.newChunkSectors else mddev.chunkSectors
  deltaDisks : mddev'.deltaDisks = if mddev.Reshapes then mddev.deltaDisks else 0
  reshapeBackwards :
    mddev'.reshapeBackwards = (decide mddev.Reshapes && mddev.reshapeBackwards)
  hasJournal : mddev'.hasJournal = mddev.hasJournal
  hasPpl : mddev'.hasPpl = mddev.hasPpl

/-- What a superblock keeps of its member. A failed one has lost its place. -/
structure MemberRestored (mddev : Mddev) (rdev rdev' : Rdev) : Prop where
  dataOffset : rdev'.dataOffset = rdev.dataOffset
  newDataOffset :
    rdev'.newDataOffset = if mddev.Reshapes then rdev.newDataOffset else rdev.dataOffset
  sectors : rdev'.sectors = rdev.sectors
  faulty : rdev'.faulty = rdev.faulty
  role : rdev.faulty = false →
    rdev'.raidDisk = rdev.raidDisk ∧ rdev'.inSync = rdev.inSync ∧ rdev'.journal = rdev.journal
  recoveryOffset : rdev.faulty = false → rdev.recovering = true →
    rdev'.recoveryOffset = rdev.recoveryOffset
  journalTail : rdev.faulty = false → rdev.journal = true → rdev'.journalTail = rdev.journalTail
  ppl : mddev.hasPpl = true → rdev'.pplOffset = rdev.pplOffset ∧ rdev'.pplSize = rdev.pplSize ∧
    rdev'.pplSector = rdev.pplSector
  writeMostly : rdev'.writeMostly = rdev.writeMostly
  failFast : rdev'.failFast = rdev.failFast
  replacement : rdev'.replacement = rdev.replacement

/-! ## What a sync leaves on the page -/

theorem signExtend_truncate {x : BitVec 64} (hge : -2 ^ 31 ≤ x.toInt) (hlt : x.toInt < 2 ^ 31) :
    (x.truncate 32).signExtend 64 = x := by
  apply BitVec.eq_of_toInt_eq
  rw [BitVec.toInt_signExtend_of_le (by decide), BitVec.truncate_eq_setWidth, BitVec.toInt_setWidth]
  rw [BitVec.toInt_eq_toNat_bmod] at *
  have hx := x.isLt
  simp only [Int.bmod_def] at *
  omega

theorem zeroExtend_truncate {x : BitVec 32} (h : x.toNat < 2 ^ 16) :
    (x.truncate 16).zeroExtend 32 = x := by
  apply BitVec.eq_of_toNat_eq
  simp only [BitVec.truncate_eq_setWidth, BitVec.toNat_setWidth]
  omega

/-- What a sync leaves on the page `sb`, for a member whose bad blocks can be recorded. -/
structure Written (mddev : Mddev) (others : List Rdev) (rdev : Rdev) (sb page : Superblock1) :
    Prop where
  magic : page.magic = sb.magic
  majorVersion : page.majorVersion = sb.majorVersion
  featureMap : page.featureMap = features mddev rdev sb
  unknownFeatures : page.unknownFeatures = false
  padding : page.pad0 = 0 ∧ page.pad3 = 0
  level : page.level = mddev.level
  layout : page.layout = mddev.layout
  size : page.size = mddev.devSectors
  chunksize : page.chunksize = mddev.chunkSectors
  raidDisks : page.raidDisks = mddev.raidDisks
  ppl : mddev.hasPpl = true → page.bitmapOffset = rdev.pplSize.truncate 16 ++ rdev.pplOffset
  reshape : mddev.Reshapes → page.reshapePosition = mddev.reshapePosition ∧
    page.newLevel = mddev.newLevel ∧ page.newLayout = mddev.newLayout ∧
    page.newChunk = mddev.newChunkSectors ∧ page.deltaDisks = mddev.deltaDisks
  newOffset : mddev.Reshapes → rdev.newDataOffset ≠ rdev.dataOffset →
    page.newOffset = (rdev.newDataOffset - rdev.dataOffset).truncate 32
  dataOffset : page.dataOffset = rdev.dataOffset
  dataSize : page.dataSize = rdev.sectors
  superOffset : page.superOffset = sb.superOffset
  recoveryOffset : page.recoveryOffset =
    if rdev.journal then rdev.journalTail else if rdev.recovering then rdev.recoveryOffset else 0
  devNumber : page.devNumber = sb.devNumber
  devflags : page.writeMostly1 = rdev.writeMostly ∧ page.failFast1 = rdev.failFast
  bblog : page.bblogSize = sb.bblogSize ∧ page.bblogOffset = sb.bblogOffset
  events : page.events = mddev.events
  resyncOffset : page.resyncOffset =
    if mddev.inSync then mddev.recoveryCp else if mddev.journalClean then maxSector else 0
  maxDev : page.maxDev = (syncRoles (rdev :: others) sb).maxDev
  devRoles : page.devRoles = (syncRoles (rdev :: others) sb).devRoles

theorem syncPage_bblogOffset (mddev : Mddev) (rdev : Rdev) (sb : Superblock1) :
    (syncPage mddev rdev sb).bblogOffset = sb.bblogOffset := by
  simp only [syncPage, syncReshape, syncRecovery, syncBitmap, syncState, setIf]

theorem super1Sync_snd (words : Superblock1 → List (BitVec 32)) (dev : Device) (mddev : Mddev)
    (others : List Rdev) {rdev : Rdev} {sb : Superblock1}
    (h : rdev.badblocksCount ≠ 0 → sb.bblogOffset ≠ 0) :
    (super1Sync words dev mddev others rdev sb).2 =
      syncTail words mddev others rdev (syncPage mddev rdev sb) := by
  have hbad : syncBadBlocks mddev rdev (syncPage mddev rdev sb) = rdev := by
    refine if_neg fun hc => h hc.1 ?_
    rw [← syncPage_bblogOffset mddev rdev sb]
    exact hc.2
  simp only [super1Sync, hbad]

theorem syncRoles_devRoles {rdevs : List Rdev} {sb sb' : Superblock1} (hm : sb'.maxDev = sb.maxDev)
    (hr : sb'.devRoles = sb.devRoles) :
    (syncRoles rdevs sb').devRoles = (syncRoles rdevs sb).devRoles := by
  simp only [syncRoles, hm, hr]

theorem written_super1Sync (words : Superblock1 → List (BitVec 32)) (dev : Device) (mddev : Mddev)
    (others : List Rdev) {rdev : Rdev} {sb : Superblock1}
    (h : rdev.badblocksCount ≠ 0 → sb.bblogOffset ≠ 0) :
    Written mddev others rdev sb (super1Sync words dev mddev others rdev sb).2 := by
  have hfeat := sync_featureMap words dev mddev others rdev sb
  rw [super1Sync_snd words dev mddev others h] at hfeat ⊢
  constructor
  case featureMap => exact hfeat
  case ppl =>
    intro hp
    simp only [syncTail, syncLog, setIf, hp, if_true]
  case reshape =>
    intro hr
    have hactive : decide (mddev.reshapePosition ≠ maxSector) := decide_eq_true hr
    simp only [syncTail, syncLog, syncRoles, syncPage, syncReshape, setIf, hactive,
      if_true, and_self]
  case newOffset =>
    intro hr hn
    have hactive : decide (mddev.reshapePosition ≠ maxSector) := decide_eq_true hr
    simp only [syncTail, syncLog, syncRoles, syncPage, syncReshape, setIf, hactive,
      decide_eq_true hn, Bool.and_self, if_true]
  case devRoles =>
    simp only [syncTail, syncLog, setIf]
    refine syncRoles_devRoles ?_ ?_ <;>
      simp only [syncPage, syncReshape, syncRecovery, syncBitmap, syncState, setIf]
  all_goals
    simp only [syncTail, syncLog, syncRoles, syncPage, syncReshape, syncRecovery, syncBitmap,
      syncState, setIf, and_self]

/-! ## Reading what was written -/

section

variable {dev : Device} {mddev : Mddev} {others : List Rdev} {rdev : Rdev} {sb page : Superblock1}

section

variable (hw : Written mddev others rdev sb page)

include hw

theorem Written.maxDev_toNat (hs : Storable dev mddev others rdev sb) :
    page.maxDev.toNat = devCount (rdev :: others) sb := by
  rw [hw.maxDev]
  exact syncRoles_maxDev hs.numbered

theorem Written.role (hs : Storable dev mddev others rdev sb) :
    page.devRoles rdev.descNr.toNat = rdev.role := by
  rw [hw.devRoles]
  exact syncRoles_self hs.numbered

theorem Written.moves : (page.featureMap .reshapeActive && page.featureMap .newOffset) =
      decide (mddev.Reshapes ∧ rdev.newDataOffset ≠ rdev.dataOffset) := by
  rw [hw.featureMap, Bool.decide_and]
  exact Bool.and_self_left _ _

theorem Written.newDataOffset (hs : Storable dev mddev others rdev sb) :
    page.newDataOffset = if mddev.Reshapes then rdev.newDataOffset else rdev.dataOffset := by
  unfold Superblock1.newDataOffset
  rw [hw.moves, hw.dataOffset]
  simp only [decide_eq_true_eq]
  by_cases hr : mddev.Reshapes
  · rw [if_pos hr]
    by_cases hn : rdev.newDataOffset = rdev.dataOffset
    · rw [if_neg fun h => h.2 hn, hn]
    · have hdist := hs.distance hr
      rw [if_pos ⟨hr, hn⟩, hw.newOffset hr hn, signExtend_truncate hdist.1 hdist.2]
      rw [BitVec.add_comm, BitVec.sub_add_cancel]
  · rw [if_neg hr, if_neg fun h => hr h.1]

theorem Written.hasPpl : page.hasPpl = mddev.hasPpl := by
  unfold Superblock1.hasPpl
  rw [hw.featureMap]
  simp only [features]
  cases mddev.hasPpl <;> cases mddev.hasMultiplePpls <;> rfl

omit hw in
theorem refuse_bind {α : Type} {c : Prop} [Decidable c] {e : Errno} {f : Unit → Except Errno α}
    (h : ¬ c) : (refuse c e >>= f) = f () := by
  unfold refuse
  rw [if_neg h]
  rfl

theorem Written.load {words : Superblock1 → List (BitVec 32)}
    (hs : Storable dev mddev others rdev sb)
    (hcsum : calcSb1Csum words page = page.sbCsum) :
    ∃ better, super1Load words dev emptyRdev page none =
      .ok (page.rdev dev rdev.sbStart emptyRdev, better) := by
  have hmax := hw.maxDev_toNat hs
  have hle := hs.numbered.devCount_le
  have hnew := hw.newDataOffset hs
  have hstart : dev.minorVersion ≠ 0 →
      dataStart dev rdev.sbStart page.maxDev.toNat ≤ page.dataOffset ∧
        dataStart dev rdev.sbStart page.maxDev.toNat ≤ page.newDataOffset := by
    intro hminor
    obtain ⟨hdata, hmoved⟩ := hs.data hminor
    rw [hmax, hw.dataOffset, hnew]
    refine ⟨hdata, ?_⟩
    split_ifs with hr
    · exact hmoved hr
    · exact hdata
  have hbad : page.featureMap .badBlocks →
      page.bblogSize ≤ 8 ∧ page.bblogOffset ≠ 0 ∧ dev.badBlocksRead := by
    intro hb
    rw [hw.featureMap] at hb
    obtain ⟨hoff, hsize, hread⟩ := hs.badBlocks (of_decide_eq_true hb).1
    rw [hw.bblog.1, hw.bblog.2]
    exact ⟨hsize, hoff, hread⟩
  unfold super1Load
  rw [hs.start]
  refine ⟨_, (refuse_bind ?_).trans <| (refuse_bind ?_).trans <| (refuse_bind ?_).trans <|
    (refuse_bind ?_).trans <| (refuse_bind ?_).trans <| (refuse_bind ?_).trans <|
    (refuse_bind ?_).trans <| (refuse_bind ?_).trans <| (refuse_bind ?_).trans <|
    (refuse_bind ?_).trans <| (refuse_bind ?_).trans rfl⟩
  · rintro (h | h | h | h | h)
    · exact h (hw.magic.trans hs.magic)
    · exact h (hw.majorVersion.trans hs.major)
    · exact absurd (BitVec.lt_def.mp h) (not_lt.mpr (hmax.trans_le hle))
    · exact h (hw.superOffset.trans hs.superOffset)
    · exact absurd (hw.unknownFeatures.symm.trans h) Bool.false_ne_true
  · exact fun h => h hcsum
  · rw [hw.dataSize]
    exact BitVec.not_lt.mpr hs.sectors
  · exact fun h => h.elim (fun h => h hw.padding.1) fun h => h hw.padding.2
  · exact fun h => BitVec.not_lt.mpr (hstart h.1).1 h.2
  · exact fun h => BitVec.not_lt.mpr (hstart h.1).2 h.2
  · rintro ⟨hb, -, h | h⟩
    · exact BitVec.not_lt.mpr (hbad hb).1 h
    · exact (hbad hb).2.1 h
  · rintro ⟨hb, -, h⟩
    exact absurd (h.symm.trans (hbad hb).2.2) Bool.false_ne_true
  · rintro ⟨h, -⟩
    rw [hw.featureMap] at h
    exact Bool.false_ne_true h
  · rintro ⟨ref, h, -⟩
    exact absurd h (Option.not_mem_none ref)
  · rw [hw.dataOffset, hw.dataSize]
    exact BitVec.not_lt.mpr hs.fits

end

end

/-! ## The role of the member -/

/-- `r'` is `r` with the role of `rdev`. -/
structure Placed (rdev r r' : Rdev) : Prop where
  same : r' = { r with
    faulty := r'.faulty, inSync := r'.inSync, journal := r'.journal, raidDisk := r'.raidDisk
    savedRaidDisk := r'.savedRaidDisk, recoveryOffset := r'.recoveryOffset
    journalTail := r'.journalTail }
  faulty : r'.faulty = rdev.faulty
  role : rdev.faulty = false →
    r'.raidDisk = rdev.raidDisk ∧ r'.inSync = rdev.inSync ∧ r'.journal = rdev.journal
  recoveryOffset : rdev.faulty = false → rdev.recovering = true →
    r'.recoveryOffset = rdev.recoveryOffset
  journalTail : rdev.faulty = false → rdev.journal = true → r'.journalTail = rdev.journalTail

/-- A member without a role yet. -/
structure Unplaced (r : Rdev) : Prop where
  raidDisk : r.raidDisk = -1
  faulty : r.faulty = false
  inSync : r.inSync = false
  journal : r.journal = false

theorem disk_role {d : BitVec 32} (h : d.toNat < roleMax.toNat) :
    d.truncate 16 ≠ roleSpare ∧ d.truncate 16 ≠ roleFaulty ∧ d.truncate 16 ≠ roleJournal := by
  have hrole : (d.truncate 16).toNat < 0xff00 := by
    rw [BitVec.truncate_eq_setWidth, BitVec.toNat_setWidth]
    exact (Nat.mod_le _ _).trans_lt h
  refine ⟨?_, ?_, ?_⟩ <;>
    exact fun heq => absurd (heq ▸ hrole) (by decide)

theorem disk_toInt_nonneg {d : BitVec 32} (h : d.toNat < roleMax.toNat) : 0 ≤ d.toInt := by
  have h' : d.toNat < 0xff00 := h
  rw [BitVec.toInt_eq_toNat_of_lt (by omega)]
  exact Int.natCast_nonneg _

section

variable {dev : Device} {mddev m : Mddev} {others : List Rdev} {rdev r : Rdev}
  {sb page : Superblock1}

theorem Rdev.recovering_of_inSync (h : rdev.inSync) : rdev.recovering = false := by
  simp only [recovering, h, Bool.not_true, Bool.and_false]

theorem takeRole_disk {role : BitVec 16}
    (hrole : role ≠ roleSpare ∧ role ≠ roleFaulty ∧ role ≠ roleJournal) :
    takeRole m r page role = .ok { r with
      raidDisk := role.zeroExtend 32
      recoveryOffset :=
        if page.featureMap .recoveryOffset then page.recoveryOffset else r.recoveryOffset
      savedRaidDisk :=
        if page.featureMap .recoveryOffset && !page.featureMap .recoveryBitmap then -1
        else role.zeroExtend 32
      inSync := r.inSync || !page.featureMap .recoveryOffset && !m.frozen } := by
  unfold takeRole
  rw [if_neg hrole.1, if_neg hrole.2.1, if_neg hrole.2.2]

section

variable (hw : Written mddev others rdev sb page) (hs : Storable dev mddev others rdev sb)
include hw hs

/-- **The member gets its role back.** -/
theorem Written.takeRole (hm : m.frozen = false) (hr : Unplaced r) :
    ∃ r', takeRole m r page rdev.role = .ok r' ∧ Placed rdev r r' := by
  have hrec : page.featureMap .recoveryOffset = rdev.recovering := congrFun hw.featureMap _
  cases hs.member with
  | faulty hf =>
    have hrole : rdev.role = roleFaulty := if_pos hf
    rw [hrole]
    refine ⟨_, rfl, ⟨rfl, hf.symm, ?_, ?_, ?_⟩⟩ <;>
      exact fun h => absurd (h.symm.trans hf) Bool.false_ne_true
  | inSync hf hin hj hd =>
    have hrole : rdev.role = rdev.raidDisk.truncate 16 := by
      simp only [Rdev.role, hf, hin, Bool.false_eq_true, if_false, if_true]
    have hnot := recovering_of_inSync hin
    rw [hrole]
    refine ⟨_, takeRole_disk (disk_role hd), ⟨rfl, hr.faulty.trans hf.symm, fun _ => ⟨?_, ?_, ?_⟩,
      fun _ h => absurd (hnot.symm.trans h) Bool.false_ne_true,
      fun _ h => absurd (hj.symm.trans h) Bool.false_ne_true⟩⟩
    · exact zeroExtend_truncate (hd.trans (by decide))
    · simp only [hrec, hnot, hm, hin, Bool.not_false, Bool.and_self, Bool.or_true]
    · exact hr.journal.trans hj.symm
  | recovering hf hin hj hd =>
    have hdisk := disk_toInt_nonneg hd
    have hrole : rdev.role = rdev.raidDisk.truncate 16 := by
      simp only [Rdev.role, hf, hin, hj, Bool.false_eq_true, if_false, hdisk, if_true]
    have hrecovers : rdev.recovering := by
      simp only [Rdev.recovering, hdisk, hj, hin, decide_true, Bool.not_false, Bool.and_self]
    rw [hrole]
    refine ⟨_, takeRole_disk (disk_role hd), ⟨rfl, hr.faulty.trans hf.symm, fun _ => ⟨?_, ?_, ?_⟩,
      fun _ _ => ?_, fun _ h => absurd (hj.symm.trans h) Bool.false_ne_true⟩⟩
    · exact zeroExtend_truncate (hd.trans (by decide))
    · simp only [hrec, hrecovers, hr.inSync, hin, Bool.not_true, Bool.false_and, Bool.or_false]
    · exact hr.journal.trans hj.symm
    · simp only [hrec, hrecovers, hw.recoveryOffset, hj, Bool.false_eq_true, if_false, if_true]
  | journal hf hin hj hd hjournal =>
    have hrole : rdev.role = roleJournal := by
      simp only [Rdev.role, hf, hin, hj, Bool.false_eq_true, if_false, if_true]
    have hfeat : page.featureMap .journal := (congrFun hw.featureMap _).trans hjournal
    rw [hrole]
    refine ⟨_, (if_neg (by decide)).trans ((if_neg (by decide)).trans ((if_pos rfl).trans
      (if_pos hfeat))), ⟨rfl, hr.faulty.trans hf.symm, fun _ => ⟨hd.symm, ?_, hj.symm⟩,
      fun _ h => ?_, fun _ _ => ?_⟩⟩
    · exact hr.inSync.trans hin.symm
    · simp only [Rdev.recovering, hj, Bool.not_true, Bool.and_false, Bool.false_and,
        Bool.false_eq_true] at h
    · simp only [hw.recoveryOffset, hj, if_true]
  | spare hf hin hj hd =>
    have hneg : ¬ 0 ≤ rdev.raidDisk.toInt := by
      rw [hd]
      decide
    have hrole : rdev.role = roleSpare := by
      simp only [Rdev.role, hf, hin, hj, hneg, Bool.false_eq_true, if_false]
    rw [hrole]
    refine ⟨r, if_pos rfl, ⟨rfl, hr.faulty.trans hf.symm, fun _ => ⟨hr.raidDisk.trans hd.symm,
      hr.inSync.trans hin.symm, hr.journal.trans hj.symm⟩, fun _ h => ?_,
      fun _ h => absurd (hj.symm.trans h) Bool.false_ne_true⟩⟩
    simp only [Rdev.recovering, hneg, decide_false, Bool.false_and, Bool.false_eq_true] at h

theorem Written.readRole (hr : r.descNr = rdev.descNr) :
    readRole m none r page = .ok (r, rdev.role) := by
  have hroom := (hs.numbered.room rdev mem_cons_self).1
  have hlt := @lt_devCount _ sb rdev (mem_cons_self (l := others))
  have hmax := hw.maxDev_toNat hs
  unfold Version1.readRole
  rw [if_neg, hr, hw.role hs]
  rw [hr]
  rintro (h | h)
  · exact absurd h (not_lt.mpr hroom)
  · have hle := BitVec.le_def.mp h
    have htoInt := BitVec.toInt_eq_toNat_of_lt (x := rdev.descNr) (by
      rw [BitVec.toInt_eq_toNat_cond] at hroom
      omega)
    omega

end

end

/-! ## The array and the member read back -/

section

variable {dev : Device} {mddev : Mddev} {others : List Rdev} {rdev : Rdev} {sb page : Superblock1}

section

variable (hw : Written mddev others rdev sb page)
include hw

theorem Written.reshapeActive : page.featureMap .reshapeActive = decide mddev.Reshapes :=
  congrFun hw.featureMap _

/-- What the page has of a reshape is read only if there is one. -/
theorem Written.ite_reshape {α : Type} {new kept now : α} (h : mddev.Reshapes → new = kept) :
    (if page.featureMap .reshapeActive then new else now) =
      if mddev.Reshapes then kept else now := by
  rw [hw.reshapeActive]
  by_cases hr : mddev.Reshapes
  · rw [decide_eq_true hr, if_pos rfl, if_pos hr, h hr]
  · rw [decide_eq_false hr, if_neg Bool.false_ne_true, if_neg hr]

theorem Written.reshapeBackwards
    (hs : Storable dev mddev others rdev sb) : (page.mddev emptyMddev).reshapeBackwards =
      (decide mddev.Reshapes && mddev.reshapeBackwards) := by
  have hback : page.featureMap .reshapeBackwards =
      (decide mddev.Reshapes && decide (mddev.deltaDisks = 0) && mddev.reshapeBackwards) :=
    congrFun hw.featureMap _
  simp only [Superblock1.mddev, hw.reshapeActive, hback]
  by_cases hr : mddev.Reshapes
  · obtain ⟨hdown, hup⟩ := hs.direction hr
    rw [(hw.reshape hr).2.2.2.2]
    rcases lt_trichotomy mddev.deltaDisks.toInt 0 with hlt | heq | hgt
    · simp only [hlt, hdown hlt, decide_true, Bool.true_or]
    · have hzero : mddev.deltaDisks = 0 := BitVec.eq_of_toInt_eq heq
      simp [hr, hzero]
    · have hne : mddev.deltaDisks ≠ 0 := by
        rintro heq
        rw [heq] at hgt
        exact absurd hgt (by decide)
      simp only [not_lt.mpr hgt.le, hne, hup hgt, decide_false, Bool.false_and, Bool.or_self]
  · simp only [hr, decide_false, Bool.false_and]

theorem Written.arrayRestored
    (hs : Storable dev mddev others rdev sb) : ArrayRestored mddev (page.mddev emptyMddev) where
  level := hw.level
  layout := fun hne => (if_neg fun h => hne (hw.level.symm.trans h.1)).trans hw.layout
  chunkSectors := hw.chunksize
  raidDisks := hw.raidDisks
  devSectors := hw.size
  events := hw.events
  resyncOffset := hw.resyncOffset
  reshapePosition := by
    refine (hw.ite_reshape fun hr => (hw.reshape hr).1).trans ?_
    split_ifs with hr
    · rfl
    · exact (not_not.mp hr).symm
  newLevel := (hw.ite_reshape fun hr => (hw.reshape hr).2.1).trans (by rw [hw.level])
  newLayout := (hw.ite_reshape fun hr => (hw.reshape hr).2.2.1).trans (by rw [hw.layout])
  newChunkSectors := (hw.ite_reshape fun hr => (hw.reshape hr).2.2.2.1).trans (by rw [hw.chunksize])
  deltaDisks := hw.ite_reshape fun hr => (hw.reshape hr).2.2.2.2
  reshapeBackwards := hw.reshapeBackwards hs
  hasJournal := congrFun hw.featureMap .journal
  hasPpl := hw.hasPpl

end

/-- The member as `super_1_validate` starts with it. -/
def Superblock1.freshRdev (page : Superblock1) (dev : Device) (sbStart : BitVec 64) : Rdev :=
  { page.rdev dev sbStart emptyRdev with
    raidDisk := -1, faulty := false, inSync := false, bitmapSync := false, writeMostly := false }

theorem unplaced_freshRdev (sbStart : BitVec 64) : Unplaced (page.freshRdev dev sbStart) :=
  ⟨rfl, rfl, rfl, rfl⟩

section

variable (hw : Written mddev others rdev sb page) (hs : Storable dev mddev others rdev sb)
include hw hs

theorem Written.ppl_restored (hp : mddev.hasPpl) :
    (page.freshRdev dev rdev.sbStart).pplOffset = rdev.pplOffset ∧
      (page.freshRdev dev rdev.sbStart).pplSize = rdev.pplSize ∧
      (page.freshRdev dev rdev.sbStart).pplSector = rdev.pplSector := by
  obtain ⟨-, -, hsize, hsector⟩ := hs.ppl hp
  have hword := hw.ppl hp
  have hlow : page.bitmapOffset.extractLsb' 0 16 = rdev.pplOffset := by
    rw [hword, BitVec.extractLsb'_append_eq_right]
  have hhigh : page.bitmapOffset.extractLsb' 16 16 = rdev.pplSize.truncate 16 := by
    rw [hword, BitVec.extractLsb'_append_eq_left]
  simp only [Superblock1.freshRdev, Superblock1.rdev, hw.hasPpl, hp, if_true]
  rw [hlow, hhigh, zeroExtend_truncate hsize, hsector]
  exact ⟨rfl, rfl, rfl⟩

theorem Written.memberRestored {r' : Rdev}
    (hr : Placed rdev (page.freshRdev dev rdev.sbStart) r') : MemberRestored mddev rdev { r' with
      writeMostly := r'.writeMostly || page.writeMostly1
      failFast := r'.failFast || page.failFast1
      replacement := r'.replacement || page.featureMap .replacement } where
  dataOffset := by
    rw [hr.same]
    exact hw.dataOffset
  newDataOffset := by
    rw [hr.same]
    exact hw.newDataOffset hs
  sectors := by
    rw [hr.same]
    exact hw.dataSize
  faulty := hr.faulty
  role := hr.role
  recoveryOffset := hr.recoveryOffset
  journalTail := hr.journalTail
  ppl := by
    rw [hr.same]
    exact hw.ppl_restored hs
  writeMostly := by
    rw [hr.same]
    exact hw.devflags.1
  failFast := by
    rw [hr.same]
    exact hw.devflags.2
  replacement := by
    rw [hr.same]
    exact congrFun hw.featureMap .replacement

theorem Written.validate :
    ∃ mddev' rdev', super1Validate emptyMddev none (page.rdev dev rdev.sbStart emptyRdev) page =
        .ok (mddev', rdev') ∧ ArrayRestored mddev mddev' ∧ MemberRestored mddev rdev rdev' := by
  have hnumber : (page.freshRdev dev rdev.sbStart).descNr = rdev.descNr :=
    hw.devNumber.trans hs.devNumber
  obtain ⟨r', htake, hr⟩ := @Written.takeRole dev mddev (page.mddev emptyMddev) others rdev
    (page.freshRdev dev rdev.sbStart) sb page hw hs rfl (unplaced_freshRdev rdev.sbStart)
  have hvalidate :
      validateRdev (page.mddev emptyMddev) none (page.freshRdev dev rdev.sbStart) page =
      .ok { r' with
        writeMostly := r'.writeMostly || page.writeMostly1
        failFast := r'.failFast || page.failFast1
        replacement := r'.replacement || page.featureMap .replacement } := by
    unfold validateRdev
    rw [hw.readRole hs hnumber]
    show (Version1.takeRole (page.mddev emptyMddev) (page.freshRdev dev rdev.sbStart) page
      rdev.role >>= _) = _
    rw [htake]
    rfl
  refine ⟨_, _, (refuse_bind ?_).trans ((refuse_bind ?_).trans
    ((congrArg (· >>= _) hvalidate).trans rfl)), hw.arrayRestored hs, hw.memberRestored hs hr⟩
  · rintro ⟨hp, h⟩
    obtain ⟨hbitmap, hjournal, -⟩ := hs.ppl (hw.hasPpl.symm.trans hp)
    rw [hw.featureMap] at h
    simp only [features, hjournal, Bool.or_false, Bool.and_eq_true, Bool.not_eq_true'] at h
    rcases hbitmap with hnone | hfile
    · rw [hnone] at h
      exact Bool.false_ne_true h.1
    · exact Bool.false_ne_true (h.2.symm.trans hfile)
  · rw [hw.featureMap]
    simp only [features, Bool.and_eq_true, Bool.not_eq_true']
    exact fun h => Bool.false_ne_true (h.1.2.symm.trans h.2.2)

end

end

/-! ## Round trip -/

/-- **The superblock keeps the array and the member.** What was written is accepted, and reading it
into an empty array and an empty member gives back the level, the geometry and where a reshape has
got to, and the member's space, role and progress. -/
theorem superblock_round_trip (words : Superblock1 → List (BitVec 32)) (dev : Device)
    (mddev : Mddev) (others : List Rdev) (rdev : Rdev) (sb : Superblock1)
    (hs : Storable dev mddev others rdev sb) : ∃ mddev' rdev',
      readBack words dev (super1Sync words dev mddev others rdev sb).2 = .ok (mddev', rdev') ∧
        ArrayRestored mddev mddev' ∧ MemberRestored mddev rdev rdev' := by
  have hw := written_super1Sync words dev mddev others fun h => (hs.badBlocks h).1
  obtain ⟨better, hload⟩ := hw.load hs (sync_sbCsum words dev mddev others rdev sb)
  obtain ⟨mddev', rdev', hvalidate, harray, hmember⟩ := hw.validate hs
  refine ⟨mddev', rdev', ?_, harray, hmember⟩
  unfold readBack
  rw [hload]
  exact hvalidate

/-- The page of a member on a disk with its superblock in sector 8, before the first sync. -/
def emptySb : Superblock1 where
  magic := mdSbMagic
  majorVersion := 1
  featureMap := fun _ => false
  unknownFeatures := false
  pad0 := 0
  setUuid := 0
  ctime := 0
  level := 0
  layout := 0
  size := 0
  chunksize := 0
  raidDisks := 0
  bitmapOffset := 0
  newLevel := 0
  reshapePosition := 0
  deltaDisks := 0
  newLayout := 0
  newChunk := 0
  newOffset := 0
  dataOffset := 0
  dataSize := 0
  superOffset := 8
  recoveryOffset := 0
  devNumber := 0
  cntCorrectedRead := 0
  writeMostly1 := false
  failFast1 := false
  bblogSize := 0
  bblogOffset := 0
  utime := 0
  events := 0
  resyncOffset := 0
  sbCsum := 0
  maxDev := 0
  pad3 := 0
  devRoles := fun _ => roleSpare

def disk : Device where
  nrSectors := 0x200000
  logicalBlockSize := 512
  minorVersion := 2
  badBlocksRead := true

/-- A member in sync that holds place `i`. -/
def memberAt (i : BitVec 32) : Rdev :=
  { emptyRdev with
    descNr := i, raidDisk := i, dataOffset := 2048, newDataOffset := 2048, sectors := 0x100000
    sbStart := 8, inSync := true }

/-- A level 5 array of three disks that grows to four. -/
def growingMddev : Mddev :=
  { emptyMddev with
    level := 5, layout := 2, chunkSectors := 1024, raidDisks := 4, devSectors := 0x100000
    events := 7, pers := true, reshapePosition := 0x3000, deltaDisks := 1, newLevel := 5
    newLayout := 2, newChunkSectors := 1024 }

theorem superblock_round_trip_growing :
    ∃ mddev' rdev', readBack (fun sb => [sb.magic, sb.level, sb.layout]) disk
        (super1Sync (fun sb => [sb.magic, sb.level, sb.layout]) disk growingMddev
          [memberAt 0, memberAt 1, memberAt 3]
          { memberAt 2 with inSync := false, recoveryOffset := 512, newDataOffset := 1024 }
          { emptySb with devNumber := 2 }).2 = .ok (mddev', rdev') ∧
      mddev'.reshapePosition = 0x3000 ∧ mddev'.deltaDisks = 1 ∧ rdev'.newDataOffset = 1024 ∧
      rdev'.raidDisk = 2 ∧ rdev'.recoveryOffset = 512 := by
  obtain ⟨mddev', rdev', hread, harray, hmember⟩ := superblock_round_trip
    (fun sb => [sb.magic, sb.level, sb.layout]) disk growingMddev
    [memberAt 0, memberAt 1, memberAt 3]
    { memberAt 2 with inSync := false, recoveryOffset := 512, newDataOffset := 1024 }
    { emptySb with devNumber := 2 }
    { magic := rfl
      major := rfl
      start := rfl
      superOffset := rfl
      devNumber := rfl
      numbered := ⟨by decide, by decide, by decide⟩
      sectors := by decide
      fits := by decide
      data := fun _ => ⟨by decide, fun _ => by decide⟩
      badBlocks := fun h => absurd rfl h
      member := .recovering rfl rfl rfl (by decide)
      ppl := fun h => absurd h (by decide)
      direction := fun _ => ⟨by decide, by decide⟩
      distance := fun _ => ⟨by decide, by decide⟩ }
  refine ⟨mddev', rdev', hread, harray.reshapePosition, harray.deltaDisks, ?_, ?_, ?_⟩
  · exact hmember.newDataOffset
  · exact (hmember.role rfl).1
  · exact hmember.recoveryOffset rfl (by decide)

/-- The array read back from the first member's superblock. -/
def arrayBack (mddev : Mddev) : Option Mddev :=
  let words := fun sb : Superblock1 => [sb.magic, sb.level, sb.layout]
  let page := (super1Sync words disk mddev [] (memberAt 0) emptySb).2
  (readBack words disk page).toOption.map Prod.fst

/-- Of an array that is not in sync but has a clean journal, nothing has to be resynced; a layout
that is only planned is not kept; and the layout of a level 0 array is lost. -/
theorem superblock_not_kept : (arrayBack { growingMddev with
      reshapePosition := maxSector, inSync := false, hasJournal := true, journalClean := true }).map
        Mddev.recoveryCp = some maxSector ∧ maxSector ≠ 0 ∧
    (arrayBack { growingMddev with
      reshapePosition := maxSector, deltaDisks := 0, newLayout := 5 }).map Mddev.newLayout =
        some 2 ∧
    (arrayBack { growingMddev with
      reshapePosition := maxSector, deltaDisks := 0, level := 0, newLevel := 0 }).map Mddev.layout =
        some (-1) := by
  decide +kernel

end MdRaid.Superblock.Version1
