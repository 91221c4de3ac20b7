import MdRaid.Lib.GF256

/-!
# Field arithmetic by table

The library multiplies bytes in two ways: scalar code adds logarithms and looks
the sum up in an antilogarithm table; vector code hands the hardware one 8 by 8
bit matrix per coefficient. The tables are those of `ec_base.h`; both
multiplications are the one of the field.
-/

namespace MdRaid.Isal

open GF256 List

/-! ## The tables -/

def gflogBase : List Nat :=
  [
    0x01ff, 0x00, 0x01, 0x19, 0x02, 0x32, 0x1a, 0xc6, 0x03, 0xdf, 0x33, 0xee, 0x1b, 0x68, 0xc7,
    0x4b, 0x04, 0x64, 0xe0, 0x0e, 0x34, 0x8d, 0xef, 0x81, 0x1c, 0xc1, 0x69, 0xf8, 0xc8, 0x08, 0x4c,
    0x71, 0x05, 0x8a, 0x65, 0x2f, 0xe1, 0x24, 0x0f, 0x21, 0x35, 0x93, 0x8e, 0xda, 0xf0, 0x12, 0x82,
    0x45, 0x1d, 0xb5, 0xc2, 0x7d, 0x6a, 0x27, 0xf9, 0xb9, 0xc9, 0x9a, 0x09, 0x78, 0x4d, 0xe4, 0x72,
    0xa6, 0x06, 0xbf, 0x8b, 0x62, 0x66, 0xdd, 0x30, 0xfd, 0xe2, 0x98, 0x25, 0xb3, 0x10, 0x91, 0x22,
    0x88, 0x36, 0xd0, 0x94, 0xce, 0x8f, 0x96, 0xdb, 0xbd, 0xf1, 0xd2, 0x13, 0x5c, 0x83, 0x38, 0x46,
    0x40, 0x1e, 0x42, 0xb6, 0xa3, 0xc3, 0x48, 0x7e, 0x6e, 0x6b, 0x3a, 0x28, 0x54, 0xfa, 0x85, 0xba,
    0x3d, 0xca, 0x5e, 0x9b, 0x9f, 0x0a, 0x15, 0x79, 0x2b, 0x4e, 0xd4, 0xe5, 0xac, 0x73, 0xf3, 0xa7,
    0x57, 0x07, 0x70, 0xc0, 0xf7, 0x8c, 0x80, 0x63, 0x0d, 0x67, 0x4a, 0xde, 0xed, 0x31, 0xc5, 0xfe,
    0x18, 0xe3, 0xa5, 0x99, 0x77, 0x26, 0xb8, 0xb4, 0x7c, 0x11, 0x44, 0x92, 0xd9, 0x23, 0x20, 0x89,
    0x2e, 0x37, 0x3f, 0xd1, 0x5b, 0x95, 0xbc, 0xcf, 0xcd, 0x90, 0x87, 0x97, 0xb2, 0xdc, 0xfc, 0xbe,
    0x61, 0xf2, 0x56, 0xd3, 0xab, 0x14, 0x2a, 0x5d, 0x9e, 0x84, 0x3c, 0x39, 0x53, 0x47, 0x6d, 0x41,
    0xa2, 0x1f, 0x2d, 0x43, 0xd8, 0xb7, 0x7b, 0xa4, 0x76, 0xc4, 0x17, 0x49, 0xec, 0x7f, 0x0c, 0x6f,
    0xf6, 0x6c, 0xa1, 0x3b, 0x52, 0x29, 0x9d, 0x55, 0xaa, 0xfb, 0x60, 0x86, 0xb1, 0xbb, 0xcc, 0x3e,
    0x5a, 0xcb, 0x59, 0x5f, 0xb0, 0x9c, 0xa9, 0xa0, 0x51, 0x0b, 0xf5, 0x16, 0xeb, 0x7a, 0x75, 0x2c,
    0xd7, 0x4f, 0xae, 0xd5, 0xe9, 0xe6, 0xe7, 0xad, 0xe8, 0x74, 0xd6, 0xf4, 0xea, 0xa8, 0x50, 0x58,
    0xaf]

/-- One period of the antilogarithms. -/
def gffPeriod : List (BitVec 8) :=
  [
    0x01, 0x02, 0x04, 0x08, 0x10, 0x20, 0x40, 0x80, 0x1d, 0x3a, 0x74, 0xe8, 0xcd, 0x87, 0x13, 0x26,
    0x4c, 0x98, 0x2d, 0x5a, 0xb4, 0x75, 0xea, 0xc9, 0x8f, 0x03, 0x06, 0x0c, 0x18, 0x30, 0x60, 0xc0,
    0x9d, 0x27, 0x4e, 0x9c, 0x25, 0x4a, 0x94, 0x35, 0x6a, 0xd4, 0xb5, 0x77, 0xee, 0xc1, 0x9f, 0x23,
    0x46, 0x8c, 0x05, 0x0a, 0x14, 0x28, 0x50, 0xa0, 0x5d, 0xba, 0x69, 0xd2, 0xb9, 0x6f, 0xde, 0xa1,
    0x5f, 0xbe, 0x61, 0xc2, 0x99, 0x2f, 0x5e, 0xbc, 0x65, 0xca, 0x89, 0x0f, 0x1e, 0x3c, 0x78, 0xf0,
    0xfd, 0xe7, 0xd3, 0xbb, 0x6b, 0xd6, 0xb1, 0x7f, 0xfe, 0xe1, 0xdf, 0xa3, 0x5b, 0xb6, 0x71, 0xe2,
    0xd9, 0xaf, 0x43, 0x86, 0x11, 0x22, 0x44, 0x88, 0x0d, 0x1a, 0x34, 0x68, 0xd0, 0xbd, 0x67, 0xce,
    0x81, 0x1f, 0x3e, 0x7c, 0xf8, 0xed, 0xc7, 0x93, 0x3b, 0x76, 0xec, 0xc5, 0x97, 0x33, 0x66, 0xcc,
    0x85, 0x17, 0x2e, 0x5c, 0xb8, 0x6d, 0xda, 0xa9, 0x4f, 0x9e, 0x21, 0x42, 0x84, 0x15, 0x2a, 0x54,
    0xa8, 0x4d, 0x9a, 0x29, 0x52, 0xa4, 0x55, 0xaa, 0x49, 0x92, 0x39, 0x72, 0xe4, 0xd5, 0xb7, 0x73,
    0xe6, 0xd1, 0xbf, 0x63, 0xc6, 0x91, 0x3f, 0x7e, 0xfc, 0xe5, 0xd7, 0xb3, 0x7b, 0xf6, 0xf1, 0xff,
    0xe3, 0xdb, 0xab, 0x4b, 0x96, 0x31, 0x62, 0xc4, 0x95, 0x37, 0x6e, 0xdc, 0xa5, 0x57, 0xae, 0x41,
    0x82, 0x19, 0x32, 0x64, 0xc8, 0x8d, 0x07, 0x0e, 0x1c, 0x38, 0x70, 0xe0, 0xdd, 0xa7, 0x53, 0xa6,
    0x51, 0xa2, 0x59, 0xb2, 0x79, 0xf2, 0xf9, 0xef, 0xc3, 0x9b, 0x2b, 0x56, 0xac, 0x45, 0x8a, 0x09,
    0x12, 0x24, 0x48, 0x90, 0x3d, 0x7a, 0xf4, 0xf5, 0xf7, 0xf3, 0xfb, 0xeb, 0xcb, 0x8b, 0x0b, 0x16,
    0x2c, 0x58, 0xb0, 0x7d, 0xfa, 0xe9, 0xcf, 0x83, 0x1b, 0x36, 0x6c, 0xd8, 0xad, 0x47, 0x8e]

/-- Two periods, so that a sum of two logarithms needs no reduction, and a tail of
zeros that every sum with the logarithm 511 of zero falls into. -/
def gffBase : List (BitVec 8) :=
  gffPeriod ++ gffPeriod ++ List.replicate 514 0x00#8

/-- The bit matrix of the multiplication by each byte. -/
def gfTableGfni : List (BitVec 64) :=
  [
    0x0000000000000000, 0x0102040810204080, 0x8001828488102040, 0x8103868c983060c0,
    0x408041c2c4881020, 0x418245cad4a850a0, 0xc081c3464c983060, 0xc183c74e5cb870e0,
    0x2040a061e2c48810, 0x2142a469f2e4c890, 0xa04122e56ad4a850, 0xa14326ed7af4e8d0,
    0x60c0e1a3264c9830, 0x61c2e5ab366cd8b0, 0xe0c16327ae5cb870, 0xe1c3672fbe7cf8f0,
    0x102050b071e2c488, 0x112254b861c28408, 0x9021d234f9f2e4c8, 0x9123d63ce9d2a448,
    0x50a01172b56ad4a8, 0x51a2157aa54a9428, 0xd0a193f63d7af4e8, 0xd1a397fe2d5ab468,
    0x3060f0d193264c98, 0x3162f4d983060c18, 0xb06172551b366cd8, 0xb163765d0b162c58,
    0x70e0b11357ae5cb8, 0x71e2b51b478e1c38, 0xf0e13397dfbe7cf8, 0xf1e3379fcf9e3c78,
    0x8810a8d83871e2c4, 0x8912acd02851a244, 0x08112a5cb061c284, 0x09132e54a0418204,
    0xc890e91afcf9f2e4, 0xc992ed12ecd9b264, 0x48916b9e74e9d2a4, 0x49936f9664c99224,
    0xa85008b9dab56ad4, 0xa9520cb1ca952a54, 0x28518a3d52a54a94, 0x29538e3542850a14,
    0xe8d0497b1e3d7af4, 0xe9d24d730e1d3a74, 0x68d1cbff962d5ab4, 0x69d3cff7860d1a34,
    0x9830f8684993264c, 0x9932fc6059b366cc, 0x18317aecc183060c, 0x19337ee4d1a3468c,
    0xd8b0b9aa8d1b366c, 0xd9b2bda29d3b76ec, 0x58b13b2e050b162c, 0x59b33f26152b56ac,
    0xb8705809ab57ae5c, 0xb9725c01bb77eedc, 0x3871da8d23478e1c, 0x3973de853367ce9c,
    0xf8f019cb6fdfbe7c, 0xf9f21dc37ffffefc, 0x78f19b4fe7cf9e3c, 0x79f39f47f7efdebc,
    0xc488d46c1c3871e2, 0xc58ad0640c183162, 0x448956e8942851a2, 0x458b52e084081122,
    0x840895aed8b061c2, 0x850a91a6c8902142, 0x0409172a50a04182, 0x050b132240800102,
    0xe4c8740dfefcf9f2, 0xe5ca7005eedcb972, 0x64c9f68976ecd9b2, 0x65cbf28166cc9932,
    0xa44835cf3a74e9d2, 0xa54a31c72a54a952, 0x2449b74bb264c992, 0x254bb343a2448912,
    0xd4a884dc6ddab56a, 0xd5aa80d47dfaf5ea, 0x54a90658e5ca952a, 0x55ab0250f5ead5aa,
    0x9428c51ea952a54a, 0x952ac116b972e5ca, 0x1429479a2142850a, 0x152b43923162c58a,
    0xf4e824bd8f1e3d7a, 0xf5ea20b59f3e7dfa, 0x74e9a639070e1d3a, 0x75eba231172e5dba,
    0xb468657f4b962d5a, 0xb56a61775bb66dda, 0x3469e7fbc3860d1a, 0x356be3f3d3a64d9a,
    0x4c987cb424499326, 0x4d9a78bc3469d3a6, 0xcc99fe30ac59b366, 0xcd9bfa38bc79f3e6,
    0x0c183d76e0c18306, 0x0d1a397ef0e1c386, 0x8c19bff268d1a346, 0x8d1bbbfa78f1e3c6,
    0x6cd8dcd5c68d1b36, 0x6ddad8ddd6ad5bb6, 0xecd95e514e9d3b76, 0xeddb5a595ebd7bf6,
    0x2c589d1702050b16, 0x2d5a991f12254b96, 0xac591f938a152b56, 0xad5b1b9b9a356bd6,
    0x5cb82c0455ab57ae, 0x5dba280c458b172e, 0xdcb9ae80ddbb77ee, 0xddbbaa88cd9b376e,
    0x1c386dc69123478e, 0x1d3a69ce8103070e, 0x9c39ef42193367ce, 0x9d3beb4a0913274e,
    0x7cf88c65b76fdfbe, 0x7dfa886da74f9f3e, 0xfcf90ee13f7ffffe, 0xfdfb0ae92f5fbf7e,
    0x3c78cda773e7cf9e, 0x3d7ac9af63c78f1e, 0xbc794f23fbf7efde, 0xbd7b4b2bebd7af5e,
    0xe2c46a368e1c3871, 0xe3c66e3e9e3c78f1, 0x62c5e8b2060c1831, 0x63c7ecba162c58b1,
    0xa2442bf44a942851, 0xa3462ffc5ab468d1, 0x2245a970c2840811, 0x2347ad78d2a44891,
    0xc284ca576cd8b061, 0xc386ce5f7cf8f0e1, 0x428548d3e4c89021, 0x43874cdbf4e8d0a1,
    0x82048b95a850a041, 0x83068f9db870e0c1, 0x0205091120408001, 0x03070d193060c081,
    0xf2e43a86fffefcf9, 0xf3e63e8eefdebc79, 0x72e5b80277eedcb9, 0x73e7bc0a67ce9c39,
    0xb2647b443b76ecd9, 0xb3667f4c2b56ac59, 0x3265f9c0b366cc99, 0x3367fdc8a3468c19,
    0xd2a49ae71d3a74e9, 0xd3a69eef0d1a3469, 0x52a51863952a54a9, 0x53a71c6b850a1429,
    0x9224db25d9b264c9, 0x9326df2dc9922449, 0x122559a151a24489, 0x13275da941820409,
    0x6ad4c2eeb66ddab5, 0x6bd6c6e6a64d9a35, 0xead5406a3e7dfaf5, 0xebd744622e5dba75,
    0x2a54832c72e5ca95, 0x2b56872462c58a15, 0xaa5501a8faf5ead5, 0xab5705a0ead5aa55,
    0x4a94628f54a952a5, 0x4b96668744891225, 0xca95e00bdcb972e5, 0xcb97e403cc993265,
    0x0a14234d90214285, 0x0b16274580010205, 0x8a15a1c9183162c5, 0x8b17a5c108112245,
    0x7af4925ec78f1e3d, 0x7bf69656d7af5ebd, 0xfaf510da4f9f3e7d, 0xfbf714d25fbf7efd,
    0x3a74d39c03070e1d, 0x3b76d79413274e9d, 0xba7551188b172e5d, 0xbb7755109b376edd,
    0x5ab4323f254b962d, 0x5bb63637356bd6ad, 0xdab5b0bbad5bb66d, 0xdbb7b4b3bd7bf6ed,
    0x1a3473fde1c3860d, 0x1b3677f5f1e3c68d, 0x9a35f17969d3a64d, 0x9b37f57179f3e6cd,
    0x264cbe5a92244993, 0x274eba5282040913, 0xa64d3cde1a3469d3, 0xa74f38d60a142953,
    0x66ccff9856ac59b3, 0x67cefb90468c1933, 0xe6cd7d1cdebc79f3, 0xe7cf7914ce9c3973,
    0x060c1e3b70e0c183, 0x070e1a3360c08103, 0x860d9cbff8f0e1c3, 0x870f98b7e8d0a143,
    0x468c5ff9b468d1a3, 0x478e5bf1a4489123, 0xc68ddd7d3c78f1e3, 0xc78fd9752c58b163,
    0x366ceeeae3c68d1b, 0x376eeae2f3e6cd9b, 0xb66d6c6e6bd6ad5b, 0xb76f68667bf6eddb,
    0x76ecaf28274e9d3b, 0x77eeab20376eddbb, 0xf6ed2dacaf5ebd7b, 0xf7ef29a4bf7efdfb,
    0x162c4e8b0102050b, 0x172e4a831122458b, 0x962dcc0f8912254b, 0x972fc807993265cb,
    0x56ac0f49c58a152b, 0x57ae0b41d5aa55ab, 0xd6ad8dcd4d9a356b, 0xd7af89c55dba75eb,
    0xae5c1682aa55ab57, 0xaf5e128aba75ebd7, 0x2e5d940622458b17, 0x2f5f900e3265cb97,
    0xeedc57406eddbb77, 0xefde53487efdfbf7, 0x6eddd5c4e6cd9b37, 0x6fdfd1ccf6eddbb7,
    0x8e1cb6e348912347, 0x8f1eb2eb58b163c7, 0x0e1d3467c0810307, 0x0f1f306fd0a14387,
    0xce9cf7218c193367, 0xcf9ef3299c3973e7, 0x4e9d75a504091327, 0x4f9f71ad142953a7,
    0xbe7c4632dbb76fdf, 0xbf7e423acb972f5f, 0x3e7dc4b653a74f9f, 0x3f7fc0be43870f1f,
    0xfefc07f01f3f7fff, 0xfffe03f80f1f3f7f, 0x7efd8574972f5fbf, 0x7fff817c870f1f3f,
    0x9e3ce6533973e7cf, 0x9f3ee25b2953a74f, 0x1e3d64d7b163c78f, 0x1f3f60dfa143870f,
    0xdebca791fdfbf7ef, 0xdfbea399eddbb76f, 0x5ebd251575ebd7af, 0x5fbf211d65cb972f]

/-! ## Scalar arithmetic -/

def gflog (a : GF256) : Nat := gflogBase.getD a.byte.toNat 0

def gff (i : Nat) : GF256 := ⟨gffBase.getD i 0x00#8⟩

def gfMul (a b : GF256) : GF256 := gff (gflog a + gflog b)

def gfInv (a : GF256) : GF256 := if a = 0 then 0 else gff (255 - gflog a)

theorem gffPeriod_eq : gffPeriod = iterate xtime 1#8 255 := by
  decide +kernel

theorem gflogBase_gffPeriod : gffPeriod.map (fun b => gflogBase.getD b.toNat 0) = range 255 := by
  decide +kernel

theorem gffPeriod_length : gffPeriod.length = 255 := by
  rw [gffPeriod_eq, length_iterate]

theorem gffPeriod_getElem {i : Nat} (hi : i < gffPeriod.length) :
    gffPeriod[i] = (alpha ^ i).byte := by
  simp only [gffPeriod_eq, getElem_iterate, alpha_pow_byte]

theorem gff_of_lt {i : Nat} (hi : i < 510) : gff i = alpha ^ i := by
  refine ext' ?_
  show gffBase.getD i 0#8 = _
  rw [gffBase, List.append_assoc]
  rcases lt_or_ge i 255 with h | h
  · rw [getD_append _ _ _ _ (by rwa [gffPeriod_length]),
      getD_eq_getElem _ _ (by rwa [gffPeriod_length]), gffPeriod_getElem]
  · -- the second period
    rw [getD_append_right _ _ _ _ (by rwa [gffPeriod_length]), gffPeriod_length,
      getD_append _ _ _ _ (by rw [gffPeriod_length]; omega),
      getD_eq_getElem _ _ (by rw [gffPeriod_length]; omega), gffPeriod_getElem]
    have hsplit : alpha ^ i = alpha ^ (i - 255) * alpha ^ 255 := by
      rw [← pow_add, Nat.sub_add_cancel h]
    rw [hsplit, alpha_pow_255, mul_one]

theorem gff_of_ge {i : Nat} (hi : 510 ≤ i) : gff i = 0 := by
  refine ext' ?_
  show gffBase.getD i 0#8 = _
  have hlen : (gffPeriod ++ gffPeriod).length = 510 := by
    rw [length_append, gffPeriod_length]
  rw [gffBase, getD_append_right _ _ _ _ (by rwa [hlen]), getD_eq_getElem?_getD,
    getElem?_replicate]
  split_ifs <;> rfl

theorem gflog_zero : gflog 0 = 511 := rfl

theorem gflog_alpha_pow {i : Nat} (hi : i < 255) : gflog (alpha ^ i) = i := by
  have hlen : i < gffPeriod.length := by rwa [gffPeriod_length]
  have hmap := congrArg (fun l => l.getD i 0) gflogBase_gffPeriod
  rw [getD_eq_getElem _ _ (by simpa using hlen), getD_eq_getElem _ _ (by simpa using hi),
    getElem_map, getElem_range, gffPeriod_getElem] at hmap
  exact hmap

/-- **Table multiplication is field multiplication.** -/
theorem gfMul_eq (a b : GF256) : gfMul a b = a * b := by
  unfold gfMul
  by_cases ha : a = 0
  · rw [ha, zero_mul, gflog_zero, gff_of_ge (by omega)]
  by_cases hb : b = 0
  · rw [hb, mul_zero, gflog_zero, gff_of_ge (by omega)]
  obtain ⟨i, hi, rfl⟩ := exists_log ha
  obtain ⟨j, hj, rfl⟩ := exists_log hb
  rw [gflog_alpha_pow hi, gflog_alpha_pow hj, gff_of_lt (by omega), pow_add]

/-- **Table inversion is field inversion.** -/
theorem gfInv_eq (a : GF256) : gfInv a = a⁻¹ := by
  unfold gfInv
  by_cases ha : a = 0
  · rw [if_pos ha, ha, inv_zero]
  obtain ⟨i, hi, rfl⟩ := exists_log ha
  rw [if_neg ha, gflog_alpha_pow hi, gff_of_lt (by omega)]
  refine eq_inv_of_mul_eq_one_left ?_
  rw [← pow_add, Nat.sub_add_cancel (by omega), alpha_pow_255]

/-! ## Matrix multiplication -/

/-- The parity of the `n` lowest bits. -/
def parity (x : BitVec 8) : Nat → Bool
  | 0 => false
  | j + 1 => parity x j ^^ x.getLsbD j

/-- Row `i` of a bit matrix: the rows are stored from the most significant byte down. -/
def matrixRow (m : BitVec 64) (i : Nat) : BitVec 8 := m.extractLsb' (8 * (7 - i)) 8

/-- The `n` lowest bits of the result of `gf2p8affineqb` with a zero constant, on one
byte: bit `i` is the parity of the byte masked with row `i`. -/
def affineBits (m : BitVec 64) (x : BitVec 8) : Nat → BitVec 8
  | 0 => 0#8
  | i + 1 => affineBits m x i ^^^ (if parity (matrixRow m i &&& x) 8 then 1#8 <<< i else 0#8)

def affine (m : BitVec 64) (x : GF256) : GF256 := ⟨affineBits m x.byte 8⟩

theorem parity_xor (x y : BitVec 8) : ∀ n, parity (x ^^^ y) n = (parity x n ^^ parity y n)
  | 0 => rfl
  | j + 1 => by
    simp only [parity, parity_xor x y j, BitVec.getLsbD_xor, Bool.xor_assoc, Bool.xor_left_comm]

theorem xor_and_distrib_right {w : Nat} (a b c : BitVec w) :
    (a ^^^ b) &&& c = (a &&& c) ^^^ (b &&& c) := by
  refine BitVec.eq_of_getLsbD_eq fun i _ => ?_
  simp [Bool.and_xor_distrib_right]

theorem affineBits_xor_right (m : BitVec 64) (x y : BitVec 8) : ∀ n,
    affineBits m (x ^^^ y) n = affineBits m x n ^^^ affineBits m y n
  | 0 => BitVec.xor_self.symm
  | i + 1 => by
    rw [affineBits, affineBits_xor_right m x y i, BitVec.and_comm, xor_and_distrib_right,
      parity_xor, ite_xor, BitVec.and_comm x, BitVec.and_comm y, affineBits, affineBits]
    ac_rfl

theorem matrixRow_xor (m m' : BitVec 64) (i : Nat) :
    matrixRow (m ^^^ m') i = matrixRow m i ^^^ matrixRow m' i :=
  BitVec.extractLsb'_xor

theorem affineBits_xor_left (m m' : BitVec 64) (x : BitVec 8) : ∀ n,
    affineBits (m ^^^ m') x n = affineBits m x n ^^^ affineBits m' x n
  | 0 => BitVec.xor_self.symm
  | i + 1 => by
    rw [affineBits, affineBits_xor_left m m' x i, matrixRow_xor,
      xor_and_distrib_right, parity_xor, ite_xor, affineBits, affineBits]
    ac_rfl

/-- The matrices of the multiplications by the single-bit bytes. -/
def gfniBasis : List (BitVec 64) :=
  [
    0x0102040810204080#64, 0x8001828488102040#64, 0x408041c2c4881020#64, 0x2040a061e2c48810#64,
    0x102050b071e2c488#64, 0x8810a8d83871e2c4#64, 0xc488d46c1c3871e2#64, 0xe2c46a368e1c3871#64]

/-- The sum of the basis matrices selected by the bits of `c` from bit `j` on. -/
def gfniSpan (c : BitVec 8) : List (BitVec 64) → Nat → BitVec 64
  | [], _ => 0#64
  | m :: ms, j => (if c.getLsbD j then m else 0#64) ^^^ gfniSpan c ms (j + 1)

theorem gfTableGfni_eq :
    gfTableGfni = (List.range 256).map fun c => gfniSpan (BitVec.ofNat 8 c) gfniBasis 0 := by
  decide +kernel

/-- The matrix of the multiplication by `c`. -/
def gfniMatrix (c : GF256) : BitVec 64 := gfTableGfni.getD c.byte.toNat 0#64

theorem gfniMatrix_eq (c : GF256) : gfniMatrix c = gfniSpan c.byte gfniBasis 0 := by
  rw [gfniMatrix, gfTableGfni_eq, List.getD_eq_getElem _ _ (by simpa using c.byte.isLt)]
  simp

theorem gfniSpan_xor (c d : BitVec 8) : ∀ (ms : List (BitVec 64)) (j : Nat),
    gfniSpan (c ^^^ d) ms j = gfniSpan c ms j ^^^ gfniSpan d ms j
  | [], _ => BitVec.xor_self.symm
  | m :: ms, j => by
    have hbit : ∀ p q : Bool, (if (p ^^ q) = true then m else 0#64) =
        (if p = true then m else 0#64) ^^^ (if q = true then m else 0#64) := by
      intro p q
      cases p <;> cases q <;> simp
    rw [gfniSpan, gfniSpan_xor c d ms, BitVec.getLsbD_xor, hbit, gfniSpan, gfniSpan]
    ac_rfl

/-- **The vector instruction with a matrix of the table is field multiplication.** Both
sides are linear in both arguments, so the 64 pairs of single bits decide. -/
theorem affine_gfniMatrix (c x : GF256) : affine (gfniMatrix c) x = c * x := by
  refine ext' ?_
  show affineBits (gfniMatrix c) x.byte 8 = mulByte c.byte x.byte
  rw [gfniMatrix_eq]
  refine bit_induction (P := fun b => affineBits (gfniSpan c.byte gfniBasis 0) b 8 =
    mulByte c.byte b) ?_ ?_ ?_ x.byte
  · have hself := affineBits_xor_right (gfniSpan c.byte gfniBasis 0) 0#8 0#8 8
    rw [BitVec.xor_self, BitVec.xor_self] at hself
    rw [hself, mulByte_zero_right]
  · intro a b ha hb
    rw [affineBits_xor_right, mulByte_xor_right, ha, hb]
  · intro j
    refine bit_induction (P := fun b => affineBits (gfniSpan b gfniBasis 0) _ 8 =
      mulByte b _) ?_ ?_ ?_ c.byte
    · revert j
      decide +kernel
    · intro a b ha hb
      rw [gfniSpan_xor, affineBits_xor_left, mulByte_xor_left, ha, hb]
    · revert j
      decide +kernel

end MdRaid.Isal
