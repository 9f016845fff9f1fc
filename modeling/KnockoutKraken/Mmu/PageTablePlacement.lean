import KnockoutKraken.Mmu.PageTableSet
import Mathlib

/-!
# Where the page table lies

The sets of the page table fill the memory from its start, 192 bytes a
set and a set for every page frame. The host keeps the part below the
first frame it hands out for them, one byte in 256.
-/

namespace KnockoutKraken.Mmu

open Armflex

variable {params : PageTableParams}

def dramSize (params : PageTableParams) : Nat := 2 ^ dramAddrW params

/-- The first page frame the host hands out. -/
def pageBase (params : PageTableParams) : Nat := dramSize params >>> 8

def setRegion (tag : PTTagPacket params) : Set Nat :=
  Set.Ico (vpn2ptSetPA (pagesetNumber tag)).toNat ((vpn2ptSetPA (pagesetNumber tag)).toNat + 3 * 64)

def frames (params : PageTableParams) : Set Nat := Set.Ico (pageBase params) (dramSize params)

theorem toNat_vpn2ptSetPA (set : BitVec params.pPageW) : (vpn2ptSetPA set).toNat = 3 * 64 * set.toNat := by
  have hWide : set.toNat < 2 ^ (params.pPageW + 2) := set.isLt.trans (Nat.pow_lt_pow_right (by decide) (by omega))
  have hThree : set.toNat * 3 < 2 ^ (params.pPageW + 2) := by
    have := set.isLt
    rw [Nat.pow_add]
    omega
  have hTriple : (set.setWidth (params.pPageW + 2) * 3).toNat = set.toNat * 3 := by
    have hLiteral : (3 : BitVec (params.pPageW + 2)).toNat = 3 := by
      refine Nat.mod_eq_of_lt ?_
      calc 3 < 2 ^ 2 := by decide
        _ ≤ 2 ^ (params.pPageW + 2) := Nat.pow_le_pow_right (by decide) (by omega)
    rw [BitVec.toNat_mul, BitVec.toNat_setWidth, Nat.mod_eq_of_lt hWide, hLiteral, Nat.mod_eq_of_lt hThree]
  have hFits : params.pPageW + 2 + 6 ≤ params.pPageW + params.pageW := by
    have := params.pageW_ge
    omega
  rw [vpn2ptSetPA, BitVec.toNat_setWidth_of_le hFits, BitVec.toNat_append, hTriple, BitVec.toNat_zero, Nat.or_zero,
    Nat.shiftLeft_eq]
  omega

theorem setRegion_subset_dram (tag : PTTagPacket params) : setRegion tag ⊆ Set.Iio (dramSize params) := by
  rintro byte ⟨_, hByte⟩
  rw [toNat_vpn2ptSetPA] at hByte
  have hSet := (pagesetNumber tag).isLt
  have hPage : 2 ^ params.pPageW * 2 ^ 8 ≤ dramSize params := by
    rw [← Nat.pow_add]
    exact Nat.pow_le_pow_right (by decide) (Nat.add_le_add_left params.pageW_ge _)
  change byte < dramSize params
  omega

theorem setRegion_eq_or_disjoint (a b : PTTagPacket params) : setRegion a = setRegion b ∨ Disjoint (setRegion a) (setRegion b) := by
  by_cases hSame : pagesetNumber a = pagesetNumber b
  · left
    rw [setRegion, setRegion, hSame]
  · right
    have hNe : (pagesetNumber a).toNat ≠ (pagesetNumber b).toNat := fun h => hSame (BitVec.eq_of_toNat_eq h)
    rw [Set.disjoint_left]
    rintro byte ⟨hLow, hHigh⟩ ⟨hLow', hHigh'⟩
    rw [toNat_vpn2ptSetPA] at hLow hHigh hLow' hHigh'
    omega

/-- The number of sets that lie below the first page frame. -/
def setsBelowFrames (params : PageTableParams) : Nat := pageBase params / 192

theorem setRegion_below_iff (tag : PTTagPacket params) :
    setRegion tag ⊆ Set.Iio (pageBase params) ↔ (pagesetNumber tag).toNat < setsBelowFrames params := by
  rw [setsBelowFrames, Nat.lt_div_iff_mul_lt (by decide)]
  constructor
  · intro hBelow
    have hLast : (vpn2ptSetPA (pagesetNumber tag)).toNat + 191 < pageBase params :=
      hBelow ⟨Nat.le_add_right _ _, by omega⟩
    rw [toNat_vpn2ptSetPA] at hLast
    omega
  · rintro hSets byte ⟨_, hByte⟩
    rw [toNat_vpn2ptSetPA] at hByte
    change byte < pageBase params
    omega

/-- However large the memory is, with pages of 4096 bytes the last set lies among the frames. -/
theorem exists_set_among_frames (h : params.pageW < 16) :
    ∃ tag : PTTagPacket params, ¬ setRegion tag ⊆ Set.Iio (pageBase params) := by
  refine ⟨⟨BitVec.allOnes _, BitVec.allOnes _⟩, ?_⟩
  have hLast : pagesetNumber (⟨BitVec.allOnes _, BitVec.allOnes _⟩ : PTTagPacket params) = BitVec.allOnes _ := by
    have hWide := params.pPageW_le
    apply BitVec.eq_of_getLsbD_eq
    intro i hi
    rw [pagesetNumber, BitVec.getLsbD_setWidth, BitVec.getLsbD_append, BitVec.getLsbD_extractLsb']
    simp only [BitVec.getLsbD_allOnes, hi]
    split
    · next hLow => simp [hLow]
    · next hHigh =>
      have hVpn : i - params.asidW < params.vPageW - 6 := by omega
      have hBit : 6 + (i - params.asidW) < params.vPageW := by omega
      simp [hVpn, hBit]
  rw [setRegion_below_iff, hLast, BitVec.toNat_allOnes, setsBelowFrames, Nat.lt_div_iff_mul_lt (by decide)]
  have hBase : pageBase params ≤ 2 ^ params.pPageW * 2 ^ 7 := by
    rw [pageBase, dramSize, Nat.shiftRight_eq_div_pow, Nat.pow_div (Nat.le_add_left_of_le params.pageW_ge) (by decide), ← Nat.pow_add]
    exact Nat.pow_le_pow_right (by decide) (by omega)
  have hPos := Nat.two_pow_pos params.pPageW
  omega

/-- The set of a page lies in the memory and below the frames, and shares no byte with a frame or another set. -/
structure Placed (a b : PTTagPacket params) : Prop where
  inside : setRegion a ⊆ Set.Iio (dramSize params)
  below : setRegion a ⊆ Set.Iio (pageBase params)
  apart : setRegion a = setRegion b ∨ Disjoint (setRegion a) (setRegion b)
  untouched : Disjoint (setRegion a) (frames params)

theorem placed_iff (a b : PTTagPacket params) : Placed a b ↔ (pagesetNumber a).toNat < setsBelowFrames params := by
  constructor
  · intro h
    exact (setRegion_below_iff a).mp h.below
  · intro hSets
    have hBelow := (setRegion_below_iff a).mpr hSets
    refine ⟨setRegion_subset_dram a, hBelow, setRegion_eq_or_disjoint a b, ?_⟩
    rw [Set.disjoint_left]
    rintro byte hSet ⟨hFrame, _⟩
    exact absurd (hBelow hSet) (Nat.not_lt_of_le hFrame)

abbrev simulated : PageTableParams where
  pageW := 12
  vPageW := 52
  pPageW := 12
  asidW := 15
  tlbSetWidth := 4
  tlbWayWidth := 2
  thidW := 5
  tlbSetWidth_le := by decide
  entryWidth_le := by decide
  vPageW_gt := by decide
  pPageW_le := by decide
  pageW_ge := (by decide : 4 + 4 ≤ 12)

/-- The set of page zero of address space 341 reaches into the first frame. -/
theorem set_among_frames : ¬ Placed (⟨0, 341⟩ : PTTagPacket simulated) ⟨0, 341⟩ := by
  intro h
  exact absurd ((setRegion_below_iff _).mp h.below) (by decide)

end KnockoutKraken.Mmu
