import Mathlib.Data.BitVec

/-!
# Translation packets

The tag and the entry of a translation, and the messages that carry them
between the translation buffers, the page table handlers and the host.
-/

namespace KnockoutKraken.Armflex

abbrev permW : Nat := 2

/-- The widths of the translation, and the conditions under which the circuits over them
elaborate: a set of the page table, 96 bits an entry, fits its three bursts, and the
set number and the address of a set have the bits that are cut out of them. -/
structure PageTableParams where
  pageW : Nat
  vPageW : Nat
  pPageW : Nat
  asidW : Nat
  tlbSetWidth : Nat
  tlbWayWidth : Nat
  thidW : Nat
  tlbSetWidth_le : tlbSetWidth ≤ asidW + vPageW
  entryWidth_le : vPageW + asidW + (pPageW + permW + 1) + 2 ≤ 96
  vPageW_gt : 6 < vPageW
  pPageW_le : pPageW ≤ vPageW - 6 + asidW
  pageW_ge : 8 ≤ pageW

def dataLoad : BitVec permW := 0
def dataStore : BitVec permW := 1
def instFetch : BitVec permW := 2

variable {params : PageTableParams}

@[ext] structure PTTagPacket (params : PageTableParams) where
  vpn : BitVec params.vPageW
  asid : BitVec params.asidW
deriving DecidableEq

namespace PTTagPacket

abbrev width (params : PageTableParams) : Nat := params.vPageW + params.asidW

def asUInt (tag : PTTagPacket params) : BitVec (width params) := tag.vpn ++ tag.asid

def ofUInt (bits : BitVec (width params)) : PTTagPacket params where
  vpn := bits.extractLsb' params.asidW params.vPageW
  asid := bits.extractLsb' 0 params.asidW

@[simp] theorem ofUInt_asUInt (tag : PTTagPacket params) : ofUInt tag.asUInt = tag := by
  obtain ⟨vpn, asid⟩ := tag
  simp only [ofUInt, asUInt, mk.injEq]
  exact ⟨BitVec.extractLsb'_append_eq_left, BitVec.extractLsb'_append_eq_right⟩

end PTTagPacket

structure PTEntryPacket (params : PageTableParams) where
  ppn : BitVec params.pPageW
  perm : BitVec permW
  modified : Bool
deriving DecidableEq

namespace PTEntryPacket

abbrev width (params : PageTableParams) : Nat := params.pPageW + permW + 1

def permValid (entry : PTEntryPacket params) (targetPerm : BitVec permW) : Bool :=
  if targetPerm = dataLoad then entry.perm == 0 || entry.perm == 1
  else if targetPerm = dataStore then entry.perm == 1
  else if targetPerm = instFetch then entry.perm == 2
  else false

def asUInt (entry : PTEntryPacket params) : BitVec (width params) :=
  entry.ppn ++ entry.perm ++ BitVec.ofBool entry.modified

def ofUInt (bits : BitVec (width params)) : PTEntryPacket params where
  ppn := bits.extractLsb' 3 params.pPageW
  perm := bits.extractLsb' 1 permW
  modified := bits.getLsbD 0

@[simp] theorem ofUInt_asUInt (entry : PTEntryPacket params) : ofUInt entry.asUInt = entry := by
  obtain ⟨ppn, perm, modified⟩ := entry
  simp only [ofUInt, asUInt, mk.injEq]
  refine ⟨?_, ?_, ?_⟩
  · rw [BitVec.extractLsb'_append_eq_of_le (by omega)]
    exact BitVec.extractLsb'_append_eq_left
  · rw [BitVec.extractLsb'_append_eq_of_le (by omega)]
    exact BitVec.extractLsb'_append_eq_right
  · rw [BitVec.getLsbD_append]
    cases modified <;> rfl

end PTEntryPacket

structure PageTableItem (params : PageTableParams) where
  tag : PTTagPacket params
  entry : PTEntryPacket params
deriving DecidableEq

structure TLBMissRequestMessage (params : PageTableParams) where
  tag : PTTagPacket params
  perm : BitVec permW
  thid : BitVec params.thidW
deriving DecidableEq

structure TLBEvictionMessage (params : PageTableParams) where
  tag : PTTagPacket params
  entry : PTEntryPacket params
deriving DecidableEq

structure TLBMMURespPacket (params : PageTableParams) where
  tag : PTTagPacket params
  data : PTEntryPacket params
  thid : BitVec params.thidW
deriving DecidableEq

structure QEMUMissReply (params : PageTableParams) where
  tag : PTTagPacket params
  perm : BitVec permW
  thid : BitVec params.thidW
  thidV : Bool
  ppn : BitVec params.pPageW
deriving DecidableEq

structure QEMUPageEvictRequest (params : PageTableParams) where
  tag : PTTagPacket params
deriving DecidableEq

structure PageFaultNotification (params : PageTableParams) where
  tag : PTTagPacket params
  perm : BitVec permW
  thid : BitVec params.thidW
deriving DecidableEq

end KnockoutKraken.Armflex
