import Mathlib.Logic.Function.Basic
import KnockoutKraken.Armflex.SoftwareBundle
import KnockoutKraken.Cache.LRUCore
import KnockoutKraken.Library.Arbiter
import KnockoutKraken.Library.OneHot
import KnockoutKraken.Library.Packing

/-!
# Sets of the page table

A set holds sixteen entries with their tags, their valid bits and the
encoding of the replacement tree. In memory it is three words of 512
bits, the fields of the bundle packed from the high bits down.
-/

namespace KnockoutKraken.Mmu

open Library Cache Armflex

abbrev Slot := Fin 16

abbrev Tree := Fin 15 → Bool

namespace Tree

def lru (tree : Tree) : Slot := (PseudoTreeLRUCore 4).lruO tree

def touch (tree : Tree) (i : Slot) : Tree := (PseudoTreeLRUCore 4).encodingO tree i

end Tree

abbrev SetWords := Fin 3 → BitVec 512

structure PageTableSetPacket (params : PageTableParams) where
  tags : Slot → PTTagPacket params
  ptes : Slot → PTEntryPacket params
  valids : BitVec 16
  lruBits : BitVec 16

structure PageSetBufferWriteRequestPacket (params : PageTableParams) where
  item : PageTableItem params
  flushV : Bool
  index : Slot
deriving DecidableEq

structure PageSetBufferLookupReplyPacket (params : PageTableParams) where
  item : PageTableItem params
  index : Slot
  hitV : Bool
deriving DecidableEq

structure LruElement (params : PageTableParams) where
  item : PageTableItem params
  lruV : Bool
  index : Slot
deriving DecidableEq

variable {params : PageTableParams}

namespace PageTableSetPacket

section Packed

abbrev width (params : PageTableParams) : Nat :=
  16 * PTTagPacket.width params + 16 * PTEntryPacket.width params + 16 + 16

theorem width_le (params : PageTableParams) : width params ≤ 3 * 512 := by
  have hEntry := params.entryWidth_le
  simp only [width, PTTagPacket.width, PTEntryPacket.width]
  omega

def asUInt (set : PageTableSetPacket params) : BitVec (width params) :=
  packVec 16 (fun i => (set.tags i).asUInt) ++ packVec 16 (fun i => (set.ptes i).asUInt) ++ set.valids ++ set.lruBits

def ofUInt (bits : BitVec (width params)) : PageTableSetPacket params where
  tags i := .ofUInt (unpackVec (bits.extractLsb' (16 * PTEntryPacket.width params + 32) (16 * PTTagPacket.width params)) i)
  ptes i := .ofUInt (unpackVec (bits.extractLsb' 32 (16 * PTEntryPacket.width params)) i)
  valids := bits.extractLsb' 16 16
  lruBits := bits.extractLsb' 0 16

@[simp] theorem ofUInt_asUInt (set : PageTableSetPacket params) : ofUInt set.asUInt = set := by
  obtain ⟨tags, ptes, valids, lruBits⟩ := set
  simp only [ofUInt, asUInt, mk.injEq]
  refine ⟨funext fun i => ?_, funext fun i => ?_, ?_, ?_⟩
  · rw [BitVec.extractLsb'_append_eq_of_le (by omega), BitVec.extractLsb'_append_eq_of_le (by omega)]
    rw [show 16 * PTEntryPacket.width params + 32 - 16 - 16 = 16 * PTEntryPacket.width params by omega,
      BitVec.extractLsb'_append_eq_left, unpackVec_packVec, PTTagPacket.ofUInt_asUInt]
  · rw [BitVec.extractLsb'_append_eq_of_le (by omega), BitVec.extractLsb'_append_eq_of_le (by omega)]
    rw [BitVec.extractLsb'_append_eq_right, unpackVec_packVec, PTEntryPacket.ofUInt_asUInt]
  · rw [BitVec.extractLsb'_append_eq_of_le (by omega)]
    exact BitVec.extractLsb'_append_eq_right
  · exact BitVec.extractLsb'_append_eq_right

def asWords (set : PageTableSetPacket params) : SetWords := unpackVec (set.asUInt.setWidth (3 * 512))

def ofWords (words : SetWords) : PageTableSetPacket params := ofUInt ((packVec 3 words).setWidth (width params))

@[simp] theorem ofWords_asWords (set : PageTableSetPacket params) : ofWords set.asWords = set := by
  rw [ofWords, asWords, packVec_unpackVec, BitVec.setWidth_setWidth_of_le _ (width_le params), BitVec.setWidth_eq,
    ofUInt_asUInt]

end Packed

variable (set : PageTableSetPacket params)

def hitVector (tag : PTTagPacket params) (i : Slot) : Bool :=
  (set.tags i).asid == tag.asid && (set.tags i).vpn == tag.vpn && set.valids.getLsbD i

def lookup (tag : PTTagPacket params) : PageSetBufferLookupReplyPacket params :=
  let index := ohToUInt (k := 4) (set.hitVector tag)
  { item := ⟨tag, set.ptes index⟩
    index := index
    hitV := decide (∃ i, set.hitVector tag i = true) }

def lruEncoding : Tree := fun i => set.lruBits.getLsbD i

def spaceIndex : Slot := (lowest fun i : Slot => !set.valids.getLsbD i).getD 15

def lruIndex : Slot := set.lruEncoding.lru

def lruElement : LruElement params where
  item := ⟨set.tags set.lruIndex, set.ptes set.lruIndex⟩
  lruV := ~~~set.valids == 0
  index := if ~~~set.valids == 0 then set.lruIndex else set.spaceIndex

/-- The set after a write request, which touches the slot in the replacement tree also
when it flushes it. -/
def write (request : PageSetBufferWriteRequestPacket params) : PageTableSetPacket params where
  tags := Function.update set.tags request.index request.item.tag
  ptes := Function.update set.ptes request.index request.item.entry
  valids :=
    if request.flushV then ~~~(1#16 <<< request.index.val) &&& set.valids else 1#16 <<< request.index.val ||| set.valids
  lruBits := (packVec 15 fun i => BitVec.ofBool (set.lruEncoding.touch request.index i)).setWidth 16

end PageTableSetPacket

section SetAddress

def pagesetNumber (tag : PTTagPacket params) : BitVec params.pPageW :=
  (tag.vpn.extractLsb' 6 (params.vPageW - 6) ++ tag.asid).setWidth params.pPageW

abbrev dramAddrW (params : PageTableParams) : Nat := params.pPageW + params.pageW

def vpn2ptSetPA (set : BitVec params.pPageW) : BitVec (dramAddrW params) :=
  ((set.setWidth (params.pPageW + 2) * 3) ++ 0#6).setWidth _

def burstWord (addr : BitVec (dramAddrW params)) (beat : Fin 3) : Nat := addr.toNat / 64 + beat.val

end SetAddress

end KnockoutKraken.Mmu
