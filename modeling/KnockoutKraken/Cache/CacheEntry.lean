import KnockoutKraken.Library.Indices
import Mathlib.Data.BitVec
import Mathlib.Data.Fintype.Basic

/-!
# Bank geometry and bank entries

The set count, the associativity and the thread count are powers of two,
given by their exponents, and an address is a tag above a set index, so
that only the geometries that pass the assertions can be written down.
-/

namespace KnockoutKraken.Cache

structure DatabankParams where
  setWidth : Nat
  wayWidth : Nat
  blockSize : Nat
  tagWidth : Nat
  asidW : Nat
  thidW : Nat
  blockSize_pos : 0 < blockSize

namespace DatabankParams

variable (p : DatabankParams)

abbrev Addr := BitVec (p.tagWidth + p.setWidth)
abbrev Tag := BitVec p.tagWidth
abbrev SetIndex := BitVec p.setWidth
abbrev Way := Fin (2 ^ p.wayWidth)
abbrev Block := BitVec p.blockSize

end DatabankParams

variable {p : DatabankParams}

/-- The set an address is looked up in; the code reads the low bits only when
there is more than one of them. -/
def setIndex (addr : p.Addr) : p.SetIndex :=
  if 1 < p.setWidth then addr.extractLsb' 0 p.setWidth else 0

def getTagFromAddress (addr : p.Addr) : p.Tag := addr.extractLsb' p.setWidth p.tagWidth

structure CacheEntry (p : DatabankParams) where
  tag : p.Tag
  data : p.Block
  v : Bool
  d : Bool
deriving DecidableEq

namespace CacheEntry

def merge {n : Nat} (old data mask : BitVec n) : BitVec n := data &&& mask ||| old &&& ~~~mask

def refill (addr : p.Addr) (data : p.Block) : CacheEntry p where
  tag := getTagFromAddress addr
  data := data
  v := true
  d := false

def write (entry : CacheEntry p) (data mask : p.Block) (refill valid : Bool) : CacheEntry p where
  tag := entry.tag
  data := merge entry.data data mask
  v := valid
  d := !refill && (mask != 0#p.blockSize || entry.d)

def checkHit (entry : CacheEntry p) (addr : p.Addr) : Bool := entry.tag == getTagFromAddress addr

def read (entry : CacheEntry p) : p.Block := entry.data

/-- The address of the block the entry holds when it sits in the given set. -/
def address (entry : CacheEntry p) (set : p.SetIndex) : p.Addr := entry.tag ++ set

section Merge

variable {n : Nat} (old data mask : BitVec n)

theorem getLsbD_merge (i : Nat) :
    (merge old data mask).getLsbD i = if mask.getLsbD i then data.getLsbD i else old.getLsbD i := by
  simp only [merge, BitVec.getLsbD_or, BitVec.getLsbD_and, BitVec.getLsbD_not]
  cases hMask : mask.getLsbD i with
  | true => simp
  | false =>
    by_cases hi : i < n
    · simp [hi]
    · simp [BitVec.getLsbD_of_ge old i (Nat.le_of_not_lt hi)]

@[simp] theorem merge_zero : merge old data 0#n = old := by
  apply BitVec.eq_of_getLsbD_eq
  intro i _
  simp [getLsbD_merge]

@[simp] theorem merge_allOnes : merge old data (BitVec.allOnes n) = data := by
  apply BitVec.eq_of_getLsbD_eq
  intro i hi
  rw [getLsbD_merge, BitVec.getLsbD_allOnes, if_pos (decide_eq_true hi)]

end Merge

theorem write_zero_mask {entry : CacheEntry p} (hV : entry.v = true) (data : p.Block) :
    entry.write data 0#p.blockSize false true = entry := by
  cases entry
  simp only at hV
  simp [write, hV]

end CacheEntry

section AddressSplit

/-- With more than one set the code reads every index bit; the exception is a bank
of exactly two sets, whose single index bit is dropped. -/
theorem tag_append_setIndex (h : p.setWidth ≠ 1) (addr : p.Addr) :
    getTagFromAddress addr ++ setIndex addr = addr := by
  apply BitVec.eq_of_getLsbD_eq
  intro i hi
  rw [BitVec.getLsbD_append]
  by_cases hLow : i < p.setWidth
  · have hSet : 1 < p.setWidth := by omega
    rw [if_pos hLow, setIndex, if_pos hSet, BitVec.getLsbD_extractLsb', decide_eq_true hLow, Nat.zero_add,
      Bool.true_and]
  · have hTag : i - p.setWidth < p.tagWidth := by omega
    rw [if_neg hLow, getTagFromAddress, BitVec.getLsbD_extractLsb', decide_eq_true hTag,
      Nat.add_sub_cancel' (Nat.le_of_not_lt hLow), Bool.true_and]

theorem addr_eq_iff (h : p.setWidth ≠ 1) (a b : p.Addr) :
    a = b ↔ getTagFromAddress a = getTagFromAddress b ∧ setIndex a = setIndex b := by
  constructor
  · rintro rfl
    exact ⟨rfl, rfl⟩
  · rintro ⟨hTag, hSet⟩
    rw [← tag_append_setIndex h a, ← tag_append_setIndex h b, hTag, hSet]

theorem setIndex_append (h : p.setWidth ≠ 1) (tag : p.Tag) (set : p.SetIndex) :
    setIndex (p := p) (tag ++ set) = set := by
  apply BitVec.eq_of_getLsbD_eq
  intro i hi
  have hSet : 1 < p.setWidth := by omega
  simp [setIndex, hSet, hi, BitVec.getLsbD_append]

theorem getTagFromAddress_append (tag : p.Tag) (set : p.SetIndex) :
    getTagFromAddress (p := p) (tag ++ set) = tag := by
  apply BitVec.eq_of_getLsbD_eq
  intro i hi
  simp [getTagFromAddress, hi, BitVec.getLsbD_append]

end AddressSplit

end KnockoutKraken.Cache
