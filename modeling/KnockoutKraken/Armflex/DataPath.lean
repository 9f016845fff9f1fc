import KnockoutKraken.Armflex.DataAddresses
import KnockoutKraken.Cache.BaseCache
import KnockoutKraken.Library.Bytes
import Mathlib.Logic.Function.Basic
import Mathlib.Tactic.IntervalCases

/-!
# The data path of the memory unit

The accesses of a memory instruction are performed one after the other on
a memory of blocks. A pair has two ways to be done: in one access, which
merges its registers, or in two. The test of the memory unit compares
places in the block and so sends every aligned pair the second way; the
first way would be wrong for some stores.
-/

namespace KnockoutKraken.Armflex

open Library Cache

universe u

variable {params : PipelineParams} {Λ : Type u}

abbrev Memory (params : PipelineParams) := Nat → params.Block

def blockOf (a : params.PAddr) : Nat := a.toNat / 2 ^ params.blockW

def placeOf (a : params.PAddr) : Nat := a.toNat % 2 ^ params.blockW

namespace Memory

variable (mem : Memory params)

def byteAt (a : params.PAddr) : BitVec 8 := byteOf (mem (blockOf a)) (placeOf a)

/-- The word of `2 ^ size` bytes from an address on, extended by zeros or the sign. -/
def load (a : params.PAddr) (size : BitVec 2) (sign : Bool) : Word :=
  let bytes := ofBytes (2 ^ size.toNat) fun j => mem.byteAt (a + BitVec.ofNat _ j)
  if sign then bytes.signExtend 64 else bytes.setWidth 64

/-- The low bytes of a register, and nothing else, are put at an address. -/
structure Stored (before after : Memory params) (a : params.PAddr) (count : Nat) (data : Word) : Prop where
  stored : ∀ j < count, after.byteAt (a + BitVec.ofNat _ j) = byteOf data j
  kept : ∀ b, (∀ j < count, b ≠ a + BitVec.ofNat _ j) → after.byteAt b = before.byteAt b

end Memory

namespace CacheRequest

variable (r : CacheRequest params)

/-- The mask that the cache makes of the byte enables. -/
def wMask : params.Block := CachePipelineReq.wMask (⟨0, r.data, r.wEn⟩ : CachePipelineReq ⟨0, 0, 0, params.blockW, 0⟩)

def written (mem : Memory params) : Memory params :=
  Function.update mem (blockOf r.addr) (CacheEntry.merge (mem (blockOf r.addr)) r.data r.wMask)

end CacheRequest

structure Performed (params : PipelineParams) where
  requests : List (CacheRequest params)
  memory : Memory params
  commit : CommitInst params.thidW

namespace MemPending

variable (m : MemPending params Λ)

/-- The accesses of an instruction; the cache answers with the block as it then is. -/
def perform (mem : Memory params) : Performed params :=
  let after := m.cacheRequest.written mem
  let block := after (blockOf m.cacheRequest.addr)
  if m.needsSecondAccess then
    let second := m.firstCompleted block
    let after' := second.cacheRequest.written after
    ⟨[m.cacheRequest, second.cacheRequest], after', second.done (after' (blockOf second.cacheRequest.addr))⟩
  else ⟨[m.cacheRequest], after, m.done block⟩

def inTwoAccesses : MemPending params Λ := { m with blockMisaligned := true }

def Used (k : Fin 2) : Prop := k = 0 ∨ m.inst.isPair = true

def bytes : Nat := 2 ^ m.inst.size.toNat

variable (page : Word → params.PAddr)

/-- Where the instruction accesses a register: the address in its page. -/
def physAddr (k : Fin 2) : params.PAddr := params.inPage (page ((m.inst.req k).addr >>> 12)) (m.inst.req k).addr

def Covers (a : params.PAddr) : Prop :=
  m.inst.isLoad = false ∧ ∃ k, m.Used k ∧ ∃ j < m.bytes, a = m.physAddr page k + BitVec.ofNat _ j

structure Correct (mem : Memory params) : Prop where
  enabled : ∀ r ∈ (m.perform mem).requests, ∀ place, r.wEn.getLsbD place = true →
    ∃ a, m.Covers page a ∧ blockOf a = blockOf r.addr ∧ placeOf a = place
  stored : m.inst.isLoad = false → ∀ k, m.Used k → ∀ j < m.bytes,
    (m.perform mem).memory.byteAt (m.physAddr page k + BitVec.ofNat _ j) = byteOf (m.inst.req k).data j
  kept : ∀ a, ¬ m.Covers page a → (m.perform mem).memory.byteAt a = mem.byteAt a
  loaded : m.inst.isLoad = true → ∀ k, m.Used k → (m.perform mem).commit.rd k.succ = some (m.inst.req k).reg ∧
    (m.perform mem).commit.res k.succ = mem.load (m.physAddr page k) m.inst.size m.inst.isSigned
  unloaded : ∀ k, ¬ (m.inst.isLoad = true ∧ m.Used k) → (m.perform mem).commit.rd k.succ = none

end MemPending

section Places

variable {a b : params.PAddr}

theorem placeOf_lt (a : params.PAddr) : placeOf a < 2 ^ params.blockW := Nat.mod_lt _ (Nat.two_pow_pos _)

theorem eq_of_place (hBlock : blockOf a = blockOf b) (hPlace : placeOf a = placeOf b) : a = b := by
  apply BitVec.eq_of_toNat_eq
  rw [← Nat.div_add_mod a.toNat (2 ^ params.blockW), ← Nat.div_add_mod b.toNat (2 ^ params.blockW)]
  exact congrArg₂ (fun block place => 2 ^ params.blockW * block + place) hBlock hPlace

/-- An address that a register of `2 ^ size` bytes is stored at. -/
structure Aligned (a : params.PAddr) (count : Nat) : Prop where
  pos : 0 < count
  block : count ∣ 2 ^ params.blockW
  memory : count ∣ 2 ^ params.pAddrW
  addr : count ∣ a.toNat

variable {count j : Nat}

theorem Aligned.toNat_add (h : Aligned a count) (hj : j < count) : (a + BitVec.ofNat _ j).toNat = a.toNat + j := by
  have hMod := aligned_mod h.pos h.memory h.addr hj
  rw [Nat.mod_eq_of_lt a.isLt] at hMod
  rw [BitVec.toNat_add, BitVec.toNat_ofNat, Nat.add_mod_mod, hMod]

theorem Aligned.blockOf_add (h : Aligned a count) (hj : j < count) : blockOf (a + BitVec.ofNat _ j) = blockOf a := by
  rw [blockOf, h.toNat_add hj, aligned_div h.pos h.block h.addr hj, blockOf]

theorem Aligned.placeOf_add (h : Aligned a count) (hj : j < count) : placeOf (a + BitVec.ofNat _ j) = placeOf a + j := by
  rw [placeOf, h.toNat_add hj, aligned_mod h.pos h.block h.addr hj, placeOf]

/-- The bytes of a register are those of a range of places in one block. -/
theorem Aligned.mem_iff (h : Aligned a count) :
    (∃ j < count, b = a + BitVec.ofNat _ j) ↔ blockOf b = blockOf a ∧ placeOf a ≤ placeOf b ∧ placeOf b < placeOf a + count := by
  constructor
  · rintro ⟨j, hj, rfl⟩
    rw [h.blockOf_add hj, h.placeOf_add hj]
    omega
  · rintro ⟨hBlock, hLow, hHigh⟩
    have hj : placeOf b - placeOf a < count := by omega
    refine ⟨placeOf b - placeOf a, hj, eq_of_place ?_ ?_⟩
    · rw [h.blockOf_add hj, hBlock]
    · rw [h.placeOf_add hj]
      omega

end Places

namespace CacheRequest

variable (r : CacheRequest params)

theorem getLsbD_wMask {i : Nat} (hi : i < 8 * 2 ^ params.blockW) : r.wMask.getLsbD i = r.wEn.getLsbD (i / 8) := by
  have hFold : ∀ n, ((List.range n).foldl (fun (mask : params.Block) byte =>
      if r.wEn.getLsbD byte then mask ||| BitVec.ofNat _ 255 <<< (8 * byte) else mask) 0).getLsbD i =
        (decide (i / 8 < n) && r.wEn.getLsbD (i / 8)) := by
    intro n
    induction n with
    | zero => simp
    | succ n ih =>
      rw [List.range_succ, List.foldl_append, List.foldl_cons, List.foldl_nil]
      have hByte : (BitVec.ofNat (8 * 2 ^ params.blockW) 255 <<< (8 * n)).getLsbD i = decide (i / 8 = n) := by
        rw [BitVec.getLsbD_shiftLeft, BitVec.getLsbD_ofNat, show 255 = 2 ^ 8 - 1 from rfl, Nat.testBit_two_pow_sub_one]
        rw [Bool.eq_iff_iff]
        simp only [Bool.and_eq_true, Bool.not_eq_true', decide_eq_true_eq, decide_eq_false_iff_not]
        omega
      split
      · next hEn =>
        rw [BitVec.getLsbD_or, ih, hByte]
        rcases Nat.lt_trichotomy (i / 8) n with hLt | rfl | hGt
        · simp [hLt, Nat.lt_succ_of_lt hLt, Nat.ne_of_lt hLt]
        · simp [hEn]
        · simp [Nat.lt_asymm hGt, Nat.ne_of_gt hGt, show ¬ i / 8 < n + 1 by omega]
      · next hDis =>
        rw [ih]
        rcases Nat.lt_trichotomy (i / 8) n with hLt | rfl | hGt
        · simp [hLt, Nat.lt_succ_of_lt hLt]
        · simp [hDis]
        · simp [Nat.lt_asymm hGt, show ¬ i / 8 < n + 1 by omega]
  have hAll := hFold (2 ^ params.blockW)
  rw [decide_eq_true (show i / 8 < 2 ^ params.blockW by omega), Bool.true_and] at hAll
  exact hAll

theorem byteAt_written (mem : Memory params) (b : params.PAddr) :
    (r.written mem).byteAt b =
      if blockOf b = blockOf r.addr ∧ r.wEn.getLsbD (placeOf b) = true then byteOf r.data (placeOf b) else mem.byteAt b := by
  have hPlace := placeOf_lt b
  rw [Memory.byteAt, written]
  by_cases hBlock : blockOf b = blockOf r.addr
  · rw [hBlock, Function.update_self]
    apply byte_ext
    intro i hi
    rw [getLsbD_byteOf, CacheEntry.getLsbD_merge, r.getLsbD_wMask (by omega), show (8 * placeOf b + i) / 8 = placeOf b by omega]
    cases r.wEn.getLsbD (placeOf b) with
    | true => rw [if_pos rfl, if_pos ⟨rfl, rfl⟩, getLsbD_byteOf]
    | false => rw [if_neg Bool.false_ne_true, if_neg (fun h => Bool.false_ne_true h.2), Memory.byteAt, hBlock, getLsbD_byteOf]
  · rw [Function.update_of_ne hBlock, if_neg (fun h => hBlock h.1), Memory.byteAt]

end CacheRequest

/-- A block holds a word and lies in a page, and a page lies in the memory. -/
structure Geometry (params : PipelineParams) : Prop where
  word : 3 ≤ params.blockW
  page : params.blockW ≤ 12
  memory : 12 ≤ params.pAddrW

section Pages

variable (page : params.PAddr) (addr : Word)

theorem toNat_inPage (h : Geometry params) : (params.inPage page addr).toNat = 4096 * (page.toNat / 4096) + addr.toNat % 4096 := by
  have hPage : (page >>> 12 <<< 12).toNat = (page.toNat / 4096) <<< 12 := by
    have hLt : page.toNat / 4096 * 4096 < 2 ^ params.pAddrW := (Nat.div_mul_le_self _ _).trans_lt page.isLt
    rw [BitVec.toNat_shiftLeft, BitVec.toNat_ushiftRight, Nat.shiftRight_eq_div_pow, Nat.shiftLeft_eq]
    exact Nat.mod_eq_of_lt hLt
  rw [PipelineParams.inPage, BitVec.toNat_or, hPage, WatchedMemory.toNat_pageOffset h.memory,
    ← Nat.shiftLeft_add_eq_or_of_lt (show addr.toNat % 4096 < 2 ^ 12 from Nat.mod_lt _ (by decide)), Nat.shiftLeft_eq, Nat.mul_comm]

theorem inPage_mod (h : Geometry params) : (params.inPage page addr).toNat % 4096 = addr.toNat % 4096 := by
  rw [toNat_inPage page addr h]
  omega

theorem placeOf_inPage (h : Geometry params) : placeOf (params.inPage page addr) = (params.blockAddrBits addr).toNat := by
  have hBlock : 2 ^ params.blockW ∣ 4096 := Nat.pow_dvd_pow 2 h.page
  rw [placeOf, ← Nat.mod_mod_of_dvd _ hBlock, inPage_mod page addr h, Nat.mod_mod_of_dvd _ hBlock,
    PipelineParams.blockAddrBits, BitVec.extractLsb'_toNat, Nat.shiftRight_zero]

end Pages

namespace MemPending

variable {m : MemPending params Λ} {page : Word → params.PAddr}

/-- An aligned instruction as the execute stage makes it, with its translated addresses. For a pair on one page the
unit has the bit of the access size set in the second one. -/
structure Ready (m : MemPending params Λ) (page : Word → params.PAddr) : Prop where
  formed : m.inst.Formed
  first : m.firstIsCompleted = false
  paddr0 : (m.paddr 0).bits = m.physAddr page 0
  paddr1 : m.inst.isPair = true → (m.paddr 1).bits =
    if m.inst.overTwoPages then m.physAddr page 1
    else m.physAddr page 1 ||| BitVec.ofNat params.pAddrW 1 <<< m.inst.size.toNat

theorem bytes_pos : 0 < m.bytes := Nat.two_pow_pos _

theorem bytes_dvd {w : Nat} (hw : 3 ≤ w) : m.bytes ∣ 2 ^ w := by
  have hSize := m.inst.size.isLt
  exact Nat.pow_dvd_pow 2 (by omega)

theorem bytes_le : m.bytes ≤ 8 := Nat.le_of_dvd (by decide) (bytes_dvd (Nat.le_refl 3))

theorem placeOf_physAddr (hGeometry : Geometry params) (k : Fin 2) :
    placeOf (m.physAddr page k) = (params.blockAddrBits (m.inst.req k).addr).toNat := placeOf_inPage _ _ hGeometry

namespace Ready

theorem dvd_addr (h : m.Ready page) (k : Fin 2) : m.bytes ∣ (m.inst.req k).addr.toNat := by
  have hFirst : m.bytes ∣ (m.inst.req 0).addr.toNat := Nat.dvd_of_mod_eq_zero h.formed.aligned
  match k with
  | 0 => exact hFirst
  | 1 =>
    rw [h.formed.second, BitVec.toNat_add, BitVec.toNat_ofNat, Nat.add_mod_mod]
    exact (Nat.dvd_mod_iff (bytes_dvd (by decide))).mpr (Nat.dvd_add hFirst (Nat.dvd_refl _))

theorem aligned (h : m.Ready page) (hGeometry : Geometry params) (k : Fin 2) : Aligned (m.physAddr page k) m.bytes := by
  refine ⟨bytes_pos, bytes_dvd hGeometry.word, bytes_dvd (Nat.le_trans (by decide) hGeometry.memory), ?_⟩
  have hPage : m.bytes ∣ 4096 := bytes_dvd (show 3 ≤ 12 by decide)
  rw [physAddr, toNat_inPage _ _ hGeometry]
  exact Nat.dvd_add (Dvd.dvd.mul_right hPage _) ((Nat.dvd_mod_iff hPage).mpr (h.dvd_addr k))

/-- The bit of the access size lies below the block. -/
theorem blockOf_paddr (h : m.Ready page) (hGeometry : Geometry params) (hWide : 5 ≤ params.blockW) {k : Fin 2} (hUsed : m.Used k) :
    blockOf (m.paddr k).bits = blockOf (m.physAddr page k) := by
  match k with
  | 0 => rw [h.paddr0]
  | 1 =>
    rw [h.paddr1 (hUsed.resolve_left (by decide))]
    split
    · rfl
    · have hSize := m.inst.size.isLt
      have hMemory := hGeometry.memory
      have hLow : 2 ^ m.inst.size.toNat < 2 ^ params.blockW := Nat.pow_lt_pow_right (by decide) (by omega)
      rw [BitVec.or_comm, blockOf, blockOf, WatchedMemory.toNat_shift_or hMemory, ← Nat.shiftRight_eq_div_pow, ← Nat.shiftRight_eq_div_pow,
        Nat.shiftRight_or_distrib, Nat.shiftRight_eq_div_pow, Nat.div_eq_of_lt hLow, Nat.zero_or]

theorem disjoint (h : m.Ready page) (hGeometry : Geometry params) {i j : Nat} (hi : i < m.bytes) (hj : j < m.bytes) :
    m.physAddr page 0 + BitVec.ofNat _ i ≠ m.physAddr page 1 + BitVec.ofNat _ j := by
  intro hEq
  have hBytes : m.bytes ≤ 8 := bytes_le
  have hNat := congrArg BitVec.toNat hEq
  rw [(h.aligned hGeometry 0).toNat_add hi, (h.aligned hGeometry 1).toNat_add hj] at hNat
  have hDvd : m.bytes ∣ 4096 := bytes_dvd (show 3 ≤ 12 by decide)
  have h0 := aligned_mod bytes_pos hDvd (h.aligned hGeometry 0).addr hi
  have h1 := aligned_mod bytes_pos hDvd (h.aligned hGeometry 1).addr hj
  have hNext : (m.inst.req 1).addr.toNat % 4096 = ((m.inst.req 0).addr.toNat + m.bytes) % 4096 := by
    rw [h.formed.second, BitVec.toNat_add, BitVec.toNat_ofNat, Nat.add_mod_mod, Nat.mod_mod_of_dvd _ (by decide), bytes]
  rw [physAddr, inPage_mod _ _ hGeometry] at h0
  rw [physAddr, inPage_mod _ _ hGeometry, hNext] at h1
  rw [physAddr, physAddr] at hNat
  have hSame : (m.inst.req 0).addr.toNat % 4096 + i = ((m.inst.req 0).addr.toNat + m.bytes) % 4096 + j := by
    rw [← h0, ← h1, hNat]
  -- the bytes of the first register end where those of the second begin, or the second begins a page
  have hFirst := (Nat.dvd_mod_iff hDvd).mpr (h.dvd_addr 0)
  rcases Nat.lt_or_ge ((m.inst.req 0).addr.toNat % 4096 + m.bytes) 4096 with hIn | hOver
  · omega
  · have hPos := bytes_pos (m := m)
    omega

end Ready

section Access

variable (m) in
def accessBytes : Nat := 2 ^ (m.inst.size.toNat + m.singleAccessPair.toNat)

variable (m) in
theorem maskByteEn_eq : m.maskByteEn = 2 ^ m.accessBytes - 1 := by
  have hSize := m.inst.size.isLt
  have hPair : m.singleAccessPair.toNat ≤ 1 := Bool.toNat_le _
  have hAll : m.inst.size.toNat + m.singleAccessPair.toNat < 5 := by omega
  rw [maskByteEn, accessBytes]
  generalize m.inst.size.toNat + m.singleAccessPair.toNat = size at hAll ⊢
  interval_cases size <;> rfl

theorem getLsbD_wEn {place : Nat} : m.wEn.getLsbD place = true ↔
    m.inst.isLoad = false ∧ place < 2 ^ params.blockW ∧
      (params.blockAddrBits (m.inst.req m.selReqIdx).addr).toNat ≤ place ∧
      place < (params.blockAddrBits (m.inst.req m.selReqIdx).addr).toNat + m.accessBytes := by
  rw [wEn, maskByteEn_eq]
  cases m.inst.isLoad with
  | true => simp
  | false =>
    rw [if_neg Bool.false_ne_true, BitVec.getLsbD_shiftLeft, BitVec.getLsbD_ofNat, Nat.testBit_two_pow_sub_one]
    simp only [Bool.and_eq_true, Bool.not_eq_true', decide_eq_true_eq, decide_eq_false_iff_not, true_and]
    omega

theorem byteOf_place (k : Fin 2) {place : Nat} (hPlace : place < 2 ^ params.blockW) :
    byteOf (m.place k) place =
      if place < (params.blockAddrBits (m.inst.req k).addr).toNat then 0
      else byteOf (m.inst.req k).data (place - (params.blockAddrBits (m.inst.req k).addr).toNat) := by
  rw [MemPending.place, byteOf_shiftLeft _ _ (by omega)]
  split
  · rfl
  · exact byteOf_setWidth _ (by omega)

theorem written_load (hLoad : m.inst.isLoad = true) (mem : Memory params) : m.cacheRequest.written mem = mem := by
  have hMask : m.cacheRequest.wMask = 0 := by
    apply BitVec.eq_of_getLsbD_eq
    intro i hi
    rw [m.cacheRequest.getLsbD_wMask hi, cacheRequest, wEn, if_pos hLoad]
    simp
  rw [CacheRequest.written, hMask]
  exact (congrArg _ (CacheEntry.merge_zero _ _)).trans (Function.update_eq_self _ _)

variable (mem : Memory params)

theorem stored_single (hStore : m.inst.isLoad = false) (hSingle : m.singleAccessPair = false)
    (hAligned : Aligned (m.physAddr page m.selReqIdx) m.bytes)
    (hPlace : placeOf (m.physAddr page m.selReqIdx) = (params.blockAddrBits (m.inst.req m.selReqIdx).addr).toNat)
    (hSame : blockOf m.cacheRequest.addr = blockOf (m.physAddr page m.selReqIdx)) :
    Memory.Stored mem (m.cacheRequest.written mem) (m.physAddr page m.selReqIdx) m.bytes (m.inst.req m.selReqIdx).data := by
  have hBytes : m.accessBytes = m.bytes := by rw [accessBytes, hSingle, Bool.toNat_false, Nat.add_zero, bytes]
  have hEn : ∀ b, (blockOf b = blockOf m.cacheRequest.addr ∧ m.cacheRequest.wEn.getLsbD (placeOf b) = true) ↔
      ∃ j < m.bytes, b = m.physAddr page m.selReqIdx + BitVec.ofNat _ j := by
    intro b
    rw [hAligned.mem_iff, show m.cacheRequest.wEn = m.wEn from rfl, getLsbD_wEn, hBytes, ← hPlace, hSame]
    have hLt := placeOf_lt b
    constructor
    · rintro ⟨hBlock, -, -, hRange⟩
      exact ⟨hBlock, hRange⟩
    · rintro ⟨hBlock, hRange⟩
      exact ⟨hBlock, hStore, hLt, hRange⟩
  constructor
  · intro j hj
    rw [CacheRequest.byteAt_written, if_pos ((hEn _).mpr ⟨j, hj, rfl⟩), show m.cacheRequest.data = m.data from rfl, data,
      hSingle, if_neg Bool.false_ne_true, byteOf_place _ (placeOf_lt _), hAligned.placeOf_add hj, ← hPlace,
      if_neg (by omega), Nat.add_sub_cancel_left]
  · intro b hb
    rw [CacheRequest.byteAt_written, if_neg]
    intro hIn
    obtain ⟨j, hj, hAt⟩ := (hEn b).mp hIn
    exact hb j hj hAt

/-- An access for two registers one after the other stores the first, and puts the bytes that the first
has above its own on those of the second. -/
theorem stored_pair (hStore : m.inst.isLoad = false) (hSingle : m.singleAccessPair = true) (hSel : m.selReqIdx = 0)
    (hAligned : ∀ k, Aligned (m.physAddr page k) m.bytes)
    (hPlace : ∀ k, placeOf (m.physAddr page k) = (params.blockAddrBits (m.inst.req k).addr).toNat)
    (hNext : placeOf (m.physAddr page 1) = placeOf (m.physAddr page 0) + m.bytes)
    (hBlock : blockOf (m.physAddr page 1) = blockOf (m.physAddr page 0))
    (hAddr : blockOf m.cacheRequest.addr = blockOf (m.physAddr page 0)) :
    (∀ j < m.bytes, (m.cacheRequest.written mem).byteAt (m.physAddr page 0 + BitVec.ofNat _ j) = byteOf (m.inst.req 0).data j) ∧
      (∀ j < m.bytes, (m.cacheRequest.written mem).byteAt (m.physAddr page 1 + BitVec.ofNat _ j) =
        byteOf (m.inst.req 1).data j ||| byteOf (m.inst.req 0).data (m.bytes + j)) ∧
      (∀ place, m.wEn.getLsbD place = true → ∃ k, ∃ j < m.bytes,
        blockOf (m.physAddr page k + BitVec.ofNat _ j) = blockOf m.cacheRequest.addr ∧
          placeOf (m.physAddr page k + BitVec.ofNat _ j) = place) ∧
      ∀ b, (∀ k, ∀ j < m.bytes, b ≠ m.physAddr page k + BitVec.ofNat _ j) → (m.cacheRequest.written mem).byteAt b = mem.byteAt b := by
  have hBytes : m.accessBytes = m.bytes + m.bytes := by
    rw [accessBytes, hSingle, Bool.toNat_true, Nat.pow_succ, Nat.mul_two, bytes]
  have hEn : ∀ place, m.wEn.getLsbD place = true ↔ place < 2 ^ params.blockW ∧
      placeOf (m.physAddr page 0) ≤ place ∧ place < placeOf (m.physAddr page 0) + (m.bytes + m.bytes) := by
    intro place
    rw [getLsbD_wEn, hBytes, hSel, ← hPlace 0]
    exact and_iff_right hStore
  have hData : ∀ place, place < 2 ^ params.blockW → byteOf m.cacheRequest.data place =
      (if place < placeOf (m.physAddr page 1) then 0 else byteOf (m.inst.req 1).data (place - placeOf (m.physAddr page 1))) |||
        if place < placeOf (m.physAddr page 0) then 0 else byteOf (m.inst.req 0).data (place - placeOf (m.physAddr page 0)) := by
    intro place hLt
    rw [show m.cacheRequest.data = m.data from rfl, data, if_pos hSingle, byteOf_or, byteOf_place _ hLt, byteOf_place _ hLt,
      hPlace, hPlace]
  refine ⟨?_, ?_, ?_, ?_⟩
  · intro j hj
    have hLt := placeOf_lt (m.physAddr page 0 + BitVec.ofNat _ j)
    rw [(hAligned 0).placeOf_add hj] at hLt
    rw [CacheRequest.byteAt_written, hAddr, (hAligned 0).blockOf_add hj, (hAligned 0).placeOf_add hj,
      if_pos ⟨rfl, (hEn _).mpr ⟨hLt, by omega⟩⟩, hData _ hLt, if_pos (by omega), if_neg (by omega), Nat.add_sub_cancel_left]
    exact BitVec.zero_or
  · intro j hj
    have hLt := placeOf_lt (m.physAddr page 1 + BitVec.ofNat _ j)
    rw [(hAligned 1).placeOf_add hj] at hLt
    rw [CacheRequest.byteAt_written, hAddr, (hAligned 1).blockOf_add hj, (hAligned 1).placeOf_add hj,
      if_pos ⟨hBlock, (hEn _).mpr ⟨hLt, by omega⟩⟩, hData _ hLt, if_neg (by omega), if_neg (by omega),
      Nat.add_sub_cancel_left, show placeOf (m.physAddr page 1) + j - placeOf (m.physAddr page 0) = m.bytes + j by omega]
  · intro place hPlaced
    obtain ⟨-, hLow, hHigh⟩ := (hEn place).mp hPlaced
    rcases Nat.lt_or_ge place (placeOf (m.physAddr page 1)) with hFirst | hSecond
    · refine ⟨0, place - placeOf (m.physAddr page 0), by omega, ?_⟩
      rw [(hAligned 0).placeOf_add (by omega), (hAligned 0).blockOf_add (by omega), hAddr]
      omega
    · refine ⟨1, place - placeOf (m.physAddr page 1), by omega, ?_⟩
      rw [(hAligned 1).placeOf_add (by omega), (hAligned 1).blockOf_add (by omega), hAddr]
      omega
  · intro b hb
    rw [CacheRequest.byteAt_written, if_neg]
    rintro ⟨hSame, hPlaced⟩
    obtain ⟨-, hLow, hHigh⟩ := (hEn _).mp hPlaced
    rw [hAddr] at hSame
    rcases Nat.lt_or_ge (placeOf b) (placeOf (m.physAddr page 1)) with hFirst | hSecond
    · obtain ⟨j, hj, hAt⟩ := (hAligned 0).mem_iff.mpr ⟨hSame, hLow, by omega⟩
      exact hb 0 j hj hAt
    · obtain ⟨j, hj, hAt⟩ := (hAligned 1).mem_iff.mpr ⟨hSame.trans hBlock.symm, hSecond, by omega⟩
      exact hb 1 j hj hAt

theorem enabled_single (hSingle : m.singleAccessPair = false) (hAligned : Aligned (m.physAddr page m.selReqIdx) m.bytes)
    (hPlace : placeOf (m.physAddr page m.selReqIdx) = (params.blockAddrBits (m.inst.req m.selReqIdx).addr).toNat)
    (hSame : blockOf m.cacheRequest.addr = blockOf (m.physAddr page m.selReqIdx)) {place : Nat}
    (hEn : m.wEn.getLsbD place = true) : m.inst.isLoad = false ∧ ∃ j < m.bytes,
      blockOf (m.physAddr page m.selReqIdx + BitVec.ofNat _ j) = blockOf m.cacheRequest.addr ∧
        placeOf (m.physAddr page m.selReqIdx + BitVec.ofNat _ j) = place := by
  obtain ⟨hStore, -, hLow, hHigh⟩ := getLsbD_wEn.mp hEn
  rw [accessBytes, hSingle, Bool.toNat_false, Nat.add_zero, ← bytes] at hHigh
  rw [← hPlace] at hLow hHigh
  refine ⟨hStore, place - placeOf (m.physAddr page m.selReqIdx), by omega, ?_⟩
  rw [hAligned.placeOf_add (by omega), hAligned.blockOf_add (by omega), hSame]
  omega

end Access

section Answer

variable (mem : Memory params) {block : params.Block}

variable {mem} in
theorem load_eq {bits : Word} {a : params.PAddr} (h : ∀ j < m.bytes, byteOf bits j = mem.byteAt (a + BitVec.ofNat _ j))
    (sign : Bool) : signExtendData bits m.inst.size sign = mem.load a m.inst.size sign := by
  have hBytes : bits.setWidth (8 * 2 ^ m.inst.size.toNat) =
      ofBytes (2 ^ m.inst.size.toNat) fun j => mem.byteAt (a + BitVec.ofNat _ j) := by
    refine eq_ofBytes fun j hj => ?_
    rw [byteOf_setWidth _ (by omega)]
    exact h j hj
  rw [signExtendData, Memory.load, hBytes]

/-- A block of the memory, moved to the addressed byte, begins with the bytes from the address on. -/
theorem byteOf_alignedDataResp {k : Fin 2} (hResp : m.respPairIdx = k) (hAligned : Aligned (m.physAddr page k) m.bytes)
    (hPlace : placeOf (m.physAddr page k) = (params.blockAddrBits (m.inst.req k).addr).toNat) {j : Nat} (hj : j < m.bytes) :
    byteOf ((m.alignedDataResp (mem (blockOf (m.physAddr page k)))).setWidth 64) j =
      mem.byteAt (m.physAddr page k + BitVec.ofNat _ j) := by
  have hBytes : m.bytes ≤ 8 := bytes_le
  rw [byteOf_setWidth _ (by omega), alignedDataResp, hResp, ← hPlace, byteOf_ushiftRight, Memory.byteAt,
    hAligned.blockOf_add hj, hAligned.placeOf_add hj]

variable {mem} in
theorem done_loads (h : ∀ k, m.Used k → ∀ j < m.bytes, byteOf (m.memData block k) j = mem.byteAt (m.physAddr page k + BitVec.ofNat _ j))
    (hLoad : m.inst.isLoad = true) {k : Fin 2} (hUsed : m.Used k) : (m.done block).rd k.succ = some (m.inst.req k).reg ∧
      (m.done block).res k.succ = mem.load (m.physAddr page k) m.inst.size m.inst.isSigned := by
  have hWord := load_eq (h k hUsed) m.inst.isSigned
  match k with
  | 0 => exact ⟨if_pos hLoad, hWord⟩
  | 1 =>
    have hPair : m.inst.isPair = true := hUsed.resolve_left (by decide)
    exact ⟨if_pos (by rw [hLoad, hPair]; rfl), hWord⟩

theorem done_unloaded {k : Fin 2} (h : ¬ (m.inst.isLoad = true ∧ m.Used k)) : (m.done block).rd k.succ = none := by
  match k with
  | 0 => exact if_neg fun hLoad => h ⟨hLoad, .inl rfl⟩
  | 1 =>
    refine if_neg fun hBoth => ?_
    obtain ⟨hLoad, hPair⟩ := Bool.and_eq_true_iff.mp hBoth
    exact h ⟨hLoad, .inr hPair⟩

end Answer

section Perform

variable (mem : Memory params)

theorem firstCompleted_physAddr (m : MemPending params Λ) (block : params.Block) (k : Fin 2) :
    (m.firstCompleted block).physAddr page k = m.physAddr page k := by
  match k with
  | 0 => rfl
  | 1 => rfl

theorem perform_once (hNeeds : m.needsSecondAccess = false) : m.perform mem =
    ⟨[m.cacheRequest], m.cacheRequest.written mem,
      m.done (m.cacheRequest.written mem (blockOf m.cacheRequest.addr))⟩ := by
  rw [perform, hNeeds]
  rfl

theorem not_covers {a : params.PAddr} (h : ¬ m.Covers page a) (hStore : m.inst.isLoad = false) {k : Fin 2} (hUsed : m.Used k) :
    ∀ j < m.bytes, a ≠ m.physAddr page k + BitVec.ofNat _ j :=
  fun j hj hEq => h ⟨hStore, k, hUsed, j, hj, hEq⟩

namespace Ready

theorem selReqIdx_eq (h : m.Ready page) : m.selReqIdx = 0 := by
  rw [selReqIdx, secondAccessPair, h.first, Bool.and_false, if_neg Bool.false_ne_true]

theorem respPairIdx_eq (h : m.Ready page) : m.respPairIdx = 0 := by
  rw [respPairIdx, h.first, if_neg Bool.false_ne_true]

theorem blockOf_cacheRequest (h : m.Ready page) (hGeometry : Geometry params) (hWide : 5 ≤ params.blockW) :
    blockOf m.cacheRequest.addr = blockOf (m.physAddr page m.selReqIdx) :=
  h.blockOf_paddr hGeometry hWide (.inl h.selReqIdx_eq)

theorem correct_single (h : m.Ready page) (hGeometry : Geometry params) (hWide : 5 ≤ params.blockW)
    (hPair : m.inst.isPair = false) : m.Correct page mem := by
  have hSel := h.selReqIdx_eq
  have hSame := h.blockOf_cacheRequest hGeometry hWide
  have hSingle : m.singleAccessPair = false := by rw [singleAccessPair, hPair, Bool.false_and]
  have hOnly : ∀ k, m.Used k → k = 0 := fun k hUsed => hUsed.resolve_right (by simp [hPair])
  have hAligned := h.aligned hGeometry m.selReqIdx
  have hPlace : placeOf (m.physAddr page m.selReqIdx) = (params.blockAddrBits (m.inst.req m.selReqIdx).addr).toNat :=
    placeOf_physAddr hGeometry _
  have hPerform := perform_once mem (show m.needsSecondAccess = false by rw [needsSecondAccess, hPair]; rfl)
  constructor
  · rintro r hr place hEn
    rw [hPerform, List.mem_singleton] at hr
    subst hr
    obtain ⟨hStore, j, hj, hBlock, hAt⟩ := enabled_single hSingle hAligned hPlace hSame hEn
    exact ⟨_, ⟨hStore, m.selReqIdx, .inl hSel, j, hj, rfl⟩, hBlock, hAt⟩
  · intro hStore k hUsed
    rw [hOnly k hUsed, ← hSel, hPerform]
    exact (stored_single mem hStore hSingle hAligned hPlace hSame).stored
  · intro a ha
    rw [hPerform]
    cases hLoad : m.inst.isLoad with
    | true => rw [written_load hLoad]
    | false => exact (stored_single mem hLoad hSingle hAligned hPlace hSame).kept a (not_covers ha hLoad (.inl hSel))
  · intro hLoad k hUsed
    rw [hPerform, written_load hLoad]
    refine done_loads (fun k hUsed j hj => ?_) hLoad hUsed
    rw [hOnly k hUsed, memData, if_neg (by simp [hPair]), if_pos rfl]
    have hFirst := byteOf_alignedDataResp mem h.respPairIdx_eq (h.aligned hGeometry 0) (placeOf_physAddr hGeometry 0) hj
    rwa [hSame, hSel]
  · intro k hk
    rw [hPerform]
    exact done_unloaded hk

theorem correct_twice (h : m.Ready page) (hGeometry : Geometry params) (hWide : 5 ≤ params.blockW)
    (hPair : m.inst.isPair = true) (hTwice : m.blockMisaligned = true) : m.Correct page mem := by
  have hSel := h.selReqIdx_eq
  have hSame := h.blockOf_cacheRequest hGeometry hWide
  have hSingle : m.singleAccessPair = false := by rw [singleAccessPair, hTwice, Bool.not_true, Bool.and_false]
  have hAligned := h.aligned hGeometry
  have hPlace : ∀ k, placeOf (m.physAddr page k) = (params.blockAddrBits (m.inst.req k).addr).toNat := placeOf_physAddr hGeometry
  have hNeeds : m.needsSecondAccess = true := by rw [needsSecondAccess, hPair, hTwice, h.first]; rfl
  let after := m.cacheRequest.written mem
  let second := m.firstCompleted (after (blockOf m.cacheRequest.addr))
  let after' := second.cacheRequest.written after
  have hPerform : m.perform mem =
      ⟨[m.cacheRequest, second.cacheRequest], after', second.done (after' (blockOf second.cacheRequest.addr))⟩ := if_pos hNeeds
  have hSel' : second.selReqIdx = 1 := if_pos (by rw [secondAccessPair, Bool.and_eq_true]; exact ⟨hPair, rfl⟩)
  have hSingle' : second.singleAccessPair = false := hSingle
  have hPhys : second.physAddr page = m.physAddr page := funext (m.firstCompleted_physAddr _)
  have hAligned' : Aligned (second.physAddr page second.selReqIdx) second.bytes := by
    rw [hPhys]
    exact hAligned _
  have hReq : second.inst.req 1 = m.inst.req 1 := rfl
  have hPlace' : placeOf (second.physAddr page second.selReqIdx) =
      (params.blockAddrBits (second.inst.req second.selReqIdx).addr).toNat := by
    rw [hSel', hReq, hPhys]
    exact hPlace 1
  have hBlock' : blockOf second.cacheRequest.addr = blockOf (m.physAddr page 1) := by
    rw [← h.blockOf_paddr hGeometry hWide (k := 1) (.inr hPair), cacheRequest, hSel']
    rfl
  have hSame' : blockOf second.cacheRequest.addr = blockOf (second.physAddr page second.selReqIdx) := by
    rw [hBlock', hSel', hPhys]
  constructor
  · intro r hr place hEn
    rw [hPerform, List.mem_cons, List.mem_singleton] at hr
    rcases hr with rfl | rfl
    · obtain ⟨hStore, j, hj, hBlock, hAt⟩ := enabled_single hSingle (hAligned _) (hPlace _) hSame hEn
      exact ⟨_, ⟨hStore, m.selReqIdx, .inl hSel, j, hj, rfl⟩, hBlock, hAt⟩
    · obtain ⟨hStore, j, hj, hBlock, hAt⟩ := enabled_single hSingle' hAligned' hPlace' hSame' hEn
      exact ⟨_, ⟨hStore, second.selReqIdx, .inr hPair, j, hj, congrArg (· + _) (congrFun hPhys _)⟩, hBlock, hAt⟩
  · intro hStore k _ j hj
    rw [hPerform]
    have hFirst := stored_single mem hStore hSingle (hAligned _) (hPlace _) hSame
    have hSecond := stored_single (m := second) after hStore hSingle' hAligned' hPlace' hSame'
    rw [hSel] at hFirst
    rw [hSel', hReq, hPhys] at hSecond
    match k with
    | 0 => exact (hSecond.kept _ fun i hi => h.disjoint hGeometry hj hi).trans (hFirst.stored j hj)
    | 1 => exact hSecond.stored j hj
  · intro a ha
    rw [hPerform]
    cases hLoad : m.inst.isLoad with
    | true => rw [show after' = after from written_load (m := second) hLoad _, show after = mem from written_load hLoad _]
    | false =>
      have hFirst := stored_single mem hLoad hSingle (hAligned _) (hPlace _) hSame
      have hSecond := stored_single (m := second) after hLoad hSingle' hAligned' hPlace' hSame'
      rw [hSel', hPhys] at hSecond
      exact (hSecond.kept a (not_covers ha hLoad (.inr hPair))).trans (hFirst.kept a (not_covers ha hLoad (.inr hPair)))
  · intro hLoad k hUsed
    have hAfter : after = mem := written_load hLoad mem
    have hAfter' : after' = mem := (written_load (m := second) hLoad after).trans hAfter
    rw [hPerform, hAfter']
    have hAddr : blockOf m.cacheRequest.addr = blockOf (m.physAddr page 0) := hSel ▸ hSame
    have hBoth : ∀ k, second.memData (mem (blockOf (m.physAddr page 1))) k =
        if k = 0 then (m.alignedDataResp (mem (blockOf (m.physAddr page 0)))).setWidth 64
        else (second.alignedDataResp (mem (blockOf (m.physAddr page 1)))).setWidth 64 := by
      intro k
      rw [memData, if_pos (show second.inst.isPair = true from hPair), if_pos (show second.blockMisaligned = true from hTwice)]
      rw [← hAfter, ← hAddr]
      rfl
    have hBytes : ∀ k, ∀ j < m.bytes, byteOf (second.memData (mem (blockOf (m.physAddr page 1))) k) j =
        mem.byteAt (m.physAddr page k + BitVec.ofNat _ j) := by
      intro k j hj
      rw [hBoth]
      match k with
      | 0 => exact byteOf_alignedDataResp mem h.respPairIdx_eq (hAligned 0) (hPlace 0) hj
      | 1 =>
        rw [hSel'] at hAligned' hPlace'
        have hLast := byteOf_alignedDataResp mem (show second.respPairIdx = 1 from rfl) hAligned' hPlace' hj
        rwa [hPhys] at hLast
    rw [hBlock']
    rw [← hPhys] at hBytes ⊢
    match k with
    | 0 => exact done_loads (m := second) (fun k _ => hBytes k) hLoad hUsed
    | 1 => exact done_loads (m := second) (fun k _ => hBytes k) hLoad hUsed
  · intro k hk
    rw [hPerform]
    exact done_unloaded (m := second) hk

theorem next_place (h : m.Ready page) (hGeometry : Geometry params) (hPair : m.inst.isPair = true)
    (hSame : m.inst.overTwoBlocks params.blockW = false) :
    placeOf (m.physAddr page 1) = placeOf (m.physAddr page 0) + m.bytes ∧ blockOf (m.physAddr page 1) = blockOf (m.physAddr page 0) := by
  have hShift : (m.inst.req 0).addr >>> params.blockW = (m.inst.req 1).addr >>> params.blockW := by
    simpa [MInst.overTwoBlocks, hPair] using hSame
  have hBytes : m.bytes ≤ 8 := bytes_le
  have hNext : (m.inst.req 1).addr.toNat = ((m.inst.req 0).addr.toNat + m.bytes) % 2 ^ 64 := by
    rw [h.formed.second, BitVec.toNat_add, BitVec.toNat_ofNat, Nat.add_mod_mod, bytes]
  have hBlock : (m.inst.req 0).addr.toNat / 2 ^ params.blockW = (m.inst.req 1).addr.toNat / 2 ^ params.blockW := by
    simpa only [BitVec.toNat_ushiftRight, Nat.shiftRight_eq_div_pow] using congrArg BitVec.toNat hShift
  have hParts : 2 ^ params.blockW * 2 ^ (12 - params.blockW) = 4096 := by
    rw [← Nat.pow_add, Nat.add_sub_cancel' hGeometry.page]
  have hSmall : 2 ^ params.blockW ≤ 4096 := Nat.le_of_dvd (by decide) (Dvd.intro _ hParts)
  have hPage : (m.inst.req 0).addr.toNat / 4096 = (m.inst.req 1).addr.toNat / 4096 := by
    rw [← hParts, ← Nat.div_div_eq_div_mul, ← Nat.div_div_eq_div_mul, hBlock]
  have hSplit0 := Nat.div_add_mod (m.inst.req 0).addr.toNat (2 ^ params.blockW)
  have hSplit1 := Nat.div_add_mod (m.inst.req 1).addr.toNat (2 ^ params.blockW)
  rw [← hBlock] at hSplit1
  have hLt := (m.inst.req 0).addr.isLt
  have hAdd : (m.inst.req 1).addr.toNat = (m.inst.req 0).addr.toNat + m.bytes := by omega
  have hPlace : placeOf (m.physAddr page 1) = placeOf (m.physAddr page 0) + m.bytes := by
    rw [placeOf_physAddr hGeometry, placeOf_physAddr hGeometry, PipelineParams.blockAddrBits, PipelineParams.blockAddrBits,
      BitVec.extractLsb'_toNat, BitVec.extractLsb'_toNat, Nat.shiftRight_zero, Nat.shiftRight_zero]
    omega
  refine ⟨hPlace, ?_⟩
  have hSamePage : (m.inst.req 0).addr >>> 12 = (m.inst.req 1).addr >>> 12 := by
    apply BitVec.eq_of_toNat_eq
    simpa only [BitVec.toNat_ushiftRight, Nat.shiftRight_eq_div_pow] using hPage
  have hFar : (m.physAddr page 1).toNat = (m.physAddr page 0).toNat + m.bytes := by
    rw [physAddr, physAddr, toNat_inPage _ _ hGeometry, toNat_inPage _ _ hGeometry, hSamePage]
    omega
  have hPhys0 := Nat.div_add_mod (m.physAddr page 0).toNat (2 ^ params.blockW)
  have hPhys1 := Nat.div_add_mod (m.physAddr page 1).toNat (2 ^ params.blockW)
  rw [placeOf, placeOf] at hPlace
  exact Nat.eq_of_mul_eq_mul_left (Nat.two_pow_pos params.blockW) (show _ * (_ / _) = _ * (_ / _) by omega)

end Ready

/-- The bytes that the first register of a pair has above those it stores change none of the second. -/
def NoSpill (m : MemPending params Λ) : Prop :=
  ∀ j < m.bytes, byteOf (m.inst.req 1).data j ||| byteOf (m.inst.req 0).data (m.bytes + j) = byteOf (m.inst.req 1).data j

instance : Decidable m.NoSpill := inferInstanceAs (Decidable (∀ j < _, _))

/-- A pair whose registers are accessed together, which the test of the unit never lets happen. -/
theorem Ready.correct_once_iff (h : m.Ready page) (hGeometry : Geometry params) (hWide : 5 ≤ params.blockW)
    (hPair : m.inst.isPair = true) (hSame : m.inst.overTwoBlocks params.blockW = false) (hOnce : m.blockMisaligned = false) :
    (∀ mem, m.Correct page mem) ↔ (m.inst.isLoad = false → m.NoSpill) := by
  have hSel := h.selReqIdx_eq
  have hSingle : m.singleAccessPair = true := by rw [singleAccessPair, hPair, hOnce]; rfl
  have hAligned := h.aligned hGeometry
  have hPlace : ∀ k, placeOf (m.physAddr page k) = (params.blockAddrBits (m.inst.req k).addr).toNat := placeOf_physAddr hGeometry
  obtain ⟨hNext, hBlock⟩ := h.next_place hGeometry hPair hSame
  have hAddr : blockOf m.cacheRequest.addr = blockOf (m.physAddr page 0) := hSel ▸ h.blockOf_cacheRequest hGeometry hWide
  have hUsed : ∀ k, m.Used k := fun _ => .inr hPair
  have hPerform := fun mem => m.perform_once mem (show m.needsSecondAccess = false by
    rw [needsSecondAccess, hOnce, Bool.and_false, Bool.false_and])
  constructor
  · intro hAll hStore j hj
    obtain ⟨-, hSecond, -⟩ := stored_pair (fun _ => 0) hStore hSingle hSel hAligned hPlace hNext hBlock hAddr
    have hStored := (hAll fun _ => 0).stored hStore 1 (hUsed 1) j hj
    rw [hPerform] at hStored
    exact (hSecond j hj).symm.trans hStored
  · intro hNoSpill mem
    constructor
    · intro r hr place hEn
      rw [hPerform, List.mem_singleton] at hr
      subst hr
      have hStore : m.inst.isLoad = false := (getLsbD_wEn.mp hEn).1
      obtain ⟨-, -, hPlaces, -⟩ := stored_pair mem hStore hSingle hSel hAligned hPlace hNext hBlock hAddr
      obtain ⟨k, j, hj, hAt⟩ := hPlaces place hEn
      exact ⟨_, ⟨hStore, k, hUsed k, j, hj, rfl⟩, hAt⟩
    · intro hStore k _ j hj
      obtain ⟨hFirst, hSecond, -⟩ := stored_pair mem hStore hSingle hSel hAligned hPlace hNext hBlock hAddr
      rw [hPerform]
      match k with
      | 0 => exact hFirst j hj
      | 1 => exact (hSecond j hj).trans (hNoSpill hStore j hj)
    · intro a ha
      rw [hPerform]
      cases hLoad : m.inst.isLoad with
      | true => rw [written_load hLoad]
      | false =>
        obtain ⟨-, -, -, hKept⟩ := stored_pair mem hLoad hSingle hSel hAligned hPlace hNext hBlock hAddr
        exact hKept a fun k => not_covers ha hLoad (hUsed k)
    · intro hLoad k hk
      rw [hPerform, written_load hLoad, hAddr]
      refine done_loads (fun k _ j hj => ?_) hLoad hk
      have hWord : m.bytes ≤ 8 := bytes_le
      rw [memData, if_pos hPair, hOnce, if_neg Bool.false_ne_true]
      match k with
      | 0 => exact byteOf_alignedDataResp mem h.respPairIdx_eq (hAligned 0) (hPlace 0) hj
      | 1 =>
        rw [if_neg (by decide), byteOf_setWidth _ (by omega), alignedDataResp, h.respPairIdx_eq, ← hPlace 0, ← bytes,
          byteOf_ushiftRight, byteOf_ushiftRight, Memory.byteAt, (hAligned 1).blockOf_add hj, (hAligned 1).placeOf_add hj,
          hBlock, hNext, Nat.add_assoc]
    · intro k hk
      rw [hPerform]
      exact done_unloaded hk

end Perform

section DataPath

/-- The flag is the one that the unit computes when it makes the pending request. -/
def Flagged (m : MemPending params Λ) : Prop :=
  m.blockMisaligned = (m.inst.isPairPageMisaligned || MemoryUnit.isBlockMisaligned (m.paddr 0).bits (m.paddr 1).bits)

theorem flagged_cacheReqPacked (u : MemoryUnit params Λ) (resp : PipeTLBResp params Λ) : (u.cacheReqPacked resp).Flagged := rfl

/-- The instruction does what it is to do, and the way it is done leaves what two accesses leave. -/
structure DataPath (m : MemPending params Λ) (page : Word → params.PAddr) : Prop where
  correct : ∀ mem, m.Correct page mem
  memory : ∀ mem a, (m.perform mem).memory.byteAt a = (m.inTwoAccesses.perform mem).memory.byteAt a
  registers : ∀ mem k, (m.perform mem).commit.rd k = (m.inTwoAccesses.perform mem).commit.rd k ∧
    ((m.perform mem).commit.rd k ≠ none → (m.perform mem).commit.res k = (m.inTwoAccesses.perform mem).commit.res k)

theorem Correct.memory_eq {mem : Memory params} (hOne : m.Correct page mem) (hTwo : m.inTwoAccesses.Correct page mem)
    (a : params.PAddr) :
    (m.perform mem).memory.byteAt a = (m.inTwoAccesses.perform mem).memory.byteAt a := by
  by_cases hCovers : m.Covers page a
  · obtain ⟨hStore, k, hUsed, j, hj, rfl⟩ := hCovers
    exact (hOne.stored hStore k hUsed j hj).trans (hTwo.stored hStore k hUsed j hj).symm
  · exact (hOne.kept a hCovers).trans (hTwo.kept a hCovers).symm

theorem perform_writeback (m : MemPending params Λ) (mem : Memory params) :
    (m.perform mem).commit.rd 0 = m.inst.rd ∧ (m.perform mem).commit.res 0 = m.inst.rdRes := by
  rw [perform]
  split <;> exact ⟨rfl, rfl⟩

theorem Correct.registers_eq {mem : Memory params} (hOne : m.Correct page mem) (hTwo : m.inTwoAccesses.Correct page mem)
    (k : Fin 3) : (m.perform mem).commit.rd k = (m.inTwoAccesses.perform mem).commit.rd k ∧
      ((m.perform mem).commit.rd k ≠ none →
        (m.perform mem).commit.res k = (m.inTwoAccesses.perform mem).commit.res k) := by
  cases k using Fin.cases with
  | zero =>
    obtain ⟨hRd, hRes⟩ := m.perform_writeback mem
    obtain ⟨hRd', hRes'⟩ := m.inTwoAccesses.perform_writeback mem
    exact ⟨hRd.trans hRd'.symm, fun _ => hRes.trans hRes'.symm⟩
  | succ k =>
    by_cases hLoads : m.inst.isLoad = true ∧ m.Used k
    · obtain ⟨hRd, hRes⟩ := hOne.loaded hLoads.1 k hLoads.2
      obtain ⟨hRd', hRes'⟩ := hTwo.loaded hLoads.1 k hLoads.2
      exact ⟨hRd.trans hRd'.symm, fun _ => hRes.trans hRes'.symm⟩
    · have hNone := hOne.unloaded k hLoads
      exact ⟨hNone.trans (hTwo.unloaded k hLoads).symm, fun hSome => absurd hNone hSome⟩

theorem physAddr_mod (hGeometry : Geometry params) (k : Fin 2) :
    (m.physAddr page k).toNat % 32 = (m.inst.req k).addr.toNat % 32 := by
  have hPage := inPage_mod (page ((m.inst.req k).addr >>> 12)) (m.inst.req k).addr hGeometry
  rw [physAddr]
  omega

/-- Neither the address one access further nor that one with the bit of the size set is the first address. -/
theorem next_ne (s : Fin 4) (b : Fin 32) : b.val % 2 ^ s.val = 0 →
    b.val ≠ (b.val + 2 ^ s.val) % 32 ∧ b.val ≠ 2 ^ s.val ||| (b.val + 2 ^ s.val) % 32 := by
  revert s b
  decide +kernel

namespace Ready

theorem inTwoAccesses (h : m.Ready page) : m.inTwoAccesses.Ready page := ⟨h.formed, h.first, h.paddr0, h.paddr1⟩

/-- The test of the memory unit compares the places in the blocks, which are never those of the same byte. -/
theorem isBlockMisaligned (h : m.Ready page) (hGeometry : Geometry params) (hWide : 5 ≤ params.blockW)
    (hPair : m.inst.isPair = true) : MemoryUnit.isBlockMisaligned (m.paddr 0).bits (m.paddr 1).bits = true := by
  rw [MemoryUnit.isBlockMisaligned, decide_eq_true_iff]
  intro hEq
  have hLow : (m.paddr 0).bits.toNat % 32 = (m.paddr 1).bits.toNat % 32 := by
    have hNat := congrArg BitVec.toNat hEq
    rw [PipelineParams.blockAddrBits, PipelineParams.blockAddrBits, BitVec.extractLsb'_toNat, BitVec.extractLsb'_toNat,
      Nat.shiftRight_zero, Nat.shiftRight_zero] at hNat
    have hDvd : 32 ∣ 2 ^ params.blockW := Nat.pow_dvd_pow 2 hWide
    rw [← Nat.mod_mod_of_dvd _ hDvd, hNat, Nat.mod_mod_of_dvd _ hDvd]
  have hSize : m.inst.size.toNat < 4 := m.inst.size.isLt
  have hDvd : 2 ^ m.inst.size.toNat ∣ 32 := Nat.pow_dvd_pow 2 (show _ ≤ 5 by omega)
  have hAligned : (m.inst.req 0).addr.toNat % 32 % 2 ^ m.inst.size.toNat = 0 := by
    rw [Nat.mod_mod_of_dvd _ hDvd, h.formed.aligned]
  have hNext : (m.inst.req 1).addr.toNat % 32 = ((m.inst.req 0).addr.toNat % 32 + 2 ^ m.inst.size.toNat) % 32 := by
    rw [h.formed.second, BitVec.toNat_add, BitVec.toNat_ofNat]
    omega
  obtain ⟨hFurther, hWithBit⟩ := next_ne ⟨_, hSize⟩ ⟨_, Nat.mod_lt _ (by decide)⟩ hAligned
  dsimp only at hFurther hWithBit
  rw [h.paddr0, physAddr_mod hGeometry, h.paddr1 hPair] at hLow
  split at hLow
  · rw [physAddr_mod hGeometry, hNext] at hLow
    exact hFurther hLow
  · refine hWithBit ?_
    have hSmall : 2 ^ m.inst.size.toNat < 32 := Nat.pow_lt_pow_right (by decide) (show _ < 5 by omega)
    have hOr := @Nat.or_mod_two_pow (2 ^ m.inst.size.toNat) (m.physAddr page 1).toNat 5
    change _ % 32 = _ % 32 ||| _ % 32 at hOr
    rw [BitVec.or_comm, WatchedMemory.toNat_shift_or hGeometry.memory, hOr, Nat.mod_eq_of_lt hSmall, physAddr_mod hGeometry,
      hNext] at hLow
    exact hLow

end Ready

/-- Every aligned pair is done in two accesses. -/
theorem Flagged.blockMisaligned (hFlag : m.Flagged) (h : m.Ready page) (hGeometry : Geometry params) (hWide : 5 ≤ params.blockW)
    (hPair : m.inst.isPair = true) : m.blockMisaligned = true := by
  rw [hFlag, h.isBlockMisaligned hGeometry hWide hPair, Bool.or_true]

/-- Every aligned instruction is done as it is to be, the way the unit chooses. -/
theorem data_path (h : m.Ready page) (hFlag : m.Flagged) (hGeometry : Geometry params) (hWide : 5 ≤ params.blockW) :
    m.DataPath page := by
  have hBoth : ∀ mem, m.Correct page mem ∧ m.inTwoAccesses.Correct page mem := by
    intro mem
    cases hPair : m.inst.isPair with
    | false => exact ⟨h.correct_single mem hGeometry hWide hPair, h.inTwoAccesses.correct_single mem hGeometry hWide hPair⟩
    | true =>
      exact ⟨h.correct_twice mem hGeometry hWide hPair (hFlag.blockMisaligned h hGeometry hWide hPair),
        h.inTwoAccesses.correct_twice mem hGeometry hWide hPair rfl⟩
  exact ⟨fun mem => (hBoth mem).1, fun mem => (hBoth mem).1.memory_eq (hBoth mem).2,
    fun mem => (hBoth mem).1.registers_eq (hBoth mem).2⟩

theorem ready_cacheReqPacked {u : MemoryUnit params Λ} {resp : PipeTLBResp params Λ} (hFormed : u.tlbMeta.Formed)
    (hOnePage : u.tlbMeta.overTwoPages = false) (hPage : params.IsPage resp.addr)
    (hHead : ∀ k, params.pageOffset (u.head.req k).addr = params.pageOffset (u.tlbMeta.req k).addr) :
    (u.cacheReqPacked resp).Ready fun _ => resp.addr := by
  obtain ⟨h0, h1⟩ := WatchedMemory.paddr_of_onePage hOnePage resp hPage
  refine ⟨hFormed, rfl, ?_, fun _ => ?_⟩
  · change (u.paddr resp 0).bits = params.inPage resp.addr (u.tlbMeta.req 0).addr
    rw [h0, hHead, WatchedMemory.or_pageOffset hPage]
  · change (u.paddr resp 1).bits = if u.tlbMeta.overTwoPages then params.inPage resp.addr (u.tlbMeta.req 1).addr
      else params.inPage resp.addr (u.tlbMeta.req 1).addr ||| _
    rw [h1, hHead, hOnePage, if_neg Bool.false_ne_true, ← WatchedMemory.or_pageOffset hPage,
      BitVec.or_comm (_ <<< _), BitVec.or_assoc]
    rfl

/-- Blocks of 64 bytes and addresses of 36 bits. -/
abbrev platform : PipelineParams := ⟨5, 36, 6⟩

theorem platform_geometry : Geometry platform := ⟨by decide, by decide, by decide⟩

def wordPair (isLoad : Bool) (addr first second : Word) (tag : BitVec 5) : MInst platform.thidW :=
  ⟨2, true, isLoad, true, false, fun k => if k = 0 then ⟨addr, first, 0⟩ else ⟨addr + 4, second, 1⟩, 0, none, tag⟩

/-- Two threads access the same addresses, and the pair of the first one is under translation. -/
def translatingPair (isLoad : Bool) (addr first second : Word) : MemoryUnit platform Unit :=
  (MemoryUnit.machine platform Unit).run (.reset ⟨fun _ => wordPair true 0 0 0 0, wordPair true 0 0 0 0, ⟨0, ()⟩⟩)
    [⟨some (wordPair isLoad addr first second 0), true, none, true, none, true, ⟨false, false⟩⟩,
      ⟨some (wordPair isLoad addr first second 1), true, none, true, none, true, ⟨false, false⟩⟩]

/-- The first register stored is wider than its four bytes; the pair loaded lies in two blocks. -/
theorem data_path_pairs :
    ((translatingPair false 0x1008 0x100000000 0).cacheReqPacked ⟨0x3000, true, false, ()⟩).DataPath (fun _ => 0x3000) ∧
      ((translatingPair true 0x103c 0 0).cacheReqPacked ⟨0x3000, true, false, ()⟩).DataPath (fun _ => 0x3000) :=
  ⟨data_path (ready_cacheReqPacked (by decide +kernel) (by decide +kernel) (by decide +kernel) (by decide +kernel))
      (flagged_cacheReqPacked _ _) platform_geometry (by decide),
    data_path (ready_cacheReqPacked (by decide +kernel) (by decide +kernel) (by decide +kernel) (by decide +kernel))
      (flagged_cacheReqPacked _ _) platform_geometry (by decide)⟩

end DataPath

end MemPending

end KnockoutKraken.Armflex
