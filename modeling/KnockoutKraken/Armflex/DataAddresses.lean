import KnockoutKraken.Armflex.LDSTUnit

/-!
# The physical addresses of memory instructions

The memory unit is watched together with the translations it asked for.
The metadata come from a register and the offsets from the head of the
request queue, which may be another instruction when the answer comes.
No allowed hit leads to the right request: for the instructions of the
load and store unit the test for two blocks compares places that differ.
-/

namespace KnockoutKraken.Armflex

open Library Util

universe v

namespace MInst

variable {thidW : Nat} (inst : MInst thidW)

def overTwoPages : Bool := inst.isPair && decide ((inst.req 0).addr >>> 12 ≠ (inst.req 1).addr >>> 12)

def overTwoBlocks (blockW : Nat) : Bool :=
  inst.isPair && decide ((inst.req 0).addr >>> blockW ≠ (inst.req 1).addr >>> blockW)

variable {inst}

variable (inst) in
/-- An aligned instruction as the load and store unit makes it: its second address is one access further. -/
structure Formed : Prop where
  aligned : (inst.req 0).addr.toNat % 2 ^ inst.size.toNat = 0
  second : (inst.req 1).addr = (inst.req 0).addr + BitVec.ofNat 64 (2 ^ inst.size.toNat)

instance : Decidable inst.Formed := decidable_of_iff (_ ∧ _) ⟨fun ⟨hA, hS⟩ => ⟨hA, hS⟩, fun h => ⟨h.aligned, h.second⟩⟩

variable (inst) in
/-- The addresses of a memory cell that was never written. -/
def Blank : Prop := (inst.req 0).addr = 0 ∧ (inst.req 1).addr = 0

instance : Decidable inst.Blank := inferInstanceAs (Decidable (_ ∧ _))

theorem not_isPairPageMisaligned (h : inst.overTwoPages = false) : inst.isPairPageMisaligned = false := by
  rw [overTwoPages, Bool.and_eq_false_iff] at h
  rw [isPairPageMisaligned, Bool.and_eq_false_iff]
  refine h.imp_right fun hSame => ?_
  have hBit := congrArg (fun page : Word => page.getLsbD 0) (of_decide_eq_false hSame |> not_not.mp)
  simpa [BitVec.getLsbD_ushiftRight] using hBit

end MInst

theorem LDSTUnit.isAlignedMem_iff {size : BitVec 2} {addr : Word} :
    isAlignedMem size addr = true ↔ addr.toNat % 2 ^ size.toNat = 0 := by
  have hLow : ∀ k, addr.setWidth k = 0 ↔ addr.toNat % 2 ^ k = 0 := fun k => by
    rw [← BitVec.toNat_inj, BitVec.toNat_setWidth]
    rfl
  obtain rfl | rfl | rfl | rfl : size = 0 ∨ size = 1 ∨ size = 2 ∨ size = 3 := by
    revert size
    decide
  · exact iff_of_true rfl (Nat.mod_one _)
  · exact beq_iff_eq.trans (hLow 1)
  · exact beq_iff_eq.trans (hLow 2)
  · exact beq_iff_eq.trans (hLow 3)

theorem LDSTUnit.minst_formed {thidW : Nat} {dinst : DInst} {rVal : Fin 3 → Word} (tag : BitVec thidW)
    (h : unalignedExcp dinst rVal = false) : (minst dinst rVal tag).Formed where
  aligned := by
    rw [unalignedExcp, Bool.or_eq_false_iff, Bool.not_eq_false'] at h
    exact isAlignedMem_iff.mp h.1
  second := rfl

structure WatchedMemory (params : PipelineParams) where
  unit : MemoryUnit params Unit
  /-- The instructions under translation, with the half that is translated. -/
  translating : List (MInst params.thidW × Fin 2)
  firstPage : params.PAddr

namespace WatchedMemory

open MemoryUnit STLBState

variable {params : PipelineParams} (s : WatchedMemory params) (i : MemoryUnit.Input params Unit)

def requested : MInst params.thidW × Fin 2 := (s.unit.head, if s.unit.sTLBState = pairReq then 1 else 0)

def next : WatchedMemory params where
  unit := s.unit.next i
  translating := (if i.tlbResp.isSome then s.translating.tail else s.translating) ++
    if s.unit.tlbReqFire i then [s.requested] else []
  firstPage := (i.tlbResp.map PipeTLBResp.addr).getD s.firstPage

def machine (params : PipelineParams) : Machine (WatchedMemory params) (MemoryUnit.Input params Unit) (MemoryUnit.Output params Unit) :=
  ⟨next, fun s i => (MemoryUnit.machine params Unit).output s.unit i⟩

def reset (c : Contents params Unit) : WatchedMemory params := ⟨.reset c, [], 0⟩

structure Answers : Prop where
  asked : i.tlbResp.isSome = true → s.translating ≠ []
  page : ∀ resp ∈ i.tlbResp, params.IsPage resp.addr

/-- The instruction with all its translations, when the last one hits in this cycle and is allowed. -/
def translated : Option (MInst params.thidW × (Fin 2 → params.PAddr)) :=
  (i.tlbResp.filter fun resp => !ditched resp).bind fun resp => s.translating.head?.bind fun (inst, k) =>
    if inst.overTwoPages then if k = 1 then some (inst, fun k => if k = 0 then s.firstPage else resp.addr) else none
    else some (inst, fun _ => resp.addr)

/-- The pending cache request that an instruction on these pages is to become. -/
structure Addressed (inst : MInst params.thidW) (page : Fin 2 → params.PAddr) (m : MemPending params Unit) : Prop where
  carried : m.inst = inst
  first : m.firstIsCompleted = false
  paddr0 : (m.paddr 0).bits = params.inPage (page 0) (inst.req 0).addr
  paddr1 : inst.isPair = true → (m.paddr 1).bits = params.inPage (page 1) (inst.req 1).addr
  blockMisaligned : m.blockMisaligned = inst.overTwoBlocks params.blockW

def hits : Bool := i.tlbResp.any fun resp => !ditched resp

/-- Every allowed hit is taken, and a pending request comes exactly from an instruction that is translated. -/
structure Right : Prop where
  taken : hits i = true → s.unit.tlbRespFire i = i.tlbResp
  onlyFor : s.translated i = none → s.unit.cacheReqEnq i = none
  produced : ∀ t ∈ s.translated i, ∃ m ∈ s.unit.cacheReqEnq i, Addressed t.1 t.2 m

/-- The offsets of the two addresses that are put together are those of the instruction in the register. -/
structure Shown (u : MemoryUnit params Unit) : Prop where
  offset0 : params.pageOffset (u.head.req 0).addr = params.pageOffset (u.tlbMeta.req 0).addr
  offset1 : u.tlbMeta.isPair = true → BitVec.ofNat params.pAddrW 1 <<< u.tlbMeta.size.toNat |||
    params.pageOffset (u.head.req 1).addr = params.pageOffset (u.tlbMeta.req 1).addr
  block : isBlockMisaligned (params.pageOffset (u.head.req 0).addr)
    (BitVec.ofNat params.pAddrW 1 <<< u.tlbMeta.size.toNat ||| params.pageOffset (u.head.req 1).addr) =
      u.tlbMeta.overTwoBlocks params.blockW

instance : Decidable (s.Answers i) :=
  decidable_of_iff ((i.tlbResp.isSome = true → s.translating ≠ []) ∧ ∀ resp ∈ i.tlbResp, params.IsPage resp.addr)
    ⟨fun ⟨hA, hP⟩ => ⟨hA, hP⟩, fun h => ⟨h.asked, h.page⟩⟩

instance (inst : MInst params.thidW) (page : Fin 2 → params.PAddr) (m : MemPending params Unit) :
    Decidable (Addressed inst page m) :=
  decidable_of_iff (m.inst = inst ∧ m.firstIsCompleted = false ∧
    (m.paddr 0).bits = params.inPage (page 0) (inst.req 0).addr ∧
    (inst.isPair = true → (m.paddr 1).bits = params.inPage (page 1) (inst.req 1).addr) ∧
    m.blockMisaligned = inst.overTwoBlocks params.blockW)
    ⟨fun ⟨hC, hF, h0, h1, hB⟩ => ⟨hC, hF, h0, h1, hB⟩, fun h => ⟨h.carried, h.first, h.paddr0, h.paddr1, h.blockMisaligned⟩⟩

instance : Decidable (s.Right i) :=
  decidable_of_iff ((hits i = true → s.unit.tlbRespFire i = i.tlbResp) ∧
    ((s.translated i).isNone = true → (s.unit.cacheReqEnq i).isNone = true) ∧
    ((s.translated i).all fun t => (s.unit.cacheReqEnq i).any fun m => decide (Addressed t.1 t.2 m)) = true)
    ⟨fun ⟨hT, hN, hS⟩ => ⟨hT, by simpa using hN, fun t ht => by
      have hAny := (Option.all_eq_true _ _).mp hS t ht
      obtain ⟨m, hm, hAddressed⟩ := (Option.any_eq_true _ _).mp hAny
      exact ⟨m, hm, of_decide_eq_true hAddressed⟩⟩,
    fun h => ⟨h.taken, by simpa using h.onlyFor, (Option.all_eq_true _ _).mpr fun t ht => (Option.any_eq_true _ _).mpr (by
      obtain ⟨m, hm, hAddressed⟩ := h.produced t ht
      exact ⟨m, hm, decide_eq_true hAddressed⟩)⟩⟩

structure Inv : Prop where
  state : s.unit.sTLBState ≠ pairReq
  cells : ∀ cell, (s.unit.tlbReqQ.ram cell).Formed ∨ (s.unit.tlbReqQ.ram cell).Blank
  items : ∀ inst ∈ s.unit.tlbReqQ.items, inst.Formed
  translating : ∀ t ∈ s.translating, t.1.Formed ∧ t.2 = 0

variable {s} {i}

theorem page_and_shift {page : params.PAddr} (hPage : params.IsPage page) (size : BitVec 2) :
    page &&& BitVec.ofNat params.pAddrW 1 <<< size.toNat = 0 := by
  have hSize := size.isLt
  rw [← show page >>> 12 <<< 12 = page from hPage]
  apply BitVec.eq_of_getLsbD_eq
  intro j hj
  rw [BitVec.getLsbD_and, BitVec.getLsbD_shiftLeft, BitVec.getLsbD_shiftLeft, BitVec.getLsbD_ofNat]
  by_cases hLow : j < 12
  · simp [hLow]
  · have hNot : (1 : Nat).testBit (j - size.toNat) = false :=
      Nat.testBit_lt_two_pow (Nat.one_lt_two_pow (by omega))
    simp [hNot]

theorem page_add_shift {page : params.PAddr} (hPage : params.IsPage page) (size : BitVec 2) :
    page + BitVec.ofNat params.pAddrW 1 <<< size.toNat = page ||| BitVec.ofNat params.pAddrW 1 <<< size.toNat :=
  BitVec.add_eq_or_of_and_eq_zero _ _ (page_and_shift hPage size)

theorem or_pageOffset {page : params.PAddr} (hPage : params.IsPage page) (addr : Word) :
    page ||| params.pageOffset addr = params.inPage page addr := by
  rw [PipelineParams.inPage, show page >>> 12 <<< 12 = page from hPage]

/-- The place in a block does not depend on the page. -/
theorem blockAddrBits_page_or {page : params.PAddr} (hPage : params.IsPage page) (hBlock : params.blockW ≤ 12)
    (offset : params.PAddr) : params.blockAddrBits (page ||| offset) = params.blockAddrBits offset := by
  rw [← show page >>> 12 <<< 12 = page from hPage]
  apply BitVec.eq_of_getLsbD_eq
  intro j hj
  rw [PipelineParams.blockAddrBits, PipelineParams.blockAddrBits, BitVec.getLsbD_extractLsb', BitVec.getLsbD_extractLsb',
    BitVec.getLsbD_or, BitVec.getLsbD_shiftLeft]
  simp [hj, show j < 12 by omega]

theorem paddr_of_onePage {Λ : Type v} {u : MemoryUnit params Λ} (hPage : u.tlbMeta.overTwoPages = false)
    (resp : PipeTLBResp params Λ) (hAligned : params.IsPage resp.addr) :
    (u.paddr resp 0).bits = resp.addr ||| params.pageOffset (u.head.req 0).addr ∧
      (u.paddr resp 1).bits = resp.addr |||
        (BitVec.ofNat params.pAddrW 1 <<< u.tlbMeta.size.toNat ||| params.pageOffset (u.head.req 1).addr) := by
  have hNot := MInst.not_isPairPageMisaligned hPage
  constructor
  · simp [paddr, hNot]
  · rw [← BitVec.or_assoc, ← page_add_shift hAligned]
    simp [paddr, hNot]

theorem pageOffset_high (addr : Word) {j : Nat} (hHigh : 12 ≤ j) : (params.pageOffset addr).getLsbD j = false := by
  rw [PipelineParams.pageOffset, BitVec.getLsbD_setWidth, BitVec.getLsbD_extractLsb']
  simp [Nat.not_lt.mpr hHigh]

theorem shift_or_pageOffset_high (size : BitVec 2) (addr : Word) {j : Nat} (hHigh : 12 ≤ j) :
    (BitVec.ofNat params.pAddrW 1 <<< size.toNat ||| params.pageOffset addr).getLsbD j = false := by
  have hSize := size.isLt
  have hNot : (1 : Nat).testBit (j - size.toNat) = false := Nat.testBit_lt_two_pow (Nat.one_lt_two_pow (by omega))
  rw [BitVec.getLsbD_or, pageOffset_high addr hHigh, BitVec.getLsbD_shiftLeft, BitVec.getLsbD_ofNat, hNot]
  simp

theorem page_or_inj {page a b : params.PAddr} (hPage : params.IsPage page) (ha : ∀ j, 12 ≤ j → a.getLsbD j = false)
    (hb : ∀ j, 12 ≤ j → b.getLsbD j = false) : page ||| a = page ||| b ↔ a = b := by
  constructor
  · intro hEq
    apply BitVec.eq_of_getLsbD_eq
    intro j hj
    rcases Nat.lt_or_ge j 12 with hLow | hHigh
    · have hZero : page.getLsbD j = false := by
        rw [← show page >>> 12 <<< 12 = page from hPage, BitVec.getLsbD_shiftLeft]
        simp [hLow]
      have hBit := congrArg (fun bits : params.PAddr => bits.getLsbD j) hEq
      simpa [BitVec.getLsbD_or, hZero] using hBit
    · rw [ha j hHigh, hb j hHigh]
  · rintro rfl
    rfl

/-- The pending request is the one that the translation asks for exactly when the offsets are its own. -/
theorem addressed_iff {u : MemoryUnit params Unit} (hBlock : params.blockW ≤ 12)
    (hPage : u.tlbMeta.overTwoPages = false) {resp : PipeTLBResp params Unit} (hAligned : params.IsPage resp.addr) :
    Addressed u.tlbMeta (fun _ => resp.addr) (u.cacheReqPacked resp) ↔ Shown u := by
  obtain ⟨h0, h1⟩ := paddr_of_onePage hPage resp hAligned
  have hFirst : ((u.cacheReqPacked resp).paddr 0).bits = params.inPage resp.addr (u.tlbMeta.req 0).addr ↔
      params.pageOffset (u.head.req 0).addr = params.pageOffset (u.tlbMeta.req 0).addr := by
    change (u.paddr resp 0).bits = _ ↔ _
    rw [h0, ← or_pageOffset hAligned]
    exact page_or_inj hAligned (fun _ => pageOffset_high _) fun _ => pageOffset_high _
  have hSecond : ((u.cacheReqPacked resp).paddr 1).bits = params.inPage resp.addr (u.tlbMeta.req 1).addr ↔
      BitVec.ofNat params.pAddrW 1 <<< u.tlbMeta.size.toNat ||| params.pageOffset (u.head.req 1).addr =
        params.pageOffset (u.tlbMeta.req 1).addr := by
    change (u.paddr resp 1).bits = _ ↔ _
    rw [h1, ← or_pageOffset hAligned]
    exact page_or_inj hAligned (fun _ => shift_or_pageOffset_high _ _) fun _ => pageOffset_high _
  have hMisaligned : (u.cacheReqPacked resp).blockMisaligned = isBlockMisaligned (params.pageOffset (u.head.req 0).addr)
      (BitVec.ofNat params.pAddrW 1 <<< u.tlbMeta.size.toNat ||| params.pageOffset (u.head.req 1).addr) := by
    rw [cacheReqPacked, MInst.not_isPairPageMisaligned hPage, Bool.false_or, isBlockMisaligned, isBlockMisaligned,
      h0, h1, blockAddrBits_page_or hAligned hBlock, blockAddrBits_page_or hAligned hBlock]
  constructor
  · rintro ⟨-, -, hPaddr0, hPaddr1, hSet⟩
    exact ⟨hFirst.mp hPaddr0, fun hPair => hSecond.mp (hPaddr1 hPair), hMisaligned ▸ hSet⟩
  · rintro ⟨hOffset0, hOffset1, hSet⟩
    exact ⟨rfl, rfl, hFirst.mpr hOffset0, fun hPair => hSecond.mpr (hOffset1 hPair), hMisaligned ▸ hSet⟩

section Formed

theorem toNat_pageOffset (hWide : 12 ≤ params.pAddrW) (addr : Word) : (params.pageOffset addr).toNat = addr.toNat % 4096 := by
  have hLt : addr.toNat % 2 ^ 12 < 2 ^ params.pAddrW :=
    (Nat.mod_lt _ (by decide)).trans_le (Nat.pow_le_pow_right (by decide) hWide)
  rw [PipelineParams.pageOffset, BitVec.toNat_setWidth, BitVec.extractLsb'_toNat, Nat.shiftRight_zero, Nat.mod_eq_of_lt hLt]
  rfl

theorem toNat_blockAddrBits (hBlock : params.blockW = 6) (addr : params.PAddr) :
    (params.blockAddrBits addr).toNat = addr.toNat % 64 := by
  rw [PipelineParams.blockAddrBits, BitVec.extractLsb'_toNat, Nat.shiftRight_zero, hBlock]

theorem toNat_shift_or (hWide : 12 ≤ params.pAddrW) (size : BitVec 2) (x : params.PAddr) :
    (BitVec.ofNat params.pAddrW 1 <<< size.toNat ||| x).toNat = 2 ^ size.toNat ||| x.toNat := by
  have hSize := size.isLt
  have hPow : 2 ^ size.toNat < 2 ^ params.pAddrW := Nat.pow_lt_pow_right (by decide) (by omega)
  have hOne : 1 < 2 ^ params.pAddrW := Nat.one_lt_two_pow (by omega)
  rw [BitVec.toNat_or, BitVec.toNat_shiftLeft, BitVec.toNat_ofNat, Nat.mod_eq_of_lt hOne, Nat.shiftLeft_eq, Nat.one_mul,
    Nat.mod_eq_of_lt hPow]

/-- Setting the bit of the access size never turns the place of the second access into that of the first, nor
into the start of the next block. -/
theorem shift_or_ne (s t : Fin 4) (b : Fin 64) : b.val % 2 ^ s.val = 0 → b.val % 2 ^ t.val = 0 →
    b.val ≠ 2 ^ s.val ||| (b.val + 2 ^ t.val) % 64 ∧
      (64 ≤ b.val + 2 ^ s.val → 2 ^ s.val ||| (b.val + 2 ^ t.val) % 64 ≠ (b.val + 2 ^ s.val) % 64) := by
  revert s t b
  decide +kernel

/-- The test for two blocks compares places that differ for every head of the queue. -/
theorem not_shown_of_blank {u : MemoryUnit params Unit} (hBlock : params.blockW = 6) (hWide : 12 ≤ params.pAddrW)
    (hMeta : u.tlbMeta.Formed) (hHead : u.head.Blank) : ¬ Shown u := by
  intro h
  obtain ⟨hZero, hZero'⟩ := hHead
  have hPow : 2 ^ u.tlbMeta.size.toNat ≤ 2 ^ 3 := Nat.pow_le_pow_right (by decide) (Nat.le_of_lt_succ u.tlbMeta.size.isLt)
  have hPos : 0 < 2 ^ u.tlbMeta.size.toNat := Nat.two_pow_pos _
  have hStart := congrArg BitVec.toNat h.offset0
  rw [toNat_pageOffset hWide, toNat_pageOffset hWide, hZero] at hStart
  have hMisaligned := h.block.symm.trans (decide_eq_true fun hSame => ?_)
  · rw [MInst.overTwoBlocks, Bool.and_eq_true, decide_eq_true_eq] at hMisaligned
    refine hMisaligned.2 (BitVec.eq_of_toNat_eq ?_)
    rw [hMeta.second, BitVec.toNat_ushiftRight, BitVec.toNat_ushiftRight, hBlock, Nat.shiftRight_eq_div_pow,
      Nat.shiftRight_eq_div_pow, BitVec.toNat_add, BitVec.toNat_ofNat]
    have hLt := (u.tlbMeta.req 0).addr.isLt
    have hNil : (0 : Word).toNat = 0 := rfl
    omega
  · have hNat := congrArg BitVec.toNat hSame
    rw [toNat_blockAddrBits hBlock, toNat_blockAddrBits hBlock, toNat_shift_or hWide, toNat_pageOffset hWide,
      toNat_pageOffset hWide, hZero, hZero', show (0 : Word).toNat % 4096 = 0 from rfl, Nat.or_zero] at hNat
    omega

/-- Of the instructions that the load and store unit makes, none is addressed right. -/
theorem not_shown_of_formed {u : MemoryUnit params Unit} (hBlock : params.blockW = 6) (hWide : 12 ≤ params.pAddrW)
    (hMeta : u.tlbMeta.Formed) (hHead : u.head.Formed) : ¬ Shown u := by
  intro h
  have hs : u.tlbMeta.size.toNat < 4 := u.tlbMeta.size.isLt
  have ht : u.head.size.toNat < 4 := u.head.size.isLt
  have hPow : ∀ {k : Nat}, k < 4 → 2 ^ k ≤ 2 ^ 3 := fun hk => Nat.pow_le_pow_right (by decide) (by omega)
  have hPowS := hPow hs
  have hPowT := hPow ht
  have hOffset0 := congrArg BitVec.toNat h.offset0
  rw [toNat_pageOffset hWide, toNat_pageOffset hWide] at hOffset0
  have hSecond := congrArg BitVec.toNat hMeta.second
  have hSecond' := congrArg BitVec.toNat hHead.second
  rw [BitVec.toNat_add, BitVec.toNat_ofNat] at hSecond hSecond'
  have hDvd : ∀ {k : Nat}, k < 4 → 2 ^ k ∣ 64 := fun hk => Nat.pow_dvd_pow 2 (show _ ≤ 6 by omega)
  have hMod : (u.tlbMeta.req 0).addr.toNat % 64 % 2 ^ u.tlbMeta.size.toNat = 0 := by
    rw [Nat.mod_mod_of_dvd _ (hDvd hs), hMeta.aligned]
  have hMod' : (u.tlbMeta.req 0).addr.toNat % 64 % 2 ^ u.head.size.toNat = 0 := by
    rw [show (u.tlbMeta.req 0).addr.toNat % 64 = (u.head.req 0).addr.toNat % 64 by omega, Nat.mod_mod_of_dvd _ (hDvd ht),
      hHead.aligned]
  obtain ⟨hPlace, hNextBlock⟩ := shift_or_ne ⟨_, hs⟩ ⟨_, ht⟩ ⟨_, Nat.mod_lt _ (by decide)⟩ hMod hMod'
  dsimp only at hPlace hNextBlock
  have hShown : (2 ^ u.tlbMeta.size.toNat ||| (u.head.req 1).addr.toNat % 4096) % 64 =
      2 ^ u.tlbMeta.size.toNat ||| ((u.tlbMeta.req 0).addr.toNat % 64 + 2 ^ u.head.size.toNat) % 64 := by
    have hOr := @Nat.or_mod_two_pow (2 ^ u.tlbMeta.size.toNat) ((u.head.req 1).addr.toNat % 4096) 6
    change _ % 64 = _ % 64 ||| _ % 64 at hOr
    rw [hOr, Nat.mod_eq_of_lt (by omega : 2 ^ u.tlbMeta.size.toNat < 64)]
    congr 1
    omega
  have hMisaligned : isBlockMisaligned (params.pageOffset (u.head.req 0).addr)
      (BitVec.ofNat params.pAddrW 1 <<< u.tlbMeta.size.toNat ||| params.pageOffset (u.head.req 1).addr) = true := by
    refine decide_eq_true fun hSame => hPlace ?_
    have hNat := congrArg BitVec.toNat hSame
    rw [toNat_blockAddrBits hBlock, toNat_blockAddrBits hBlock, toNat_shift_or hWide, toNat_pageOffset hWide,
      toNat_pageOffset hWide, hShown] at hNat
    omega
  rw [h.block, MInst.overTwoBlocks, Bool.and_eq_true, decide_eq_true_eq] at hMisaligned
  obtain ⟨hPair, hBlocks⟩ := hMisaligned
  have hOffset1 := congrArg BitVec.toNat (h.offset1 hPair)
  rw [toNat_shift_or hWide, toNat_pageOffset hWide, toNat_pageOffset hWide] at hOffset1
  have hCrosses : 64 ≤ (u.tlbMeta.req 0).addr.toNat % 64 + 2 ^ u.tlbMeta.size.toNat := by
    by_contra hSame
    refine hBlocks (BitVec.eq_of_toNat_eq ?_)
    rw [BitVec.toNat_ushiftRight, BitVec.toNat_ushiftRight, hBlock, Nat.shiftRight_eq_div_pow, Nat.shiftRight_eq_div_pow]
    have hLt := (u.tlbMeta.req 0).addr.isLt
    omega
  refine hNextBlock hCrosses ?_
  rw [← hShown, hOffset1]
  omega

end Formed

theorem cacheReqEnq_of_taken {resp : PipeTLBResp params Unit} (hResp : i.tlbResp = some resp) (hHit : ditched resp = false)
    (hTaken : s.unit.tlbRespFire i = i.tlbResp) : s.unit.cacheReqEnq i = some (s.unit.cacheReqPacked resp) := by
  simp [cacheReqEnq, hTaken, hResp, Option.filter, hHit]

theorem right_of_not_hits (h : hits i = false) : s.Right i := by
  have hDitched : ∀ resp ∈ i.tlbResp, ditched resp = true := fun resp hResp => by
    simpa using (Option.any_eq_false _ _).mp h resp hResp
  constructor
  · intro hHit
    rw [h] at hHit
    cases hHit
  · intro _
    refine Option.map_eq_none_iff.mpr (Option.filter_eq_none_iff.mpr fun resp hResp => ?_)
    simpa using hDitched resp (Option.mem_filter_iff.mp hResp).1
  · intro t ht
    obtain ⟨resp, hResp, -⟩ := Option.bind_eq_some_iff.mp ht
    obtain ⟨hSome, hHit⟩ := Option.filter_eq_some_iff.mp hResp
    rw [hDitched resp hSome] at hHit
    cases hHit

theorem Inv.of_translated (hInv : s.Inv) {resp : PipeTLBResp params Unit} (hResp : i.tlbResp = some resp)
    (hHit : ditched resp = false) {inst : MInst params.thidW} {page : Fin 2 → params.PAddr}
    (h : s.translated i = some (inst, page)) :
    inst.Formed ∧ inst.overTwoPages = false ∧ page = fun _ => resp.addr := by
  rw [translated, hResp, Option.filter_some, hHit, Bool.not_false, if_pos rfl, Option.bind_some] at h
  obtain ⟨⟨first, k⟩, hHead, h⟩ := Option.bind_eq_some_iff.mp h
  obtain ⟨hFormed, hHalf⟩ := hInv.translating _ (List.mem_of_mem_head? hHead)
  dsimp only at hHalf h
  rw [hHalf, if_neg (show (0 : Fin 2) ≠ 1 by decide)] at h
  cases hOver : first.overTwoPages with
  | true => simp [hOver] at h
  | false =>
    simp only [hOver, Bool.false_eq_true, if_false, Option.some.injEq, Prod.mk.injEq] at h
    obtain ⟨rfl, rfl⟩ := h
    exact ⟨hFormed, hOver, rfl⟩

theorem Inv.right_iff (hInv : s.Inv) (h : s.Answers i) (hBlock : params.blockW = 6) (hWide : 12 ≤ params.pAddrW) :
    s.Right i ↔ hits i = false := by
  refine ⟨fun hRight => ?_, right_of_not_hits⟩
  by_contra hHits
  rw [Bool.not_eq_false] at hHits
  obtain ⟨resp, hResp, hAllowed⟩ := (Option.any_eq_true _ _).mp hHits
  rw [Bool.not_eq_true'] at hAllowed
  have hEnq := cacheReqEnq_of_taken hResp hAllowed (hRight.taken hHits)
  have hTranslated : s.translated i ≠ none := by
    intro hNone
    rw [hRight.onlyFor hNone] at hEnq
    cases hEnq
  obtain ⟨⟨inst, page⟩, hSome⟩ := Option.ne_none_iff_exists'.mp hTranslated
  obtain ⟨m, hm, hAddressed⟩ := hRight.produced _ hSome
  rw [hEnq] at hm
  obtain rfl := Option.some.inj hm
  have hMeta : s.unit.tlbMeta = inst := hAddressed.carried
  obtain ⟨hFormed, hPage, rfl⟩ := hInv.of_translated hResp hAllowed hSome
  subst hMeta
  have hShown := (addressed_iff (by omega) hPage (h.page resp hResp)).mp hAddressed
  exact (hInv.cells s.unit.tlbReqQ.deqPtr).elim (fun hHead => not_shown_of_formed hBlock hWide hFormed hHead hShown)
    fun hHead => not_shown_of_blank hBlock hWide hFormed hHead hShown

theorem Inv.next (hInv : s.Inv) (hReq : ∀ inst ∈ i.req, inst.Formed) : (s.next i).Inv where
  state := sTLBStateNext_ne_pairReq hInv.state
  cells cell := by
    have hCell : (s.next i).unit.tlbReqQ.ram cell = s.unit.tlbReqQ.ram cell ∨ i.req = some ((s.next i).unit.tlbReqQ.ram cell) :=
      RamQueue.ram_next_eq cell
    rcases hCell with hKept | hEnq
    · exact hKept ▸ hInv.cells cell
    · exact .inl (hReq _ hEnq)
  items inst hMem := (RamQueue.mem_of_mem_next hMem).elim (hInv.items inst) fun hEnq => hReq inst hEnq
  translating t ht := by
    rcases List.mem_append.mp ht with hOld | hNew
    · refine hInv.translating t ?_
      split at hOld
      · exact List.mem_of_mem_tail hOld
      · exact hOld
    · split at hNew
      · next hFire =>
        rw [List.mem_singleton.mp hNew, requested, if_neg hInv.state]
        have hValid : s.unit.tlbReqQ.deqValid = true := by
          simp only [tlbReqFire, tlbReqValid, Bool.and_eq_true] at hFire
          exact hFire.1.1.1.1
        exact ⟨hInv.items _ (RamQueue.deqBits_mem hValid), rfl⟩
      · cases hNew

theorem inv_reset {c : Contents params Unit} (hRam : ∀ cell, (c.tlbReqRam cell).Formed ∨ (c.tlbReqRam cell).Blank) :
    (reset c).Inv where
  state h := by cases h
  cells := hRam
  items inst h := by cases h
  translating t h := by cases h

section Runs

/-- In every run of formed instructions every cycle is right exactly when no allowed hit comes. -/
theorem data_addresses (hBlock : params.blockW = 6) (hWide : 12 ≤ params.pAddrW) {c : Contents params Unit}
    (hRam : ∀ cell, (c.tlbReqRam cell).Formed ∨ (c.tlbReqRam cell).Blank) {is : List (MemoryUnit.Input params Unit)}
    (h : (machine params).Along (fun s i => s.Answers i ∧ ∀ inst ∈ i.req, inst.Formed) (reset c) is) :
    (machine params).Along Right (reset c) is ↔ (machine params).Along (fun _ i => hits i = false) (reset c) is :=
  h.congr (inv_reset hRam) (fun _ _ hInv hi _ => hInv.next hi.2) fun _ _ hInv hi => hInv.right_iff hi.1 hBlock hWide

abbrev wideBlocks : PipelineParams := ⟨1, 16, 6⟩

def load (addr addr2 : Word) : MInst 1 :=
  ⟨3, false, true, false, false, fun k => ⟨if k = 0 then addr else addr2, 0, 1⟩, 0, none, 0⟩

def idle : MemoryUnit.Input wideBlocks Unit := ⟨none, true, none, true, none, true, ⟨false, false⟩⟩

def hit (page : BitVec 16) : MemoryUnit.Input wideBlocks Unit := { idle with tlbResp := some ⟨page, true, false, ()⟩ }

def missed : MemoryUnit.Input wideBlocks Unit := { idle with tlbResp := some ⟨0, false, false, ()⟩ }

/-- The translations of two loads miss, and nothing is left pending. -/
theorem data_addresses_missed : (machine wideBlocks).Along Right (reset ⟨fun _ => load 0 0, load 0 0, ⟨0, ()⟩⟩)
    [{ idle with req := some (load 0x1008 0x1010) }, { idle with req := some (load 0x1020 0x1028) }, missed, missed] := by
  refine (data_addresses rfl (by decide) ?_ ?_).mpr ?_ <;> decide +kernel

/-- The second of two loads is at the head of the request queue when the first one is translated. -/
theorem load_at_next_offset :
    (machine wideBlocks).Along (fun s i => s.Answers i ∧ ∀ inst ∈ i.req, inst.Formed)
        (reset ⟨fun _ => load 0 0, load 0 0, ⟨0, ()⟩⟩)
        [{ idle with req := some (load 0x1008 0x1010) }, { idle with req := some (load 0x1020 0x1028) }, hit 0x3000] ∧
      ¬ (machine wideBlocks).Along Right (reset ⟨fun _ => load 0 0, load 0 0, ⟨0, ()⟩⟩)
        [{ idle with req := some (load 0x1008 0x1010) }, { idle with req := some (load 0x1020 0x1028) }, hit 0x3000] := by
  refine ⟨?_, ?_⟩ <;> decide +kernel

end Runs

end WatchedMemory

end KnockoutKraken.Armflex
