import KnockoutKraken.Instrumentation.TraceBuffer

/-!
# What the trace dump writes

The blocks written are the words accepted, packed in order, each at the
address of its burst in the window, and a dump that is left alone writes
every complete burst.
-/

namespace KnockoutKraken.Instrumentation.TraceDump

open Library Util

variable {p : TraceDumpParams}

section Spec

def wordAt (words : List (BitVec p.traceW)) (n : Nat) : BitVec p.traceW := words[n]?.getD 0

/-- The block of these number, of consecutive words, the first one in the low bits. -/
def blockOf (words : List (BitVec p.traceW)) (n : Nat) : BitVec p.dataW :=
  asBlock fun k => wordAt words (p.wordsPerBlock * n + k.val)

def packed (words : List (BitVec p.traceW)) : List (BitVec p.dataW) :=
  (List.range (words.length / p.wordsPerBlock)).map (blockOf words)

variable (p) in
def bursts (blocks : List (BitVec p.dataW)) : List (BitVec p.dataW) := blocks.take (p.burstSize * (blocks.length / p.burstSize))

/-- The address of a block, that of its burst in the window. -/
def address (init : BitVec p.addrW) (n : Nat) : BitVec p.addrW :=
  init + BitVec.ofNat p.addrW (n / p.burstSize * p.burstSize % p.windowSize)

/-- No word comes, and what is to be written is taken. -/
def Input.Quiet (i : Input p) : Prop := i.traceData = none ∧ i.reqReady = true ∧ i.dataReady = true

variable (s : TraceDump p) (is : List (Input p))

structure Faithful : Prop where
  ordered : (machine p).emitted Output.data s is <+: packed ((machine p).emitted Output.traceData s is)
  requested : ((machine p).emitted Output.data s is).length ≤ ((machine p).emitted Output.req s is).length ∧
    ((machine p).emitted Output.req s is).length ≤ ((machine p).emitted Output.data s is).length + 1
  addressed : ∀ (n : Nat) (req : WriteRequest p), ((machine p).emitted Output.req s is)[n]? = some req →
    ∃ init, (machine p).emitted Output.initAddr s is = [init] ∧ req = ⟨address init n, p.burstSize⟩
  drained : ∀ js : List (Input p), (∀ i ∈ js, i.Quiet) → 3 * (p.bramSize + 1) ≤ js.length →
    (machine p).emitted Output.data s (is ++ js) = bursts p (packed ((machine p).emitted Output.traceData s is))

/-- No burst is lost from the count, and a block that is complete fits the columns of a row. -/
def Lossless (s : TraceDump p) (i : Input p) : Prop :=
  s.Counts i ∧ (s.blockDone i = true → kept (asBlock (s.nextBlockBuffer i)) = asBlock (s.nextBlockBuffer i))

end Spec

theorem counter_succ {m : Nat} (hm : 0 < m) (n : Nat) : (if n % m == m - 1 then 0 else n % m + 1) = (n + 1) % m := by
  have hLt := Nat.mod_lt n hm
  rw [← Nat.mod_add_mod n m 1]
  split
  · next hLast =>
    have hEnd : n % m + 1 = m := by
      have := beq_iff_eq.mp hLast
      omega
    rw [hEnd, Nat.mod_self]
  · next hMore =>
    have hOther : n % m ≠ m - 1 := fun hEq => hMore (beq_iff_eq.mpr hEq)
    exact (Nat.mod_eq_of_lt (show n % m + 1 < m by omega)).symm

theorem dvd_succ_iff {m : Nat} (hm : 0 < m) (n : Nat) : m ∣ n + 1 ↔ n % m = m - 1 := by
  rw [Nat.dvd_iff_mod_eq_zero, ← counter_succ hm]
  split
  · next hLast => exact iff_of_true rfl (beq_iff_eq.mp hLast)
  · next hMore => exact iff_of_false (Nat.succ_ne_zero _) fun hEq => hMore (beq_iff_eq.mpr hEq)

section Packing

variable {words : List (BitVec p.traceW)} {word : BitVec p.traceW}

theorem wordAt_append {n : Nat} (hn : n < words.length) : wordAt (words ++ [word]) n = wordAt words n := by
  rw [wordAt, List.getElem?_append_left hn, wordAt]

theorem wordAt_last : wordAt (words ++ [word]) words.length = word := by
  rw [wordAt, List.getElem?_concat_length, Option.getD_some]

theorem blockOf_append {n : Nat} (hn : n < words.length / p.wordsPerBlock) : blockOf (words ++ [word]) n = blockOf words n := by
  refine congrArg asBlock (funext fun k => wordAt_append ?_)
  have hBlock : p.wordsPerBlock * (n + 1) ≤ words.length :=
    (Nat.mul_le_mul_left _ hn).trans (Nat.mul_div_le _ _)
  rw [Nat.mul_succ] at hBlock
  omega

theorem packed_of_part (hPart : ¬ p.wordsPerBlock ∣ words.length + 1) : packed (words ++ [word]) = packed words := by
  rw [packed, packed, List.length_append, List.length_singleton, Nat.succ_div_of_not_dvd hPart]
  exact List.map_congr_left fun n hn => blockOf_append (List.mem_range.mp hn)

theorem packed_of_whole (hWhole : p.wordsPerBlock ∣ words.length + 1) :
    packed (words ++ [word]) = packed words ++ [blockOf (words ++ [word]) (words.length / p.wordsPerBlock)] := by
  rw [packed, packed, List.length_append, List.length_singleton, Nat.succ_div_of_dvd hWhole, List.range_succ, List.map_append,
    List.map_singleton]
  exact congrArg (· ++ _) (List.map_congr_left fun n hn => blockOf_append (List.mem_range.mp hn))

end Packing

section Window

/-- The window lies in the address space, or is made of whole ones. -/
def WindowFits (p : TraceDumpParams) : Prop := p.windowSize - p.burstSize < 2 ^ p.addrW ∨ 2 ^ p.addrW ∣ p.windowSize

variable {s : TraceDump p} {m : Nat}

theorem windowEnd_of_fits (hCurr : s.currAddr = s.initAddrReg + BitVec.ofNat p.addrW m) (hm : m ≤ p.windowSize - p.burstSize)
    (hFits : p.windowSize - p.burstSize < 2 ^ p.addrW) : s.windowEnd = decide (m = p.windowSize - p.burstSize) := by
  have hSize : max p.addrW (p.windowSize - p.burstSize).size = p.addrW := max_eq_left (Nat.size_le.mpr hFits)
  have hSum : (s.initAddrReg + BitVec.ofNat p.addrW (p.windowSize - p.burstSize)).toNat =
      (s.initAddrReg.toNat + (p.windowSize - p.burstSize)) % 2 ^ p.addrW := by
    rw [BitVec.toNat_add, BitVec.toNat_ofNat, Nat.add_mod_mod]
  rw [windowEnd, hSize, ← hSum, hCurr, Bool.eq_iff_iff, beq_iff_eq, decide_eq_true_eq, BitVec.toNat_inj]
  refine ⟨fun hEq => ptr_injective (hm.trans_lt hFits) hFits hEq, fun hEq => by rw [hEq]⟩

/-- A comparison that is wider than the address holds only where the narrow one does. -/
theorem currAddr_of_windowEnd (hEnd : s.windowEnd = true) :
    s.currAddr = s.initAddrReg + BitVec.ofNat p.addrW (p.windowSize - p.burstSize) := by
  have hWide := congrArg (· % 2 ^ p.addrW) (beq_iff_eq.mp hEnd)
  simp only [Nat.mod_mod_of_dvd _ (Nat.pow_dvd_pow 2 (Nat.le_max_left _ _)), Nat.mod_eq_of_lt (BitVec.isLt _)] at hWide
  apply BitVec.eq_of_toNat_eq
  rw [hWide, BitVec.toNat_add, BitVec.toNat_ofNat, Nat.add_mod_mod]

theorem nextAddr_eq (hCurr : s.currAddr = s.initAddrReg + BitVec.ofNat p.addrW m) (hm : m + p.burstSize ≤ p.windowSize)
    (hWindow : WindowFits p) : (if s.windowEnd then s.initAddrReg else s.currAddr + BitVec.ofNat p.addrW p.burstSize) =
      s.initAddrReg + BitVec.ofNat p.addrW ((m + p.burstSize) % p.windowSize) := by
  have hPos := p.burstSize_pos
  rcases hWindow with hFits | hWhole
  · rw [windowEnd_of_fits hCurr (by omega) hFits]
    split
    · next hEnd =>
      have hSum : m + p.burstSize = p.windowSize := by
        have := of_decide_eq_true hEnd
        omega
      rw [hSum, Nat.mod_self, BitVec.add_zero]
    · next hMore =>
      have hOther : m ≠ p.windowSize - p.burstSize := fun hEq => hMore (decide_eq_true hEq)
      rw [Nat.mod_eq_of_lt (by omega), hCurr, BitVec.add_assoc, ← BitVec.ofNat_add]
  · have hReduce (n : Nat) : BitVec.ofNat p.addrW (n % p.windowSize) = BitVec.ofNat p.addrW n := by
      apply BitVec.eq_of_toNat_eq
      rw [BitVec.toNat_ofNat, BitVec.toNat_ofNat, Nat.mod_mod_of_dvd _ hWhole]
    rw [hReduce, BitVec.ofNat_add, ← BitVec.add_assoc, ← hCurr]
    split
    · next hEnd =>
      have hTurn : BitVec.ofNat p.addrW p.windowSize = 0#p.addrW := by
        rw [← hReduce, Nat.mod_self]
      rw [currAddr_of_windowEnd hEnd, BitVec.add_assoc, ← BitVec.ofNat_add, Nat.sub_add_cancel (by omega), hTurn,
        BitVec.add_zero]
    · rfl

theorem address_of_part {init : BitVec p.addrW} {n : Nat} (hPart : ¬ p.burstSize ∣ n + 1) : address init (n + 1) = address init n := by
  rw [address, address, Nat.succ_div_of_not_dvd hPart]

theorem address_of_whole {n : Nat} (hPositive : 0 < p.windowSize) (hBursts : p.burstSize ∣ p.windowSize) (hWindow : WindowFits p)
    (hCurr : s.currAddr = address s.initAddrReg n) (hWhole : p.burstSize ∣ n + 1) :
    (if s.windowEnd then s.initAddrReg else s.currAddr + BitVec.ofNat p.addrW p.burstSize) = address s.initAddrReg (n + 1) := by
  have hLe : n / p.burstSize * p.burstSize % p.windowSize + p.burstSize ≤ p.windowSize := by
    have hLt := Nat.mod_lt (n / p.burstSize * p.burstSize) hPositive
    obtain ⟨u, hu⟩ := (Nat.dvd_mod_iff hBursts).mpr (Nat.dvd_mul_left p.burstSize (n / p.burstSize))
    obtain ⟨v, hv⟩ := hBursts
    rw [hu, hv] at hLt ⊢
    exact (Nat.mul_succ p.burstSize u) ▸ Nat.mul_le_mul_left _ (Nat.lt_of_mul_lt_mul_left hLt)
  rw [nextAddr_eq hCurr hLe hWindow, address, Nat.succ_div_of_dvd hWhole, Nat.mod_add_mod, Nat.add_mul, Nat.one_mul]

end Window

section History

variable (os : List (Output p)) (s : TraceDump p)

/-- The register holds the words of the block that is not complete yet. -/
structure Packs : Prop where
  blocks : os.filterMap Output.block = packed (os.filterMap Output.traceData)
  currWord : s.currWord = (os.filterMap Output.traceData).length % p.wordsPerBlock
  buffer : ∀ k : Fin p.wordsPerBlock, k.val < s.currWord → s.blockBuffer k =
    wordAt (os.filterMap Output.traceData)
      (p.wordsPerBlock * ((os.filterMap Output.traceData).length / p.wordsPerBlock) + k.val)
  currBlockIn : s.currBlockIn = (os.filterMap Output.block).length % p.burstSize

/-- The requests made are at the addresses of their blocks. -/
structure Placed : Prop where
  idle : s.step = .sIdle → os.filterMap Output.initAddr = [] ∧ os.filterMap Output.req = []
  started : s.step ≠ .sIdle → os.filterMap Output.initAddr = [s.initAddrReg] ∧
    s.currAddr = address s.initAddrReg (os.filterMap Output.data).length
  requests : os.filterMap Output.req =
    (List.range (os.filterMap Output.req).length).map fun n => ⟨address s.initAddrReg n, p.burstSize⟩
  written : (os.filterMap Output.req).length = (os.filterMap Output.data).length + if s.step = .sWrite then 1 else 0
  currBlockOut : s.currBlockOut = (os.filterMap Output.data).length % p.burstSize

variable {os} {s} {i : Input p}

theorem filterMap_concat {β : Type} (port : Output p → Option β) :
    (os ++ [s.output i]).filterMap port = os.filterMap port ++ (port (s.output i)).toList := by
  rw [List.filterMap_append]
  cases hPort : port (s.output i) <;> simp [hPort]

theorem Packs.nextBlockBuffer (h : Packs os s) {word : BitVec p.traceW} (hFire : s.traceDataFire i = some word)
    (k : Fin p.wordsPerBlock) (hk : k.val ≤ s.currWord) : s.nextBlockBuffer i k =
      wordAt (os.filterMap Output.traceData ++ [word])
        (p.wordsPerBlock * ((os.filterMap Output.traceData).length / p.wordsPerBlock) + k.val) := by
  have hSplit := Nat.div_add_mod (os.filterMap Output.traceData).length p.wordsPerBlock
  rw [← h.currWord] at hSplit
  rw [TraceDump.nextBlockBuffer, hFire]
  rcases hk.eq_or_lt with hEq | hLt
  · rw [hEq, hSplit, wordAt_last]
    exact if_pos hEq
  · rw [wordAt_append (by omega), ← h.buffer k hLt]
    exact if_neg hLt.ne

theorem Packs.next (h : Packs os s) : Packs (os ++ [s.output i]) (s.next i) := by
  have hCurr := h.currWord
  cases hFire : s.traceDataFire i with
  | none =>
    have hDone : s.blockDone i = false := by rw [blockDone, hFire]; rfl
    have hWords : (os ++ [s.output i]).filterMap Output.traceData = os.filterMap Output.traceData := by
      rw [filterMap_concat, output, hFire, Option.toList_none, List.append_nil]
    have hBlocks : (os ++ [s.output i]).filterMap Output.block = os.filterMap Output.block := by
      rw [filterMap_concat, output, hDone]
      exact List.append_nil _
    have hNext : (s.next i).currWord = s.currWord := by rw [TraceDump.next, hFire]; rfl
    refine ⟨?_, ?_, fun k hk => ?_, ?_⟩
    · rw [hWords, hBlocks, h.blocks]
    · rw [hWords, hNext, hCurr]
    · rw [hNext] at hk
      rw [hWords, ← h.buffer k hk, TraceDump.next, TraceDump.nextBlockBuffer, hFire]
    · rw [hBlocks, ← h.currBlockIn, TraceDump.next, hDone]
      rfl
  | some word =>
    have hWords : (os ++ [s.output i]).filterMap Output.traceData = os.filterMap Output.traceData ++ [word] := by
      rw [filterMap_concat, output, hFire, Option.toList_some]
    have hBuffer := h.nextBlockBuffer hFire
    have hDone : s.blockDone i = (s.currWord == p.wordsPerBlock - 1) := by rw [blockDone, hFire]; rfl
    have hCount : (s.next i).currWord = ((os.filterMap Output.traceData).length + 1) % p.wordsPerBlock := by
      rw [← counter_succ p.wordsPerBlock_pos, ← hCurr, TraceDump.next, hFire]
      rfl
    have hLength : (os.filterMap Output.traceData ++ [word]).length = (os.filterMap Output.traceData).length + 1 :=
      List.length_append
    by_cases hWhole : p.wordsPerBlock ∣ (os.filterMap Output.traceData).length + 1
    · have hLast : s.currWord = p.wordsPerBlock - 1 := hCurr.trans ((dvd_succ_iff p.wordsPerBlock_pos _).mp hWhole)
      rw [beq_iff_eq.mpr hLast] at hDone
      have hBlock : asBlock (s.nextBlockBuffer i) = blockOf (os.filterMap Output.traceData ++ [word])
          ((os.filterMap Output.traceData).length / p.wordsPerBlock) :=
        congrArg asBlock (funext fun k => hBuffer k (by omega))
      have hBlocks : (os ++ [s.output i]).filterMap Output.block = os.filterMap Output.block ++ [asBlock (s.nextBlockBuffer i)] := by
        rw [filterMap_concat, output, hDone]
        rfl
      refine ⟨?_, ?_, fun k hk => ?_, ?_⟩
      · rw [hWords, hBlocks, h.blocks, packed_of_whole hWhole, hBlock]
      · rw [hWords, hLength, hCount]
      · rw [hCount, Nat.mod_eq_zero_of_dvd hWhole] at hk
        exact absurd hk (Nat.not_lt_zero _)
      · rw [hBlocks, List.length_append, List.length_singleton, ← counter_succ p.burstSize_pos, ← h.currBlockIn,
          TraceDump.next, hDone]
        rfl
    · have hMore : s.currWord ≠ p.wordsPerBlock - 1 := fun hEq =>
        hWhole ((dvd_succ_iff p.wordsPerBlock_pos _).mpr (hCurr.symm.trans hEq))
      rw [beq_false_of_ne hMore] at hDone
      have hBlocks : (os ++ [s.output i]).filterMap Output.block = os.filterMap Output.block := by
        rw [filterMap_concat, output, hDone]
        exact List.append_nil _
      have hStep : (s.next i).currWord = s.currWord + 1 := by
        rw [TraceDump.next, hFire, beq_false_of_ne hMore]
        rfl
      refine ⟨?_, ?_, fun k hk => ?_, ?_⟩
      · rw [hWords, hBlocks, h.blocks, packed_of_part hWhole]
      · rw [hWords, hLength, hCount]
      · rw [hStep] at hk
        rw [hWords, hLength, Nat.succ_div_of_not_dvd hWhole, ← hBuffer k (Nat.le_of_lt_succ hk)]
        rfl
      · rw [hBlocks, ← h.currBlockIn, TraceDump.next, hDone]
        rfl

section Placed

theorem initAddrFire_of_ne (hStep : s.step ≠ .sIdle) : s.initAddrFire i = none := if_neg hStep

theorem reqFire_of_ne (hStep : s.step ≠ .sPrepare) : s.reqFire i = false := by
  rw [reqFire, beq_false_of_ne hStep, Bool.false_and]

theorem Placed.stay (h : Placed os s) (hInit : s.initAddrFire i = none) (hReq : s.reqFire i = false) (hData : s.dataFire i = false)
    (hIdle : (s.next i).step = .sIdle ↔ s.step = .sIdle) (hWrite : (s.next i).step = .sWrite ↔ s.step = .sWrite) :
    Placed (os ++ [s.output i]) (s.next i) := by
  have hInits : (os ++ [s.output i]).filterMap Output.initAddr = os.filterMap Output.initAddr := by
    rw [filterMap_concat, output, hInit, Option.toList_none, List.append_nil]
  have hReqs : (os ++ [s.output i]).filterMap Output.req = os.filterMap Output.req := by
    rw [filterMap_concat, output, hReq]
    exact List.append_nil _
  have hDatas : (os ++ [s.output i]).filterMap Output.data = os.filterMap Output.data := by
    rw [filterMap_concat, output, hData]
    exact List.append_nil _
  have hReg : (s.next i).initAddrReg = s.initAddrReg := by rw [TraceDump.next, hInit]; rfl
  have hAddr : (s.next i).currAddr = s.currAddr := by rw [TraceDump.next, nextCurrAddr, hInit, hData]; rfl
  have hOut : (s.next i).currBlockOut = s.currBlockOut := by rw [TraceDump.next, hData]; rfl
  refine ⟨fun hStep => ?_, fun hStep => ?_, ?_, ?_, ?_⟩
  · rw [hInits, hReqs]
    exact h.idle (hIdle.mp hStep)
  · rw [hInits, hDatas, hReg, hAddr]
    exact h.started fun hNot => hStep (hIdle.mpr hNot)
  · rw [hReqs, hReg]
    exact h.requests
  · simp only [hReqs, hDatas, hWrite]
    exact h.written
  · rw [hOut, hDatas]
    exact h.currBlockOut

theorem Placed.start (h : Placed os s) (hStep : s.step = .sIdle) {addr : BitVec p.addrW} (hInit : i.initAddr = some addr) :
    Placed (os ++ [s.output i]) (s.next i) := by
  obtain ⟨hNoInit, hNoReq⟩ := h.idle hStep
  have hWritten := h.written
  rw [hNoReq, List.length_nil, hStep] at hWritten
  have hNoData : os.filterMap Output.data = [] := List.eq_nil_of_length_eq_zero (by omega)
  have hFire : s.initAddrFire i = some addr := (if_pos hStep).trans hInit
  have hData : s.dataFire i = false := dataFire_of_ne (by simp [hStep])
  have hNext : (s.next i).step = .sPacking := by
    rw [TraceDump.next, nextStep, hStep, hInit]
    rfl
  have hInits : (os ++ [s.output i]).filterMap Output.initAddr = [addr] := by
    rw [filterMap_concat, output, hNoInit, hFire, Option.toList_some, List.nil_append]
  have hReqs : (os ++ [s.output i]).filterMap Output.req = [] := by
    rw [filterMap_concat, hNoReq, output, reqFire_of_ne (by simp [hStep])]
    rfl
  have hDatas : (os ++ [s.output i]).filterMap Output.data = [] := by
    rw [filterMap_concat, hNoData, output, hData]
    rfl
  have hReg : (s.next i).initAddrReg = addr := by rw [TraceDump.next, hFire]; rfl
  have hAddr : (s.next i).currAddr = addr := by rw [TraceDump.next, nextCurrAddr, hFire]
  have hOut := h.currBlockOut
  rw [hNoData] at hOut
  refine ⟨fun hIdle => ?_, fun _ => ⟨?_, ?_⟩, ?_, ?_, ?_⟩
  · rw [hNext] at hIdle
    cases hIdle
  · rw [hInits, hReg]
  · rw [hDatas, hReg, hAddr, List.length_nil, address, Nat.zero_div, Nat.zero_mul, Nat.zero_mod, BitVec.add_zero]
  · rw [hReqs]
    rfl
  · rw [hReqs, hDatas, hNext]
    rfl
  · rw [hDatas, TraceDump.next, hData]
    exact hOut

theorem Placed.request (h : Placed os s) (hStep : s.step = .sPrepare) (hReady : i.reqReady = true) :
    Placed (os ++ [s.output i]) (s.next i) := by
  obtain ⟨hInit, hCurr⟩ := h.started (by simp [hStep])
  have hFire : s.initAddrFire i = none := initAddrFire_of_ne (by simp [hStep])
  have hData : s.dataFire i = false := dataFire_of_ne (by simp [hStep])
  have hReq : s.reqFire i = true := by rw [reqFire, hStep, hReady]; rfl
  have hNext : (s.next i).step = .sWrite := by
    rw [TraceDump.next, nextStep, hStep, hReady]
    rfl
  have hLength : (os.filterMap Output.req).length = (os.filterMap Output.data).length := by
    rw [h.written, hStep]
    rfl
  have hInits : (os ++ [s.output i]).filterMap Output.initAddr = os.filterMap Output.initAddr := by
    rw [filterMap_concat, output, hFire, Option.toList_none, List.append_nil]
  have hReqs : (os ++ [s.output i]).filterMap Output.req = os.filterMap Output.req ++ [⟨s.currAddr, p.burstSize⟩] := by
    rw [filterMap_concat, output, hReq]
    rfl
  have hDatas : (os ++ [s.output i]).filterMap Output.data = os.filterMap Output.data := by
    rw [filterMap_concat, output, hData]
    exact List.append_nil _
  have hReg : (s.next i).initAddrReg = s.initAddrReg := by rw [TraceDump.next, hFire]; rfl
  have hAddr : (s.next i).currAddr = s.currAddr := by rw [TraceDump.next, nextCurrAddr, hFire, hData]; rfl
  refine ⟨fun hIdle => ?_, fun _ => ⟨?_, ?_⟩, ?_, ?_, ?_⟩
  · rw [hNext] at hIdle
    cases hIdle
  · rw [hInits, hReg, hInit]
  · rw [hDatas, hReg, hAddr, hCurr]
  · rw [hReqs, hReg, List.length_append, List.length_singleton, List.range_succ, List.map_append, List.map_singleton,
      ← h.requests, hLength, ← hCurr]
  · rw [hReqs, hDatas, hNext, List.length_append, List.length_singleton, hLength]
    rfl
  · rw [hDatas, TraceDump.next, hData]
    exact h.currBlockOut

variable (hPositive : 0 < p.windowSize) (hBursts : p.burstSize ∣ p.windowSize) (hWindow : WindowFits p)

include hPositive hBursts hWindow

theorem Placed.write (h : Placed os s) (hStep : s.step = .sWrite) (hReady : i.dataReady = true) :
    Placed (os ++ [s.output i]) (s.next i) := by
  obtain ⟨hInit, hCurr⟩ := h.started (by simp [hStep])
  have hFire : s.initAddrFire i = none := initAddrFire_of_ne (by simp [hStep])
  have hData : s.dataFire i = true := (dataFire_of_write hStep).trans hReady
  have hLast : s.lastBlock = true ↔ p.burstSize ∣ (os.filterMap Output.data).length + 1 := by
    rw [lastBlock, beq_iff_eq, h.currBlockOut, dvd_succ_iff p.burstSize_pos]
  have hNext : (s.next i).step = if s.lastBlock then .sPacking else .sPrepare := by
    rw [TraceDump.next, nextStep, hStep, hReady]
    rfl
  have hInits : (os ++ [s.output i]).filterMap Output.initAddr = os.filterMap Output.initAddr := by
    rw [filterMap_concat, output, hFire, Option.toList_none, List.append_nil]
  have hReqs : (os ++ [s.output i]).filterMap Output.req = os.filterMap Output.req := by
    rw [filterMap_concat, output, reqFire_of_ne (by simp [hStep])]
    exact List.append_nil _
  have hDatas : ((os ++ [s.output i]).filterMap Output.data).length = (os.filterMap Output.data).length + 1 := by
    rw [filterMap_concat, output, hData]
    exact List.length_append
  have hReg : (s.next i).initAddrReg = s.initAddrReg := by rw [TraceDump.next, hFire]; rfl
  have hAddr : (s.next i).currAddr = address s.initAddrReg ((os.filterMap Output.data).length + 1) := by
    rw [TraceDump.next, nextCurrAddr, hFire, hData, Bool.true_and]
    cases hEnd : s.lastBlock with
    | true => exact address_of_whole hPositive hBursts hWindow hCurr (hLast.mp hEnd)
    | false =>
      have hPart : ¬ p.burstSize ∣ (os.filterMap Output.data).length + 1 := fun hDvd =>
        Bool.noConfusion (hEnd.symm.trans (hLast.mpr hDvd))
      exact hCurr.trans (address_of_part hPart).symm
  refine ⟨fun hIdle => ?_, fun _ => ⟨?_, ?_⟩, ?_, ?_, ?_⟩
  · rw [hNext] at hIdle
    split at hIdle <;> cases hIdle
  · rw [hInits, hReg, hInit]
  · rw [hDatas, hReg, hAddr]
  · rw [hReqs, hReg]
    exact h.requests
  · rw [hReqs, hDatas, hNext, h.written, hStep]
    cases s.lastBlock <;> rfl
  · rw [hDatas, ← counter_succ p.burstSize_pos, ← h.currBlockOut, TraceDump.next, hData, lastBlock]
    rfl

theorem Placed.next (h : Placed os s) : Placed (os ++ [s.output i]) (s.next i) := by
  have hNext : (s.next i).step = s.nextStep i := rfl
  cases hStep : s.step with
  | sIdle =>
    cases hInit : i.initAddr with
    | some addr => exact h.start hStep hInit
    | none =>
      refine h.stay ?_ (reqFire_of_ne ?_) (dataFire_of_ne ?_) ?_ ?_ <;> simp [initAddrFire, hNext, nextStep, hStep, hInit]
  | sPacking =>
    refine h.stay (initAddrFire_of_ne ?_) (reqFire_of_ne ?_) (dataFire_of_ne ?_) ?_ ?_ <;>
      cases hTake : s.take <;> simp [hNext, nextStep, hStep, hTake]
  | sPrepare =>
    cases hReady : i.reqReady with
    | true => exact h.request hStep hReady
    | false =>
      refine h.stay (initAddrFire_of_ne ?_) ?_ (dataFire_of_ne ?_) ?_ ?_ <;> simp [reqFire, hNext, nextStep, hStep, hReady]
  | sWrite =>
    cases hReady : i.dataReady with
    | true => exact h.write hPositive hBursts hWindow hStep hReady
    | false =>
      refine h.stay (initAddrFire_of_ne ?_) (reqFire_of_ne ?_) ?_ ?_ ?_ <;> simp [dataFire, hNext, nextStep, hStep, hReady]

end Placed

end History

section Drain

variable {s : TraceDump p} {i : Input p}

theorem counts_of_quiet (hQuiet : i.Quiet) : s.Counts i := by
  intro hDone
  have hFire : s.traceDataFire i = none := by rw [traceDataFire, hQuiet.1, ite_self]
  rw [burstDone, blockDone, hFire] at hDone
  cases hDone

/-- The cycles the writing side needs for the bursts that are counted. -/
def rank (s : TraceDump p) : Nat :=
  (2 * p.burstSize + 1) * s.writesPending.toNat + 2 * s.serving - if s.step = .sWrite then 1 else 0

theorem Sound.rank_next (h : s.Sound) (hQuiet : i.Quiet) : (s.next i).rank = s.rank - 1 := by
  have hCounts := counts_of_quiet (s := s) hQuiet
  have hServing := h.serving_next (i := i)
  have hPending := Sound.pending_next hCounts
  have hDone : s.burstDone i = false := by
    have hFire : s.traceDataFire i = none := by rw [traceDataFire, hQuiet.1, ite_self]
    rw [burstDone, blockDone, hFire]
    rfl
  have hNext : (s.next i).step = s.nextStep i := rfl
  rw [hDone, Bool.toNat_false, Nat.add_zero] at hPending
  rw [rank, rank, hNext, nextStep]
  cases hStep : s.step with
  | sIdle =>
    have hNone : s.serving = 0 := by rw [serving, hStep]
    have hZero : s.writesPending.toNat = 0 := congrArg BitVec.toNat (h.idle hStep)
    rw [take_of_ne (by simp [hStep]), Bool.toNat_false] at hPending hServing
    rw [show (s.next i).writesPending.toNat = 0 by omega, show (s.next i).serving = 0 by omega, hNone, hZero]
    simp
  | sPacking =>
    have hNone : s.serving = 0 := by rw [serving, hStep]
    rw [dataFire_of_ne (by simp [hStep]), Bool.toNat_false] at hServing
    cases hTake : s.take with
    | true =>
      rw [hTake, Bool.toNat_true] at hPending hServing
      rw [show (s.next i).serving = p.burstSize by omega, ← hPending, hNone, Nat.mul_succ]
      simp
    | false =>
      have hZero : s.writesPending.toNat = 0 := by
        rw [take, hStep, beq_self_eq_true, Bool.true_and, bne_eq_false_iff_eq] at hTake
        exact congrArg BitVec.toNat hTake
      rw [hTake, Bool.toNat_false] at hPending hServing
      rw [show (s.next i).writesPending.toNat = 0 by omega, show (s.next i).serving = 0 by omega, hNone, hZero]
      simp
  | sPrepare =>
    rw [take_of_ne (by simp [hStep]), Bool.toNat_false] at hPending hServing
    rw [dataFire_of_ne (by simp [hStep]), Bool.toNat_false] at hServing
    rw [show (s.next i).writesPending.toNat = s.writesPending.toNat by omega, show (s.next i).serving = s.serving by omega,
      hQuiet.2.1]
    simp
  | sWrite =>
    rw [take_of_ne (by simp [hStep]), Bool.toNat_false] at hPending hServing
    rw [dataFire_of_write hStep, hQuiet.2.2, Bool.toNat_true] at hServing
    rw [show (s.next i).writesPending.toNat = s.writesPending.toNat by omega, hQuiet.2.2]
    cases s.lastBlock <;> simp <;> omega

/-- A dump that is left alone comes to rest. -/
theorem Sound.rank_run (h : s.Sound) {js : List (Input p)} (hQuiet : ∀ i ∈ js, i.Quiet) :
    ((machine p).run s js).Sound ∧ ((machine p).run s js).rank = s.rank - js.length := by
  induction js generalizing s with
  | nil => exact ⟨h, rfl⟩
  | cons i js ih =>
    obtain ⟨hHead, hTail⟩ := List.forall_mem_cons.mp hQuiet
    obtain ⟨hSound, hRank⟩ := ih (h.next (counts_of_quiet hHead)) hTail
    refine ⟨hSound, hRank.trans ?_⟩
    rw [h.rank_next hHead, List.length_cons, Nat.sub_sub, Nat.add_comm]

theorem Sound.rank_le (h : s.Sound) : s.rank ≤ 3 * (p.bramSize + 1) := by
  have hStock := h.stock
  have hCount := count_le (s := s)
  have hPending := Nat.mul_le_mul_right s.writesPending.toNat p.burstSize_pos
  have hParked : s.parkedBlock.length ≤ 1 := by
    rw [parkedBlock]
    cases s.bufferState with
    | bBuffering => exact Nat.zero_le 1
    | bFull => exact Nat.le_refl 1
  rw [length_held] at hStock
  rw [rank, Nat.add_mul, Nat.mul_assoc]
  omega

/-- At rest only the blocks of a burst that is not complete are held. -/
theorem Sound.held_of_rest (h : s.Sound) (hRank : s.rank = 0) : s.held.length = s.currBlockIn := by
  have hStock := h.stock
  rw [rank, Nat.add_mul, Nat.mul_assoc] at hRank
  have hAll : 2 * (p.burstSize * s.writesPending.toNat) + 1 * s.writesPending.toNat + 2 * s.serving ≤ 1 := by
    split at hRank <;> omega
  omega

end Drain

theorem sound_atReset (bram : BRAMTDP (BitVec p.bramW) Unit (BitVec p.rowW)) (bramAddrA : BitVec p.bramW) (bramWeA : Bool) :
    (atReset bram bramAddrA bramWeA).Sound where
  full hFull := by cases hFull
  parked hState := by cases hState
  clear hBusy := by rcases hBusy with hStep | hStep <;> cases hStep
  shown hStep := by cases hStep
  out_lt := p.burstSize_pos
  in_lt := p.burstSize_pos
  out_zero _ := rfl
  idle _ := rfl
  stock := by
    have hNone : (atReset bram bramAddrA bramWeA).count = 0 := by simp [count, atReset]
    rw [length_held, hNone]
    rfl

theorem packs_atReset (bram : BRAMTDP (BitVec p.bramW) Unit (BitVec p.rowW)) (bramAddrA : BitVec p.bramW) (bramWeA : Bool) :
    Packs [] (atReset bram bramAddrA bramWeA) where
  blocks := by
    rw [packed, List.filterMap_nil, List.filterMap_nil, List.length_nil, Nat.zero_div]
    rfl
  currWord := (Nat.zero_mod _).symm
  buffer k hk := absurd hk (Nat.not_lt_zero _)
  currBlockIn := (Nat.zero_mod _).symm

theorem placed_atReset (bram : BRAMTDP (BitVec p.bramW) Unit (BitVec p.rowW)) (bramAddrA : BitVec p.bramW) (bramWeA : Bool) :
    Placed [] (atReset bram bramAddrA bramWeA) where
  idle _ := ⟨rfl, rfl⟩
  started hStep := absurd rfl hStep
  requests := rfl
  written := rfl
  currBlockOut := (Nat.zero_mod _).symm

section Runs

variable (bram : BRAMTDP (BitVec p.bramW) Unit (BitVec p.rowW)) (bramAddrA : BitVec p.bramW) (bramWeA : Bool)
  {is : List (Input p)}

theorem held_atReset : (atReset bram bramAddrA bramWeA).held = [] := by
  have hStock := (sound_atReset bram bramAddrA bramWeA).stock
  exact List.eq_nil_of_length_eq_zero hStock

theorem packs_run (is : List (Input p)) : Packs ((machine p).trace (atReset bram bramAddrA bramWeA) is)
    ((machine p).run (atReset bram bramAddrA bramWeA) is) := by
  have hAlong : (machine p).Along (fun _ _ => True) (atReset bram bramAddrA bramWeA) is :=
    Machine.along_of_forall (fun _ _ => trivial) _ is
  exact hAlong.history [] (packs_atReset bram bramAddrA bramWeA) fun _ _ _ hPacks _ => hPacks.next

theorem placed_run (hPositive : 0 < p.windowSize) (hBursts : p.burstSize ∣ p.windowSize) (hWindow : WindowFits p)
    (is : List (Input p)) : Placed ((machine p).trace (atReset bram bramAddrA bramWeA) is)
      ((machine p).run (atReset bram bramAddrA bramWeA) is) := by
  have hAlong : (machine p).Along (fun _ _ => True) (atReset bram bramAddrA bramWeA) is :=
    Machine.along_of_forall (fun _ _ => trivial) _ is
  exact hAlong.history [] (placed_atReset bram bramAddrA bramWeA) fun _ _ _ hPlaced _ =>
    hPlaced.next hPositive hBursts hWindow

variable (h : (machine p).Along Lossless (atReset bram bramAddrA bramWeA) is)

include h

theorem sound_run : ((machine p).run (atReset bram bramAddrA bramWeA) is).Sound :=
  h.invariant (sound_atReset bram bramAddrA bramWeA) fun _ _ hSound hLossless => hSound.next hLossless.1

theorem written_run : (machine p).emitted Output.data (atReset bram bramAddrA bramWeA) is ++
    ((machine p).run (atReset bram bramAddrA bramWeA) is).held =
      packed ((machine p).emitted Output.traceData (atReset bram bramAddrA bramWeA) is) := by
  have hCycle (s : TraceDump p) (i : Input p) (hSound : s.Sound) (hLossless : Lossless s i) :
      (s.output i).data.toList ++ (s.next i).held = s.held ++ (s.output i).block.toList := by
    have hKept : (s.output i).block.map kept = (s.output i).block := by
      rw [output]
      cases hDone : s.blockDone i with
      | false => rfl
      | true => exact congrArg some (hLossless.2 hDone)
    exact hKept ▸ hSound.held_next
  have hFlow : (machine p).emitted Output.data (atReset bram bramAddrA bramWeA) is ++
      ((machine p).run (atReset bram bramAddrA bramWeA) is).held =
        held (atReset bram bramAddrA bramWeA) ++ (machine p).emitted Output.block (atReset bram bramAddrA bramWeA) is :=
    h.conserves held (sound_atReset bram bramAddrA bramWeA) (fun _ _ hSound hLossless => hSound.next hLossless.1) hCycle
  rw [hFlow, held_atReset, List.nil_append]
  exact (packs_run bram bramAddrA bramWeA is).blocks

/-- At rest the blocks of all complete bursts are written. -/
theorem written_of_rest (hRest : ((machine p).run (atReset bram bramAddrA bramWeA) is).rank = 0) :
    (machine p).emitted Output.data (atReset bram bramAddrA bramWeA) is =
      bursts p (packed ((machine p).emitted Output.traceData (atReset bram bramAddrA bramWeA) is)) := by
  have hWritten := written_run bram bramAddrA bramWeA h
  have hHeld := (sound_run bram bramAddrA bramWeA h).held_of_rest hRest
  have hPacks := packs_run bram bramAddrA bramWeA is
  have hIn := hPacks.currBlockIn.trans (congrArg (fun blocks => blocks.length % p.burstSize) hPacks.blocks)
  have hLength := congrArg List.length hWritten
  rw [List.length_append, hHeld, hIn] at hLength
  have hSplit := Nat.div_add_mod (packed ((machine p).emitted Output.traceData (atReset bram bramAddrA bramWeA) is)).length
    p.burstSize
  have hWhole : ((machine p).emitted Output.data (atReset bram bramAddrA bramWeA) is).length = p.burstSize *
      ((packed ((machine p).emitted Output.traceData (atReset bram bramAddrA bramWeA) is)).length / p.burstSize) :=
    Nat.add_right_cancel (hLength.trans hSplit.symm)
  rw [bursts, ← hWhole]
  exact (List.take_left' rfl).symm.trans (congrArg _ hWritten)

end Runs

section Quiet

variable {s : TraceDump p} {js : List (Input p)} (hQuiet : ∀ i ∈ js, i.Quiet)

include hQuiet

theorem emitted_of_quiet : (machine p).emitted Output.traceData s js = [] := by
  induction js generalizing s with
  | nil => rfl
  | cons i js ih =>
    obtain ⟨hHead, hTail⟩ := List.forall_mem_cons.mp hQuiet
    have hFire : s.traceDataFire i = none := by rw [traceDataFire, hHead.1, ite_self]
    rw [Machine.emitted_cons, ih hTail, List.append_nil]
    exact congrArg Option.toList hFire

theorem lossless_of_quiet : (machine p).Along Lossless s js := by
  induction js generalizing s with
  | nil => trivial
  | cons i js ih =>
    obtain ⟨hHead, hTail⟩ := List.forall_mem_cons.mp hQuiet
    have hFire : s.traceDataFire i = none := by rw [traceDataFire, hHead.1, ite_self]
    refine ⟨⟨counts_of_quiet hHead, fun hDone => ?_⟩, ih hTail⟩
    rw [blockDone, hFire] at hDone
    cases hDone

end Quiet

/-- While no burst is lost from the count and the blocks fit the rows, the dump writes what it
accepted, where it should, and all of it when it is left alone. -/
theorem faithful_of_lossless (hPositive : 0 < p.windowSize) (hBursts : p.burstSize ∣ p.windowSize) (hWindow : WindowFits p)
    (bram : BRAMTDP (BitVec p.bramW) Unit (BitVec p.rowW)) (bramAddrA : BitVec p.bramW) (bramWeA : Bool) (is : List (Input p))
    (h : (machine p).Along Lossless (atReset bram bramAddrA bramWeA) is) : Faithful (atReset bram bramAddrA bramWeA) is := by
  have hPlaced := placed_run bram bramAddrA bramWeA hPositive hBursts hWindow is
  refine ⟨⟨_, written_run bram bramAddrA bramWeA h⟩, ?_, fun n req hReq => ?_, fun js hQuiet hLong => ?_⟩
  · have hWritten := hPlaced.written
    change ((machine p).emitted Output.req _ is).length = ((machine p).emitted Output.data _ is).length + _ at hWritten
    split at hWritten <;> omega
  · have hStarted : ((machine p).run (atReset bram bramAddrA bramWeA) is).step ≠ .sIdle := by
      intro hIdle
      rw [Machine.emitted, (hPlaced.idle hIdle).2] at hReq
      cases hReq
    refine ⟨_, (hPlaced.started hStarted).1, ?_⟩
    rw [Machine.emitted, hPlaced.requests, List.getElem?_map] at hReq
    obtain ⟨m, hm, rfl⟩ := Option.map_eq_some_iff.mp hReq
    obtain ⟨_, hSame⟩ := List.getElem?_eq_some_iff.mp hm
    rw [← hSame, List.getElem_range]
  · have hAll : (machine p).Along Lossless (atReset bram bramAddrA bramWeA) (is ++ js) :=
      (Machine.along_append _ is js).mpr ⟨h, lossless_of_quiet hQuiet⟩
    have hSound := sound_run bram bramAddrA bramWeA h
    have hRest : ((machine p).run (atReset bram bramAddrA bramWeA) (is ++ js)).rank = 0 := by
      rw [Machine.run_append, (hSound.rank_run hQuiet).2]
      exact Nat.sub_eq_zero_of_le (hSound.rank_le.trans hLong)
    rw [written_of_rest bram bramAddrA bramWeA hAll hRest, Machine.emitted_append, emitted_of_quiet hQuiet, List.append_nil]

section Examples

instance (s : TraceDump p) (i : Input p) : Decidable (Lossless s i) :=
  inferInstanceAs (Decidable ((s.burstDone i = true → s.take = false ∧ s.writesPending.toNat + 1 < p.bramSize) ∧
    (s.blockDone i = true → kept (asBlock (s.nextBlockBuffer i)) = asBlock (s.nextBlockBuffer i))))

abbrev halfwords : TraceDumpParams where
  addrW := 12
  traceW := 16
  wordsPerBlock := 2
  bramW := 10
  windowSize := 256
  burstSize := 1
  wordsPerBlock_pos := Nat.two_pos
  bramW_pos := Nat.succ_pos 9
  burstSize_dvd := Nat.one_dvd _

def zeroed {p : TraceDumpParams} : TraceDump p := atReset ⟨fun _ _ => 0, fun _ => 0, fun _ => 0⟩ 0 false

abbrev blockPairs : TraceDumpParams := { halfwords with burstSize := 2, burstSize_dvd := by decide }

def cycle (word : Option (BitVec 16)) (reqReady dataReady : Bool) : Input blockPairs := ⟨none, word, reqReady, dataReady⟩

/-- Eight words in two bursts, while the port is stalled now and then. -/
def stalled : List (Input blockPairs) :=
  ⟨some 0x100, none, true, true⟩ :: ([1, 2, 3, 4, 5].map fun word => cycle (some word) true true) ++
    [cycle (some 6) false false, cycle (some 7) false true, cycle none true false, cycle (some 8) true true,
      cycle none true false, cycle none true true] ++ List.replicate 8 (cycle none true true)

theorem faithful_stalled : Faithful zeroed stalled ∧
    (machine blockPairs).emitted Output.data zeroed stalled = [0x20001, 0x40003, 0x60005, 0x80007] :=
  ⟨faithful_of_lossless (by decide) (by decide) (.inl (by decide)) _ _ _ _ (by decide +kernel), by decide +kernel⟩

def feed (word : BitVec 16) : Input halfwords := ⟨none, some word, true, true⟩

def quiet : Input halfwords := ⟨none, none, true, true⟩

def flood (words : List (BitVec 16)) : List (Input halfwords) := ⟨some 0x100, none, true, true⟩ :: words.map feed

theorem emitted_of_rest {s : TraceDump p} (hStep : s.step = .sPacking) (hPending : s.writesPending = 0) {js : List (Input p)}
    (hQuiet : ∀ i ∈ js, i.Quiet) : (machine p).emitted Output.data s js = [] := by
  induction js generalizing s with
  | nil => rfl
  | cons i js ih =>
    obtain ⟨hHead, hTail⟩ := List.forall_mem_cons.mp hQuiet
    have hTake : s.take = false := by rw [take, hPending, bne_self_eq_false, Bool.and_false]
    have hFire : s.traceDataFire i = none := by rw [traceDataFire, hHead.1, ite_self]
    have hDone : s.burstDone i = false := by rw [burstDone, blockDone, hFire]; rfl
    have hData : (s.output i).data = none := by rw [output, dataFire_of_ne (by simp [hStep])]; rfl
    have hNextStep : (s.next i).step = .sPacking := by rw [next, nextStep, hStep, hTake]; rfl
    have hNextPending : (s.next i).writesPending = 0 := by rw [next, hTake, hDone]; exact hPending
    rw [Machine.emitted_cons, show ((machine p).output s i).data = none from hData]
    exact ih hNextStep hNextPending hTail

theorem rest_of_flood : ((machine halfwords).run zeroed (flood [1, 2, 3, 4, 5, 6] ++ [quiet, quiet])).step = .sPacking ∧
    ((machine halfwords).run zeroed (flood [1, 2, 3, 4, 5, 6] ++ [quiet, quiet])).writesPending = 0 ∧
    ((machine halfwords).emitted Output.data zeroed (flood [1, 2, 3, 4, 5, 6] ++ [quiet, quiet])).length = 2 ∧
    (bursts halfwords (packed ((machine halfwords).emitted Output.traceData zeroed (flood [1, 2, 3, 4, 5, 6])))).length = 3 := by
  decide +kernel

/-- The third block is complete in the cycle in which the second burst is taken, and is never written. -/
theorem burst_lost : ¬ Faithful zeroed (flood [1, 2, 3, 4, 5, 6]) := by
  intro h
  obtain ⟨hStep, hPending, hWritten, hAccepted⟩ := rest_of_flood
  let rest := List.replicate (3 * (halfwords.bramSize + 1)) quiet
  have hQuiet : ∀ i ∈ rest, i.Quiet := fun i hi => List.eq_of_mem_replicate hi ▸ ⟨rfl, rfl, rfl⟩
  have hDrained := h.drained ([quiet, quiet] ++ rest) ?_ ?_
  · rw [← List.append_assoc, Machine.emitted_append, emitted_of_rest hStep hPending hQuiet, List.append_nil] at hDrained
    have hLength := congrArg List.length hDrained
    rw [hWritten, hAccepted] at hLength
    omega
  · exact List.forall_mem_append.mpr ⟨by simp [quiet, Input.Quiet], hQuiet⟩
  · rw [List.length_append, List.length_replicate]
    omega

end Examples

end KnockoutKraken.Instrumentation.TraceDump
