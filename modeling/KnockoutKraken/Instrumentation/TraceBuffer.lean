import KnockoutKraken.Instrumentation.TraceDump

/-!
# The ring of the trace dump

The blocks that are held between the packing side and the writing side are
the rows from the output pointer to the input pointer, and the block that
waits in the register. Blocks leave in the order they came as long as no
burst is lost from the count.
-/

namespace KnockoutKraken.Instrumentation.TraceDump

open Library Util

variable {p : TraceDumpParams} (s : TraceDump p) (i : Input p)

def rowAt (row : BitVec p.bramW) : BitVec p.rowW := BRAMTDP.writePort s.bram.mem s.portA row ()

def count : Nat := if s.bramFull then p.bramSize else (s.bramInAddr - s.bramOutAddr).toNat

def stored : List (BitVec p.rowW) := cells s.rowAt s.bramOutAddr s.count

def kept (block : BitVec p.dataW) : BitVec p.dataW := (block.setWidth p.rowW).setWidth p.dataW

/-- The block that waits for a row. -/
def parkedBlock : List (BitVec p.dataW) :=
  match s.bufferState with
  | .bBuffering => []
  | .bFull => [kept (asBlock s.blockBuffer)]

def held : List (BitVec p.dataW) := s.stored.map (BitVec.setWidth p.dataW) ++ s.parkedBlock

/-- The blocks still to be written of the burst that was taken. -/
def serving : Nat :=
  match s.step with
  | .sIdle | .sPacking => 0
  | .sPrepare | .sWrite => p.burstSize - s.currBlockOut

def Busy : Prop := s.step = .sPrepare ∨ s.step = .sWrite

structure Sound : Prop where
  full : s.bramFull = true → s.bramInAddr = s.bramOutAddr
  parked : s.bufferState = .bFull → s.bramFull = true ∨ s.step ≠ .sWrite ∧ s.count + 1 = p.bramSize
  clear : s.Busy → s.bramWeA = true → s.bramAddrA ≠ s.bramOutAddr
  shown : s.step = .sWrite → s.bram.ramDataB () = s.rowAt s.bramOutAddr
  out_lt : s.currBlockOut < p.burstSize
  in_lt : s.currBlockIn < p.burstSize
  out_zero : ¬ s.Busy → s.currBlockOut = 0
  idle : s.step = .sIdle → s.writesPending = 0
  stock : s.held.length = p.burstSize * s.writesPending.toNat + s.serving + s.currBlockIn

/-- A burst is complete only in cycles in which none is taken and the count has room. -/
def Counts : Prop := s.burstDone i = true → s.take = false ∧ s.writesPending.toNat + 1 < p.bramSize

section Ring

variable {s} {i}

theorem count_of_full (hFull : s.bramFull = true) : s.count = p.bramSize := if_pos hFull

theorem count_lt (hFull : s.bramFull = false) : s.count < p.bramSize := by
  rw [count, hFull]
  exact BitVec.isLt _

theorem count_le : s.count ≤ p.bramSize := by
  cases hFull : s.bramFull with
  | true => exact (count_of_full hFull).le
  | false => exact (count_lt hFull).le

theorem count_eq {n : Nat} (hLe : n ≤ p.bramSize) (hIn : s.bramInAddr = s.bramOutAddr + BitVec.ofNat p.bramW n)
    (hFull : s.bramFull = decide (n = p.bramSize)) : s.count = n := by
  rw [count, hFull]
  split
  · next hAll => exact (of_decide_eq_true hAll).symm
  · next hSome =>
    have hLt : n < p.bramSize := hLe.lt_of_ne fun hEq => hSome (decide_eq_true hEq)
    rw [hIn, BitVec.add_comm, BitVec.add_sub_cancel, BitVec.toNat_ofNat, Nat.mod_eq_of_lt hLt]

theorem full_eq : s.bramFull = decide (s.count = p.bramSize) := by
  cases hFull : s.bramFull with
  | true => rw [count_of_full hFull, decide_eq_true rfl]
  | false => rw [decide_eq_false (count_lt hFull).ne]

theorem advance_room (hAdvance : s.advance i = true) : s.bramFull = false := by
  rw [advance] at hAdvance
  cases hFull : s.bramFull with
  | false => rfl
  | true =>
    rw [hFull] at hAdvance
    cases hState : s.bufferState <;> simp [hState] at hAdvance

theorem length_held : s.held.length = s.count + s.parkedBlock.length := by
  rw [held, List.length_append, List.length_map, stored, length_cells]

theorem not_busy_iff : ¬ s.Busy ↔ s.step = .sIdle ∨ s.step = .sPacking := by
  rw [Busy]
  cases s.step <;> decide

theorem dataFire_step (hFire : s.dataFire i = true) : s.step = .sWrite :=
  beq_iff_eq.mp (Bool.and_eq_true_iff.mp hFire).1

theorem dataFire_of_ne (hStep : s.step ≠ .sWrite) : s.dataFire i = false := by
  rw [dataFire, beq_false_of_ne hStep, Bool.false_and]

theorem dataFire_of_write (hStep : s.step = .sWrite) : s.dataFire i = i.dataReady := by
  rw [dataFire, hStep, beq_self_eq_true, Bool.true_and]

theorem take_of_ne (hStep : s.step ≠ .sPacking) : s.take = false := by rw [take, beq_false_of_ne hStep, Bool.false_and]

theorem pending_of_take (hTake : s.take = true) : 1 ≤ s.writesPending.toNat := by
  have hNonzero : s.writesPending ≠ 0 := bne_iff_ne.mp (Bool.and_eq_true_iff.mp hTake).2
  exact Nat.pos_of_ne_zero fun hZero => hNonzero (BitVec.eq_of_toNat_eq hZero)

theorem busy_of_next_write (hStep : (s.next i).step = .sWrite) : s.Busy ∧ s.dataFire i = false := by
  rw [next, nextStep] at hStep
  rw [Busy]
  cases hAt : s.step with
  | sIdle => cases hInit : i.initAddr <;> simp [hAt, hInit] at hStep
  | sPacking => cases hTake : s.take <;> simp [hAt, hTake] at hStep
  | sPrepare => exact ⟨.inl rfl, dataFire_of_ne (by simp [hAt])⟩
  | sWrite =>
    rw [dataFire_of_write hAt]
    cases hReady : i.dataReady with
    | false => exact ⟨.inr rfl, rfl⟩
    | true => cases hLast : s.lastBlock <;> simp [hAt, hReady, hLast] at hStep

theorem full_of_next_full (hState : (s.next i).bufferState = .bFull) : s.bramFull = true := by
  rw [next, nextBufferState] at hState
  cases hAt : s.bufferState <;> cases hFull : s.bramFull <;> simp [hAt, hFull] at hState ⊢

theorem idle_of_next_idle (hStep : (s.next i).step = .sIdle) : s.step = .sIdle := by
  rw [next, nextStep] at hStep
  cases hAt : s.step with
  | sIdle => rfl
  | sPacking => cases hTake : s.take <;> simp [hAt, hTake] at hStep
  | sPrepare => cases hReady : i.reqReady <;> simp [hAt, hReady] at hStep
  | sWrite => cases hReady : i.dataReady <;> cases hLast : s.lastBlock <;> simp [hAt, hReady, hLast] at hStep

theorem traceDataFire_of_idle (hStep : s.step = .sIdle) : s.traceDataFire i = none := by
  have hReady : s.traceDataReady = false := by rw [traceDataReady, hStep]; exact Bool.and_false _
  rw [traceDataFire, hReady]
  rfl

theorem blockDone_of_idle (hStep : s.step = .sIdle) : s.blockDone i = false := by
  rw [blockDone, traceDataFire_of_idle hStep]
  rfl

theorem blockDone_of_full (hState : s.bufferState = .bFull) : s.blockDone i = false ∧ s.nextBlockBuffer i = s.blockBuffer := by
  have hReady : s.traceDataReady = false := by rw [traceDataReady, hState]; rfl
  have hFire : s.traceDataFire i = none := by rw [traceDataFire, hReady]; rfl
  exact ⟨by rw [blockDone, hFire]; rfl, by rw [nextBlockBuffer, hFire]⟩

theorem parked_next : (if s.advance i then [kept (asBlock (s.nextBlockBuffer i))] else []) ++ (s.next i).parkedBlock =
    s.parkedBlock ++ ((s.output i).block.map kept).toList := by
  rw [parkedBlock, parkedBlock, advance, output, next, nextBufferState]
  cases hState : s.bufferState with
  | bBuffering => cases s.blockDone i <;> cases s.bramFull <;> simp
  | bFull =>
    obtain ⟨hDone, hSame⟩ := blockDone_of_full (i := i) hState
    cases hFull : s.bramFull <;> simp [hDone, hSame]

namespace Sound

variable (h : s.Sound)

include h

theorem inAddr_eq : s.bramInAddr = s.bramOutAddr + BitVec.ofNat p.bramW s.count := by
  cases hFull : s.bramFull with
  | true =>
    have hWrap : BitVec.ofNat p.bramW p.bramSize = 0#p.bramW := BitVec.eq_of_toNat_eq (Nat.mod_self _)
    rw [count_of_full hFull, h.full hFull, hWrap, BitVec.add_zero]
  | false =>
    rw [count, hFull, if_neg Bool.false_ne_true, BitVec.ofNat_toNat, BitVec.setWidth_eq, BitVec.add_comm,
      BitVec.sub_add_cancel]

/-- A block waits in the register only behind a full ring, or one that has just lost a row. -/
theorem count_of_parked {n : Nat} (hHeld : n < s.held.length) (hCount : s.count ≤ n) :
    s.count = p.bramSize ∨ s.step ≠ .sWrite ∧ s.count + 1 = p.bramSize := by
  rw [length_held, parkedBlock] at hHeld
  cases hState : s.bufferState with
  | bBuffering =>
    rw [hState] at hHeld
    exact absurd hHeld (Nat.not_lt.mpr hCount)
  | bFull => exact (h.parked hState).imp_left count_of_full

theorem serving_pos (hBusy : s.Busy) : 0 < s.serving := by
  rw [serving]
  rcases hBusy with hStep | hStep <;> rw [hStep] <;> exact Nat.sub_pos_of_lt h.out_lt

theorem count_pos (hBusy : s.Busy) : 0 < s.count := by
  by_contra hZero
  have hServing := h.serving_pos hBusy
  have hStock := h.stock
  have hTwo := p.two_le_bramSize
  have hNone : s.count = 0 := Nat.eq_zero_of_not_pos hZero
  rcases h.count_of_parked (by omega) hNone.le with hSize | ⟨-, hSize⟩ <;> omega

theorem count_next : (s.next i).count + (s.dataFire i).toNat = s.count + (s.advance i).toNat := by
  obtain ⟨n, hn⟩ : ∃ n, n + (s.dataFire i).toNat = s.count + (s.advance i).toNat := by
    refine ⟨s.count + (s.advance i).toNat - (s.dataFire i).toNat, Nat.sub_add_cancel ?_⟩
    cases hFire : s.dataFire i with
    | false => exact Nat.zero_le _
    | true => exact (h.count_pos (.inr (dataFire_step hFire))).trans_le (Nat.le_add_right _ _)
  have hRoom : s.advance i = true → s.count < p.bramSize := fun hAdvance => count_lt (advance_room hAdvance)
  have hLe := count_le (s := s)
  have hIn : (s.next i).bramInAddr = (s.next i).bramOutAddr + BitVec.ofNat p.bramW n := by
    have hMoved : (s.next i).bramInAddr = s.bramOutAddr + BitVec.ofNat p.bramW (n + (s.dataFire i).toNat) := by
      rw [hn, BitVec.ofNat_add, ← BitVec.add_assoc, ← h.inAddr_eq, next]
      cases s.advance i <;> simp
    rw [hMoved, next]
    cases s.dataFire i with
    | false => rfl
    | true => exact ptr_succ s.bramOutAddr n
  have hFull : (s.next i).bramFull = decide (n = p.bramSize) := by
    rw [next]
    cases hFire : s.dataFire i with
    | true =>
      rw [hFire, Bool.toNat_true] at hn
      cases hAdvance : s.advance i with
      | true =>
        have := hRoom hAdvance
        rw [hAdvance, Bool.toNat_true] at hn
        exact (decide_eq_false (by omega)).symm
      | false =>
        rw [hAdvance, Bool.toNat_false] at hn
        exact (decide_eq_false (by omega)).symm
    | false =>
      rw [hFire, Bool.toNat_false, Nat.add_zero] at hn
      cases hAdvance : s.advance i with
      | true =>
        have hNext := hRoom hAdvance
        have hStep : s.bramInAddr + 1 = s.bramOutAddr + BitVec.ofNat p.bramW (s.count + 1) := by
          rw [h.inAddr_eq, BitVec.ofNat_add, ← BitVec.add_assoc]
          rfl
        have hClosed : s.bramInAddr + 1 = s.bramOutAddr ↔ n = p.bramSize := by
          rw [hStep, ptr_closed_iff (Nat.zero_lt_succ _) hNext, hn, hAdvance, Bool.toNat_true]
        simp [advance_room hAdvance, ← hClosed]
      | false =>
        rw [hAdvance, Bool.toNat_false, Nat.add_zero] at hn
        simp [full_eq, hn]
  have hLeNext : n ≤ p.bramSize := by
    cases hAdvance : s.advance i with
    | true =>
      have := hRoom hAdvance
      rw [hAdvance, Bool.toNat_true] at hn
      omega
    | false =>
      rw [hAdvance, Bool.toNat_false] at hn
      omega
  rw [count_eq hLeNext hIn hFull, hn]

omit h in
theorem rowAt_next (row : BitVec p.bramW) : (s.next i).rowAt row =
    if s.bramFull = false ∧ row = s.bramInAddr then (asBlock (s.nextBlockBuffer i)).setWidth p.rowW else s.rowAt row := by
  have hMem : (s.next i).bram.mem = BRAMTDP.writePort s.bram.mem s.portA :=
    writePort_read (BRAMTDP.writePort s.bram.mem s.portA) s.bramOutAddr fun _ => 0
  rw [rowAt, hMem, BRAMTDP.writePort, rowAt, portA, next]
  cases s.bramFull <;> simp

theorem stored_next : (s.next i).stored = (if s.dataFire i then s.stored.tail else s.stored) ++
    if s.advance i then [(asBlock (s.nextBlockBuffer i)).setWidth p.rowW] else [] := by
  have hCount := h.count_next (i := i)
  have hLe := count_le (s := s)
  obtain ⟨n, hn⟩ : ∃ n, s.count = n + (s.dataFire i).toNat := by
    refine ⟨s.count - (s.dataFire i).toNat, (Nat.sub_add_cancel ?_).symm⟩
    cases hFire : s.dataFire i with
    | false => exact Nat.zero_le _
    | true => exact h.count_pos (.inr (dataFire_step hFire))
  have hRest : (if s.dataFire i then s.stored.tail else s.stored) = cells s.rowAt (s.next i).bramOutAddr n := by
    rw [stored, hn, next]
    cases s.dataFire i with
    | false => rfl
    | true => exact congrArg List.tail (cells_succ _ _ _)
  have hBehind : (s.next i).bramOutAddr + BitVec.ofNat p.bramW n = s.bramInAddr := by
    rw [h.inAddr_eq, hn, next]
    cases s.dataFire i with
    | false => rfl
    | true => exact (ptr_succ s.bramOutAddr n).symm
  have hKept : cells (s.next i).rowAt (s.next i).bramOutAddr n = cells s.rowAt (s.next i).bramOutAddr n := by
    cases hFull : s.bramFull with
    | true => exact cells_congr fun m _ => by rw [rowAt_next, hFull, if_neg fun hNot => Bool.noConfusion hNot.1]
    | false =>
      have hRoom : n < p.bramSize := (Nat.le_add_right n _).trans_lt (hn ▸ count_lt hFull)
      exact cells_write_behind hRoom fun row hRow => by rw [rowAt_next, if_neg fun hNot => hRow (hNot.2.trans hBehind.symm)]
  rw [stored, hRest, show (s.next i).count = n + (s.advance i).toNat by omega]
  cases hAdvance : s.advance i with
  | false => simp [hKept]
  | true => rw [Bool.toNat_true, cells_concat, hKept, hBehind, rowAt_next, if_pos ⟨advance_room hAdvance, rfl⟩, if_pos rfl]

theorem stored_eq (hStep : s.step = .sWrite) : s.stored = s.bram.ramDataB () :: s.stored.tail := by
  obtain ⟨n, hn⟩ := Nat.exists_eq_succ_of_ne_zero (h.count_pos (.inr hStep)).ne'
  rw [stored, hn, cells_succ, List.tail_cons, h.shown hStep]

theorem held_next : (s.output i).data.toList ++ (s.next i).held = s.held ++ ((s.output i).block.map kept).toList := by
  have hData : (s.output i).data.toList ++ (if s.dataFire i then s.stored.tail else s.stored).map (BitVec.setWidth p.dataW) =
      s.stored.map (BitVec.setWidth p.dataW) := by
    rw [output]
    cases hFire : s.dataFire i with
    | false => rfl
    | true =>
      rw [h.stored_eq (dataFire_step hFire)]
      rfl
  have hRow : (if s.advance i then [(asBlock (s.nextBlockBuffer i)).setWidth p.rowW] else []).map (BitVec.setWidth p.dataW) =
      if s.advance i then [kept (asBlock (s.nextBlockBuffer i))] else [] := by
    cases s.advance i <;> rfl
  rw [held, h.stored_next, List.map_append, hRow, List.append_assoc, parked_next, ← List.append_assoc, ← List.append_assoc,
    hData, held]

theorem serving_next : (s.next i).serving + (s.dataFire i).toNat = s.serving + p.burstSize * s.take.toNat := by
  have hLt := h.out_lt
  rw [serving, serving, next, nextStep]
  cases hStep : s.step with
  | sIdle =>
    rw [dataFire_of_ne (by simp [hStep]), take_of_ne (by simp [hStep])]
    cases i.initAddr <;> rfl
  | sPacking =>
    have hZero := h.out_zero (not_busy_iff.mpr (.inr hStep))
    rw [dataFire_of_ne (by simp [hStep])]
    cases s.take <;> simp [hZero]
  | sPrepare =>
    rw [dataFire_of_ne (by simp [hStep]), take_of_ne (by simp [hStep])]
    cases i.reqReady <;> simp
  | sWrite =>
    rw [dataFire_of_write hStep, take_of_ne (by simp [hStep])]
    cases i.dataReady with
    | false => simp
    | true =>
      cases hLast : s.lastBlock with
      | true =>
        have hCount : s.currBlockOut = p.burstSize - 1 := beq_iff_eq.mp hLast
        simp
        omega
      | false =>
        simp
        omega

omit h in
theorem blockIn_next : (s.next i).currBlockIn + p.burstSize * (s.burstDone i).toNat = s.currBlockIn + (s.blockDone i).toNat := by
  have hPos := p.burstSize_pos
  rw [next, burstDone]
  cases s.blockDone i with
  | false => simp
  | true =>
    cases hLast : s.currBlockIn == p.burstSize - 1 with
    | false => simp
    | true =>
      have hCount := beq_iff_eq.mp hLast
      simp
      omega

omit h in
theorem pending_next (hCounts : s.Counts i) :
    (s.next i).writesPending.toNat + s.take.toNat = s.writesPending.toNat + (s.burstDone i).toNat := by
  have hOne : (1 : BitVec p.bramW).toNat = 1 := Nat.mod_eq_of_lt p.two_le_bramSize
  rw [next]
  cases hTake : s.take with
  | true =>
    have hDone : s.burstDone i = false := by
      rw [Bool.eq_false_iff]
      intro hDone
      exact Bool.noConfusion (hTake.symm.trans (hCounts hDone).1)
    have hPos := pending_of_take hTake
    rw [hDone, if_pos rfl, BitVec.toNat_sub_of_le (BitVec.le_def.mpr (hOne.symm ▸ hPos)), hOne]
    exact Nat.sub_add_cancel hPos
  | false =>
    cases hDone : s.burstDone i with
    | false => rfl
    | true =>
      have hRoom := (hCounts hDone).2
      exact (BitVec.toNat_add_of_lt (hOne.symm ▸ hRoom)).trans (congrArg _ hOne)

theorem stock_next (hCounts : s.Counts i) : (s.next i).held.length =
    p.burstSize * (s.next i).writesPending.toNat + (s.next i).serving + (s.next i).currBlockIn := by
  have hHeld := congrArg List.length (h.held_next (i := i))
  have hServing := h.serving_next (i := i)
  have hIn := blockIn_next (s := s) (i := i)
  have hPending := congrArg (p.burstSize * ·) (pending_next hCounts)
  have hStock := h.stock
  have hData : (s.output i).data.toList.length = (s.dataFire i).toNat := by
    rw [output]
    cases s.dataFire i <;> rfl
  have hBlock : ((s.output i).block.map kept).toList.length = (s.blockDone i).toNat := by
    rw [output]
    cases s.blockDone i <;> rfl
  simp only [List.length_append, hData, hBlock, Nat.mul_add] at hHeld hPending
  omega

theorem out_lt_next : (s.next i).currBlockOut < p.burstSize := by
  have hLt := h.out_lt
  have hPos := p.burstSize_pos
  rw [TraceDump.next]
  cases s.dataFire i with
  | false => exact hLt
  | true =>
    cases hLast : s.lastBlock with
    | true => exact hPos
    | false =>
      have hMore : s.currBlockOut ≠ p.burstSize - 1 := bne_iff_ne.mp (congrArg not hLast)
      show s.currBlockOut + 1 < p.burstSize
      omega

omit h in
theorem in_lt_next (hLt : s.currBlockIn < p.burstSize) : (s.next i).currBlockIn < p.burstSize := by
  have hPos := p.burstSize_pos
  rw [TraceDump.next]
  cases s.blockDone i with
  | false => exact hLt
  | true =>
    cases hLast : s.currBlockIn == p.burstSize - 1 with
    | true => simpa [hLast] using hPos
    | false =>
      have hMore : s.currBlockIn ≠ p.burstSize - 1 := bne_iff_ne.mp (congrArg not hLast)
      simp only [ite_true, Bool.false_eq_true, ite_false]
      omega

/-- While the next block is about to be shown, the row to be written is another one. -/
theorem clear_next (hBusy : (s.next i).Busy) (hFull : s.bramFull = false) : s.bramInAddr ≠ (s.next i).bramOutAddr := by
  intro hEq
  have hTwo := p.two_le_bramSize
  have hCount : s.count = (s.dataFire i).toNat := by
    have hFire : (s.dataFire i).toNat < p.bramSize := (Bool.toNat_le _).trans_lt hTwo
    have hSame : s.bramOutAddr + BitVec.ofNat p.bramW s.count = s.bramOutAddr + BitVec.ofNat p.bramW (s.dataFire i).toNat := by
      rw [← h.inAddr_eq, hEq, TraceDump.next]
      cases s.dataFire i <;> simp
    exact ptr_injective (count_lt hFull) hFire hSame
  have hOwed : 0 < (s.next i).serving := by
    have hLt := h.out_lt_next (i := i)
    rw [serving]
    rcases hBusy with hStep | hStep <;> rw [hStep] <;> exact Nat.sub_pos_of_lt hLt
  have hTaken : p.burstSize * s.take.toNat ≤ p.burstSize * s.writesPending.toNat := by
    refine Nat.mul_le_mul_left _ ?_
    cases hTake : s.take with
    | false => exact Nat.zero_le _
    | true => exact pending_of_take hTake
  have hServing := h.serving_next (i := i)
  have hStock := h.stock
  rcases h.count_of_parked (by omega) hCount.le with hSize | ⟨hStep, hSize⟩
  · exact (count_lt hFull).ne hSize
  · rw [dataFire_of_ne hStep, Bool.toNat_false] at hCount
    omega

theorem shown_next (hStep : (s.next i).step = .sWrite) :
    (s.next i).bram.ramDataB () = (s.next i).rowAt (s.next i).bramOutAddr := by
  obtain ⟨hBusy, hFire⟩ := busy_of_next_write hStep
  have hOut : (s.next i).bramOutAddr = s.bramOutAddr := by rw [TraceDump.next, hFire]; rfl
  have hRead : (s.next i).bram.ramDataB () = s.bram.mem s.bramOutAddr () :=
    congrFun (readPort_read s.bram.mem s.bramOutAddr (fun _ => 0) s.bram.ramDataB) ()
  have hOther : ¬ (s.bramFull = false ∧ s.bramOutAddr = s.bramInAddr) := by
    rintro ⟨hFull, hEq⟩
    have hPos := h.count_pos hBusy
    rw [count, hFull, hEq, BitVec.sub_self] at hPos
    exact Nat.lt_irrefl 0 hPos
  have hClear : (s.portA.en && s.portA.we () && decide (s.bramOutAddr = s.portA.addr)) = false := by
    rw [portA, Bool.true_and]
    cases hWe : s.bramWeA with
    | false => rfl
    | true => exact decide_eq_false (h.clear hBusy hWe).symm
  rw [hRead, hOut, rowAt_next, if_neg hOther, rowAt, BRAMTDP.writePort, hClear]
  rfl

theorem parked_next_full (hState : (s.next i).bufferState = .bFull) :
    (s.next i).bramFull = true ∨ (s.next i).step ≠ .sWrite ∧ (s.next i).count + 1 = p.bramSize := by
  have hFull := full_of_next_full hState
  have hAdvance : s.advance i = false := by
    rw [Bool.eq_false_iff]
    intro hAdvance
    exact Bool.noConfusion (hFull.symm.trans (advance_room hAdvance))
  have hCount := h.count_next (i := i)
  rw [hAdvance, count_of_full hFull] at hCount
  cases hFire : s.dataFire i with
  | false => exact .inl (by rw [TraceDump.next, hFire, hAdvance, hFull]; rfl)
  | true =>
    rw [hFire] at hCount
    exact .inr ⟨fun hStep => Bool.noConfusion (hFire.symm.trans (busy_of_next_write hStep).2), hCount⟩

theorem full_next (hFull : (s.next i).bramFull = true) : (s.next i).bramInAddr = (s.next i).bramOutAddr := by
  rw [TraceDump.next] at hFull ⊢
  cases hFire : s.dataFire i with
  | true => simp [hFire] at hFull
  | false =>
    cases hAdvance : s.advance i with
    | true => simpa [hFire, hAdvance, advance_room hAdvance] using hFull
    | false => simpa [hFire, hAdvance] using h.full (by simpa [hFire, hAdvance] using hFull)

theorem out_zero_next (hRest : ¬ (s.next i).Busy) : (s.next i).currBlockOut = 0 := by
  rw [not_busy_iff, TraceDump.next, nextStep] at hRest
  rw [TraceDump.next]
  cases hStep : s.step with
  | sIdle => simpa [dataFire, hStep] using h.out_zero (not_busy_iff.mpr (.inl hStep))
  | sPacking => simpa [dataFire, hStep] using h.out_zero (not_busy_iff.mpr (.inr hStep))
  | sPrepare => cases hReady : i.reqReady <;> simp [hStep, hReady] at hRest
  | sWrite =>
    rw [dataFire_of_write hStep]
    cases hReady : i.dataReady with
    | false => simp [hStep, hReady] at hRest
    | true => cases hLast : s.lastBlock <;> simp [hStep, hReady, hLast] at hRest ⊢

theorem idle_next (hStep : (s.next i).step = .sIdle) : (s.next i).writesPending = 0 := by
  have hIdle := idle_of_next_idle hStep
  rw [TraceDump.next, take_of_ne (by simp [hIdle]), burstDone, blockDone_of_idle hIdle]
  exact h.idle hIdle

theorem next (hCounts : s.Counts i) : (s.next i).Sound where
  full := h.full_next
  parked := h.parked_next_full
  clear hBusy hWe := h.clear_next hBusy (Bool.not_eq_true' _ ▸ hWe)
  shown := h.shown_next
  out_lt := h.out_lt_next
  in_lt := in_lt_next h.in_lt
  out_zero := h.out_zero_next
  idle := h.idle_next
  stock := h.stock_next hCounts

end Sound

end Ring

end KnockoutKraken.Instrumentation.TraceDump
