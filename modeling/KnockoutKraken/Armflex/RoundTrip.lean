import KnockoutKraken.Armflex.CommitFrame

/-!
# A state goes in and comes out

A copy takes the rows of a slot one after the other: in each cycle the row
read in the cycle before is written. The unit reads its own copy of the
register file, whose rows are as long as an address that is one bit short
tells two threads apart.
-/

namespace KnockoutKraken.Armflex

open Library Util

namespace TransplantUnit

open TransplantState TransplantDir StateRegType TransplantControl

variable {thidW : Nat}

theorem setWidth_toNat_mod {n m k : Nat} (x : BitVec n) (h : k ≤ m) : (x.setWidth m).toNat % 2 ^ k = x.toNat % 2 ^ k := by
  rw [BitVec.toNat_setWidth]
  exact Nat.mod_mod_of_dvd _ (Nat.pow_dvd_pow 2 h)

theorem reg_of_stateRow {t t' : BitVec thidW} {r r' : BitVec 6} (h : stateRow t r = stateRow t' r') : r = r' := by
  have hWidth : 6 ≤ registerAddrW thidW := Nat.le_trans (by decide) (Nat.le_max_left 10 _)
  have hMod : ∀ (t : BitVec thidW) (r : BitVec 6), (stateRow t r).toNat % 2 ^ 6 = r.toNat := fun t r => by
    rw [stateRow, setWidth_toNat_mod _ hWidth, ArchState.toNat_append,
      Nat.mul_add_mod', Nat.mod_eq_of_lt r.isLt]
  have hNat := congrArg (fun row => BitVec.toNat row % 2 ^ 6) h
  simp only [hMod] at hNat
  exact BitVec.eq_of_toNat_eq hNat

theorem thread_of_stateRow (hW : thidW ≤ 4) {t t' : BitVec thidW} {r r' : BitVec 6} (h : stateRow t r = stateRow t' r') :
    t = t' :=
  (ArchState.append_injective (ArchState.setWidth_injective (Nat.le_trans (Nat.add_le_add_right hW 6) (Nat.le_max_left _ _)) h)).1

theorem hostRow_injective {x y : BitVec (thidW + 6)} (h : hostRow x = hostRow y) : x = y :=
  ArchState.setWidth_injective (Nat.le_max_right _ _) h

def slotRow (t : BitVec thidW) (m : Nat) : BitVec (hostAddrW thidW) := hostRow (t ++ BitVec.ofNat 6 m)

theorem slotRow_injective {t t' : BitVec thidW} {m m' : Nat} (hm : m < 64) (hm' : m' < 64)
    (h : slotRow t m = slotRow t' m') : t = t' ∧ m = m' := by
  obtain ⟨hThread, hRow⟩ := ArchState.append_injective (hostRow_injective h)
  have hNat := congrArg BitVec.toNat hRow
  rw [BitVec.toNat_ofNat, BitVec.toNat_ofNat, Nat.mod_eq_of_lt hm, Nat.mod_eq_of_lt hm'] at hNat
  exact ⟨hThread, hNat⟩

def slotWord (u : TransplantUnit thidW) (t : BitVec thidW) (m : Nat) : Word := ofColumns (u.hostBuffer.mem (slotRow t m))

/-- The delayed signals are those of the row before. -/
structure Tracking (u : TransplantUnit thidW) : Prop where
  counting : u.control.Counting
  idleType : u.control.state = sIdle → u.control.stateRegType = rDone
  idleOffset : u.control.state = sIdle → u.control.bramOFFST = 0 ∨ ∃ t : BitVec thidW, u.control.bramOFFST = t ++ 36#6
  first : u.control.state = sTrans → u.control.currReg.toNat = 0 →
    u.rfileWrEn = false ∧ u.stateRegTypeCurr = rDone
  type : u.control.state = sTrans → ∀ m, u.control.currReg.toNat = m + 1 → u.stateRegTypeCurr = typeAt m
  offset : u.control.state = sTrans → ∀ m, u.control.currReg.toNat = m + 1 →
    u.bramOFFSTNext = u.control.thread ++ BitVec.ofNat 6 m
  wr : u.control.state = sTrans → u.control.stateDir = bram2cpu → ∀ m, u.control.currReg.toNat = m + 1 →
    u.rfileWrEn = decide (m < 32) ∧ u.rfileWrAddr = u.control.thread ++ BitVec.ofNat 6 m ∧ u.rfileWrTag = u.control.thread

variable {u : TransplantUnit thidW}

theorem currReg_eq {r : BitVec 6} {m : Nat} (h : r.toNat = m) : r = BitVec.ofNat 6 m := by
  rw [← h, BitVec.ofNat_toNat, BitVec.setWidth_eq]

/-- In the middle of a copy the next row comes, or the copy ends after row 35. -/
theorem Tracking.row_next (h : u.Tracking) (i : Input thidW) (hTrans : u.control.state = sTrans) :
    (u.next i).control.currReg.toNat = u.control.currReg.toNat + 1 := by
  have hLe := h.counting.le hTrans
  change (u.control.next i.requests).currReg.toNat = _
  rw [(next_of_trans hTrans).2.2.1, toNat_succ (by omega)]

theorem Tracking.next (h : u.Tracking) (i : Input thidW) : (u.next i).Tracking := by
  have hCounting := h.counting.next i.requests
  have hControl : (u.next i).control = u.control.next i.requests := rfl
  cases hState : u.control.state with
  | sIdle =>
    rcases next_of_idle (i := i.requests) hState with ⟨-, hNext, hReg⟩ | ⟨-, hNext, hOffset, hType⟩
    · have hRow : (u.next i).control.currReg.toNat = 0 := by rw [hControl, hReg]; rfl
      have hOff : (u.next i).rfileWrEn = false := by
        refine decide_eq_false fun hEn => ?_
        rw [hState] at hEn
        cases hEn.1
      refine ⟨hCounting, ?_, ?_, fun _ _ => ⟨hOff, h.idleType hState⟩, ?_, ?_, ?_⟩
      · exact fun hIdle => by rw [hControl, hNext] at hIdle; cases hIdle
      · exact fun hIdle => by rw [hControl, hNext] at hIdle; cases hIdle
      all_goals intros; omega
    · refine ⟨hCounting, fun _ => hType.trans (h.idleType hState), fun _ => ?_, ?_, ?_, ?_, ?_⟩
      · rw [hControl, hOffset]
        exact h.idleOffset hState
      all_goals intro hTrans; rw [hControl, hNext] at hTrans; cases hTrans
  | sTrans =>
    obtain ⟨hThread, hDir, -, -⟩ := next_of_trans (i := i.requests) hState
    have hRow := h.row_next i hState
    have hLe := h.counting.le hState
    have hEnds : (u.next i).control.state = sIdle → u.control.finishes = true := fun hIdle => by
      rw [hControl, next_state_of_trans hState] at hIdle
      by_contra hNot
      rw [if_neg hNot] at hIdle
      cases hIdle
    refine ⟨hCounting, fun hIdle => (h.counting.end_of_finishes _ (hEnds hIdle)).1, fun hIdle => .inr ⟨u.control.thread, ?_⟩,
      ?_, ?_, ?_, ?_⟩
    · exact (h.counting.end_of_finishes _ (hEnds hIdle)).2
    · intros; omega
    · intro _ m hm
      have hEq : u.control.currReg.toNat = m := by omega
      rw [← hEq, ← h.counting.type hState]
      rfl
    · intro _ m hm
      have hEq : u.control.currReg.toNat = m := by omega
      rw [hControl, hThread, ← currReg_eq hEq, ← h.counting.offset hState]
      rfl
    · intro _ hIn m hm
      have hEq : u.control.currReg.toNat = m := by omega
      rw [hControl, hDir] at hIn
      rw [hControl, hThread, ← currReg_eq hEq]
      refine ⟨?_, rfl, rfl⟩
      have hType := h.counting.type hState
      rw [hEq] at hType
      change decide (u.control.state = sTrans ∧ u.control.stateRegType = rXregs ∧ u.control.stateDir = bram2cpu) = _
      simp [hState, hIn, hType, typeAt_eq_rXregs]

/-- The row the unit writes in the buffer of the host. -/
def stores (u : TransplantUnit thidW) : Option (BitVec (hostAddrW thidW)) :=
  if u.control.state = sTrans ∧ u.control.stateDir = cpu2bram then some (hostRow u.bramOFFSTNext) else none

theorem writePort_hostTransPort (u : TransplantUnit thidW) (i : Input thidW) (row : BitVec (hostAddrW thidW)) :
    BRAMTDP.writePort u.hostBuffer.mem (u.hostTransPort i) row =
      if u.stores = some row then columns (u.hostDI i) else u.hostBuffer.mem row := by
  rw [stores]
  by_cases hOut : u.control.state = sTrans ∧ u.control.stateDir = cpu2bram
  · have hAddr : (u.hostTransPort i).addr = hostRow u.bramOFFSTNext := by
      simp [hostTransPort, hOut.2]
    rw [if_pos hOut]
    by_cases hRow : hostRow u.bramOFFSTNext = row
    · rw [if_pos (congrArg some hRow), ← hRow, ← hAddr]
      exact BRAMTDP.writePort_full (decide_eq_true hOut.1) fun _ => decide_eq_true hOut.2
    · rw [if_neg fun hEq => hRow (Option.some.inj hEq), BRAMTDP.writePort_of_ne]
      rw [hAddr]
      exact fun hEq => hRow hEq.symm
  · rw [if_neg hOut, if_neg (by simp), BRAMTDP.writePort_of_off]
    intro col
    rw [Bool.eq_false_iff]
    intro hOn
    rw [Bool.and_eq_true] at hOn
    exact hOut ⟨of_decide_eq_true hOn.1, of_decide_eq_true hOn.2⟩

theorem hostBuffer_next (u : TransplantUnit thidW) (i : Input thidW) {row : BitVec (hostAddrW thidW)}
    (hHost : ¬ i.hostPort.Writes row) :
    (u.next i).hostBuffer.mem row = if u.stores = some row then columns (u.hostDI i) else u.hostBuffer.mem row := by
  change BRAMTDP.writePort (BRAMTDP.writePort u.hostBuffer.mem (u.hostTransPort i)) i.hostPort row = _
  rw [BRAMTDP.writePort_of_not_writes hHost, writePort_hostTransPort]

theorem slotWord_next (u : TransplantUnit thidW) (i : Input thidW) {t : BitVec thidW} {m : Nat}
    (hHost : ¬ i.hostPort.Writes (slotRow t m)) :
    (u.next i).slotWord t m = if u.stores = some (slotRow t m) then u.hostDI i else u.slotWord t m := by
  rw [slotWord, hostBuffer_next u i hHost]
  split
  · exact ofColumns_columns _
  · rfl

/-- While a thread is copied out, row `m` is written one cycle after it is read. -/
theorem Tracking.stores_eq (h : u.Tracking) (hTrans : u.control.state = sTrans) (hOut : u.control.stateDir = cpu2bram)
    {m : Nat} (hm : u.control.currReg.toNat = m + 1) : u.stores = some (slotRow u.control.thread m) := by
  rw [stores, if_pos ⟨hTrans, hOut⟩, h.offset hTrans m hm]
  rfl

end TransplantUnit

namespace PipelineState

open TransplantState TransplantDir StateRegType TransplantControl TransplantUnit

variable {thidW : Nat}

def slot (s : PipelineState thidW) (t : BitVec thidW) (m : Nat) : Word := s.transplantU.slotWord t m

def xreg (s : PipelineState thidW) (t : BitVec thidW) (m : Nat) : Word := s.archstate.reg t (BitVec.ofNat 5 m)

def row (s : PipelineState thidW) : Nat := s.transplantU.control.currReg.toNat

def copiesOut (s : PipelineState thidW) (t : BitVec thidW) : Prop :=
  s.transplantU.control.state = sTrans ∧ s.transplantU.control.stateDir = cpu2bram ∧ s.thread = t

/-- A thread copied in so far that row `n` is read next. -/
structure Entering (s : PipelineState thidW) (t : BitVec thidW) (n : Nat) : Prop where
  data : ∀ m < 35, n = m + 1 → s.transplantU.hostBufferDO = s.slot t m
  regs : ∀ m < 32, m + 1 < n → s.xreg t m = s.slot t m
  pc : 34 ≤ n → s.archstate.pcMem t = s.slot t 32
  nzcv : 36 ≤ n → s.archstate.nzcvMem t = (s.slot t 34).setWidth 4

/-- A thread copied out so far that row `n` is read next. -/
structure Leaving (s : PipelineState thidW) (t : BitVec thidW) (n : Nat) : Prop where
  data : ∀ m < 32, n = m + 1 → s.transplantU.stateBufferDO = s.xreg t m
  regs : ∀ m < 32, m + 1 < n → s.slot t m = s.xreg t m
  pc : 34 ≤ n → s.slot t 32 = s.archstate.pcMem t
  nzcv : 36 ≤ n → s.slot t 34 = (s.archstate.nzcvMem t).setWidth 64

section Steps

variable {s : PipelineState thidW} {i : Input thidW} {t : BitVec thidW} {n : Nat}

theorem ofNat_five_injective {m m' : Nat} (hm : m < 32) (hm' : m' < 32) (h : BitVec.ofNat 5 m = BitVec.ofNat 5 m') :
    m = m' := by
  have hNat := congrArg BitVec.toNat h
  rwa [BitVec.toNat_ofNat, BitVec.toNat_ofNat, Nat.mod_eq_of_lt hm, Nat.mod_eq_of_lt hm'] at hNat

theorem setWidth_append (t : BitVec thidW) (m : Nat) : (t ++ BitVec.ofNat 6 m).setWidth 5 = BitVec.ofNat 5 m := by
  apply BitVec.eq_of_toNat_eq
  rw [BitVec.toNat_setWidth, ArchState.toNat_append, BitVec.toNat_ofNat, BitVec.toNat_ofNat]
  omega

/-- The state registers the unit writes while row `n` is read: those of the thread, with the row that just came. -/
theorem pregs_of_tracking {u : TransplantUnit thidW} (h : u.Tracking) (hTrans : u.control.state = sTrans)
    (hRow : u.control.currReg.toNat = n) (curr : PStateRegs) :
    u.pregs curr = if n = 33 then { curr with pc := u.hostBufferDO }
      else if n = 35 then { curr with nzcv := u.hostBufferDO.setWidth 4 } else curr := by
  have hLe := h.counting.le hTrans
  have hType := h.counting.type hTrans
  rw [hRow] at hType hLe
  rw [TransplantUnit.pregs, hType]
  cases n with
  | zero => rfl
  | succ m =>
    rw [h.type hTrans m hRow]
    by_cases hX : m + 1 < 32
    · rw [if_pos (typeAt_eq_rXregs.mpr hX), if_neg (by omega), if_neg (by omega)]
    · rw [if_neg fun hEq => hX (typeAt_eq_rXregs.mp hEq)]
      have hCases : m = 31 ∨ m = 32 ∨ m = 33 ∨ m = 34 := by omega
      rcases hCases with rfl | rfl | rfl | rfl <;> rfl

/-- The word the unit stores while row `n` is read: the row before. -/
theorem hostDI_of_tracking {u : TransplantUnit thidW} (h : u.Tracking) (hTrans : u.control.state = sTrans)
    (hRow : u.control.currReg.toNat = n) (i : TransplantUnit.Input thidW) :
    u.hostDI i = if n = 33 then i.pregs.pc else if n = 35 then i.pregs.nzcv.setWidth 64 else u.stateBufferDO := by
  have hLe := h.counting.le hTrans
  have hType := h.counting.type hTrans
  rw [hRow] at hType hLe
  rw [TransplantUnit.hostDI, hType]
  cases n with
  | zero => rfl
  | succ m =>
    rw [h.type hTrans m hRow]
    by_cases hX : m + 1 < 32
    · rw [if_pos (typeAt_eq_rXregs.mpr hX), if_neg (by omega), if_neg (by omega)]
    · rw [if_neg fun hEq => hX (typeAt_eq_rXregs.mp hEq)]
      have hCases : m = 31 ∨ m = 32 ∨ m = 33 ∨ m = 34 := by omega
      rcases hCases with rfl | rfl | rfl | rfl <;> rfl

theorem updating_of_in (hTrans : s.transplantU.control.state = sTrans) (hIn : s.transplantU.control.stateDir = bram2cpu) :
    s.updatingPState = true := decide_eq_true ⟨hTrans, hIn⟩

theorem xreg_next_of_in (h : s.transplantU.Tracking) (hTrans : s.transplantU.control.state = sTrans)
    (hIn : s.transplantU.control.stateDir = bram2cpu) (hRow : s.row = n) {m : Nat} (hm : m < 32) :
    (s.next i).xreg s.thread m = if n = m + 1 then s.transplantU.hostBufferDO else s.xreg s.thread m := by
  have hReg := ArchState.reg_next s.archstate s.rfileWr s.pstateWrite s.thread (BitVec.ofNat 5 m)
  have hPort : s.rfileWr = s.transplantU.rfileWr := if_pos (updating_of_in hTrans hIn)
  refine hReg.trans ?_
  rw [hPort]
  cases n with
  | zero =>
    have hOff : s.transplantU.rfileWr.en = false := (h.first hTrans hRow).1
    rw [hOff, if_neg (by simp), if_neg (by omega)]
    rfl
  | succ k =>
    obtain ⟨hEn, hAddr, hTag⟩ := h.wr hTrans hIn k hRow
    have hAddr' : s.transplantU.rfileWr.addr = BitVec.ofNat 5 k := by
      rw [TransplantUnit.rfileWr, hAddr, setWidth_append]
    refine if_congr ?_ rfl rfl
    rw [hAddr']
    constructor
    · rintro ⟨hOn, -, hEq⟩
      rw [ofNat_five_injective hm (of_decide_eq_true (hEn.symm.trans hOn)) hEq]
    · intro hEq
      have hk : k = m := by omega
      subst hk
      exact ⟨hEn.trans (decide_eq_true hm), hTag.symm, rfl⟩

theorem pregs_next_of_in (h : s.transplantU.Tracking) (hTrans : s.transplantU.control.state = sTrans)
    (hIn : s.transplantU.control.stateDir = bram2cpu) (hRow : s.row = n) :
    (s.next i).archstate.pregs s.thread =
      if n = 33 then { s.archstate.pregs s.thread with pc := s.transplantU.hostBufferDO }
      else if n = 35 then { s.archstate.pregs s.thread with nzcv := s.transplantU.hostBufferDO.setWidth 4 }
      else s.archstate.pregs s.thread := by
  have hUpd := updating_of_in hTrans hIn
  have hWrite : s.pstateWrite = ⟨true, s.thread, s.transplantU.pregs (s.archstate.pregs s.thread)⟩ := by
    rw [pstateWrite, if_pos hUpd, commitTag, if_pos hUpd]
  refine (ArchState.pregs_next s.archstate s.rfileWr s.pstateWrite s.thread).trans ?_
  rw [hWrite, if_pos ⟨rfl, rfl⟩, pregs_of_tracking h hTrans hRow]

theorem slot_next_of_in (hIn : s.transplantU.control.stateDir = bram2cpu) {m : Nat}
    (hHost : ¬ i.hostPort.Writes (slotRow t m)) : (s.next i).slot t m = s.slot t m := by
  have hNone : s.transplantU.stores = none := if_neg fun hOut => by rw [hIn] at hOut; cases hOut.2
  refine (TransplantUnit.slotWord_next s.transplantU (s.transplantInput i) hHost).trans ?_
  rw [hNone, if_neg (by simp)]
  rfl

theorem hostBufferDO_next (h : s.transplantU.Tracking) (hTrans : s.transplantU.control.state = sTrans)
    (hIn : s.transplantU.control.stateDir = bram2cpu) (hRow : s.row = n) :
    (s.next i).transplantU.hostBufferDO = s.slot s.thread n := by
  have hAddr : (s.transplantU.hostTransPort (s.transplantInput i)).addr = slotRow s.thread n := by
    rw [TransplantUnit.hostTransPort, if_pos hIn, h.counting.offset hTrans, currReg_eq hRow]
    rfl
  have hRead := BRAMTDP.readPort_of_off s.transplantU.hostBuffer.mem
    (s.transplantU.hostTransPort (s.transplantInput i)) (decide_eq_true hTrans)
    (fun _ => decide_eq_false (by rw [hIn]; decide)) s.transplantU.hostBuffer.ramDataA
  rw [hAddr] at hRead
  exact congrArg ofColumns hRead

theorem entering_next (h : s.transplantU.Tracking) (hTrans : s.transplantU.control.state = sTrans)
    (hIn : s.transplantU.control.stateDir = bram2cpu) (hRow : s.row = n) (hEnter : s.Entering s.thread n)
    (hHost : ∀ m < 35, ¬ i.hostPort.Writes (slotRow s.thread m)) : (s.next i).Entering s.thread (n + 1) := by
  have hSlot : ∀ m < 35, (s.next i).slot s.thread m = s.slot s.thread m := fun m hm => slot_next_of_in hIn (hHost m hm)
  have hPregs := pregs_next_of_in (i := i) h hTrans hIn hRow
  refine ⟨fun m hm hEq => ?_, fun m hm hLt => ?_, fun hLe => ?_, fun hLe => ?_⟩
  · have hmn : m = n := by omega
    rw [hSlot m hm, hmn]
    exact hostBufferDO_next h hTrans hIn hRow
  · rw [hSlot m (by omega), xreg_next_of_in h hTrans hIn hRow hm]
    split
    · next hEq => exact hEnter.data m (by omega) hEq
    · exact hEnter.regs m hm (by omega)
  · rw [hSlot 32 (by decide)]
    have hPc := congrArg PStateRegs.pc hPregs
    by_cases hEq : n = 33
    · rw [if_pos hEq] at hPc
      exact hPc.trans (hEnter.data 32 (by decide) hEq)
    · have hOld : (s.next i).archstate.pcMem s.thread = s.archstate.pcMem s.thread := by
        rw [if_neg hEq] at hPc
        refine hPc.trans ?_
        split <;> rfl
      exact hOld.trans (hEnter.pc (by omega))
  · rw [hSlot 34 (by decide)]
    have hLeRow := h.counting.le hTrans
    have hEq : n = 35 := by
      have : n ≤ 35 := hRow ▸ hLeRow
      omega
    have hNzcv := congrArg PStateRegs.nzcv hPregs
    rw [if_neg (by omega), if_pos hEq] at hNzcv
    have hData := congrArg (BitVec.setWidth 4) (hEnter.data 34 (by decide) hEq)
    exact hNzcv.trans hData

def writesBack (s : PipelineState thidW) (t : BitVec thidW) : Prop :=
  s.commitU.canWB s.commitReady = true ∧ s.commitU.head.tag = t

theorem tag_of_applied {wr : RFileWrite thidW} (hWr : s.applied = some wr) : s.writesBack wr.tag := by
  rw [applied] at hWr
  split at hWr
  · next hOn =>
    cases hWr
    have hEn := (Bool.and_eq_true_iff.mp hOn).2
    exact ⟨(Bool.and_eq_true_iff.mp (show (s.commitU.canWB s.commitReady && _) = true from hEn)).1, rfl⟩
  · cases hWr

theorem tag_of_retired {inst : CommitInst thidW} (hInst : s.retired = some inst) : s.writesBack inst.tag := by
  rw [retired] at hInst
  split at hInst
  · next hFinal =>
    cases hInst
    rw [CommitUnit.finalCommit_eq, Bool.and_eq_true] at hFinal
    exact ⟨hFinal.1, rfl⟩
  · cases hInst

theorem state_next_of_quiet (hPorted : s.Ported) (hNot : ¬ s.copiesIn t) (hQuiet : ¬ s.writesBack t) :
    (∀ r, (s.next i).archstate.reg t r = s.archstate.reg t r) ∧ (s.next i).archstate.pregs t = s.archstate.pregs t := by
  have hFramed := hPorted.framed i
  constructor
  · intro r
    rw [hFramed.reg t r hNot]
    cases hApplied : s.applied with
    | none => rfl
    | some wr =>
      refine if_neg ?_
      rintro ⟨rfl, -⟩
      exact hQuiet (tag_of_applied hApplied)
  · rw [hFramed.pregs t hNot]
    cases hRetired : s.retired with
    | none => rfl
    | some inst =>
      refine if_neg ?_
      rintro rfl
      exact hQuiet (tag_of_retired hRetired)

theorem stateBufferDO_next (s : PipelineState thidW) (i : Input thidW) : (s.next i).transplantU.stateBufferDO =
    s.transplantU.stateBuffer.mem (stateRow s.thread s.transplantU.control.currReg) () := by
  change BRAMTDP.readPort s.transplantU.stateBuffer.mem s.transplantU.stateBufferRdPort s.transplantU.stateBuffer.ramDataB () = _
  rw [TransplantUnit.stateBufferRdPort, readPort_read]
  rfl

theorem leaving_next (h : s.transplantU.Tracking) (hTrans : s.transplantU.control.state = sTrans)
    (hOut : s.transplantU.control.stateDir = cpu2bram) (hRow : s.row = n) (hLeave : s.Leaving s.thread n)
    (hHost : ∀ m < 35, ¬ i.hostPort.Writes (slotRow s.thread m)) (hPorted : s.Ported) (hQuiet : ¬ s.writesBack s.thread)
    (hRead : n < 32 → s.transplantU.stateBuffer.mem (stateRow s.thread s.transplantU.control.currReg) () = s.xreg s.thread n) :
    (s.next i).Leaving s.thread (n + 1) := by
  have hNot : ¬ s.copiesIn s.thread := by
    rintro ⟨hIn, -⟩
    have hDir := (of_decide_eq_true hIn).2
    rw [hOut] at hDir
    cases hDir
  obtain ⟨hReg, hPregs⟩ := state_next_of_quiet (i := i) hPorted hNot hQuiet
  have hXreg : ∀ m, (s.next i).xreg s.thread m = s.xreg s.thread m := fun m => hReg _
  have hUpd : s.updatingPState = false := Bool.eq_false_iff.mpr fun hUpd => hNot ⟨hUpd, rfl⟩
  have hInput : (s.transplantInput i).pregs = s.archstate.pregs s.thread := by rw [transplantInput, hUpd]; rfl
  have hDI := hostDI_of_tracking h hTrans hRow (s.transplantInput i)
  have hSlot : ∀ m < 35, (s.next i).slot s.thread m =
      if n = m + 1 then s.transplantU.hostDI (s.transplantInput i) else
        if n = 0 ∧ s.transplantU.stores = some (slotRow s.thread m) then s.transplantU.hostDI (s.transplantInput i)
        else s.slot s.thread m := by
    intro m hm
    refine (TransplantUnit.slotWord_next s.transplantU (s.transplantInput i) (hHost m hm)).trans ?_
    cases n with
    | zero => simp [slot]
    | succ k =>
      rw [h.stores_eq hTrans hOut hRow, if_neg (c := k + 1 = 0 ∧ _) (by omega)]
      refine if_congr ⟨fun hEq => ?_, fun hEq => ?_⟩ rfl rfl
      · have hk : k < 64 := by
          have hLe := h.counting.le hTrans
          have : k + 1 ≤ 35 := hRow ▸ hLe
          omega
        rw [(slotRow_injective hk (by omega) (Option.some.inj hEq)).2]
      · rw [Nat.succ.inj hEq]
        rfl
  refine ⟨fun m hm hEq => ?_, fun m hm hLt => ?_, fun hLe => ?_, fun hLe => ?_⟩
  · have hmn : m = n := by omega
    rw [stateBufferDO_next, hXreg, hmn]
    exact hRead (by omega)
  · rw [hSlot m (by omega), hXreg]
    by_cases hEq : n = m + 1
    · rw [if_pos hEq, hDI, if_neg (by omega), if_neg (by omega)]
      exact hLeave.data m hm hEq
    · rw [if_neg hEq, if_neg (by omega)]
      exact hLeave.regs m hm (by omega)
  · have hPc := congrArg PStateRegs.pc hPregs
    rw [hSlot 32 (by decide)]
    refine Eq.trans ?_ hPc.symm
    by_cases hEq : n = 33
    · rw [if_pos hEq, hDI, if_pos hEq, hInput]
    · rw [if_neg (by omega), if_neg (by omega)]
      exact hLeave.pc (by omega)
  · have hNzcv := congrArg PStateRegs.nzcv hPregs
    have hEq : n = 35 := by
      have hLeRow := h.counting.le hTrans
      have : n ≤ 35 := hRow ▸ hLeRow
      omega
    rw [hSlot 34 (by decide), if_pos hEq, hDI, if_neg (by omega), if_pos hEq, hInput]
    exact congrArg (BitVec.setWidth 64) hNzcv.symm

end Steps

end PipelineState

/-- The path with, for each row of the state buffer, the thread that wrote it last. -/
structure OwnedPath (thidW : Nat) where
  path : PipelineState thidW
  owner : BitVec (registerAddrW thidW) → Option (BitVec thidW)

namespace OwnedPath

open TransplantState TransplantDir PipelineState
open TransplantUnit (slotRow stateRow reg_of_stateRow thread_of_stateRow)

variable {thidW : Nat}

def bufferRow (wr : RFileWrite thidW) : BitVec (registerAddrW thidW) := stateRow wr.tag (wr.addr.setWidth 6)

def next (g : OwnedPath thidW) (i : Input thidW) : OwnedPath thidW where
  path := g.path.next i
  owner row := if g.path.rfileWr.en = true ∧ row = bufferRow g.path.rfileWr then some g.path.rfileWr.tag else g.owner row

def machine (thidW : Nat) : Machine (OwnedPath thidW) (Input thidW) (Output thidW) := ⟨next, fun g i => g.path.output i⟩

def reset (c : Contents thidW) : OwnedPath thidW := ⟨.reset c, fun _ => none⟩

/-- A row that belongs to a thread holds its register. -/
def Mirrors (g : OwnedPath thidW) : Prop :=
  ∀ (t : BitVec thidW) (r : BitVec 5),
    (g.owner (stateRow t (r.setWidth 6)) = some t →
      g.path.transplantU.stateBuffer.mem (stateRow t (r.setWidth 6)) () = g.path.archstate.reg t r) ∧
    (g.owner (stateRow t (r.setWidth 6)) = none →
      g.path.transplantU.stateBuffer.mem (stateRow t (r.setWidth 6)) () = 0 ∧ g.path.archstate.reg t r = 0)

theorem reg_of_bufferRow {t t' : BitVec thidW} {r r' : BitVec 5} (h : stateRow t (r.setWidth 6) = stateRow t' (r'.setWidth 6)) :
    r = r' := ArchState.setWidth_injective (by decide) (reg_of_stateRow h)

theorem stateBuffer_next (s : PipelineState thidW) (i : Input thidW) (row : BitVec (registerAddrW thidW)) :
    (s.next i).transplantU.stateBuffer.mem row () =
      if s.rfileWr.en = true ∧ row = bufferRow s.rfileWr then s.rfileWr.data else s.transplantU.stateBuffer.mem row () := by
  have hWr : s.transplantU.stateBufferWr (s.transplantInput i) = s.rfileWr := rfl
  change BRAMTDP.writePort (BRAMTDP.writePort s.transplantU.stateBuffer.mem
    (s.transplantU.stateBufferWrPort (s.transplantInput i))) s.transplantU.stateBufferRdPort row () = _
  rw [TransplantUnit.stateBufferRdPort, writePort_read, BRAMTDP.writePort, TransplantUnit.stateBufferWrPort, hWr]
  exact if_congr (by simp [bufferRow]) rfl rfl

theorem Mirrors.next {g : OwnedPath thidW} (h : g.Mirrors) (i : Input thidW) : (g.next i).Mirrors := by
  intro t r
  have hMem := stateBuffer_next g.path i (stateRow t (r.setWidth 6))
  have hReg : (g.path.next i).archstate.reg t r = _ := ArchState.reg_next g.path.archstate g.path.rfileWr g.path.pstateWrite t r
  change ((if _ then _ else _) = some t → (g.path.next i).transplantU.stateBuffer.mem _ () = (g.path.next i).archstate.reg t r) ∧
    ((if _ then _ else _) = none → (g.path.next i).transplantU.stateBuffer.mem _ () = 0 ∧ (g.path.next i).archstate.reg t r = 0)
  rw [hMem, hReg]
  by_cases hRow : g.path.rfileWr.en = true ∧ stateRow t (r.setWidth 6) = bufferRow g.path.rfileWr
  · rw [if_pos hRow, if_pos hRow]
    refine ⟨fun hOwner => ?_, nofun⟩
    rw [if_pos ⟨hRow.1, (Option.some.inj hOwner).symm, reg_of_bufferRow hRow.2⟩]
  · rw [if_neg hRow, if_neg hRow, if_neg]
    · exact h t r
    · rintro ⟨hEn, rfl, rfl⟩
      exact hRow ⟨hEn, rfl⟩

/-- The conditions on a cycle under which copies are exact. -/
structure Undisturbed (g : OwnedPath thidW) (i : Input thidW) : Prop where
  /-- The host leaves the slot that is being copied alone. -/
  host : g.path.transplantU.control.state = sTrans → ∀ m < 35, ¬ i.hostPort.Writes (slotRow g.path.thread m)
  /-- A thread that is copied out does not commit. -/
  quiet : g.path.copiesOut g.path.thread → ¬ g.path.writesBack g.path.thread
  /-- The first copy of all is not one out, unless of thread 0. -/
  first : g.path.transplantU.control.takesCpu (g.path.transplantInput i).requests = true →
    g.path.transplantU.control.bramOFFST = 0 →
    g.path.transplantU.control.threadNext (g.path.transplantInput i).requests = 0

/-- No other thread wrote the row of the state buffer that is read for a thread copied out. -/
def ReadsOwn (g : OwnedPath thidW) (_ : Input thidW) : Prop :=
  g.path.copiesOut g.path.thread → g.path.row < 32 →
    ∀ t, g.owner (stateRow g.path.thread g.path.transplantU.control.currReg) = some t → t = g.path.thread

/-- The state of the thread is what its slot says. -/
structure Loaded (s : PipelineState thidW) (t : BitVec thidW) : Prop where
  xregs : ∀ m < 32, s.xreg t m = s.slot t m
  pc : s.archstate.pcMem t = s.slot t 32
  nzcv : s.archstate.nzcvMem t = (s.slot t 34).setWidth 4

/-- The slot of the thread is what its state says. -/
structure Stored (s : PipelineState thidW) (t : BitVec thidW) : Prop where
  xregs : ∀ m < 32, s.slot t m = s.xreg t m
  pc : s.slot t 32 = s.archstate.pcMem t
  nzcv : s.slot t 34 = (s.archstate.nzcvMem t).setWidth 64

/-- What a cycle has to do for the round trip: a copy ends with state and slot equal, and nothing else
changes the state of a thread but its own instructions, or a slot but the host and a copy of its thread. -/
structure RoundTrip (g : OwnedPath thidW) (i : Input thidW) : Prop where
  entered : ∀ t, (g.path.output i).start = some t → Loaded (g.path.next i) t
  left : ∀ t, (g.path.output i).hostDone = some t → Stored (g.path.next i) t
  state : g.path.Framed i
  slots : ∀ t, ¬ g.path.copiesOut t → ∀ m < 35, (g.path.next i).transplantU.hostBuffer.mem (slotRow t m) =
    BRAMTDP.writePort g.path.transplantU.hostBuffer.mem i.hostPort (slotRow t m)

structure Copying (s : PipelineState thidW) : Prop where
  entering : s.transplantU.control.state = sTrans → s.transplantU.control.stateDir = bram2cpu → s.Entering s.thread s.row
  leaving : s.transplantU.control.state = sTrans → s.transplantU.control.stateDir = cpu2bram → s.Leaving s.thread s.row
  stray : s.transplantU.control.state = sTrans → s.transplantU.control.stateDir = cpu2bram → s.row = 0 →
    (∃ t : BitVec thidW, s.transplantU.bramOFFSTNext = t ++ 36#6) ∨ s.transplantU.bramOFFSTNext = 0 ∧ s.thread = 0

/-- What holds between the cycles of a run. -/
structure Sound (g : OwnedPath thidW) : Prop where
  tracking : g.path.transplantU.Tracking
  ported : g.path.Ported
  mirrors : g.Mirrors
  copying : Copying g.path

theorem Sound.reset (c : Contents thidW) : (reset c).Sound where
  tracking := ⟨.reset, fun _ => rfl, fun _ => .inl rfl, nofun, nofun, nofun, nofun⟩
  ported := .reset c
  mirrors := fun _ _ => ⟨nofun, fun _ => ⟨rfl, rfl⟩⟩
  copying := ⟨nofun, nofun, nofun⟩

section Cycle

variable {g : OwnedPath thidW} {i : Input thidW}

theorem Sound.read (h : g.Sound) (hOwn : g.ReadsOwn i) (hOut : g.path.copiesOut g.path.thread) (hRow : g.path.row < 32) :
    g.path.transplantU.stateBuffer.mem (stateRow g.path.thread g.path.transplantU.control.currReg) () =
      g.path.xreg g.path.thread g.path.row := by
  have hReg : g.path.transplantU.control.currReg = (BitVec.ofNat 5 g.path.row).setWidth 6 := by
    apply BitVec.eq_of_toNat_eq
    rw [BitVec.toNat_setWidth, BitVec.toNat_ofNat]
    change g.path.row = _
    omega
  obtain ⟨hMine, hNone⟩ := h.mirrors g.path.thread (BitVec.ofNat 5 g.path.row)
  have hOwned := hOwn hOut hRow
  rw [hReg] at hOwned ⊢
  cases hOwner : g.owner (stateRow g.path.thread ((BitVec.ofNat 5 g.path.row).setWidth 6)) with
  | none =>
    obtain ⟨hMem, hZero⟩ := hNone hOwner
    exact hMem.trans hZero.symm
  | some t =>
    rw [hOwned t hOwner] at hOwner
    exact hMine hOwner

theorem Sound.entering_next (h : g.Sound) (hRule : g.Undisturbed i) (hTrans : g.path.transplantU.control.state = sTrans)
    (hIn : g.path.transplantU.control.stateDir = bram2cpu) : (g.path.next i).Entering g.path.thread (g.path.row + 1) :=
  PipelineState.entering_next h.tracking hTrans hIn rfl (h.copying.entering hTrans hIn) (hRule.host hTrans)

theorem Sound.leaving_next (h : g.Sound) (hRule : g.Undisturbed i) (hOwn : g.ReadsOwn i) (hTrans : g.path.transplantU.control.state = sTrans)
    (hOut : g.path.transplantU.control.stateDir = cpu2bram) : (g.path.next i).Leaving g.path.thread (g.path.row + 1) :=
  PipelineState.leaving_next h.tracking hTrans hOut rfl (h.copying.leaving hTrans hOut) (hRule.host hTrans) h.ported
    (hRule.quiet ⟨hTrans, hOut, rfl⟩) (h.read hOwn ⟨hTrans, hOut, rfl⟩)

theorem Sound.copying_next (h : g.Sound) (hRule : g.Undisturbed i) (hOwn : g.ReadsOwn i) : Copying (g.path.next i) := by
  have hControl : (g.path.next i).transplantU.control =
      g.path.transplantU.control.next (g.path.transplantInput i).requests := rfl
  cases hState : g.path.transplantU.control.state with
  | sIdle =>
    rcases TransplantControl.next_of_idle (i := (g.path.transplantInput i).requests) hState with
      ⟨hTakes, -, hReg⟩ | ⟨-, hNext, -, -⟩
    · have hRow : (g.path.next i).row = 0 := by rw [row, hControl, hReg]; rfl
      refine ⟨fun _ _ => ?_, fun _ _ => ?_, fun _ hDir _ => ?_⟩
      · rw [hRow]
        exact ⟨nofun, nofun, nofun, nofun⟩
      · rw [hRow]
        exact ⟨nofun, nofun, nofun, nofun⟩
      · have hHost : g.path.transplantU.control.takesHost (g.path.transplantInput i).requests = false := by
          rw [Bool.eq_false_iff]
          intro hHost
          have hIn : (g.path.next i).transplantU.control.stateDir = bram2cpu := if_pos hHost
          rw [hDir] at hIn
          cases hIn
        rw [hHost, Bool.false_or] at hTakes
        rcases h.tracking.idleOffset hState with hZero | hBehind
        · exact .inr ⟨hZero, hRule.first hTakes hZero⟩
        · exact .inl hBehind
    · have hIdle : (g.path.next i).transplantU.control.state ≠ sTrans := by
        rw [hControl, hNext]
        decide
      exact ⟨fun hTrans => absurd hTrans hIdle, fun hTrans => absurd hTrans hIdle, fun hTrans => absurd hTrans hIdle⟩
  | sTrans =>
    obtain ⟨hThread, hDir, -, -⟩ := TransplantControl.next_of_trans (i := (g.path.transplantInput i).requests) hState
    have hRow : (g.path.next i).row = g.path.row + 1 := h.tracking.row_next (g.path.transplantInput i) hState
    refine ⟨fun _ hIn => ?_, fun _ hOut => ?_, fun _ _ hZero => ?_⟩
    · rw [hRow, PipelineState.thread, hControl, hThread]
      exact h.entering_next hRule hState (hDir.symm.trans hIn)
    · rw [hRow, PipelineState.thread, hControl, hThread]
      exact h.leaving_next hRule hOwn hState (hDir.symm.trans hOut)
    · omega

theorem Sound.next (h : g.Sound) (hRule : g.Undisturbed i) (hOwn : g.ReadsOwn i) : (g.next i).Sound :=
  ⟨h.tracking.next _, h.ported.next i, h.mirrors.next i, h.copying_next hRule hOwn⟩

theorem Sound.stores_ne (h : g.Sound) {t : BitVec thidW} (hNot : ¬ g.path.copiesOut t) {m : Nat} (hm : m < 35) :
    g.path.transplantU.stores ≠ some (slotRow t m) := by
  intro hStores
  rw [TransplantUnit.stores] at hStores
  split at hStores
  · next hOut =>
    have hRow := TransplantUnit.hostRow_injective (Option.some.inj hStores)
    have hOther : g.path.thread ≠ t := fun hEq => hNot ⟨hOut.1, hOut.2, hEq⟩
    cases hn : g.path.row with
    | zero =>
      rcases h.copying.stray hOut.1 hOut.2 hn with ⟨t', hBehind⟩ | ⟨hZero, hThread⟩
      · rw [hRow] at hBehind
        have hNat := congrArg BitVec.toNat (ArchState.append_injective hBehind).2
        rw [BitVec.toNat_ofNat, Nat.mod_eq_of_lt (by omega)] at hNat
        simp at hNat
        omega
      · rw [hRow] at hZero
        have hSplit : (0 : BitVec (thidW + 6)) = (0 : BitVec thidW) ++ (0 : BitVec 6) := by simp
        rw [hSplit] at hZero
        exact hOther (hThread.trans (ArchState.append_injective hZero).1.symm)
    | succ k =>
      rw [h.tracking.offset hOut.1 k hn] at hRow
      exact hOther (ArchState.append_injective hRow).1
  · cases hStores

theorem Sound.roundTrip (h : g.Sound) (hRule : g.Undisturbed i) (hOwn : g.ReadsOwn i) : g.RoundTrip i := by
  refine ⟨fun t hStart => ?_, fun t hDone => ?_, h.ported.framed i, fun t hNot m hm => ?_⟩
  · obtain ⟨hEnd, hIn, hThread⟩ : g.path.transplantU.control.finishes = true ∧
        g.path.transplantU.control.stateDir = bram2cpu ∧ g.path.thread = t := by
      change (if _ then _ else _) = _ at hStart
      split at hStart
      · next hBoth =>
        rw [Bool.and_eq_true, decide_eq_true_eq] at hBoth
        exact ⟨hBoth.1, hBoth.2, Option.some.inj hStart⟩
      · cases hStart
    have hTrans := (of_decide_eq_true hEnd).1
    have hLast := h.entering_next hRule hTrans hIn
    have hRow : g.path.row = 35 := (h.tracking.counting.finishes_iff hTrans).mp hEnd
    rw [hThread, hRow] at hLast
    exact ⟨fun m hm => hLast.regs m hm (by omega), hLast.pc (by decide), hLast.nzcv (by decide)⟩
  · obtain ⟨hEnd, hOut, hThread⟩ : g.path.transplantU.control.finishes = true ∧
        g.path.transplantU.control.stateDir = cpu2bram ∧ g.path.thread = t := by
      change (if _ then _ else _) = _ at hDone
      split at hDone
      · next hBoth =>
        rw [Bool.and_eq_true, decide_eq_true_eq] at hBoth
        exact ⟨hBoth.1, hBoth.2, Option.some.inj hDone⟩
      · cases hDone
    have hTrans := (of_decide_eq_true hEnd).1
    have hLast := h.leaving_next hRule hOwn hTrans hOut
    have hRow : g.path.row = 35 := (h.tracking.counting.finishes_iff hTrans).mp hEnd
    rw [hThread, hRow] at hLast
    exact ⟨fun m hm => hLast.regs m hm (by omega), hLast.pc (by decide), hLast.nzcv (by decide)⟩
  · refine BRAMTDP.writePort_congr (Eq.trans (TransplantUnit.writePort_hostTransPort _ _ _) ?_)
    exact if_neg (h.stores_ne hNot hm)

end Cycle

theorem owner_eq (hW : thidW ≤ 4) (c : Contents thidW) (is : List (Input thidW)) {t t' : BitVec thidW} {r : BitVec 6}
    (hOwner : ((machine thidW).run (reset c) is).owner (stateRow t r) = some t') : t' = t := by
  have hRows : ∀ row t', ((machine thidW).run (reset c) is).owner row = some t' → ∃ r, row = stateRow t' r := by
    have hReach : (machine thidW).Reachable (reset c) ((machine thidW).run (reset c) is) := ⟨is, rfl⟩
    refine @Machine.Reachable.invariant _ _ _ _ (fun g => ∀ row t', g.owner row = some t' → ∃ r, row = stateRow t' r)
      _ _ hReach nofun fun g i h row t' hOwner => ?_
    change (if _ then _ else _) = _ at hOwner
    split at hOwner
    · next hWr =>
      cases hOwner
      exact ⟨_, hWr.2⟩
    · exact h row t' hOwner
  obtain ⟨r', hRow⟩ := hRows _ _ hOwner
  exact (thread_of_stateRow hW hRow).symm

/-- In every run whose cycles leave the copies alone, a copy in gives the thread the state in its slot, a copy
out puts the thread's state in its slot, and nothing of another thread changes: with up to sixteen threads
always, with more as long as no register is read for a thread that another thread wrote last. -/
theorem transplant_round_trip (c : Contents thidW) {is : List (Input thidW)}
    (h : (machine thidW).Along Undisturbed (reset c) is)
    (hOwn : thidW ≤ 4 ∨ (machine thidW).Along ReadsOwn (reset c) is) : (machine thidW).Along RoundTrip (reset c) is := by
  have hReads : (machine thidW).Along ReadsOwn (reset c) is := by
    rcases hOwn with hW | hReads
    · rw [Machine.along_iff_prefix]
      exact fun js _ _ _ _ _ _ hOwner => owner_eq hW c js hOwner
    · exact hReads
  exact (h.and hReads).of_invariant (Sound.reset c) (fun _ _ (hSound : Sound _) hRule => hSound.next hRule.1 hRule.2)
    fun _ _ (hSound : Sound _) hRule => hSound.roundTrip hRule.1 hRule.2

section Runs

def undefInst (tag : BitVec thidW) : CommitInst thidW := ⟨tag, fun _ => none, fun _ => 0, none, none, false, true, false⟩

def quietPort : HostPort thidW := ⟨false, fun _ => false, 0, fun _ => 0⟩

def starting (pending : BitVec (2 ^ thidW)) : Input thidW := ⟨none, pending, 0, quietPort⟩

/-- The state the host pushed for each thread has a single register, X0. -/
def pushed (x0 : BitVec thidW → Word) : Contents thidW where
  queue := fun _ => undefInst 0
  pcMem := fun _ => 0
  nzcvMem := fun _ => 0
  hostBuffer := ⟨fun row => columns (if row.toNat % 64 = 0 then x0 (BitVec.ofNat thidW (row.toNat / 64)) else 0),
    fun _ => 0, fun _ => 0⟩

/-- Thread 0 and then the threads of `later` are copied in; thread 0 meets an undefined instruction and is copied out. -/
def inAndOut (later : List (BitVec thidW)) : List (Input thidW) :=
  ((0 :: later).flatMap fun t => starting (bitOf _ (some t)) :: List.replicate 36 (starting 0)) ++
    ⟨some (undefInst 0), 0, 0, quietPort⟩ :: List.replicate 38 (starting 0)

/-- With thirty-two threads thread 0 comes out with a register of thread 16. -/
theorem round_trip_aliased :
    let s := (PipelineState.machine 5).run (.reset (pushed fun t => if t = 0 then 1 else 2)) (inAndOut [16])
    s.xreg 0 0 = 1 ∧ s.slot 0 0 = 2 ∧
      ((PipelineState.machine 5).emitted Output.hostDone (.reset (pushed fun t => if t = 0 then 1 else 2)) (inAndOut [16])) = [0] := by
  decide +kernel

instance (g : OwnedPath thidW) (i : Input thidW) : Decidable (g.Undisturbed i) :=
  have := inferInstanceAs (Decidable (g.path.transplantU.control.state = sTrans ∧
    g.path.transplantU.control.stateDir = cpu2bram ∧ g.path.thread = g.path.thread))
  have : Decidable (g.path.copiesOut g.path.thread) := this
  have : Decidable (g.path.writesBack g.path.thread) := inferInstanceAs (Decidable (_ ∧ _))
  decidable_of_iff ((g.path.transplantU.control.state = sTrans → ∀ m < 35, ¬ i.hostPort.Writes (slotRow g.path.thread m)) ∧
    (g.path.copiesOut g.path.thread → ¬ g.path.writesBack g.path.thread) ∧
    (g.path.transplantU.control.takesCpu (g.path.transplantInput i).requests = true →
      g.path.transplantU.control.bramOFFST = 0 →
      g.path.transplantU.control.threadNext (g.path.transplantInput i).requests = 0))
    ⟨fun ⟨hHost, hQuiet, hFirst⟩ => ⟨hHost, hQuiet, hFirst⟩, fun h => ⟨h.host, h.quiet, h.first⟩⟩

theorem transplant_round_trip_of_two : (machine 1).Along RoundTrip (reset (pushed fun t => t.setWidth 64 + 1)) (inAndOut [1]) :=
  transplant_round_trip _ (by decide +kernel) (.inl (by decide))

end Runs

end OwnedPath

end KnockoutKraken.Armflex
