import KnockoutKraken.Armflex.PipelineWithTransplant

/-!
# Who changes the state of a thread

The registers of a thread change only for an instruction of its own or
while it is copied in, and every instruction that is accepted has each of
its results written exactly once, in order, whenever the transplant unit
takes the write ports in between.
-/

namespace KnockoutKraken.Armflex

open Library Util

namespace CommitInst

variable {thidW : Nat} (inst : CommitInst thidW)

def writes : List (RFileWrite thidW) := ([0, 1, 2].map inst.write).filter RFileWrite.en

/-- The writes made before a state of the write-back. -/
def writesBefore (w : WbState) : List (RFileWrite thidW) :=
  (([0, 1, 2].filter fun k => decide (k < w.index)).map inst.write).filter RFileWrite.en

theorem writesBefore_prefix (w : WbState) : inst.writesBefore w <+: inst.writes := by
  cases w with
  | sWB => exact List.nil_prefix
  | sWB1 => exact ⟨([1, 2].map inst.write).filter RFileWrite.en, by rw [writesBefore, writes, ← List.filter_append]; rfl⟩
  | sWB2 => exact ⟨([2].map inst.write).filter RFileWrite.en, by rw [writesBefore, writes, ← List.filter_append]; rfl⟩

end CommitInst

namespace CommitUnit

open WbState

variable {thidW : Nat} {u : CommitUnit thidW} {ready : Bool}

/-- In the middle of a write-back the head is there. -/
def Midway (u : CommitUnit thidW) : Prop := u.wbState ≠ sWB → u.commitQueue.deqValid = true

def written (u : CommitUnit thidW) : List (RFileWrite thidW) := u.head.writesBefore u.wbState

theorem written_of_sWB (h : u.wbState = sWB) : u.written = [] := by
  rw [written, h]
  rfl

/-- A cycle of write-back makes the next write of the head, and the last such cycle its last one. -/
theorem written_append_wr (hWB : u.canWB ready = true) :
    u.written ++ (if (u.wr ready).en then [u.wr ready] else []) =
      if u.wbStateNext ready = sWB then u.head.writes else u.head.writesBefore (u.wbStateNext ready) := by
  have hWr : u.wr ready = u.head.write u.wbState.index := by
    rw [wr, hWB, Bool.true_and]
  rw [hWr, wbStateNext, if_pos hWB, written]
  cases hState : u.wbState with
  | sWB =>
    cases h0 : u.head.rd 0 <;> cases h1 : u.head.rd 1 <;> cases h2 : u.head.rd 2 <;>
      simp [CommitInst.writesBefore, CommitInst.writes, CommitInst.write, WbState.index, h0, h1, h2]
  | sWB1 =>
    cases h0 : u.head.rd 0 <;> cases h1 : u.head.rd 1 <;> cases h2 : u.head.rd 2 <;>
      simp [CommitInst.writesBefore, CommitInst.writes, CommitInst.write, WbState.index, h0, h1, h2]
  | sWB2 =>
    cases h0 : u.head.rd 0 <;> cases h1 : u.head.rd 1 <;> cases h2 : u.head.rd 2 <;>
      simp [CommitInst.writesBefore, CommitInst.writes, CommitInst.write, WbState.index, h0, h1, h2]

theorem finalCommit_eq : u.finalCommit ready = (u.canWB ready && decide (u.wbStateNext ready = sWB)) := by
  rw [finalCommit, deqReady, canWB]
  cases u.commitQueue.deqValid <;> cases ready <;> simp

theorem head_next (hStay : u.finalCommit ready = false) (hValid : u.commitQueue.deqValid = true)
    (enq : Option (CommitInst thidW)) :
    (u.next ready enq).commitQueue.deqValid = true ∧ (u.next ready enq).head = u.head :=
  RamQueue.deqBits_next hValid hStay

theorem Midway.next (h : u.Midway) (ready : Bool) (enq : Option (CommitInst thidW)) : (u.next ready enq).Midway := by
  intro hBusy
  have hState : u.wbStateNext ready ≠ sWB := hBusy
  have hStay : u.finalCommit ready = false := by rw [finalCommit_eq, decide_eq_false hState, Bool.and_false]
  refine (head_next hStay ?_ enq).1
  cases hWB : u.canWB ready with
  | true =>
    simp only [canWB, Bool.and_eq_true] at hWB
    exact hWB.2
  | false =>
    rw [wbStateNext, hWB] at hState
    exact h hState

/-- What the head had written and what is written in a cycle is what it leaves behind or has written after it. -/
theorem written_next (h : u.Midway) (enq : Option (CommitInst thidW)) :
    u.written ++ (if (u.wr ready).en then [u.wr ready] else []) =
      (if u.finalCommit ready then u.head.writes else []) ++ (u.next ready enq).written := by
  have hStateNext : (u.next ready enq).wbState = u.wbStateNext ready := rfl
  cases hWB : u.canWB ready with
  | false =>
    have hFinal : u.finalCommit ready = false := by rw [finalCommit_eq, hWB, Bool.false_and]
    have hSame : u.wbStateNext ready = u.wbState := by rw [wbStateNext, hWB]; rfl
    have hQuiet : (u.wr ready).en = false := by rw [wr, hWB, Bool.false_and]
    rw [hQuiet, hFinal, if_neg (by decide), if_neg (by decide), List.append_nil, List.nil_append]
    by_cases hState : u.wbState = sWB
    · rw [written_of_sWB hState, written_of_sWB (hStateNext.trans (hSame.trans hState))]
    · rw [written, written, hStateNext, hSame, (head_next hFinal (h hState) enq).2]
  | true =>
    rw [written_append_wr hWB]
    by_cases hLast : u.wbStateNext ready = sWB
    · have hFinal : u.finalCommit ready = true := by rw [finalCommit_eq, hWB, decide_eq_true hLast]; rfl
      rw [if_pos hLast, if_pos hFinal, written_of_sWB (hStateNext.trans hLast), List.append_nil]
    · have hFinal : u.finalCommit ready = false := by rw [finalCommit_eq, decide_eq_false hLast, Bool.and_false]
      have hValid : u.commitQueue.deqValid = true := by
        simp only [canWB, Bool.and_eq_true] at hWB
        exact hWB.2
      rw [if_neg hLast, hFinal, if_neg (by decide), List.nil_append, written, hStateNext, (head_next hFinal hValid enq).2]

end CommitUnit

namespace PipelineState

variable {thidW : Nat} {s : PipelineState thidW} {i : Input thidW}

def copiesIn (s : PipelineState thidW) (t : BitVec thidW) : Prop := s.updatingPState = true ∧ s.thread = t

/-- The invariant of the two owners of the write ports. -/
structure Ported (s : PipelineState thidW) : Prop where
  midway : s.commitU.Midway
  delayed : s.updatingPState = true → s.transplantU.rfileWrEn = true → s.transplantU.rfileWrTag = s.thread

theorem Ported.reset (c : Contents thidW) : (reset c).Ported := ⟨fun h => absurd rfl h, nofun⟩

theorem Ported.next (h : s.Ported) (i : Input thidW) : (s.next i).Ported := by
  refine ⟨h.midway.next _ _, fun _ hEn => ?_⟩
  have hTrans : s.transplantU.control.state = .sTrans := (of_decide_eq_true hEn).1
  obtain ⟨hHost, hCpu⟩ := TransplantControl.takes_of_trans (i := (s.transplantInput i).requests) hTrans
  change s.transplantU.control.thread = s.transplantU.control.threadNext (s.transplantInput i).requests
  rw [TransplantControl.threadNext, hHost, hCpu]
  rfl

/-- A thread that is not being copied in keeps its state, but for the write and the commit of the cycle. -/
structure Framed (s : PipelineState thidW) (i : Input thidW) : Prop where
  reg : ∀ t r, ¬ s.copiesIn t → (s.next i).archstate.reg t r =
    match s.applied with
    | some wr => if t = wr.tag ∧ r = wr.addr then wr.data else s.archstate.reg t r
    | none => s.archstate.reg t r
  pregs : ∀ t, ¬ s.copiesIn t → (s.next i).archstate.pregs t =
    match s.retired with
    | some inst => if t = inst.tag then inst.update (s.archstate.pregs t) else s.archstate.pregs t
    | none => s.archstate.pregs t
  owner : ∀ wr ∈ s.applied, wr ∈ s.commitU.head.writes ∧ s.commitU.commitQueue.items.head? = some s.commitU.head

theorem finalCommit_of_updating (h : s.updatingPState = true) : s.commitU.finalCommit s.commitReady = false := by
  rw [CommitUnit.finalCommit_eq, CommitUnit.canWB, commitReady, h]
  rfl

theorem mem_writes_of_wr {u : CommitUnit thidW} {ready : Bool} (hEn : (u.wr ready).en = true) :
    u.wr ready ∈ u.head.writes ∧ u.commitQueue.items.head? = some u.head := by
  have hBoth := Bool.and_eq_true_iff.mp (show (u.canWB ready && (u.head.write u.wbState.index).en) = true from hEn)
  have hWr : u.wr ready = u.head.write u.wbState.index := by rw [CommitUnit.wr, hBoth.1, Bool.true_and]
  have hValid : u.commitQueue.deqValid = true := (Bool.and_eq_true_iff.mp hBoth.1).2
  refine ⟨?_, by rw [RamQueue.head?_items, hValid]; rfl⟩
  rw [hWr, CommitInst.writes, List.mem_filter]
  refine ⟨List.mem_map_of_mem ?_, hBoth.2⟩
  cases u.wbState <;> simp [WbState.index]

theorem Ported.framed (h : s.Ported) (i : Input thidW) : s.Framed i := by
  have hReg := fun t r => ArchState.reg_next s.archstate s.rfileWr s.pstateWrite t r
  have hPregs := fun t => ArchState.pregs_next s.archstate s.rfileWr s.pstateWrite t
  refine ⟨fun t r hNot => ?_, fun t hNot => ?_, fun wr hWr => ?_⟩
  · refine (hReg t r).trans ?_
    rw [applied]
    cases hUpd : s.updatingPState with
    | true =>
      have hOther : ¬ (s.rfileWr.en = true ∧ t = s.rfileWr.tag ∧ r = s.rfileWr.addr) := by
        rintro ⟨hEn, rfl, -⟩
        rw [rfileWr, if_pos hUpd] at hEn hNot
        exact hNot ⟨hUpd, (h.delayed hUpd hEn).symm⟩
      rw [if_neg hOther]
      rfl
    | false =>
      have hPort : s.rfileWr = s.commitU.wr s.commitReady := by rw [rfileWr, hUpd]; rfl
      rw [hPort, Bool.not_false, Bool.true_and]
      cases hEn : (s.commitU.wr s.commitReady).en <;> simp
  · refine (hPregs t).trans ?_
    rw [retired]
    cases hUpd : s.updatingPState with
    | true =>
      have hTag : s.pstateWrite.tag = s.thread := by rw [pstateWrite, if_pos hUpd, commitTag, if_pos hUpd]
      have hOther : ¬ (s.pstateWrite.valid = true ∧ t = s.pstateWrite.tag) :=
        fun hBoth => hNot ⟨hUpd, (hBoth.2.trans hTag).symm⟩
      rw [if_neg hOther, finalCommit_of_updating hUpd]
      rfl
    | false =>
      have hPort : s.pstateWrite = ⟨s.commitU.finalCommit s.commitReady, s.commitU.head.tag,
          s.commitU.regsNext s.commitReady (s.archstate.pregs s.commitU.head.tag)⟩ := by
        rw [pstateWrite, commitTag, hUpd]
        rfl
      rw [hPort]
      cases hFinal : s.commitU.finalCommit s.commitReady with
      | false => simp
      | true =>
        simp only [CommitUnit.regsNext, hFinal, true_and, if_true]
        split
        · next hTag => rw [← hTag]
        · rfl
  · rw [applied] at hWr
    split at hWr
    · next hEn =>
      cases hWr
      exact mem_writes_of_wr (Bool.and_eq_true_iff.mp hEn).2
    · cases hWr

theorem items_next (s : PipelineState thidW) (i : Input thidW) :
    s.retired.toList ++ (s.next i).commitU.commitQueue.items =
      s.commitU.commitQueue.items ++ (s.accepted i).toList := by
  have hQueue := RamQueue.items_conserved s.commitU.commitQueue true i.enq (s.commitU.deqReady s.commitReady)
  have hRetired : s.retired.toList =
      if s.commitU.commitQueue.doDeq (s.commitU.deqReady s.commitReady) then [s.commitU.commitQueue.deqBits] else [] := by
    rw [retired, CommitUnit.finalCommit, RamQueue.doDeq]
    split <;> rfl
  rw [hRetired]
  exact hQueue

theorem written_next (h : s.Ported) (i : Input thidW) :
    s.commitU.written ++ s.applied.toList =
      s.retired.toList.flatMap CommitInst.writes ++ (s.next i).commitU.written := by
  have hApplied : s.applied.toList = if (s.commitU.wr s.commitReady).en then [s.commitU.wr s.commitReady] else [] := by
    have hReady : (s.commitU.wr s.commitReady).en = true → s.updatingPState = false := fun hEn => by
      have hWB := (Bool.and_eq_true_iff.mp (show (s.commitU.canWB s.commitReady && _) = true from hEn)).1
      simpa [commitReady] using (Bool.and_eq_true_iff.mp hWB).1
    rw [applied]
    cases hEn : (s.commitU.wr s.commitReady).en with
    | false => simp
    | true => simp [hReady hEn]
  have hRetired : s.retired.toList.flatMap CommitInst.writes =
      if s.commitU.finalCommit s.commitReady then s.commitU.head.writes else [] := by
    rw [retired]
    split <;> simp
  rw [hApplied, hRetired]
  exact CommitUnit.written_next h.midway i.enq

/-- In every run, every register write the file takes from the commit unit belongs to a committed instruction
or to the head, each instruction's writes are made in order and once, and apart from them and from the commits
of a thread only its own copy-in changes the thread's registers, program counter and flags. -/
theorem commit_frame (c : Contents thidW) (is : List (Input thidW)) :
    let last := (machine thidW).run (reset c) is
    let retired := (machine thidW).emitted Output.retired (reset c) is
    (machine thidW).Along Framed (reset c) is ∧
    (machine thidW).emitted Output.accepted (reset c) is = retired ++ last.commitU.commitQueue.items ∧
    (machine thidW).emitted Output.applied (reset c) is = retired.flatMap CommitInst.writes ++ last.commitU.written ∧
    last.commitU.written <+: last.commitU.head.writes ∧
    (last.commitU.written ≠ [] → last.commitU.commitQueue.items.head? = some last.commitU.head) := by
  have hAll : ∀ (is : List (Input thidW)) (s : PipelineState thidW), s.Ported →
      ((machine thidW).run s is).Ported ∧ (machine thidW).Along Framed s is ∧
      s.commitU.commitQueue.items ++ (machine thidW).emitted Output.accepted s is =
        (machine thidW).emitted Output.retired s is ++ ((machine thidW).run s is).commitU.commitQueue.items ∧
      s.commitU.written ++ (machine thidW).emitted Output.applied s is =
        ((machine thidW).emitted Output.retired s is).flatMap CommitInst.writes ++ ((machine thidW).run s is).commitU.written := by
    intro is
    induction is with
    | nil => exact fun s h => ⟨h, trivial, by simp, by simp⟩
    | cons i is ih =>
      intro s h
      obtain ⟨hPorted, hFramed, hItems, hWritten⟩ := ih (s.next i) (h.next i)
      refine ⟨hPorted, ⟨h.framed i, hFramed⟩, ?_, ?_⟩
      · rw [Machine.emitted_cons, Machine.emitted_cons, List.append_assoc, ← List.append_assoc]
        change (s.commitU.commitQueue.items ++ (s.accepted i).toList) ++ _ = s.retired.toList ++ _
        rw [← items_next, List.append_assoc]
        exact congrArg (s.retired.toList ++ ·) hItems
      · rw [Machine.emitted_cons, Machine.emitted_cons, List.flatMap_append, List.append_assoc, ← List.append_assoc]
        change (s.commitU.written ++ s.applied.toList) ++ _ = s.retired.toList.flatMap CommitInst.writes ++ _
        rw [written_next h, List.append_assoc]
        exact congrArg (s.retired.toList.flatMap CommitInst.writes ++ ·) hWritten
  obtain ⟨hPorted, hFramed, hItems, hWritten⟩ := hAll is (reset c) (.reset c)
  refine ⟨hFramed, ?_, ?_, CommitInst.writesBefore_prefix _ _, fun hSome => ?_⟩
  · rw [← hItems]
    rfl
  · rw [← hWritten]
    rfl
  · have hValid := hPorted.midway fun hState => hSome (CommitUnit.written_of_sWB hState)
    rw [RamQueue.head?_items, hValid]
    rfl

end PipelineState

end KnockoutKraken.Armflex
