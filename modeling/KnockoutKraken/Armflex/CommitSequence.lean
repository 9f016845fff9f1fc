import KnockoutKraken.Armflex.CommitFrame

/-!
# The sequence of a commit

The commit unit on the architectural state, with any pattern of cycles in
which the state takes writes. Its writes and commits are those of the
accepted instructions one after the other: the valid results of one in
order, then its program counter and flags, in the cycle it leaves.
-/

namespace KnockoutKraken.Armflex

open Library Util

@[ext] structure ThreadState where
  reg : BitVec 5 → Word
  pregs : PStateRegs

def ArchState.thread {thidW : Nat} (s : ArchState thidW) (t : BitVec thidW) : ThreadState := ⟨s.reg t, s.pregs t⟩

namespace ThreadState

variable {thidW : Nat} (s : ThreadState)

def write (wr : RFileWrite thidW) : ThreadState := { s with reg := Function.update s.reg wr.addr wr.data }

def commit (inst : CommitInst thidW) : ThreadState := ⟨(inst.writes.foldl write s).reg, inst.update s.pregs⟩

end ThreadState

/-- What the commit unit does to the architectural state. -/
inductive CommitEvent (thidW : Nat) where
  | write (wr : RFileWrite thidW)
  | retire (inst : CommitInst thidW)

namespace CommitInst

variable {thidW : Nat} (inst : CommitInst thidW)

def events : List (CommitEvent thidW) := inst.writes.map .write ++ [.retire inst]

theorem tag_of_mem_writes {inst : CommitInst thidW} {wr : RFileWrite thidW} (h : wr ∈ inst.writes) : wr.tag = inst.tag := by
  obtain ⟨k, _, rfl⟩ := List.mem_map.mp (List.mem_filter.mp h).1
  rfl

theorem update_of_not_transplant {inst : CommitInst thidW} (h : inst.transplant = false) (curr : PStateRegs) :
    inst.update curr = ⟨inst.brTaken.getD (curr.pc + 4), inst.nzcv.getD curr.nzcv⟩ := by
  rw [update, h]
  rfl

end CommitInst

def CommitEvent.apply {thidW : Nat} (t : BitVec thidW) (s : ThreadState) : CommitEvent thidW → ThreadState
  | write wr => if wr.tag = t then s.write wr else s
  | retire inst => if inst.tag = t then { s with pregs := inst.update s.pregs } else s

structure Committing (thidW : Nat) where
  commitU : CommitUnit thidW
  archstate : ArchState thidW

namespace Committing

variable {thidW : Nat}

structure Input (thidW : Nat) where
  ready : Bool
  enq : Option (CommitInst thidW)

structure Output (thidW : Nat) where
  accepted : Option (CommitInst thidW)
  dequeued : Option (CommitInst thidW)
  commited : Option (BitVec thidW)
  events : List (CommitEvent thidW)

variable (s : Committing thidW) (i : Input thidW)

def pstateWrite : PStateWrite thidW :=
  ⟨s.commitU.finalCommit i.ready, s.commitU.head.tag, s.commitU.regsNext i.ready (s.archstate.pregs s.commitU.head.tag)⟩

def next : Committing thidW where
  commitU := s.commitU.next i.ready i.enq
  archstate := s.archstate.next (s.commitU.wr i.ready) (s.pstateWrite i)

def dequeued : Option (CommitInst thidW) :=
  if s.commitU.commitQueue.doDeq (s.commitU.deqReady i.ready) then some s.commitU.head else none

/-- The write of the register file, then the write of the state registers. -/
def events : List (CommitEvent thidW) :=
  (if (s.commitU.wr i.ready).en then [.write (s.commitU.wr i.ready)] else []) ++
    if (s.pstateWrite i).valid then [.retire s.commitU.head] else []

def output : Output thidW where
  accepted := if s.commitU.enqReady i.ready then i.enq else none
  dequeued := s.dequeued i
  commited := s.commitU.commited i.ready
  events := s.events i

def machine (thidW : Nat) : Machine (Committing thidW) (Input thidW) (Output thidW) := ⟨next, output⟩

variable {s} {i}

theorem dequeued_eq : s.dequeued i = if s.commitU.finalCommit i.ready then some s.commitU.head else none := rfl

theorem thread_next (t : BitVec thidW) :
    (s.next i).archstate.thread t = (s.events i).foldl (CommitEvent.apply t) (s.archstate.thread t) := by
  have hWrite : (s.next i).archstate.reg t =
      (((if (s.commitU.wr i.ready).en then [.write (s.commitU.wr i.ready)] else []).foldl (CommitEvent.apply t)
        (s.archstate.thread t)) : ThreadState).reg := by
    funext r
    refine (ArchState.reg_next s.archstate (s.commitU.wr i.ready) (s.pstateWrite i) t r).trans ?_
    cases hEn : (s.commitU.wr i.ready).en with
    | false => simp [ArchState.thread]
    | true =>
      by_cases hTag : (s.commitU.wr i.ready).tag = t
      · simp [CommitEvent.apply, hTag, ThreadState.write, ArchState.thread, Function.update_apply]
      · simp [CommitEvent.apply, hTag, Ne.symm hTag, ArchState.thread]
  have hKept : (((if (s.commitU.wr i.ready).en then [.write (s.commitU.wr i.ready)] else []).foldl (CommitEvent.apply t)
      (s.archstate.thread t)) : ThreadState).pregs = s.archstate.pregs t := by
    cases (s.commitU.wr i.ready).en with
    | false => rfl
    | true =>
      simp only [if_true, List.foldl_cons, List.foldl_nil, CommitEvent.apply]
      split <;> rfl
  have hPregs := ArchState.pregs_next s.archstate (s.commitU.wr i.ready) (s.pstateWrite i) t
  rw [events, List.foldl_append]
  cases hFinal : s.commitU.finalCommit i.ready with
  | false =>
    rw [show (s.pstateWrite i).valid = false from hFinal] at hPregs ⊢
    refine ThreadState.ext hWrite (hPregs.trans ?_)
    rw [if_neg (by rintro ⟨⟨⟩, _⟩)]
    exact hKept.symm
  | true =>
    have hBits : (s.pstateWrite i).bits = s.commitU.head.update (s.archstate.pregs s.commitU.head.tag) := by
      simp only [pstateWrite, CommitUnit.regsNext, hFinal, if_true]
    rw [show (s.pstateWrite i).valid = true from hFinal, hBits] at hPregs
    rw [show (s.pstateWrite i).valid = true from hFinal, if_pos rfl]
    by_cases hTag : s.commitU.head.tag = t
    · refine ThreadState.ext ?_ ?_
      · simp only [List.foldl_cons, List.foldl_nil, CommitEvent.apply, if_pos hTag]
        exact hWrite
      · simp only [List.foldl_cons, List.foldl_nil, CommitEvent.apply, if_pos hTag, hKept]
        refine hPregs.trans ?_
        rw [if_pos ⟨rfl, hTag.symm⟩, hTag]
    · refine ThreadState.ext ?_ ?_
      · simp only [List.foldl_cons, List.foldl_nil, CommitEvent.apply, if_neg hTag]
        exact hWrite
      · simp only [List.foldl_cons, List.foldl_nil, CommitEvent.apply, if_neg hTag, hKept]
        exact hPregs.trans (if_neg fun hBoth => hTag hBoth.2.symm)

/-- The events of a cycle finish the head when it leaves, and go on with it otherwise. -/
theorem events_next (h : s.commitU.Midway) (i : Input thidW) :
    s.commitU.written.map .write ++ s.events i =
      (s.dequeued i).toList.flatMap CommitInst.events ++ (s.next i).commitU.written.map .write := by
  have hWritten := congrArg (List.map CommitEvent.write) (@CommitUnit.written_next _ _ i.ready h i.enq)
  rw [List.map_append, List.map_append] at hWritten
  rw [events, ← List.append_assoc, dequeued_eq, show (s.pstateWrite i).valid = s.commitU.finalCommit i.ready from rfl,
    show (s.next i).commitU = s.commitU.next i.ready i.enq from rfl]
  have hWr : (if (s.commitU.wr i.ready).en then [s.commitU.wr i.ready] else []).map CommitEvent.write =
      if (s.commitU.wr i.ready).en then [CommitEvent.write (s.commitU.wr i.ready)] else [] := by
    split <;> rfl
  rw [hWr] at hWritten
  rw [hWritten]
  cases hFinal : s.commitU.finalCommit i.ready with
  | false => simp
  | true =>
    have hState : (s.commitU.next i.ready i.enq).wbState = .sWB := by
      rw [CommitUnit.finalCommit_eq, Bool.and_eq_true, decide_eq_true_eq] at hFinal
      exact hFinal.2
    rw [CommitUnit.written_of_sWB hState]
    simp [CommitInst.events]

theorem items_next (s : Committing thidW) (i : Input thidW) :
    s.commitU.commitQueue.items ++ ((s.output i).accepted).toList =
      (s.dequeued i).toList ++ (s.next i).commitU.commitQueue.items := by
  have hQueue := RamQueue.items_conserved s.commitU.commitQueue true i.enq (s.commitU.deqReady i.ready)
  have hDequeued : (s.dequeued i).toList =
      if s.commitU.commitQueue.doDeq (s.commitU.deqReady i.ready) then [s.commitU.commitQueue.deqBits] else [] := by
    rw [dequeued]
    split <;> rfl
  rw [hDequeued]
  exact hQueue.symm

def works (s : Committing thidW) (i : Input thidW) : Nat := (s.commitU.canWB i.ready).toNat

theorem works_next (s : Committing thidW) (i : Input thidW) :
    s.works i + s.commitU.wbState.index.val ≤
      3 * (s.dequeued i).toList.length + (s.next i).commitU.wbState.index.val := by
  have hNext : (s.next i).commitU.wbState = s.commitU.wbStateNext i.ready := rfl
  rw [works, dequeued_eq, CommitUnit.finalCommit_eq, hNext, CommitUnit.wbStateNext]
  cases hWB : s.commitU.canWB i.ready with
  | false => simp
  | true =>
    cases s.commitU.wbState <;> cases (s.commitU.head.rd 1).isSome <;> cases (s.commitU.head.rd 2).isSome <;>
      simp [WbState.index]

/-- One cycle: what leaves the queue is reported and updates its thread then, and only then. -/
structure Sequenced (s : Committing thidW) (i : Input thidW) : Prop where
  commited : s.commitU.commited i.ready = (s.dequeued i).map CommitInst.tag
  updated : (s.pstateWrite i).valid = (s.dequeued i).isSome
  update : ∀ inst ∈ s.dequeued i, s.pstateWrite i = ⟨true, inst.tag, inst.brTaken.getD ((s.archstate.pregs inst.tag).pc + 4),
    inst.nzcv.getD (s.archstate.pregs inst.tag).nzcv⟩
  waits : i.ready = false → s.events i = [] ∧ (s.next i).commitU.wbState = s.commitU.wbState

/-- What every run over instructions that are not transplanted keeps. -/
structure Clean (s : Committing thidW) : Prop where
  midway : s.commitU.Midway
  queue : ∀ inst ∈ s.commitU.commitQueue.items, inst.transplant = false

theorem Clean.head (h : s.Clean) (hFinal : s.commitU.finalCommit i.ready = true) : s.commitU.head.transplant = false := by
  have hValid : s.commitU.commitQueue.deqValid = true := (Bool.and_eq_true_iff.mp hFinal).1
  refine h.queue _ (List.mem_of_mem_head? ?_)
  rw [RamQueue.head?_items, hValid]
  rfl

theorem Clean.next (h : s.Clean) (hEnq : ∀ inst ∈ i.enq, inst.transplant = false) : (s.next i).Clean where
  midway := h.midway.next _ _
  queue inst hInst := by
    have hItems : inst ∈ s.commitU.commitQueue.items ++ ((s.output i).accepted).toList := by
      rw [items_next]
      exact List.mem_append_right _ hInst
    rcases List.mem_append.mp hItems with hOld | hNew
    · exact h.queue inst hOld
    · simp only [output] at hNew
      split at hNew
      · exact hEnq inst (Option.mem_toList.mp hNew)
      · cases hNew

theorem Clean.sequenced (h : s.Clean) (i : Input thidW) : s.Sequenced i where
  commited := by
    rw [CommitUnit.commited, dequeued_eq]
    split <;> rfl
  updated := by
    rw [dequeued_eq, pstateWrite]
    cases s.commitU.finalCommit i.ready <;> rfl
  update inst hInst := by
    rw [dequeued_eq] at hInst
    split at hInst
    · next hFinal =>
      cases hInst
      rw [pstateWrite, CommitUnit.regsNext, hFinal, if_pos rfl, CommitInst.update_of_not_transplant (h.head hFinal)]
    · cases hInst
  waits hReady := by
    have hWB : s.commitU.canWB i.ready = false := by rw [hReady, CommitUnit.canWB, Bool.false_and]
    have hFinal : s.commitU.finalCommit i.ready = false := by rw [CommitUnit.finalCommit_eq, hWB, Bool.false_and]
    constructor
    · rw [events, show (s.commitU.wr i.ready).en = (s.commitU.canWB i.ready && _) from rfl, hWB,
        show (s.pstateWrite i).valid = s.commitU.finalCommit i.ready from rfl, hFinal]
      rfl
    · change s.commitU.wbStateNext i.ready = _
      rw [CommitUnit.wbStateNext, hWB]
      rfl

end Committing

section Replay

variable {thidW : Nat}

theorem ThreadState.pregs_foldl_write (ws : List (RFileWrite thidW)) (s : ThreadState) : (ws.foldl write s).pregs = s.pregs := by
  induction ws generalizing s with
  | nil => rfl
  | cons wr ws ih => exact ih (s.write wr)

theorem CommitEvent.foldl_writes {ws : List (RFileWrite thidW)} {tag : BitVec thidW} (h : ∀ wr ∈ ws, wr.tag = tag)
    (t : BitVec thidW) (s : ThreadState) :
    (ws.map .write).foldl (apply t) s = if tag = t then ws.foldl ThreadState.write s else s := by
  induction ws generalizing s with
  | nil => simp
  | cons wr ws ih =>
    have hTag := h wr List.mem_cons_self
    rw [List.map_cons, List.foldl_cons, List.foldl_cons, ih (fun wr' hWr => h wr' (List.mem_cons_of_mem _ hWr))]
    simp only [apply, hTag]
    split <;> rfl

theorem CommitInst.foldl_events (inst : CommitInst thidW) (t : BitVec thidW) (s : ThreadState) :
    inst.events.foldl (CommitEvent.apply t) s = if inst.tag = t then s.commit inst else s := by
  rw [events, List.foldl_append, CommitEvent.foldl_writes (fun _ => tag_of_mem_writes)]
  simp only [List.foldl_cons, List.foldl_nil, CommitEvent.apply]
  split
  · rw [ThreadState.commit, ThreadState.pregs_foldl_write]
  · rfl

theorem CommitInst.foldl_flatMap_events (insts : List (CommitInst thidW)) (t : BitVec thidW) (s : ThreadState) :
    (insts.flatMap events).foldl (CommitEvent.apply t) s =
      (insts.filter fun inst => inst.tag = t).foldl ThreadState.commit s := by
  induction insts generalizing s with
  | nil => rfl
  | cons inst insts ih =>
    rw [List.flatMap_cons, List.foldl_append, foldl_events, ih, List.filter_cons]
    by_cases hTag : inst.tag = t <;> simp [hTag]

end Replay

namespace Committing

variable {thidW : Nat}

/-- Whenever the state takes writes, the accepted instructions are committed in order: each writes its
valid results once, in order, and updates its program counter and flags in the cycle it is reported and
leaves; three cycles in which the head can go on suffice for an instruction. -/
theorem commit_sequence {s : Committing thidW} (hState : s.commitU.wbState = .sWB)
    (hQueue : ∀ inst ∈ s.commitU.commitQueue.items, inst.transplant = false) {is : List (Input thidW)}
    (hEnq : ∀ i ∈ is, ∀ inst ∈ i.enq, inst.transplant = false) :
    let last := (machine thidW).run s is
    let retired := (machine thidW).emitted Output.dequeued s is
    (machine thidW).Along Sequenced s is ∧
    s.commitU.commitQueue.items ++ (machine thidW).emitted Output.accepted s is = retired ++ last.commitU.commitQueue.items ∧
    ((machine thidW).trace s is).flatMap Output.events =
      retired.flatMap CommitInst.events ++ last.commitU.written.map .write ∧
    last.commitU.written <+: last.commitU.head.writes ∧
    (∀ t, last.archstate.thread t = (last.commitU.written.map .write).foldl (CommitEvent.apply t)
      ((retired.filter fun inst => inst.tag = t).foldl ThreadState.commit (s.archstate.thread t))) ∧
    (machine thidW).total works s is ≤ 3 * retired.length + 2 := by
  have hAll : ∀ (is : List (Input thidW)) (s : Committing thidW), s.Clean →
      (∀ i ∈ is, ∀ inst ∈ i.enq, inst.transplant = false) →
      (machine thidW).Along Sequenced s is ∧
      s.commitU.commitQueue.items ++ (machine thidW).emitted Output.accepted s is =
        (machine thidW).emitted Output.dequeued s is ++ ((machine thidW).run s is).commitU.commitQueue.items ∧
      s.commitU.written.map .write ++ ((machine thidW).trace s is).flatMap Output.events =
        ((machine thidW).emitted Output.dequeued s is).flatMap CommitInst.events ++
          ((machine thidW).run s is).commitU.written.map .write ∧
      (∀ t, ((machine thidW).run s is).archstate.thread t =
        (((machine thidW).trace s is).flatMap Output.events).foldl (CommitEvent.apply t) (s.archstate.thread t)) ∧
      (machine thidW).total works s is + s.commitU.wbState.index.val ≤
        3 * ((machine thidW).emitted Output.dequeued s is).length + ((machine thidW).run s is).commitU.wbState.index.val := by
    intro is
    induction is with
    | nil => exact fun s _ _ => ⟨trivial, by simp, by simp, fun _ => rfl, by simp⟩
    | cons i is ih =>
      intro s h hEnq
      have hHere := hEnq i List.mem_cons_self
      obtain ⟨hAlong, hItems, hEvents, hThread, hWorks⟩ :=
        ih (s.next i) (h.next hHere) fun j hj => hEnq j (List.mem_cons_of_mem _ hj)
      refine ⟨⟨h.sequenced i, hAlong⟩, ?_, ?_, ?_, ?_⟩
      · rw [Machine.emitted_cons, Machine.emitted_cons]
        change s.commitU.commitQueue.items ++ (((s.output i).accepted).toList ++ _) = ((s.dequeued i).toList ++ _) ++ _
        rw [← List.append_assoc, items_next, List.append_assoc, List.append_assoc]
        exact congrArg ((s.dequeued i).toList ++ ·) hItems
      · rw [Machine.emitted_cons, Machine.trace_cons, List.flatMap_cons, List.flatMap_append]
        change s.commitU.written.map .write ++ (s.events i ++ _) = ((s.dequeued i).toList.flatMap CommitInst.events ++ _) ++ _
        rw [← List.append_assoc, events_next h.midway, List.append_assoc, List.append_assoc]
        exact congrArg ((s.dequeued i).toList.flatMap CommitInst.events ++ ·) hEvents
      · intro t
        rw [Machine.trace_cons, List.flatMap_cons, List.foldl_append]
        change ((machine thidW).run (s.next i) is).archstate.thread t = _
        rw [hThread t, thread_next]
        rfl
      · rw [Machine.emitted_cons, Machine.total_cons, List.length_append]
        have hStep := works_next s i
        change s.works i + (machine thidW).total works (s.next i) is + _ ≤
          3 * ((s.dequeued i).toList.length + ((machine thidW).emitted Output.dequeued (s.next i) is).length) +
            ((machine thidW).run (s.next i) is).commitU.wbState.index.val
        omega
  obtain ⟨hAlong, hItems, hEvents, hThread, hWorks⟩ := hAll is s ⟨fun hBusy => absurd hState hBusy, hQueue⟩ hEnq
  rw [CommitUnit.written_of_sWB hState, List.map_nil, List.nil_append] at hEvents
  refine ⟨hAlong, hItems, hEvents, CommitInst.writesBefore_prefix _ _, fun t => ?_, ?_⟩
  · rw [hThread t, hEvents, List.foldl_append, CommitInst.foldl_flatMap_events]
  · have hIndex := ((machine thidW).run s is).commitU.wbState.index.isLt
    omega

section TwoInstructions

def threeResults : CommitInst 1 where
  tag := 1
  rd k := some (BitVec.ofNat 5 k.val)
  res k := BitVec.ofNat 64 (k.val + 7)
  nzcv := some 4
  brTaken := none
  exceptions := false
  undef := false
  is32bit := true

def branchOnly : CommitInst 1 where
  tag := 0
  rd _ := none
  res _ := 0
  nzcv := none
  brTaken := some 64
  exceptions := false
  undef := false
  is32bit := false

def twoWaiting : Committing 1 where
  commitU := ⟨⟨fun cell => if cell = 0 then threeResults else branchOnly, 0, 2, by decide⟩, .sWB⟩
  archstate := ⟨fun _ => 0, fun _ => 4096, fun _ => 0⟩

/-- The state is not ready in the second and the fourth cycle. -/
theorem commit_sequence_two :
    let is : List (Input 1) := [⟨true, none⟩, ⟨false, none⟩, ⟨true, none⟩, ⟨false, none⟩, ⟨true, none⟩, ⟨true, none⟩]
    (machine 1).emitted Output.commited twoWaiting is = [1, 0] ∧
      ∀ t, ((machine 1).run twoWaiting is).archstate.thread t =
        (((machine 1).run twoWaiting is).commitU.written.map .write).foldl (CommitEvent.apply t)
          ((((machine 1).emitted Output.dequeued twoWaiting is).filter fun inst => inst.tag = t).foldl ThreadState.commit
            (twoWaiting.archstate.thread t)) :=
  ⟨by decide +kernel, (commit_sequence rfl (by decide +kernel) (by decide +kernel)).2.2.2.2.1⟩

end TwoInstructions

end Committing

end KnockoutKraken.Armflex
