import KnockoutKraken.Armflex.PipelineAxi

/-!
# Stopping a thread

A thread is asked to start, is copied in, runs, leaves with a commit and
is copied out; it is in one of these stages at a time. A stop bit turns
the next commit of its thread into a leave, as long as the tag that the
commit queue shows is not a stale one.
-/

namespace KnockoutKraken.Armflex

open Library Antmicro

namespace TransplantControl

open TransplantState TransplantDir

variable {thidW : Nat} (t : BitVec thidW) (c : TransplantControl thidW)

def waitsOut : Bool := c.cpu2transPending.getLsbD t.toNat

def copiesOut : Bool := decide (c.state = sTrans ∧ c.stateDir = cpu2bram ∧ c.thread = t)

def leaving : Nat := (c.waitsOut t).toNat + (c.copiesOut t).toNat

variable {t} {c} {i : Input thidW}

theorem copiesOut_iff : c.copiesOut t = true ↔ c.state = sTrans ∧ c.stateDir = cpu2bram ∧ c.thread = t := decide_eq_true_iff

theorem hostDone_iff : c.hostDone = some t ↔ c.copiesOut t = true ∧ c.finishes = true := by
  rw [copiesOut_iff, hostDone]
  cases hEnd : c.finishes with
  | false => simp
  | true =>
    have hTrans := (decide_eq_true_iff.mp hEnd).1
    by_cases hDir : c.stateDir = cpu2bram <;> simp [hDir, hTrans]

theorem cpu2transClear_eq_some (h : c.cpu2transClear i = some t) : c.takesCpu i = true ∧ c.threadNext i = t := by
  rw [cpu2transClear] at h
  split at h
  · next hTakes => exact ⟨hTakes, Option.some.inj h⟩
  · cases h

theorem waitsOut_of_clear (h : c.cpu2transClear i = some t) : c.waitsOut t = true := by
  obtain ⟨hTakes, rfl⟩ := cpu2transClear_eq_some h
  obtain ⟨hIdle, hNone, hSome⟩ := takesCpu_iff.mp hTakes
  have hHost : c.takesHost i = false := decide_eq_false fun hHost => hHost.2 hNone
  rw [waitsOut, threadNext, hHost, if_neg (by decide), if_pos hTakes]
  exact getLsbD_priorityEncoder hSome

theorem waitsOut_next (hData : i.dataFault = none) (hInst : i.instFault = none) : (c.next i).waitsOut t =
    (c.waitsOut t && !decide (c.cpu2transClear i = some t) || decide (i.done = some t)) := by
  simp only [waitsOut, next, cpu2transInsert, BitVec.getLsbD_or, BitVec.getLsbD_and, BitVec.getLsbD_not, getLsbD_bitOf,
    decide_eq_true t.isLt, Bool.true_and, hData, hInst]
  simp

theorem copiesOut_next : (c.next i).copiesOut t =
    (decide (c.cpu2transClear i = some t) || c.copiesOut t && !decide (c.hostDone = some t)) := by
  have hDone := hostDone_iff (c := c) (t := t)
  cases hState : c.state with
  | sIdle =>
    have hNot : c.copiesOut t = false := by simp [copiesOut, hState]
    rw [hNot, Bool.false_and, Bool.or_false, copiesOut, Bool.eq_iff_iff, decide_eq_true_iff, decide_eq_true_iff]
    simp only [next, cpu2transClear, hState]
    cases hCpu : c.takesCpu i with
    | true =>
      have hHost : c.takesHost i = false := by
        by_contra hHost
        rw [takesCpu_of_takesHost (Bool.eq_true_of_not_eq_false hHost)] at hCpu
        cases hCpu
      simp [hHost]
    | false => cases hHost : c.takesHost i <;> simp
  | sTrans =>
    obtain ⟨hHost, hCpu⟩ := takes_of_trans (i := i) hState
    have hClear : c.cpu2transClear i = none := by simp [cpu2transClear, hCpu]
    rw [hClear, decide_eq_false (by simp), Bool.false_or, Bool.eq_iff_iff, copiesOut_iff, Bool.and_eq_true,
      Bool.not_eq_true', decide_eq_false_iff_not, hDone, copiesOut_iff]
    simp only [next, threadNext, hState, hHost, hCpu]
    cases c.finishes <;> simp

theorem leaving_next (hData : i.dataFault = none) (hInst : i.instFault = none)
    (hOnce : i.done = some t → c.leaving t = 0) (hOne : c.leaving t ≤ 1) :
    (c.next i).leaving t + (decide (c.hostDone = some t)).toNat = c.leaving t + (decide (i.done = some t)).toNat := by
  have hClear : c.cpu2transClear i = some t → c.waitsOut t = true := waitsOut_of_clear
  have hPulse : c.hostDone = some t → c.copiesOut t = true := fun h => (hostDone_iff.mp h).1
  rw [leaving] at hOnce hOne
  rw [leaving, leaving, waitsOut_next hData hInst, copiesOut_next]
  by_cases hC : c.cpu2transClear i = some t <;> by_cases hH : c.hostDone = some t <;> by_cases hD : i.done = some t <;>
    cases hW : c.waitsOut t <;> cases hO : c.copiesOut t <;> simp_all

end TransplantControl

namespace PipelineAxi

open Pipeline WatchedPipeline

variable {params : PipelineParams} {δ : Type} (x : ExecuteStage δ params.thidW) (s : PipelineAxi params δ) (i : Input params)

/-- Where the thread is between the host's start bit and the host's done bit. -/
def present (t : params.Thid) : Nat :=
  s.csrs.owed t + (s.pipeline.running t).toNat + s.transplantU.control.leaving t

/-- The memory hierarchy: the end of a miss is told once, a buffer translates one request at a time and
answers only that, and the caches answer with hits, misses and refills. -/
structure Answered : Prop where
  wake : ∀ k, ∀ t ∈ i.wake k, t ∈ s.pipeline.missing k
  answered : ∀ k, (port (s.pipelineInput i) k).tlbResp.isSome = true → s.pipeline.translating k = true
  single : ∀ k, s.pipeline.tlbReqFire x (s.pipelineInput i) k = true → s.pipeline.translating k = true →
    (port (s.pipelineInput i) k).tlbResp.isSome = true
  cache : ∀ k, ∀ r ∈ (port (s.pipelineInput i) k).cacheResp, r.Legal

/-- The host starts a thread that it owns, and no write of it falls on a clear pulse. -/
structure HostWaits : Prop extends s.csrs.NoClash (s.csrsInput i) where
  fresh : ∀ t : params.Thid, (s.csrsInput i).requestsStart t.toNat = true → s.present t = 0

def headCommits : Bool := s.pipeline.pipe.commitU.finalCommit s.state.commitReady

/-- When the tag shown by the commit queue is that of a thread to be stopped, its instruction commits. -/
def TagIsLive : Prop := s.pipeline.pipe.stopped (s.pipelineInput i) = true → s.headCommits = true

structure Rule : Prop where
  answered : s.Answered x i
  passable : s.pipeline.Passable x (s.pipelineInput i)
  host : s.HostWaits i
  live : s.TagIsLive i

structure Inv : Prop where
  pipeline : s.pipeline.Inv
  present : ∀ t, s.present t ≤ 1

instance : Decidable (s.Answered x i) :=
  decidable_of_iff ((∀ k, ∀ t ∈ i.wake k, t ∈ s.pipeline.missing k) ∧
    (∀ k, (port (s.pipelineInput i) k).tlbResp.isSome = true → s.pipeline.translating k = true) ∧
    (∀ k, s.pipeline.tlbReqFire x (s.pipelineInput i) k = true → s.pipeline.translating k = true →
      (port (s.pipelineInput i) k).tlbResp.isSome = true) ∧
    ∀ k, ∀ r ∈ (port (s.pipelineInput i) k).cacheResp, r.Legal)
    ⟨fun ⟨hW, hA, hT, hC⟩ => ⟨hW, hA, hT, hC⟩, fun h => ⟨h.wake, h.answered, h.single, h.cache⟩⟩

instance : Decidable (s.HostWaits i) :=
  decidable_of_iff (((s.csrsInput i).startWrite.isSome = true →
      ∀ t, (s.csrs.output (s.csrsInput i)).clear = some t → (s.csrsInput i).requestsStart t.toNat = true) ∧
    ((s.csrsInput i).stopWrite.isSome = true → ∀ t, (s.csrs.output (s.csrsInput i)).hostDone = some t →
      s.csrs.stops t = true → (s.csrsInput i).requestsStop t.toNat = true) ∧
    ∀ t : params.Thid, (s.csrsInput i).requestsStart t.toNat = true → s.present t = 0)
    ⟨fun ⟨hStart, hStop, hFresh⟩ => ⟨⟨hStart, hStop⟩, hFresh⟩, fun h => ⟨h.start, h.stop, h.fresh⟩⟩

instance : Decidable (s.TagIsLive i) := inferInstanceAs (Decidable (_ → _))

instance : Decidable (s.Rule x i) :=
  decidable_of_iff (s.Answered x i ∧ s.pipeline.Passable x (s.pipelineInput i) ∧ s.HostWaits i ∧ s.TagIsLive i)
    ⟨fun ⟨hA, hP, hH, hL⟩ => ⟨hA, hP, hH, hL⟩, fun h => ⟨h.answered, h.passable, h.host, h.live⟩⟩

variable {x} {s} {i} {t : params.Thid}

section Stages

theorem start_eq_map : (s.pipelineInput i).start.map Prod.fst = s.transplantU.control.start := by
  change (s.transplantU.control.start.map _).map Prod.fst = _
  rw [Option.map_map]
  exact congrFun Option.map_id _

theorem not_running_of_start (i : Input params) (hInv : s.Inv) (h : s.transplantU.control.start = some t) : s.pipeline.running t = false := by
  have hOne := hInv.present t
  have hEnters : s.csrs.entering t = true := ((TransplantCSRs.start_iff (s := s.csrs) (i := s.csrsInput i) t).mp h).1
  rw [present, TransplantCSRs.owed, hEnters] at hOne
  cases hRun : s.pipeline.running t with
  | false => rfl
  | true =>
    rw [hRun, Bool.toNat_true] at hOne
    omega

theorem surrounded (hInv : s.Inv) (h : s.Answered x i) : s.pipeline.Surrounded x (s.pipelineInput i) where
  start c hc := by
    have hStart : s.transplantU.control.start = some c.1 := by
      rw [← start_eq_map (s := s) (i := i), hc]
      rfl
    exact not_running_of_start i hInv hStart
  wake := h.wake
  answered := h.answered
  single := h.single
  cache := h.cache

/-- With a live tag a thread is reported exactly when it leaves. -/
theorem done_eq_left (h : s.TagIsLive i) : s.done i = s.pipeline.left (s.pipelineInput i) := by
  have hLive : s.pipeline.pipe.stopped (s.pipelineInput i) = true →
      s.pipeline.pipe.commitU.finalCommit (s.pipelineInput i).commitReady = true := h
  rw [done, Pipeline.done, left, CommitUnit.transplant]
  cases hStop : s.pipeline.pipe.stopped (s.pipelineInput i) with
  | true => simp [hLive hStop]
  | false => simp

theorem left_eq_some {j : Pipeline.Input params Unit} (h : s.pipeline.left j = some t) :
    s.pipeline.pipe.commitU.finalCommit j.commitReady = true ∧ s.pipeline.pipe.commitU.head.tag = t := by
  rw [left] at h
  split at h
  · next hBoth => exact ⟨(Bool.and_eq_true_iff.mp hBoth).1, Option.some.inj h⟩
  · cases h

theorem running_of_head (hInv : s.pipeline.Inv) (hValid : s.pipeline.pipe.commitU.commitQueue.deqValid = true) :
    s.pipeline.running s.pipeline.pipe.commitU.head.tag = true := by
  have hHead := s.pipeline.pipe.commitU.commitQueue.head?_items
  rw [hValid, if_pos rfl] at hHead
  have hPos : 0 < tokens CommitInst.tag s.pipeline.pipe.commitU.head.tag s.pipeline.pipe.commitU.commitQueue.items :=
    (tokens_pos_iff _ _).mpr ⟨_, List.mem_of_mem_head? hHead, rfl⟩
  have hSum := hInv.conserved s.pipeline.pipe.commitU.head.tag
  rw [places] at hSum
  cases hRun : s.pipeline.running s.pipeline.pipe.commitU.head.tag with
  | true => rfl
  | false =>
    rw [hRun, Bool.toNat_false] at hSum
    omega

theorem running_of_left (hInv : s.pipeline.Inv) {j : Pipeline.Input params Unit} (h : s.pipeline.left j = some t) :
    s.pipeline.running t = true := by
  obtain ⟨hCommit, rfl⟩ := left_eq_some h
  exact running_of_head hInv (Bool.and_eq_true_iff.mp hCommit).1

/-- A thread goes from one stage to the next: it comes with a start bit and goes with the pulse to the host. -/
theorem present_next (hInv : s.Inv) (h : s.Rule x i) (t : params.Thid) :
    (s.next x i).present t + (decide (s.transplantU.control.hostDone = some t)).toNat =
      s.present t + ((s.csrsInput i).requestsStart t.toNat).toNat := by
  have hOne := hInv.present t
  have hDone := done_eq_left h.live
  have hLeft : s.pipeline.left (s.pipelineInput i) = some t → s.pipeline.running t = true := running_of_left hInv.pipeline
  have hStart : s.transplantU.control.start = some t → s.pipeline.running t = false := not_running_of_start i hInv
  have hWaits : TransplantCSRs.HostWaits s.csrs (s.csrsInput i) :=
    ⟨h.host.toNoClash, fun u hReq hPends => by
      have hZero := h.host.fresh u hReq
      rw [present, TransplantCSRs.owed, hPends, Bool.toNat_true] at hZero
      omega⟩
  have hOwed := TransplantCSRs.owed_next t hWaits
  have hLeaving := TransplantControl.leaving_next (t := t) (c := s.transplantU.control)
    (i := s.unitInput i) rfl rfl (fun hReport => by
      have hRun := hLeft (hDone.symm.trans hReport)
      rw [present, hRun, Bool.toNat_true] at hOne
      omega) (by
      rw [present] at hOne
      omega)
  have hReport : (s.unitInput i).done = s.pipeline.left (s.pipelineInput i) := hDone
  have hRunning : (s.next x i).pipeline.running t = ((s.pipeline.running t ||
      decide (s.transplantU.control.start = some t)) && !decide (s.pipeline.left (s.pipelineInput i) = some t)) := by
    rw [← start_eq_map (s := s) (i := i)]
    rfl
  have hPulse : (s.csrs.output (s.csrsInput i)).start = s.transplantU.control.start := rfl
  rw [hReport] at hLeaving
  rw [hPulse] at hOwed
  have hRuns : ((s.next x i).pipeline.running t).toNat + (decide (s.pipeline.left (s.pipelineInput i) = some t)).toNat =
      (s.pipeline.running t).toNat + (decide (s.transplantU.control.start = some t)).toNat := by
    rw [hRunning]
    by_cases hL : s.pipeline.left (s.pipelineInput i) = some t
    · have hRun := hLeft hL
      have hNot : s.transplantU.control.start ≠ some t := fun hS => by simp [hStart hS] at hRun
      simp [hL, hRun, hNot]
    · by_cases hS : s.transplantU.control.start = some t
      · simp [hL, hS, hStart hS]
      · simp [hL, hS]
  have hCsrs : (s.next x i).csrs = s.csrs.next (s.csrsInput i) := rfl
  have hControl : (s.next x i).transplantU.control =
      s.transplantU.control.next (s.unitInput i) := rfl
  rw [present, present, hCsrs, hControl]
  omega

theorem Inv.next (hInv : s.Inv) (h : s.Rule x i) : (s.next x i).Inv where
  pipeline := hInv.pipeline.next (surrounded hInv h.answered) h.passable
  present t := by
    have hSum := present_next hInv h t
    have hOne := hInv.present t
    have hFresh := h.host.fresh t
    cases hReq : (s.csrsInput i).requestsStart t.toNat with
    | false =>
      rw [hReq, Bool.toNat_false] at hSum
      omega
    | true =>
      rw [hReq, hFresh hReq, Bool.toNat_true] at hSum
      omega

theorem present_reset (c : Contents params) (t : params.Thid) : (reset c : PipelineAxi params δ).present t = 0 := by
  simp [present, reset, PipelineState.reset, csrs, TransplantCSRs.owed, TransplantCSRs.pends, TransplantCSRs.entering,
    TransplantControl.reset, TransplantControl.leaving, TransplantControl.waitsOut, TransplantControl.copiesOut,
    WatchedPipeline.reset]

theorem inv_reset (c : Contents params) : (reset c : PipelineAxi params δ).Inv :=
  ⟨WatchedPipeline.inv_reset c.pipeline, fun t => (present_reset c t).trans_le (Nat.zero_le 1)⟩

end Stages

section Quiescence

def copiesPC (s : PipelineAxi params δ) (t : params.Thid) : Prop :=
  s.transplantU.control.copiesOut t = true ∧ s.transplantU.control.stateRegType ≠ .rXregs ∧ s.transplantU.stateRegTypeCurr = .rPc

variable (x) (s) (i) in
/-- What a cycle does to the threads that stop. -/
structure Quiescent : Prop where
  stops : ∀ t, s.csrs.stops t = true → s.headCommits = true → s.pipeline.pipe.commitU.head.tag = t → s.done i = some t
  commits : ∀ t, s.done i = some t → s.headCommits = true ∧ s.pipeline.pipe.commitU.head.tag = t
  nextPC : ∀ t, s.done i = some t →
    (s.next x i).archstate.pregs t = s.pipeline.pipe.commitU.head.update (s.archstate.pregs t)
  leaves : ∀ t, s.done i = some t → (s.next x i).transplantU.control.leaving t = 1
  empty : ∀ t, s.transplantU.control.leaving t = 1 → s.pipeline.places t = 0
  frozen : ∀ t, s.transplantU.control.leaving t = 1 → (s.next x i).archstate.pregs t = s.archstate.pregs t
  copied : ∀ t, s.transplantU.control.hostDone = some t → s.transplantU.control.leaving t = 1
  copiedPC : ∀ t, s.copiesPC t →
    s.transplantU.hostDI (s.state.transplantInput (s.stateInput x i)) = (s.archstate.pregs t).pc

theorem updatingPState_of_headCommits (h : s.headCommits = true) : s.state.updatingPState = false := by
  have hReady : s.state.commitReady = true := by
    simp only [headCommits, CommitUnit.finalCommit, CommitUnit.deqReady, CommitUnit.canWB, Bool.and_eq_true] at h
    exact h.2.1.1
  rw [PipelineState.commitReady] at hReady
  exact (Bool.not_eq_true' _).mp hReady

theorem stopped_eq : s.pipeline.pipe.stopped (s.pipelineInput i) = s.csrs.stops s.pipeline.pipe.commitU.head.tag := by
  change (s.host2transStopCPU.setWidth (2 ^ params.thidW)).getLsbD _ = _
  rw [BitVec.getLsbD_setWidth, decide_eq_true (BitVec.isLt _), Bool.true_and]
  rfl

theorem running_of_leaving (hInv : s.Inv) (h : s.transplantU.control.leaving t = 1) : s.pipeline.running t = false := by
  have hOne := hInv.present t
  rw [present, h] at hOne
  cases hRun : s.pipeline.running t with
  | false => rfl
  | true =>
    rw [hRun, Bool.toNat_true] at hOne
    omega

/-- The state registers of a thread change with a commit of it, or while it is copied in. -/
theorem pregs_next_of_left (h : s.headCommits = true) : (s.next x i).archstate.pregs s.pipeline.pipe.commitU.head.tag =
    s.pipeline.pipe.commitU.head.update (s.archstate.pregs s.pipeline.pipe.commitU.head.tag) := by
  have hWrite : s.state.pstateWrite = ⟨true, s.pipeline.pipe.commitU.head.tag,
      s.pipeline.pipe.commitU.head.update (s.archstate.pregs s.pipeline.pipe.commitU.head.tag)⟩ := by
    have hTag : s.state.commitTag = s.pipeline.pipe.commitU.head.tag := by
      rw [PipelineState.commitTag, updatingPState_of_headCommits h]
      rfl
    have hCommit : s.state.commitU.finalCommit s.state.commitReady = true := h
    rw [PipelineState.pstateWrite, updatingPState_of_headCommits h, if_neg (by decide), hCommit, hTag, CommitUnit.regsNext,
      if_pos hCommit]
    rfl
  change (s.archstate.next s.state.rfileWr s.state.pstateWrite).pregs _ = _
  rw [ArchState.pregs_next, hWrite, if_pos ⟨rfl, rfl⟩]

theorem pregs_next_of_leaving (hInv : s.Inv) (h : s.transplantU.control.leaving t = 1) :
    (s.next x i).archstate.pregs t = s.archstate.pregs t := by
  have hRun := running_of_leaving hInv h
  change (s.archstate.next s.state.rfileWr s.state.pstateWrite).pregs t = _
  rw [ArchState.pregs_next]
  refine if_neg fun ⟨hValid, hTag⟩ => ?_
  cases hUpdating : s.state.updatingPState with
  | true =>
    -- another thread is copied in
    obtain ⟨hTrans, hDir⟩ : s.transplantU.control.state = .sTrans ∧ s.transplantU.control.stateDir = .bram2cpu :=
      of_decide_eq_true hUpdating
    have hThread : s.transplantU.control.thread = t := by
      rw [hTag, PipelineState.pstateWrite, PipelineState.commitTag, hUpdating]
      rfl
    have hEnters : s.csrs.entering t = true := (TransplantCSRs.entering_iff t).mpr ⟨hTrans, hDir, hThread⟩
    have hOne := hInv.present t
    rw [present, TransplantCSRs.owed, hEnters, h, Bool.toNat_true] at hOne
    omega
  | false =>
    -- a running thread commits
    have hHead : s.pipeline.pipe.commitU.head.tag = t := by
      rw [hTag, PipelineState.pstateWrite, PipelineState.commitTag, hUpdating]
      rfl
    have hCommit : s.headCommits = true := by
      rw [PipelineState.pstateWrite, hUpdating] at hValid
      exact hValid
    have hRuns := running_of_head hInv.pipeline (Bool.and_eq_true_iff.mp hCommit).1
    rw [hHead, hRun] at hRuns
    cases hRuns

theorem quiescent (hInv : s.Inv) (h : s.Rule x i) : s.Quiescent x i := by
  have hDone := done_eq_left h.live
  have hLeft : ∀ t, s.done i = some t → s.headCommits = true ∧ s.pipeline.pipe.commitU.head.tag = t := fun t hReport =>
    left_eq_some (hDone.symm.trans hReport)
  refine ⟨fun t hStop hCommit hTag => ?_, hLeft, fun t hReport => ?_, fun t hReport => ?_, fun t hLeaving => ?_,
    fun t hLeaving => pregs_next_of_leaving hInv hLeaving, fun t hPulse => ?_, fun t hCopies => ?_⟩
  · rw [done, Pipeline.done, stopped_eq, hTag, hStop, if_pos rfl]
  · obtain ⟨hCommit, rfl⟩ := hLeft t hReport
    exact pregs_next_of_left hCommit
  · have hRun := running_of_left hInv.pipeline (hDone.symm.trans hReport)
    have hOne := hInv.present t
    rw [present, hRun, Bool.toNat_true] at hOne
    have hSum := TransplantControl.leaving_next (t := t) (c := s.transplantU.control)
      (i := s.unitInput i) rfl rfl (fun _ => by omega) (by omega)
    have hNotPulse : s.transplantU.control.hostDone ≠ some t := fun hPulse => by
      have hCopies := (TransplantControl.hostDone_iff.mp hPulse).1
      rw [TransplantControl.leaving, hCopies, Bool.toNat_true] at hOne
      omega
    have hReported : (s.unitInput i).done = some t := hReport
    rw [decide_eq_false hNotPulse, decide_eq_true hReported, Bool.toNat_true, Bool.toNat_false] at hSum
    change (s.next x i).transplantU.control.leaving t + 0 = _ at hSum
    omega
  · rw [hInv.pipeline.conserved t, running_of_leaving hInv hLeaving]
    rfl
  · have hCopies := (TransplantControl.hostDone_iff.mp hPulse).1
    have hOne := hInv.present t
    rw [present] at hOne
    have hPos : 1 ≤ s.transplantU.control.leaving t := by
      rw [TransplantControl.leaving, hCopies]
      exact Nat.le_add_left _ _
    omega
  · obtain ⟨hCopies, hType, hCurr⟩ := hCopies
    obtain ⟨-, hDir, hThread⟩ := TransplantControl.copiesOut_iff.mp hCopies
    have hUpdating : s.state.updatingPState = false := by
      change decide (s.transplantU.control.state = .sTrans ∧ s.transplantU.control.stateDir = .bram2cpu) = false
      simp [hDir]
    rw [TransplantUnit.hostDI, if_neg hType, if_pos hCurr, PipelineState.transplantInput, hUpdating, if_neg (by decide), ← hThread]
    rfl

end Quiescence

section Requests

variable (s) (i) (t)

/-- The host asks for a stop, and no earlier request is still waiting. -/
def newStop : Bool := (s.csrsInput i).requestsStop t.toNat && !(s.csrs.stops t && !decide (s.transplantU.control.hostDone = some t))

def copied : Bool := decide (s.transplantU.control.hostDone = some t)

def stopServed : Bool := s.csrs.stops t && s.copied t

def reported : Bool := decide (s.done i = some t)

variable {s} {i}

theorem stops_next (h : s.HostWaits i) :
    ((s.next x i).csrs.stops t).toNat + (s.stopServed t).toNat = (s.csrs.stops t).toNat + (s.newStop i t).toNat := by
  rw [csrs_next, stopServed, newStop, copied]
  by_cases ht : t.toNat < axiDataW
  · rw [(TransplantCSRs.exact_iff_noClash.mpr h.toNoClash).stop t ht]
    change ((s.csrsInput i).requestsStop t.toNat || s.csrs.stops t &&
      !decide (s.transplantU.control.hostDone = some t)).toNat + _ = _
    cases s.csrs.stops t <;> cases (s.csrsInput i).requestsStop t.toNat <;>
      cases decide (s.transplantU.control.hostDone = some t) <;> rfl
  · have hNone : ∀ s : TransplantCSRs params.thidW, s.stops t = false := fun s =>
      Bool.eq_false_iff.mpr fun h => ht (BitVec.lt_of_getLsbD h)
    have hReq : (s.csrsInput i).requestsStop t.toNat = false := by
      refine Bool.eq_false_iff.mpr fun hWrite => ht ?_
      rw [TransplantCSRs.Input.requestsStop, writesBit, Option.any_eq_true] at hWrite
      obtain ⟨word, -, hBit⟩ := hWrite
      exact BitVec.lt_of_getLsbD hBit
    rw [hNone, hNone, hReq]
    rfl

variable {t}

theorem reports_next (hInv : s.Inv) (h : s.Rule x i) : (s.next x i).transplantU.control.leaving t + (s.copied t).toNat =
    s.transplantU.control.leaving t + (s.reported i t).toNat := by
  have hOne := hInv.present t
  rw [present] at hOne
  refine TransplantControl.leaving_next (c := s.transplantU.control) (i := s.unitInput i) rfl rfl ?_ (by omega)
  intro hReport
  have hRun := running_of_left hInv.pipeline ((done_eq_left h.live).symm.trans hReport)
  rw [hRun, Bool.toNat_true] at hOne
  omega

end Requests

section Progress

open TransplantState

variable (t)

/-- The threads the host wants in; every one of them goes first. -/
def startsAhead (s : PipelineAxi params δ) : Nat := (upTo s.pendingHostTrans (BitVec.allOnes params.thidW).toNat).card

/-- The reported threads up to `t`, which go out before it. -/
def reportsAhead (s : PipelineAxi params δ) : Nat := (upTo s.transplantU.control.cpu2transPending t.toNat).card

/-- The cycles until the thread is out, when no other thread comes in front of it. -/
def cyclesLeft (s : PipelineAxi params δ) : Nat :=
  if s.transplantU.control.copiesOut t then s.transplantU.control.remaining
  else 37 * (s.startsAhead + s.reportsAhead t) + s.transplantU.control.remaining

def jumpsAhead (s : PipelineAxi params δ) (i : Input params) : Nat :=
  (s.csrsInput i).startsUpTo (BitVec.allOnes params.thidW) + (upTo (bitOf (2 ^ params.thidW) (s.done i)) t.toNat).card

variable {t}

theorem cpu2transPending_next : (s.next x i).transplantU.control.cpu2transPending =
    s.transplantU.control.cpu2transPending &&&
        ~~~bitOf _ (s.transplantU.control.cpu2transClear (s.unitInput i)) |||
      bitOf _ (s.done i) := by
  have hInsert : TransplantControl.cpu2transInsert (s.unitInput i) =
      bitOf _ (s.done i) := by
    change bitOf _ (s.done i) ||| bitOf _ none ||| bitOf _ none = _
    rw [bitOf, BitVec.or_zero, BitVec.or_zero]
  rw [← hInsert]
  rfl

theorem reportsAhead_next : (s.next x i).reportsAhead t ≤
    s.reportsAhead t + (upTo (bitOf (2 ^ params.thidW) (s.done i)) t.toNat).card := by
  rw [reportsAhead, cpu2transPending_next]
  refine (card_upTo_or _ _ _).trans (Nat.add_le_add_right (Finset.card_le_card fun k hk => ?_) _)
  rw [mem_upTo, BitVec.getLsbD_and, Bool.and_eq_true] at hk
  exact mem_upTo.mpr ⟨hk.1, hk.2.1⟩

theorem reportsAhead_next_of_clear {u : params.Thid}
    (hClear : s.transplantU.control.cpu2transClear (s.unitInput i) = some u)
    (hLe : u.toNat ≤ t.toNat) : (s.next x i).reportsAhead t + 1 ≤
      s.reportsAhead t + (upTo (bitOf (2 ^ params.thidW) (s.done i)) t.toNat).card := by
  have hWaits : s.transplantU.control.cpu2transPending.getLsbD u.toNat = true := TransplantControl.waitsOut_of_clear hClear
  have hCleared : (s.transplantU.control.cpu2transPending &&& ~~~bitOf _ (some u)).getLsbD u.toNat = false := by
    rw [BitVec.getLsbD_and, BitVec.getLsbD_not, getLsbD_bitOf]
    simp
  have hFewer := card_upTo_clear hLe hWaits hCleared fun k hk => by
    rw [BitVec.getLsbD_and, Bool.and_eq_true] at hk
    exact hk.1
  have hOr := card_upTo_or (s.transplantU.control.cpu2transPending &&& ~~~bitOf _ (some u)) (bitOf _ (s.done i)) t.toNat
  rw [reportsAhead, cpu2transPending_next, hClear, reportsAhead]
  omega

theorem startsAhead_next : (s.next x i).startsAhead ≤
    s.startsAhead + (s.csrsInput i).startsUpTo (BitVec.allOnes params.thidW) :=
  TransplantCSRs.ahead_next (s := s.csrs) (i := s.csrsInput i) _

theorem takes_of_idle (hIdle : s.transplantU.control.state = sIdle) (hWaits : s.transplantU.control.waitsOut t = true) :
    (∃ u, (s.csrs.output (s.csrsInput i)).clear = some u) ∨
      ∃ u, s.transplantU.control.cpu2transClear (s.unitInput i) = some u ∧
        u.toNat ≤ t.toNat := by
  cases hHost : s.transplantU.control.takesHost (s.unitInput i) with
  | true =>
    refine .inl ⟨s.transplantU.control.threadNext (s.unitInput i), ?_⟩
    exact if_pos hHost
  | false =>
    have hNone : (s.unitInput i).pending = 0 := by
      by_contra hSome
      rw [TransplantControl.takesHost_iff.mpr ⟨hIdle, hSome⟩] at hHost
      cases hHost
    have hTakes : s.transplantU.control.takesCpu (s.unitInput i) = true :=
      TransplantControl.takesCpu_iff.mpr ⟨hIdle, hNone, ne_zero_of_getLsbD hWaits⟩
    refine .inr ⟨s.transplantU.control.threadNext (s.unitInput i), if_pos hTakes, ?_⟩
    rw [TransplantControl.threadNext, hHost, if_neg (by decide), if_pos hTakes]
    exact (priorityEncoder_spec hWaits).2

theorem cyclesLeft_next (hInv : s.Inv) (hCount : s.transplantU.control.Counting) (h : s.Rule x i)
    (hLeaving : s.transplantU.control.leaving t = 1) (hNot : s.copied t = false) :
    (s.next x i).transplantU.control.leaving t = 1 ∧ (s.next x i).cyclesLeft t + 1 ≤ s.cyclesLeft t + 37 * s.jumpsAhead t i := by
  have hControl : (s.next x i).transplantU.control =
    s.transplantU.control.next (s.unitInput i) := rfl
  have hRun := running_of_leaving hInv hLeaving
  have hStays : (s.next x i).transplantU.control.leaving t = 1 := by
    have hSum := reports_next (t := t) hInv h
    have hQuiet : s.reported i t = false := decide_eq_false fun hReport => by
      have hRuns := running_of_left hInv.pipeline ((done_eq_left h.live).symm.trans hReport)
      rw [hRun] at hRuns
      cases hRuns
    rw [hNot, hQuiet, Bool.toNat_false, hLeaving] at hSum
    exact hSum
  refine ⟨hStays, ?_⟩
  have hCopies := TransplantControl.copiesOut_next (t := t) (c := s.transplantU.control)
    (i := s.unitInput i)
  have hStarts := startsAhead_next (x := x) (s := s) (i := i)
  have hReports := reportsAhead_next (x := x) (s := s) (i := i) (t := t)
  rw [of_decide_eq_false hNot |> decide_eq_false, Bool.not_false, Bool.and_true, ← hControl] at hCopies
  cases hState : s.transplantU.control.state with
  | sTrans =>
    have hLess := hCount.remaining_next (s.unitInput i) hState
    obtain ⟨-, hCpu⟩ := TransplantControl.takes_of_trans (i := s.unitInput i) hState
    have hNoClear : s.transplantU.control.cpu2transClear (s.unitInput i) = none := by
      simp [TransplantControl.cpu2transClear, hCpu]
    rw [hNoClear, decide_eq_false (by simp), Bool.false_or] at hCopies
    rw [← hControl] at hLess
    rw [cyclesLeft, cyclesLeft, hCopies, jumpsAhead]
    split <;> omega
  | sIdle =>
    have hNotYet : s.transplantU.control.copiesOut t = false := by simp [TransplantControl.copiesOut, hState]
    have hWaits : s.transplantU.control.waitsOut t = true := by
      rw [TransplantControl.leaving, hNotYet] at hLeaving
      cases hW : s.transplantU.control.waitsOut t with
      | true => rfl
      | false => simp [hW] at hLeaving
    have hMine : 0 < s.reportsAhead t := Finset.card_pos.mpr ⟨t.toNat, mem_upTo.mpr ⟨le_rfl, hWaits⟩⟩
    rw [hNotYet, Bool.or_false] at hCopies
    rcases takes_of_idle (i := i) hState hWaits with ⟨u, hClear⟩ | ⟨u, hClear, hLe⟩
    · have hLast : u.toNat ≤ (BitVec.allOnes params.thidW).toNat := by
        rw [BitVec.toNat_allOnes]
        have := u.isLt
        omega
      have hFewer : (s.next x i).startsAhead + 1 ≤ s.startsAhead + (s.csrsInput i).startsUpTo (BitVec.allOnes params.thidW) :=
        TransplantCSRs.ahead_next_of_clear (s := s.csrs) (i := s.csrsInput i) (BitVec.allOnes _) h.host.toNoClash hClear hLast
      have hTakes : s.transplantU.control.takesHost (s.unitInput i) = true := (TransplantCSRs.clear_eq_some hClear).1
      have hRemaining := TransplantControl.remaining_of_takes
        (i := s.unitInput i) (.inl hTakes)
      have hCpu : s.transplantU.control.cpu2transClear (s.unitInput i) ≠ some t := by
        rw [TransplantControl.cpu2transClear, TransplantControl.takesCpu_of_takesHost hTakes, if_neg (by decide)]
        exact nofun
      rw [decide_eq_false hCpu] at hCopies
      rw [← hControl] at hRemaining
      rw [cyclesLeft, cyclesLeft, hCopies, hNotYet, hRemaining, jumpsAhead]
      simp only [Bool.false_eq_true, if_false]
      omega
    · have hTakes := (TransplantControl.cpu2transClear_eq_some hClear).1
      have hRemaining := TransplantControl.remaining_of_takes
        (i := s.unitInput i) (.inr hTakes)
      have hFewer := reportsAhead_next_of_clear (x := x) hClear hLe
      rw [← hControl] at hRemaining
      rw [cyclesLeft, cyclesLeft, hCopies, hNotYet, hRemaining, jumpsAhead]
      simp only [Bool.false_eq_true, if_false]
      split <;> omega

theorem cyclesLeft_le (s : PipelineAxi params δ) (t : params.Thid) :
    s.cyclesLeft t ≤ 37 * (2 ^ params.thidW + t.toNat + 1) + 36 := by
  have hStarts := card_upTo_le s.pendingHostTrans (BitVec.allOnes params.thidW).toNat
  have hReports := card_upTo_le s.transplantU.control.cpu2transPending t.toNat
  have hPos := Nat.two_pow_pos params.thidW
  have hRemaining : s.transplantU.control.remaining ≤ 36 := by
    rw [TransplantControl.remaining]
    split <;> omega
  rw [BitVec.toNat_allOnes] at hStarts
  rw [cyclesLeft, startsAhead, reportsAhead, BitVec.toNat_allOnes]
  split <;> omega

end Progress

section Runs

variable (x)

/-- Threads stop in quiescence and once. In every cycle of a run from reset a thread is reported when its
instruction commits, is nowhere in the pipeline from then on and keeps the state registers of that commit;
a stop bit turns its next commit into a report. Over the run every new stop request but the one that still
waits is answered by one copy-out, every report but the one on its way by one copy-out, and every start but
the one whose thread is still there by one copy-out. A reported thread is out within a bounded time. -/
theorem stop_once (c : Contents params) {is : List (Input params)} (h : (machine x).Along (Rule x) (reset c) is) :
    (machine x).Along (Quiescent x) (reset c) is ∧
    (∀ t, ((machine x).run (reset c) is).present t ≤ 1 ∧
      (((machine x).run (reset c) is).csrs.stops t).toNat + (machine x).total (fun s _ => (s.stopServed t).toNat) (reset c) is =
        (machine x).total (fun s i => (s.newStop i t).toNat) (reset c) is ∧
      ((machine x).run (reset c) is).transplantU.control.leaving t + (machine x).total (fun s _ => (s.copied t).toNat) (reset c) is =
        (machine x).total (fun s i => (s.reported i t).toNat) (reset c) is ∧
      ((machine x).run (reset c) is).present t + (machine x).total (fun s _ => (s.copied t).toNat) (reset c) is =
        (machine x).total (fun s i => ((s.csrsInput i).requestsStart t.toNat).toNat) (reset c) is) ∧
    ∀ t qs, (machine x).Along (Rule x) ((machine x).run (reset c) is) qs →
      ((machine x).run (reset c) is).transplantU.control.leaving t = 1 →
      37 * (2 ^ params.thidW + t.toNat + 2 + (machine x).total (jumpsAhead t) ((machine x).run (reset c) is) qs) ≤ qs.length →
      0 < (machine x).total (fun s _ => (s.copied t).toNat) ((machine x).run (reset c) is) qs := by
  have hStep : ∀ s i, Inv s → Rule x s i → Inv (next x s i) := fun _ _ hInv hRule => hInv.next hRule
  have hEnd : Inv ((machine x).run (reset c) is) := h.invariant (inv_reset c) hStep
  refine ⟨h.of_invariant (inv_reset c) hStep fun _ _ hInv hRule => quiescent hInv hRule, fun t => ⟨hEnd.present t, ?_⟩,
    fun t qs hQs hLeaving hLong => ?_⟩
  · have hStops := h.balance (fun s => (s.csrs.stops t).toNat) (inv_reset c) hStep fun _ _ _ hRule => stops_next t hRule.host
    have hReports := h.balance (fun s => s.transplantU.control.leaving t) (inv_reset c) hStep
      fun _ _ hInv hRule => reports_next hInv hRule
    have hPresent := h.balance (fun s => s.present t) (inv_reset c) hStep fun _ _ hInv hRule => present_next hInv hRule t
    have hNone : (reset c : PipelineAxi params δ).csrs.stops t = false := BitVec.getLsbD_zero
    have hNotLeaving : (reset c : PipelineAxi params δ).transplantU.control.leaving t = 0 := by
      simp [reset, PipelineState.reset, TransplantControl.reset, TransplantControl.leaving, TransplantControl.waitsOut,
        TransplantControl.copiesOut]
    rw [hNone, Bool.toNat_false, Nat.zero_add] at hStops
    rw [hNotLeaving, Nat.zero_add] at hReports
    rw [present_reset, Nat.zero_add] at hPresent
    exact ⟨hStops, hReports, hPresent⟩
  · have hCount : ((machine x).run (reset c) is).transplantU.control.Counting :=
      @Machine.Along.invariant _ _ _ _ _ (fun s => s.transplantU.control.Counting) _ _ h .reset fun _ _ hCount _ => hCount.next _
    refine hQs.progress (fun s => s.Inv ∧ s.transplantU.control.Counting ∧ s.transplantU.control.leaving t = 1)
      (cyclesLeft t) (fun s i => 37 * s.jumpsAhead t i) ⟨hEnd, hCount, hLeaving⟩ ?_ ?_
    · rintro s i ⟨hInv, hCount, hLeaving⟩ hRule hNot
      obtain ⟨hStays, hCloser⟩ := cyclesLeft_next hInv hCount hRule hLeaving hNot
      exact ⟨⟨hInv.next hRule, hCount.next _, hStays⟩, hCloser⟩
    · have hBound := cyclesLeft_le ((machine x).run (reset c) is) t
      rw [Machine.total_mul]
      omega

end Runs

section TwoThreads

/-- The cells of the commit queue hold the tag at power-up. -/
def powerUpOf (tag : BitVec 1) : Contents twoThreads where
  pipeline := { powerUp with commitQueue := fun _ => { nothingNext with tag := tag } }
  pcMem := fun _ => 0
  nzcvMem := fun _ => 0
  hostBuffer := ⟨fun _ _ => 0, fun _ => 0, fun _ => 0⟩

def busCycle (bus : Option (CSRBusWrite axiDataW)) : Input twoThreads :=
  ⟨bus, .read 0 fun _ => 0, quietPort, quietPort, fun _ => none, ⟨fun _ => 0, ⟨0, 0⟩⟩⟩

/-- The host starts thread 0 and asks for its stop while it is copied in. One word is fetched for the thread, and its
instruction commits. -/
def startAndStop (rest : Nat) : List (Input twoThreads) :=
  busCycle (some ⟨1, 1⟩) :: List.replicate 9 (busCycle none) ++ busCycle (some ⟨2, 1⟩) :: List.replicate 28 (busCycle none) ++
    [{ busCycle none with inst := hitPort false }, busCycle none, { busCycle none with inst := dataPort }] ++
    List.replicate rest (busCycle none)

/-- With another tag left over the stop is served once. -/
theorem stop_once_one : (machine (loads false)).Along (Quiescent (loads false)) (reset (powerUpOf 1)) (startAndStop 42) ∧
    (machine (loads false)).total (fun s i => (s.newStop i 0).toNat) (reset (powerUpOf 1)) (startAndStop 42) = 1 ∧
    (machine (loads false)).total (fun s _ => (s.stopServed 0).toNat) (reset (powerUpOf 1)) (startAndStop 42) = 1 ∧
    (machine (loads false)).total (fun s i => (s.reported i 0).toNat) (reset (powerUpOf 1)) (startAndStop 42) = 1 := by
  have hRule : (machine (loads false)).Along (Rule (loads false)) (reset (powerUpOf 1)) (startAndStop 42) := by decide +kernel
  obtain ⟨hQuiet, hCounts, -⟩ := stop_once (loads false) (powerUpOf 1) hRule
  obtain ⟨-, hStops, hReports, -⟩ := hCounts 0
  have hStop : (machine (loads false)).total (fun s i => (s.newStop i 0).toNat) (reset (powerUpOf 1)) (startAndStop 42) = 1 ∧
      ((machine (loads false)).run (reset (powerUpOf 1)) (startAndStop 42)).csrs.stops 0 = false := by decide +kernel
  have hCopy : (machine (loads false)).total (fun s _ => (s.copied 0).toNat) (reset (powerUpOf 1)) (startAndStop 42) = 1 ∧
      ((machine (loads false)).run (reset (powerUpOf 1)) (startAndStop 42)).transplantU.control.leaving 0 = 0 := by decide +kernel
  have hServed : ∀ {waits served asked : Nat}, waits + served = asked → waits = 0 → asked = 1 → served = 1 := by omega
  have hMade : ∀ {waits made told : Nat}, waits + made = told → waits = 0 → made = 1 → told = 1 := by omega
  exact ⟨hQuiet, hStop.1, hServed hStops (congrArg Bool.toNat hStop.2) hStop.1, hMade hReports hCopy.2 hCopy.1⟩

/-- With its own tag left over thread 0 is reported while it is copied in, and copied out twice for one request
and one commit. -/
theorem stopped_twice : (machine (loads false)).Along
      (fun s i => s.Answered (loads false) i ∧ s.pipeline.Passable (loads false) (s.pipelineInput i) ∧ s.HostWaits i)
      (reset (powerUpOf 0)) (startAndStop 74) ∧
    (((machine (loads false)).run (reset (powerUpOf 0)) ((startAndStop 74).take 11)).done (busCycle none) = some 0 ∧
      ((machine (loads false)).run (reset (powerUpOf 0)) ((startAndStop 74).take 11)).headCommits = false) ∧
    (machine (loads false)).total (fun s i => (s.newStop i 0).toNat) (reset (powerUpOf 0)) (startAndStop 74) = 1 ∧
    (machine (loads false)).total (fun s _ => s.headCommits.toNat) (reset (powerUpOf 0)) (startAndStop 74) = 1 ∧
    (machine (loads false)).total (fun s _ => (s.copied 0).toNat) (reset (powerUpOf 0)) (startAndStop 74) = 2 := by
  decide +kernel

end TwoThreads

end PipelineAxi

end KnockoutKraken.Armflex
