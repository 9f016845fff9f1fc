import KnockoutKraken.Armflex.ExecuteStage
import KnockoutKraken.Armflex.InFlight
import KnockoutKraken.Armflex.StopCPU

/-!
# The threads of the pipeline

The pipeline with its host and with the read ports of the architectural
state, which answer a cycle after an instruction leaves the decode stage.
It is watched together with the word every thread executes, the blocks
that were read for its access, and the state it executes it in. Although the threads take turns in all the stages,
each of them executes one word after the other, on the state the word
before has left.
-/

namespace KnockoutKraken.Armflex

open Library Util

/-- What the word commits in this state: what the execute stage packs, or what the memory unit makes of its access
and of the blocks that were read for it. -/
def ThreadState.Executes (params : PipelineParams) (s : ThreadState) (w : BitVec 32) (reads : List params.Block)
    (c : CommitInst params.thidW) : Prop :=
  match (s.issue w params.thidW).minst with
  | some minst => { minst with tag := c.tag }.Completes params reads c
  | none => c = { (s.issue w params.thidW).commitNext with tag := c.tag }

namespace PipelineState

variable {thidW : Nat} {s : PipelineState thidW} {t : BitVec thidW}

/-- What the commit unit alone would do in a cycle. -/
def events (s : PipelineState thidW) : List (CommitEvent thidW) :=
  (⟨s.commitU, s.archstate⟩ : Committing thidW).events ⟨s.commitReady, none⟩

theorem thread_next (h : s.Ported) (i : Input thidW) (hNot : ¬ s.copiesIn t) :
    (s.next i).archstate.thread t = s.events.foldl (CommitEvent.apply t) (s.archstate.thread t) := by
  have hFrame := h.framed i
  cases hUpd : s.updatingPState with
  | true =>
    have hWB : s.commitU.canWB s.commitReady = false := by rw [commitReady, hUpd, CommitUnit.canWB]; rfl
    have hFinal : s.commitU.finalCommit s.commitReady = false := finalCommit_of_updating hUpd
    have hEvents : s.events = [] := by
      simp [events, Committing.events, Committing.pstateWrite, CommitUnit.wr, hWB, hFinal]
    have hApplied : s.applied = none := by simp [applied, hUpd]
    have hRetired : s.retired = none := by simp [retired, hFinal]
    rw [hEvents]
    refine ThreadState.ext (funext fun r => ?_) ?_
    · exact (hFrame.reg t r hNot).trans (by rw [hApplied]; rfl)
    · exact (hFrame.pregs t hNot).trans (by rw [hRetired]; rfl)
  | false =>
    refine Eq.trans ?_ (Committing.thread_next (s := ⟨s.commitU, s.archstate⟩) (i := ⟨s.commitReady, none⟩) t)
    have hWr : s.rfileWr = s.commitU.wr s.commitReady := by rw [rfileWr, hUpd]; rfl
    have hWrite : s.pstateWrite = (⟨s.commitU, s.archstate⟩ : Committing thidW).pstateWrite ⟨s.commitReady, none⟩ := by
      rw [pstateWrite, commitTag, hUpd]
      rfl
    change (s.archstate.next s.rfileWr s.pstateWrite).thread t = _
    rw [hWr, hWrite]
    rfl

/-- The writes of the head so far and the events of a cycle are those of a retired instruction and the next head's writes. -/
theorem events_next (h : s.Ported) (i : Input thidW) :
    s.commitU.written.map .write ++ s.events =
      s.retired.toList.flatMap CommitInst.events ++ (s.next i).commitU.written.map .write :=
  Committing.events_next (s := ⟨s.commitU, s.archstate⟩) h.midway ⟨s.commitReady, i.enq⟩

end PipelineState

structure Core (params : PipelineParams) where
  axi : PipelineAxi params DInst
  /-- What the read ports show in this cycle. -/
  readR : Operands
  word : params.Thid → Option (BitVec 32)
  reads : params.Thid → List params.Block
  arch : params.Thid → ThreadState

namespace Core

open Pipeline WatchedPipeline PipelineAxi

variable {params : PipelineParams}

structure Input (params : PipelineParams) where
  bus : Option (Antmicro.CSRBusWrite axiDataW)
  hostPort : HostPort params.thidW
  inst : MemPort params Unit
  data : MemPort params Unit
  wake : Fin 2 → Option params.Thid

variable (s : Core params) (i : Input params)

abbrev pipe : Pipeline params DInst Unit := s.axi.pipeline.pipe

def axiInput : PipelineAxi.Input params := ⟨i.bus, i.hostPort, i.inst, i.data, i.wake, s.readR⟩

def pipelineInput : Pipeline.Input params Unit := s.axi.pipelineInput (s.axiInput i)

def fetchInput : FetchUnit.Input params Unit := s.pipe.fetchInput (executeStage _) (s.pipelineInput i)

def memInput : MemoryUnit.Input params Unit := s.pipe.memInput (executeStage _) (s.pipelineInput i)

def readNext : Operands :=
  match s.pipe.decReg.item with
  | some (tag, d) => (s.axi.archstate.thread tag).operands d
  | none => s.readR

section History

def answer : Option (Labelled Unit (FetchMeta params) × params.Block) :=
  CacheInterface.pipeResp s.pipe.fetch.cacheAdaptor i.inst.cacheResp (s.pipe.fetch.respReady (s.fetchInput i))

def fetched : Option (FetchedInst params) :=
  (s.answer i).map fun r => ⟨r.1.bits.id, FetchUnit.instBits r.1.bits.pc r.2⟩

def retired : Option (CommitInst params.thidW) := s.axi.state.retired

/-- The thread whose data is not mapped; its word is fetched again. -/
def replayed : Option params.Thid := s.axi.pipeline.missed (s.pipelineInput i) 1

def gone (t : params.Thid) : Bool := (s.retired.any fun inst => decide (inst.tag = t)) || decide (s.replayed i = some t)

def wordNext (t : params.Thid) : Option (BitVec 32) :=
  match (s.fetched i).filter fun inst => decide (inst.tag = t) with
  | some inst => some inst.data
  | none => if s.gone i t then none else s.word t

/-- What the cache answered to the access of the thread since its word was read. -/
def readsNext (t : params.Thid) : List params.Block :=
  match (s.fetched i).filter fun inst => decide (inst.tag = t) with
  | some _ => []
  | none => s.reads t ++ s.pipe.memUnit.readFor (s.memInput i) t

/-- A thread starts with what was copied in, and goes on with the commit of its instruction. -/
def archNext (t : params.Thid) : ThreadState :=
  if s.axi.transplantU.control.start = some t then (s.axi.next (executeStage _) (s.axiInput i)).archstate.thread t
  else
    match s.retired.filter fun inst => decide (inst.tag = t) with
    | some inst => (s.arch t).commit inst
    | none => s.arch t

end History

def next : Core params where
  axi := s.axi.next (executeStage _) (s.axiInput i)
  readR := s.readNext
  word := s.wordNext i
  reads := s.readsNext i
  arch := s.archNext i

def machine (params : PipelineParams) : Machine (Core params) (Input params) (Option (CommitInst params.thidW)) :=
  ⟨next, fun s _ => s.retired⟩

def reset (c : PipelineAxi.Contents params) : Core params where
  axi := .reset c
  readR := ⟨fun _ => 0, ⟨0, 0⟩⟩
  word _ := none
  reads _ := []
  arch := (PipelineAxi.reset c : PipelineAxi params DInst).archstate.thread

def Rule : Prop := s.axi.Rule (executeStage _) (s.axiInput i)

instance : Decidable (s.Rule i) := inferInstanceAs (Decidable (PipelineAxi.Rule _ _ _))

section Invariant

variable (t : params.Thid)

def waiting : Nat :=
  tokens (fun inst : Labelled Unit (FetchedInst params) => inst.bits.tag) t s.pipe.fetch.instQueue +
    held Prod.fst t s.pipe.decReg.item + held Prod.fst t s.pipe.issuer.item

/-- The places of an instruction of the thread from the instruction queue to the commit queue. -/
def busy : Nat :=
  s.waiting t + held id t (s.axi.pipeline.translatingThread 1) + s.pipe.memUnit.inFlight t +
    tokens CommitInst.tag t s.pipe.commitU.commitQueue.items

def asking : Nat :=
  s.pipe.fetch.pcUnit.enabledCount t + held id t (s.axi.pipeline.translatingThread 0) +
    tokens (fun q : FetchPending params Unit => q.inst.bits.id) t s.pipe.fetch.cacheReqQ +
    (tokens (fun m : Labelled Unit (FetchMeta params) => m.bits.id) t s.pipe.fetch.cacheAdaptor.baseQ +
      tokens (fun m : Labelled Unit (FetchMeta params) => m.bits.id) t s.pipe.fetch.cacheAdaptor.longQ)

def operands : Operands := if s.pipe.stateReadArrives then s.readR else s.pipe.operandsReg

def issued : Option (MInst params.thidW) :=
  (s.word t).bind fun w => ((s.arch t).issue w params.thidW).minst.map fun minst => { minst with tag := t }

/-- The thread with what the head of the commit queue has written so far. -/
def partway : ThreadState := (s.pipe.commitU.written.map .write).foldl (CommitEvent.apply t) (s.arch t)

structure Inv : Prop where
  axi : s.axi.Inv
  ported : s.axi.state.Ported
  busy : ∀ t, s.busy t = (s.word t).isSome.toNat
  pc : ∀ t, s.axi.pipeline.running t = true → s.pipe.fetch.pcUnit.pc t = (s.arch t).pregs.pc
  asks : s.pipe.fetch.Asks (s.axi.pipeline.translating 0) fun t => (s.arch t).pregs.pc
  fetched : ∀ inst ∈ s.pipe.fetch.instQueue, inst.bits.data ∈ s.word inst.bits.tag
  decoded : ∀ item ∈ s.pipe.decReg.item, ∃ w ∈ s.word item.1, item.2 = DInst.decode w
  issues : ∀ item ∈ s.pipe.issuer.item, ∃ w ∈ s.word item.1, item.2 = DInst.decode w ∧ s.operands = (s.arch item.1).operands item.2
  unread : ∀ t, 0 < s.waiting t → s.reads t = []
  carries : s.pipe.memUnit.Carries (s.axi.pipeline.translating 1) s.issued s.reads
  executed : ∀ c ∈ s.pipe.commitU.commitQueue.items, ∃ w ∈ s.word c.tag, (s.arch c.tag).Executes params w (s.reads c.tag) c
  state : ∀ t, s.axi.pipeline.running t = true → s.axi.archstate.thread t = s.partway t

end Invariant

variable {s} {i} {t : params.Thid}

section Flow

theorem fetched_eq : s.fetched i = (s.pipe.fetch.instEnq (s.fetchInput i)).map Labelled.bits := by
  rw [FetchUnit.instEnq, Option.map_map]
  rfl

theorem Inv.surrounded (h : s.Inv) (hRule : s.Rule i) : s.axi.pipeline.Surrounded (executeStage _) (s.pipelineInput i) :=
  PipelineAxi.surrounded h.axi hRule.answered

theorem Inv.asking_add_busy_le (h : s.Inv) : s.asking t + s.busy t ≤ (s.axi.pipeline.running t).toNat := by
  have hSum := h.axi.pipeline.conserved t
  simp only [places, FetchUnit.inFlight] at hSum
  simp only [asking, Core.busy, waiting, pipe]
  omega

theorem Inv.asking_add_busy_le_one (h : s.Inv) : s.asking t + s.busy t ≤ 1 := h.asking_add_busy_le.trans (Bool.toNat_le _)

theorem held_fetched_le : held FetchedInst.tag t (s.fetched i) ≤ s.asking t := by
  rw [fetched, held_map]
  refine held_le _ _ fun r hResp hThread => ?_
  have hPos : 0 < tokens (fun m : Labelled Unit (FetchMeta params) => m.bits.id) t s.pipe.fetch.cacheAdaptor.baseQ +
      tokens (fun m : Labelled Unit (FetchMeta params) => m.bits.id) t s.pipe.fetch.cacheAdaptor.longQ := by
    rcases CacheInterface.mem_of_pipeResp hResp with hMem | hMem
    · exact Nat.add_pos_left ((tokens_pos_iff _ _).mpr ⟨r.1, hMem, hThread⟩) _
    · exact Nat.add_pos_right _ ((tokens_pos_iff _ _).mpr ⟨r.1, hMem, hThread⟩)
  simp only [asking]
  omega

theorem instQueue_balance (hRule : s.Rule i) :
    tokens (fun inst : Labelled Unit (FetchedInst params) => inst.bits.tag) t
        (s.axi.pipeline.next (executeStage _) (s.pipelineInput i)).pipe.fetch.instQueue +
      held (fun inst : Labelled Unit (FetchedInst params) => inst.bits.tag) t
        (if s.axi.pipeline.pipe.instReady (executeStage _) (s.pipelineInput i) then s.axi.pipeline.pipe.fetch.instQueue.head? else none) =
      tokens (fun inst : Labelled Unit (FetchedInst params) => inst.bits.tag) t s.axi.pipeline.pipe.fetch.instQueue +
        held FetchedInst.tag t (s.fetched i) := by
  rw [fetched_eq, held_map]
  refine FetchUnit.instructionQueue.tokens_next s.pipe.fetch.instQueue (s.pipe.fetch.instEnq (s.fetchInput i))
    (s.fetchInput i).instReady (fun inst : Labelled Unit (FetchedInst params) => inst.bits.tag) t rfl fun hSome => ?_
  refine hRule.passable.fetchRoom.answered ?_
  cases hResp : (s.fetchInput i).cacheResp with
  | none => simp [FetchUnit.instEnq, CacheInterface.pipeResp, hResp] at hSome
  | some r => exact congrArg Option.isSome hResp

theorem commitQueue_balance :
    tokens CommitInst.tag t (s.axi.pipeline.next (executeStage _) (s.pipelineInput i)).pipe.commitU.commitQueue.items +
        held CommitInst.tag t s.retired =
      tokens CommitInst.tag t s.axi.pipeline.pipe.commitU.commitQueue.items +
        held CommitInst.tag t (if s.axi.pipeline.pipe.commitEnqReady (s.pipelineInput i) then
          s.axi.pipeline.pipe.commitEnq (executeStage _) (s.pipelineInput i) else none) :=
  s.pipe.commitU.commitQueue.tokens_next true (s.pipe.commitEnq (executeStage _) (s.pipelineInput i))
    (s.pipe.commitU.deqReady (s.pipelineInput i).commitReady) CommitInst.tag t

theorem Inv.busy_next (h : s.Inv) (hRule : s.Rule i) :
    (s.next i).busy t + (held CommitInst.tag t s.retired + held id t (s.replayed i)) =
      s.busy t + held FetchedInst.tag t (s.fetched i) := by
  have hSurrounded := h.surrounded hRule
  have hInst := instQueue_balance (t := t) hRule
  have hStages := stage_balance (x := executeStage _) (s := s.axi.pipeline) (i := s.pipelineInput i) (t := t)
  have hIssue := issue_balance (x := executeStage _) (s := s.axi.pipeline) (i := s.pipelineInput i) (t := t)
  have hMem := mem_balance (t := t) hSurrounded hRule.passable
  have hMemTLB := mem_translating_balance (t := t) hSurrounded h.axi.pipeline.state hRule.passable.onePage
  have hMemAnswer := mem_answer (t := t) hSurrounded hRule.passable h.axi.pipeline.state
  have hCommit := commitQueue_balance (s := s) (i := i) (t := t)
  have hNext : (s.next i).axi.pipeline = s.axi.pipeline.next (executeStage _) (s.pipelineInput i) := rfl
  simp only [Core.busy, waiting, pipe, hNext, replayed]
  omega

theorem held_retired_le : held CommitInst.tag t s.retired ≤ tokens CommitInst.tag t s.pipe.commitU.commitQueue.items := by
  refine held_le _ _ fun inst hInst hTag => (tokens_pos_iff _ _).mpr ⟨inst, ?_, hTag⟩
  obtain ⟨hCommit, hHead⟩ := Option.ite_none_right_eq_some.mp hInst
  rw [← Option.some.inj hHead]
  exact RamQueue.deqBits_mem (Bool.and_eq_true_iff.mp hCommit).1

theorem gone_le_busy : held CommitInst.tag t s.retired + held id t (s.replayed i) ≤ s.busy t := by
  have hRetired := held_retired_le (s := s) (t := t)
  have hReplayed : held id t (s.replayed i) ≤ held id t (s.axi.pipeline.translatingThread 1) := by
    rw [replayed, missed]
    split
    · exact le_rfl
    · exact Nat.zero_le _
  simp only [Core.busy, waiting]
  omega

section Histories

variable {inst : FetchedInst params} {c : CommitInst params.thidW}

theorem wordNext_of_fetched (h : s.fetched i = some inst) : s.wordNext i inst.tag = some inst.data := by
  simp [wordNext, h, Option.filter]

theorem gone_eq_false_iff :
    s.gone i t = false ↔ held CommitInst.tag t s.retired + held id t (s.replayed i) = 0 := by
  rw [gone, Nat.add_eq_zero_iff, held_id_eq, Bool.or_eq_false_iff, Bool.toNat_eq_zero]
  refine and_congr_left' ?_
  cases s.retired with
  | none => simp
  | some c => by_cases hTag : c.tag = t <;> simp [held_some, hTag]

theorem wordNext_of_not_fetched (hFetched : held FetchedInst.tag t (s.fetched i) = 0) :
    s.wordNext i t = if s.gone i t then none else s.word t := by
  rw [wordNext, (held_eq_zero_iff _ _).mp hFetched]

theorem readsNext_of_not_fetched (hFetched : held FetchedInst.tag t (s.fetched i) = 0) :
    s.readsNext i t = s.reads t ++ s.pipe.memUnit.readFor (s.memInput i) t := by
  rw [readsNext, (held_eq_zero_iff _ _).mp hFetched]

theorem readsNext_of_fetched (hFetched : 0 < held FetchedInst.tag t (s.fetched i)) : s.readsNext i t = [] := by
  obtain ⟨inst, hInst, rfl⟩ := (held_pos_iff _ _).mp hFetched
  simp [readsNext, Option.mem_def.mp hInst, Option.filter]

theorem archNext_of_retired (hStart : s.axi.transplantU.control.start ≠ some c.tag) (h : s.retired = some c) :
    s.archNext i c.tag = (s.arch c.tag).commit c := by
  simp [archNext, hStart, h, Option.filter]

theorem archNext_of_not_retired (hStart : s.axi.transplantU.control.start ≠ some t)
    (hRetired : held CommitInst.tag t s.retired = 0) : s.archNext i t = s.arch t := by
  rw [archNext, if_neg hStart, (held_eq_zero_iff _ _).mp hRetired]

end Histories

theorem Inv.busy_wordNext (h : s.Inv) (hRule : s.Rule i) (t : params.Thid) :
    (s.next i).busy t = ((s.next i).word t).isSome.toNat := by
  have hSum := h.busy_next (t := t) hRule
  have hOne := h.asking_add_busy_le_one (t := t)
  have hFetched := held_fetched_le (s := s) (i := i) (t := t)
  have hGone := gone_le_busy (s := s) (i := i) (t := t)
  have hBusy := h.busy t
  change (s.next i).busy t = (s.wordNext i t).isSome.toNat
  rcases Nat.eq_zero_or_pos (held FetchedInst.tag t (s.fetched i)) with hNone | hSome
  · rw [wordNext_of_not_fetched hNone]
    cases hOut : s.gone i t with
    | false =>
      rw [gone_eq_false_iff] at hOut
      rw [if_neg (by decide), ← hBusy]
      omega
    | true =>
      have hOut : held CommitInst.tag t s.retired + held id t (s.replayed i) ≠ 0 := by
        rw [Ne, ← gone_eq_false_iff, hOut]
        decide
      rw [if_pos rfl, Option.isSome_none, Bool.toNat_false]
      omega
  · obtain ⟨inst, hInst, hTag⟩ := (held_pos_iff _ _).mp hSome
    rw [← hTag, wordNext_of_fetched hInst, hTag, Option.isSome_some, Bool.toNat_true]
    omega

/-- A word that is still under way is the same, and so is the state it executes in; the cache may have answered
its access. -/
theorem Inv.kept (h : s.Inv) (hRule : s.Rule i) {w : BitVec 32} (hWord : w ∈ s.word t) (hStill : 0 < (s.next i).busy t) :
    w ∈ (s.next i).word t ∧ (s.next i).arch t = s.arch t ∧
      (s.next i).reads t = s.reads t ++ s.pipe.memUnit.readFor (s.memInput i) t := by
  have hSum := h.busy_next (t := t) hRule
  have hOne := h.asking_add_busy_le_one (t := t)
  have hFetched := held_fetched_le (s := s) (i := i) (t := t)
  have hRuns := h.asking_add_busy_le (t := t)
  have hBusy : s.busy t = 1 := by
    rw [h.busy, hWord]
    rfl
  have hNotGone : held CommitInst.tag t s.retired + held id t (s.replayed i) = 0 := by omega
  refine ⟨?_, ?_, readsNext_of_not_fetched (by omega)⟩
  · change w ∈ s.wordNext i t
    rw [wordNext_of_not_fetched (by omega), gone_eq_false_iff.mpr hNotGone]
    exact hWord
  · refine archNext_of_not_retired (fun hStart => ?_) (by omega)
    rw [not_running_of_start (s.axiInput i) h.axi hStart, Bool.toNat_false] at hRuns
    omega

theorem Inv.readFor_eq_nil (h : s.Inv) (hPlace : s.pipe.memUnit.accessing t < s.busy t) :
    s.pipe.memUnit.readFor (s.memInput i) t = [] := by
  have hOne := h.asking_add_busy_le_one (t := t)
  exact MemoryUnit.readFor_of_not_accessing (by omega)

theorem Inv.unread_next (h : s.Inv) (hRule : s.Rule i) (hWaiting : 0 < (s.next i).waiting t) : (s.next i).reads t = [] := by
  rcases Nat.eq_zero_or_pos (held FetchedInst.tag t (s.fetched i)) with hNone | hSome
  · have hInst := instQueue_balance (t := t) hRule
    have hStages := stage_balance (x := executeStage _) (s := s.axi.pipeline) (i := s.pipelineInput i) (t := t)
    have hNext : (s.next i).axi.pipeline = s.axi.pipeline.next (executeStage _) (s.pipelineInput i) := rfl
    have hBefore : 0 < s.waiting t := by
      simp only [waiting, pipe, hNext] at hWaiting ⊢
      omega
    refine (readsNext_of_not_fetched hNone).trans ?_
    rw [h.unread t hBefore, h.readFor_eq_nil]
    · rfl
    · simp only [Core.busy, MemoryUnit.inFlight]
      omega
  · exact readsNext_of_fetched hSome

theorem Inv.arch_kept (h : s.Inv) (hPlace : tokens CommitInst.tag t s.pipe.commitU.commitQueue.items < s.axi.pipeline.places t) :
    s.axi.pipeline.running t = true ∧ (s.next i).arch t = s.arch t := by
  have hRetired := held_retired_le (s := s) (t := t)
  have hOne := h.axi.pipeline.conserved t
  cases hRuns : s.axi.pipeline.running t with
  | false =>
    rw [hRuns, Bool.toNat_false] at hOne
    omega
  | true =>
    rw [hRuns, Bool.toNat_true] at hOne
    refine ⟨rfl, archNext_of_not_retired (fun hStart => ?_) (by omega)⟩
    rw [not_running_of_start (s.axiInput i) h.axi hStart] at hRuns
    cases hRuns

end Flow

section Steps

theorem enabled_of_tlbReqFire (hFire : s.pipe.fetch.tlbReqFire (s.fetchInput i) = true) :
    s.pipe.fetch.pcUnit.enabledCount s.pipe.fetch.pcUnit.reqTag = 1 := by
  have hFired : s.pipe.fetch.pcUnit.fired (s.pipe.fetch.pcReqReady (s.fetchInput i)) = some s.pipe.fetch.pcUnit.reqTag := by
    rw [FetchUnit.fired_eq, FetchUnit.tlbReq, if_pos hFire]
    rfl
  rw [FetchUnitPC.enabledCount, FetchUnitPC.en_of_fired hFired]
  rfl

theorem Inv.asks_next (h : s.Inv) (hRule : s.Rule i) :
    (s.next i).pipe.fetch.Asks ((s.next i).axi.pipeline.translating 0) fun t => ((s.next i).arch t).pregs.pc := by
  have hOld : s.pipe.fetch.Asks (s.axi.pipeline.translating 0) fun t => ((s.next i).arch t).pregs.pc := by
    refine h.asks.congr fun t hPos => ?_
    change 0 < s.pipe.fetch.inFlight t + held id t (s.axi.pipeline.translatingThread 0) at hPos
    rw [(h.arch_kept (t := t) ?_).2]
    simp only [places, pipe] at hPos ⊢
    omega
  refine hOld.next (i := s.fetchInput i) (fun hFire => ?_) ((h.surrounded hRule).answered 0)
  have hEnabled := enabled_of_tlbReqFire hFire
  obtain ⟨hRuns, hArch⟩ := h.arch_kept (i := i) (t := s.pipe.fetch.pcUnit.reqTag) (by
    simp only [places, pipe] at hEnabled ⊢
    omega)
  rw [hArch]
  exact h.pc _ hRuns

theorem busy_pos_of_instQueue {inst : Labelled Unit (FetchedInst params)} (h : inst ∈ s.pipe.fetch.instQueue) :
    0 < s.busy inst.bits.tag := by
  have hPos := (tokens_pos_iff (fun inst : Labelled Unit (FetchedInst params) => inst.bits.tag) inst.bits.tag).mpr ⟨inst, h, rfl⟩
  simp only [Core.busy, waiting]
  omega

theorem busy_pos_of_decReg {item : params.Thid × DInst} (h : s.pipe.decReg.item = some item) : 0 < s.busy item.1 := by
  have hPos : held Prod.fst item.1 s.pipe.decReg.item = 1 := by rw [h, held_some, if_pos rfl]
  simp only [Core.busy, waiting]
  omega

theorem busy_pos_of_issuer {item : params.Thid × DInst} (h : s.pipe.issuer.item = some item) : 0 < s.busy item.1 := by
  have hPos : held Prod.fst item.1 s.pipe.issuer.item = 1 := by rw [h, held_some, if_pos rfl]
  simp only [Core.busy, waiting]
  omega

theorem busy_pos_of_commitQueue {c : CommitInst params.thidW} (h : c ∈ s.pipe.commitU.commitQueue.items) : 0 < s.busy c.tag := by
  have hPos := (tokens_pos_iff CommitInst.tag c.tag).mpr ⟨c, h, rfl⟩
  simp only [Core.busy, waiting]
  omega

theorem Inv.fetched_next (h : s.Inv) (hRule : s.Rule i) {inst : Labelled Unit (FetchedInst params)}
    (hInst : inst ∈ (s.next i).pipe.fetch.instQueue) : inst.bits.data ∈ (s.next i).word inst.bits.tag := by
  rcases FlushQueue.mem_of_mem_next hInst with hOld | hEnq
  · exact (h.kept hRule (h.fetched inst hOld) (busy_pos_of_instQueue hInst)).1
  · exact wordNext_of_fetched (by rw [fetched_eq, show s.pipe.fetch.instEnq (s.fetchInput i) = some inst from hEnq]; rfl)

theorem Inv.decoded_next (h : s.Inv) (hRule : s.Rule i) {item : params.Thid × DInst}
    (hItem : (s.next i).pipe.decReg.item = some item) : ∃ w ∈ (s.next i).word item.1, item.2 = DInst.decode w := by
  have hWord : ∃ w ∈ s.word item.1, item.2 = DInst.decode w := by
    rcases FlushReg.item_of_next _ hItem with hOld | hEnq
    · exact h.decoded item hOld
    · obtain ⟨inst, hInst, rfl⟩ := Option.map_eq_some_iff.mp hEnq
      obtain ⟨inst, hHead, rfl⟩ := Option.map_eq_some_iff.mp hInst
      exact ⟨_, h.fetched inst (List.mem_of_mem_head? hHead), rfl⟩
  obtain ⟨w, hw, hDecode⟩ := hWord
  exact ⟨w, (h.kept hRule hw (busy_pos_of_decReg hItem)).1, hDecode⟩

theorem mem_written {wr : RFileWrite params.thidW} (h : wr ∈ s.pipe.commitU.written) : wr.tag = s.pipe.commitU.head.tag :=
  CommitInst.tag_of_mem_writes ((CommitInst.writesBefore_prefix _ _).subset h)

theorem partway_of_absent (hMidway : s.pipe.commitU.Midway)
    (hAbsent : tokens CommitInst.tag t s.pipe.commitU.commitQueue.items = 0) : s.partway t = s.arch t := by
  rw [partway, CommitEvent.foldl_writes (fun _ => mem_written)]
  split
  · next hTag =>
    by_cases hState : s.pipe.commitU.wbState = .sWB
    · rw [CommitUnit.written_of_sWB hState]
      rfl
    · have hHead := (tokens_pos_iff CommitInst.tag t).mpr ⟨_, RamQueue.deqBits_mem (hMidway hState), hTag⟩
      omega
  · rfl

theorem Inv.thread_of_decReg (h : s.Inv) {item : params.Thid × DInst} (hItem : s.pipe.decReg.item = some item) :
    s.axi.archstate.thread item.1 = s.arch item.1 := by
  have hHeld : held Prod.fst item.1 s.pipe.decReg.item = 1 := by rw [hItem, held_some, if_pos rfl]
  have hRuns := h.asking_add_busy_le (t := item.1)
  simp only [Core.busy, waiting] at hRuns
  have hLe := Bool.toNat_le (s.axi.pipeline.running item.1)
  rw [h.state item.1 ?_, partway_of_absent h.ported.midway ?_]
  · omega
  · cases hRun : s.axi.pipeline.running item.1 with
    | true => rfl
    | false =>
      rw [hRun, Bool.toNat_false] at hRuns
      omega

theorem operands_eq : s.operands = s.pipe.operands (s.pipelineInput i) := rfl

theorem Inv.issues_next (h : s.Inv) (hRule : s.Rule i) {item : params.Thid × DInst}
    (hItem : (s.next i).pipe.issuer.item = some item) :
    ∃ w ∈ (s.next i).word item.1, item.2 = DInst.decode w ∧ (s.next i).operands = ((s.next i).arch item.1).operands item.2 := by
  have hWord : ∃ w ∈ s.word item.1, item.2 = DInst.decode w ∧ (s.next i).operands = (s.arch item.1).operands item.2 := by
    have hNext : (s.next i).pipe.issuer = if s.pipe.decDeqReady (executeStage _) (s.pipelineInput i)
        then ⟨s.pipe.decReg.item⟩ else s.pipe.issuer := rfl
    have hRead : (s.next i).operands =
        if s.pipe.decReg.item.isSome && s.pipe.decDeqReady (executeStage _) (s.pipelineInput i) then s.readNext else s.operands := rfl
    rw [hNext] at hItem
    rw [hRead]
    cases hReady : s.pipe.decDeqReady (executeStage _) (s.pipelineInput i) with
    | true =>
      rw [hReady, if_pos rfl] at hItem
      obtain ⟨w, hw, hDecode⟩ := h.decoded item hItem
      refine ⟨w, hw, hDecode, ?_⟩
      rw [readNext, show s.pipe.decReg.item = some item from hItem, ← h.thread_of_decReg hItem]
      rfl
    | false =>
      rw [hReady, if_neg (by decide)] at hItem
      rw [Bool.and_false, if_neg (by decide)]
      exact h.issues item hItem
  obtain ⟨w, hw, hDecode, hOperands⟩ := hWord
  obtain ⟨hKept, hArch, -⟩ := h.kept hRule hw (busy_pos_of_issuer hItem)
  exact ⟨w, hKept, hDecode, by rw [hArch, hOperands]⟩

theorem Inv.executes_issuer (h : s.Inv) {item : params.Thid × DInst} (hItem : s.pipe.issuer.item = some item) :
    ∃ w ∈ s.word item.1, (executeStage params.thidW).execute item.2 (s.pipe.operands (s.pipelineInput i)) =
      (s.arch item.1).issue w params.thidW := by
  obtain ⟨w, hw, hDecode, hOperands⟩ := h.issues item hItem
  refine ⟨w, hw, ?_⟩
  rw [← operands_eq, hOperands, hDecode]
  rfl

theorem Inv.issued_of_memReq (h : s.Inv) {inst : MInst params.thidW}
    (hInst : s.pipe.memReq (executeStage _) (s.pipelineInput i) = some inst) : inst ∈ s.issued inst.tag := by
  obtain ⟨item, hItem, hMinst⟩ := Option.bind_eq_some_iff.mp hInst
  obtain ⟨minst, hSome, rfl⟩ := Option.map_eq_some_iff.mp hMinst
  obtain ⟨w, hw, hExecute⟩ := h.executes_issuer (i := i) hItem
  rw [hExecute] at hSome
  refine Option.bind_eq_some_iff.mpr ⟨w, hw, ?_⟩
  rw [hSome]
  rfl

theorem issuer_of_memReq {inst : MInst params.thidW} (hInst : s.pipe.memReq (executeStage _) (s.pipelineInput i) = some inst) :
    ∃ item, s.pipe.issuer.item = some item ∧ item.1 = inst.tag := by
  obtain ⟨item, hItem, hMinst⟩ := Option.bind_eq_some_iff.mp hInst
  obtain ⟨minst, -, rfl⟩ := Option.map_eq_some_iff.mp hMinst
  exact ⟨item, hItem, rfl⟩

theorem Inv.carries_next (h : s.Inv) (hRule : s.Rule i) :
    (s.next i).pipe.memUnit.Carries ((s.next i).axi.pipeline.translating 1) (s.next i).issued (s.next i).reads := by
  have hTranslating : (s.next i).axi.pipeline.translating 1 =
      (s.axi.pipeline.translating 1 && (s.pipelineInput i).data.tlbResp.isNone ||
        s.pipe.memUnit.tlbReqDeqFire (s.pipe.memInput (executeStage _) (s.pipelineInput i))) :=
    congrArg (_ || ·) (mem_tlbReqFire_eq h.axi.pipeline.state hRule.passable.onePage)
  have hUnit : (s.next i).pipe.memUnit.Carries ((s.next i).axi.pipeline.translating 1) s.issued
      fun t => s.reads t ++ s.pipe.memUnit.readFor (s.memInput i) t := by
    rw [hTranslating]
    refine h.carries.next (fun t => ?_) hRule.passable.memRoom (fun r hr => (h.surrounded hRule).cache 1 r hr)
      (fun inst hInst => ?_) ((h.surrounded hRule).answered 1)
    · have hOne := h.asking_add_busy_le_one (t := t)
      change s.pipe.memUnit.inFlight t + held id t (s.axi.pipeline.translatingThread 1) ≤ 1
      simp only [Core.busy] at hOne
      omega
    · obtain ⟨item, hItem, hTag⟩ := issuer_of_memReq hInst
      have hHeld : held Prod.fst item.1 s.pipe.issuer.item = 1 := by rw [hItem, held_some, if_pos rfl]
      have hOne := h.asking_add_busy_le_one (t := item.1)
      simp only [Core.busy, waiting, MemoryUnit.inFlight] at hOne
      refine ⟨h.issued_of_memReq hInst, hTag ▸ h.unread item.1 ?_, hTag ▸ ?_⟩
      · simp only [waiting]
        omega
      · omega
  refine hUnit.congr fun t inst hInst hPos => ?_
  change 0 < (s.next i).pipe.memUnit.inFlight t + held id t ((s.next i).axi.pipeline.translatingThread 1) at hPos
  obtain ⟨w, hw, hMinst⟩ := Option.bind_eq_some_iff.mp hInst
  obtain ⟨hKept, hArch, hReads⟩ := h.kept hRule hw (by
    simp only [Core.busy]
    omega)
  refine ⟨Option.bind_eq_some_iff.mpr ⟨w, hKept, ?_⟩, hReads⟩
  rw [hArch]
  exact hMinst

theorem executes_of_issued {inst : MInst params.thidW} {c : CommitInst params.thidW} (hInst : inst ∈ s.issued c.tag)
    (hCompletes : inst.Completes params (s.reads c.tag) c) :
    ∃ w ∈ s.word c.tag, (s.arch c.tag).Executes params w (s.reads c.tag) c := by
  obtain ⟨w, hw, hMinst⟩ := Option.bind_eq_some_iff.mp hInst
  obtain ⟨minst, hSome, rfl⟩ := Option.map_eq_some_iff.mp hMinst
  refine ⟨w, hw, ?_⟩
  rw [ThreadState.Executes, hSome]
  exact hCompletes

theorem Inv.executes_of_commitEnq (h : s.Inv) {c : CommitInst params.thidW}
    (hEnq : s.pipe.commitEnq (executeStage _) (s.pipelineInput i) = some c) :
    ∃ w ∈ s.word c.tag, (s.arch c.tag).Executes params w (s.reads c.tag) c := by
  rcases Option.or_eq_some_iff.mp hEnq with hDone | ⟨-, hAlu⟩
  · obtain ⟨inst, hInst, hCompletes⟩ := h.carries.done c (List.mem_of_mem_head? hDone)
    exact executes_of_issued hInst hCompletes
  · obtain ⟨item, hItem, hCommit⟩ := Option.bind_eq_some_iff.mp hAlu
    obtain ⟨hNone, hSame⟩ := Option.ite_none_right_eq_some.mp hCommit
    obtain ⟨w, hw, hExecute⟩ := h.executes_issuer (i := i) hItem
    rw [hExecute] at hNone hSame
    obtain rfl := Option.some.inj hSame
    refine ⟨w, hw, ?_⟩
    rw [ThreadState.Executes, Option.isNone_iff_eq_none.mp hNone]

theorem accessing_lt_of_commitEnq {c : CommitInst params.thidW}
    (hEnq : s.pipe.commitEnq (executeStage _) (s.pipelineInput i) = some c) :
    s.pipe.memUnit.accessing c.tag < s.busy c.tag := by
  rcases Option.or_eq_some_iff.mp hEnq with hDone | ⟨-, hAlu⟩
  · have hPos := (tokens_pos_iff CommitInst.tag c.tag).mpr ⟨c, List.mem_of_mem_head? hDone, rfl⟩
    simp only [Core.busy, MemoryUnit.inFlight]
    omega
  · obtain ⟨item, hItem, hCommit⟩ := Option.bind_eq_some_iff.mp hAlu
    obtain ⟨-, hSame⟩ := Option.ite_none_right_eq_some.mp hCommit
    obtain rfl := Option.some.inj hSame
    have hHeld : held Prod.fst item.1 s.pipe.issuer.item = 1 := by rw [hItem, held_some, if_pos rfl]
    simp only [Core.busy, waiting, MemoryUnit.inFlight]
    omega

theorem Inv.executed_next (h : s.Inv) (hRule : s.Rule i) {c : CommitInst params.thidW}
    (hc : c ∈ (s.next i).pipe.commitU.commitQueue.items) :
    ∃ w ∈ (s.next i).word c.tag, ((s.next i).arch c.tag).Executes params w ((s.next i).reads c.tag) c := by
  have hWord : (∃ w ∈ s.word c.tag, (s.arch c.tag).Executes params w (s.reads c.tag) c) ∧
      s.pipe.memUnit.accessing c.tag < s.busy c.tag := by
    rcases RamQueue.mem_of_mem_next hc with hOld | hEnq
    · have hPos : 0 < tokens CommitInst.tag c.tag s.pipe.commitU.commitQueue.items :=
        (tokens_pos_iff CommitInst.tag c.tag).mpr ⟨c, hOld, rfl⟩
      refine ⟨h.executed c hOld, ?_⟩
      simp only [Core.busy, MemoryUnit.inFlight]
      omega
    · exact ⟨h.executes_of_commitEnq hEnq, accessing_lt_of_commitEnq hEnq⟩
  obtain ⟨⟨w, hw, hExecutes⟩, hElsewhere⟩ := hWord
  obtain ⟨hKept, hArch, hReads⟩ := h.kept hRule hw (busy_pos_of_commitQueue hc)
  rw [h.readFor_eq_nil hElsewhere, List.append_nil] at hReads
  exact ⟨w, hKept, by rwa [hArch, hReads]⟩

theorem not_copiesIn_of_running (h : s.Inv) (hRuns : s.axi.pipeline.running t = true) : ¬ s.axi.state.copiesIn t := by
  rintro ⟨hUpdating, hThread⟩
  obtain ⟨hTrans, hDir⟩ := of_decide_eq_true hUpdating
  have hEnters : s.axi.csrs.entering t = true := (TransplantCSRs.entering_iff t).mpr ⟨hTrans, hDir, hThread⟩
  have hOne := h.axi.present t
  rw [present, TransplantCSRs.owed, hEnters, hRuns, Bool.toNat_true] at hOne
  omega

theorem running_next : (s.next i).axi.pipeline.running t =
    ((s.axi.pipeline.running t || decide (s.axi.transplantU.control.start = some t)) &&
      !decide (s.axi.pipeline.left (s.pipelineInput i) = some t)) := by
  rw [← start_eq_map (s := s.axi) (i := s.axiInput i)]
  rfl

/-- A cycle of a running thread: its instruction retires, or it goes on as before. -/
theorem Inv.partway_next (h : s.Inv) (hRuns : s.axi.pipeline.running t = true) :
    (s.next i).axi.archstate.thread t = (s.next i).partway t := by
  have hStart : s.axi.transplantU.control.start ≠ some t := fun hStart => by
    rw [not_running_of_start (s.axiInput i) h.axi hStart] at hRuns
    cases hRuns
  have hEvents := PipelineState.events_next h.ported (s.axi.stateInput (executeStage _) (s.axiInput i))
  have hArch : (s.next i).arch t = (s.retired.toList.flatMap CommitInst.events).foldl (CommitEvent.apply t) (s.arch t) := by
    change s.archNext i t = _
    rw [archNext, if_neg hStart]
    cases hRetired : s.retired with
    | none => rfl
    | some c =>
      by_cases hTag : c.tag = t <;> simp [Option.filter, CommitInst.foldl_events, hTag]
  calc (s.next i).axi.archstate.thread t
      = s.axi.state.events.foldl (CommitEvent.apply t) (s.axi.archstate.thread t) :=
        PipelineState.thread_next h.ported (s.axi.stateInput (executeStage _) (s.axiInput i)) (not_copiesIn_of_running h hRuns)
    _ = (s.axi.state.commitU.written.map CommitEvent.write ++ s.axi.state.events).foldl (CommitEvent.apply t) (s.arch t) := by
        rw [h.state t hRuns, List.foldl_append]
        rfl
    _ = (s.next i).partway t := by
        rw [hEvents, List.foldl_append, partway, hArch]
        rfl

theorem Inv.state_next (h : s.Inv) (hRule : s.Rule i) (hRuns : (s.next i).axi.pipeline.running t = true) :
    (s.next i).axi.archstate.thread t = (s.next i).partway t := by
  rw [running_next, Bool.and_eq_true, Bool.or_eq_true, decide_eq_true_eq] at hRuns
  rcases hRuns.1 with hRuns | hStart
  · exact h.partway_next hRuns
  · have hArch : (s.next i).arch t = (s.next i).axi.archstate.thread t := if_pos hStart
    have hIdle := h.asking_add_busy_le (t := t)
    have hFetched := held_fetched_le (s := s) (i := i) (t := t)
    have hSum := h.busy_next (t := t) hRule
    rw [not_running_of_start (s.axiInput i) h.axi hStart, Bool.toNat_false] at hIdle
    have hAbsent : (s.next i).busy t = 0 := by omega
    simp only [Core.busy, waiting] at hAbsent
    rw [partway_of_absent (h.ported.midway.next _ _) (by omega), hArch]

/-- A start puts the program counter that is copied in the same cycle. -/
theorem pregs_of_start (hStart : s.axi.transplantU.control.start = some t) :
    s.axi.start = some (t, ((s.next i).axi.archstate.pregs t).pc) := by
  obtain ⟨hEnters, -⟩ := (TransplantCSRs.start_iff (s := s.axi.csrs) (i := s.axi.csrsInput (s.axiInput i)) t).mp hStart
  obtain ⟨hTrans, hDir, hThread⟩ := (TransplantCSRs.entering_iff t).mp hEnters
  have hUpdating : s.axi.state.updatingPState = true := decide_eq_true ⟨hTrans, hDir⟩
  have hTag : s.axi.state.commitTag = t := by
    rw [PipelineState.commitTag, if_pos hUpdating]
    exact hThread
  have hPregs : (s.next i).axi.archstate.pregs t = s.axi.transplantU.pregs (s.axi.archstate.pregs t) := by
    change (s.axi.archstate.next s.axi.state.rfileWr s.axi.state.pstateWrite).pregs t = _
    have hWrite : s.axi.state.pstateWrite = ⟨true, t, s.axi.transplantU.pregs (s.axi.archstate.pregs t)⟩ := by
      rw [PipelineState.pstateWrite, if_pos hUpdating, hTag]
      rfl
    rw [ArchState.pregs_next, hWrite, if_pos ⟨rfl, rfl⟩]
  rw [start, hStart, hTag, hPregs]
  rfl

theorem retired_of_fetchCommit {c : params.Thid × Word} (h : s.pipe.fetchCommit (s.pipelineInput i) = some c) :
    s.retired = some s.pipe.commitU.head ∧ c.1 = s.pipe.commitU.head.tag := by
  obtain ⟨hCommit, hc⟩ := Option.ite_none_right_eq_some.mp h
  simp only [Bool.and_eq_true] at hCommit
  exact ⟨if_pos hCommit.1.1, congrArg Prod.fst (Option.some.inj hc).symm⟩

theorem Inv.running_of_retired (h : s.Inv) {c : CommitInst params.thidW} (hRetired : s.retired = some c) :
    s.axi.pipeline.running c.tag = true := by
  obtain ⟨hCommit, hHead⟩ := Option.ite_none_right_eq_some.mp hRetired
  rw [← Option.some.inj hHead]
  exact running_of_head h.axi.pipeline (Bool.and_eq_true_iff.mp hCommit).1

theorem pregs_partway : (s.partway t).pregs = (s.arch t).pregs := by
  rw [partway, CommitEvent.foldl_writes (fun _ => mem_written)]
  split
  · exact ThreadState.pregs_foldl_write _ _
  · rfl

/-- A thread that stays is fetched again where its instruction leaves it. -/
theorem Inv.fetchCommit_of_retired (h : s.Inv) {c : CommitInst params.thidW} (hRetired : s.retired = some c)
    (hStart : s.axi.transplantU.control.start ≠ some c.tag) (hStays : s.axi.pipeline.left (s.pipelineInput i) ≠ some c.tag) :
    s.pipe.fetchCommit (s.pipelineInput i) = some (c.tag, ((s.next i).arch c.tag).pregs.pc) := by
  have hArch : (s.next i).arch c.tag = (s.arch c.tag).commit c := archNext_of_retired hStart hRetired
  have hRuns := h.running_of_retired hRetired
  obtain ⟨hCommit, hHead⟩ := Option.ite_none_right_eq_some.mp hRetired
  obtain rfl : s.pipe.commitU.head = c := Option.some.inj hHead
  have hFinal : s.pipe.commitU.finalCommit (s.pipelineInput i).commitReady = true := hCommit
  have hNot : (s.pipe.commitU.head.transplant || s.pipe.stopped (s.pipelineInput i)) = false := by
    by_contra hLeaves
    refine hStays ?_
    rw [left, hFinal, Bool.eq_true_of_not_eq_false hLeaves]
    rfl
  rw [Bool.or_eq_false_iff] at hNot
  have hTag : s.axi.state.commitTag = s.pipe.commitU.head.tag := by
    rw [PipelineState.commitTag, updatingPState_of_headCommits hCommit]
    rfl
  have hRegs : (s.pipelineInput i).commitRegs = (s.arch s.pipe.commitU.head.tag).pregs := by
    change s.axi.archstate.pregs s.axi.state.commitTag = _
    rw [hTag, ← pregs_partway, ← h.state _ hRuns]
    rfl
  rw [fetchCommit, hFinal, hNot.1, hNot.2, hArch, CommitUnit.regsNext, if_pos hFinal, hRegs]
  rfl

theorem Inv.pc_next (h : s.Inv) (hRuns : (s.next i).axi.pipeline.running t = true) :
    (s.next i).pipe.fetch.pcUnit.pc t = ((s.next i).arch t).pregs.pc := by
  rw [running_next, Bool.and_eq_true, Bool.or_eq_true, decide_eq_true_eq, Bool.not_eq_true', decide_eq_false_iff_not] at hRuns
  obtain ⟨hComes, hStays⟩ := hRuns
  have hPC : (s.next i).pipe.fetch.pcUnit.pc t =
    s.pipe.fetch.pcUnit.pcNext ⟨s.axi.start, s.pipe.fetchCommit (s.pipelineInput i), i.wake⟩ t := rfl
  have hNoCommit (hOther : ∀ c ∈ s.retired, c.tag ≠ t) :
      (s.pipe.fetchCommit (s.pipelineInput i)).filter (fun c => decide (c.1 = t)) = none := by
    rw [Option.filter_eq_none_iff]
    intro c hc hTag
    obtain ⟨hRetired, hHead⟩ := retired_of_fetchCommit hc
    exact hOther _ hRetired (hHead.symm.trans (of_decide_eq_true hTag))
  rw [hPC, FetchUnitPC.pcNext]
  by_cases hStart : s.axi.transplantU.control.start = some t
  · have hArch : (s.next i).arch t = (s.next i).axi.archstate.thread t := if_pos hStart
    rw [hNoCommit ?_, pregs_of_start (i := i) hStart, hArch]
    · simp [Option.filter]
      rfl
    · rintro c hRetired rfl
      have hOld := h.running_of_retired hRetired
      rw [not_running_of_start (s.axiInput i) h.axi hStart] at hOld
      cases hOld
  · have hNoStart : s.axi.start.filter (fun c => decide (c.1 = t)) = none := by
      rw [Option.filter_eq_none_iff]
      intro c hc hTag
      refine hStart ?_
      rw [← start_eq_map (s := s.axi) (i := s.axiInput i), ← of_decide_eq_true hTag]
      exact congrArg (Option.map Prod.fst) hc
    rw [hNoStart]
    by_cases hRetired : ∃ c ∈ s.retired, c.tag = t
    · obtain ⟨c, hc, rfl⟩ := hRetired
      rw [h.fetchCommit_of_retired hc hStart hStays]
      simp [Option.filter]
    · have hOther : ∀ c ∈ s.retired, c.tag ≠ t := fun c hc hTag => hRetired ⟨c, hc, hTag⟩
      have hArch : (s.next i).arch t = s.arch t :=
        archNext_of_not_retired hStart (Nat.eq_zero_of_not_pos (mt (held_pos_iff _ _).mp hRetired))
      rw [hNoCommit hOther, hArch]
      exact h.pc t (hComes.resolve_right hStart)

end Steps

section Runs

theorem Inv.next (h : s.Inv) (hRule : s.Rule i) : (s.next i).Inv where
  axi := h.axi.next hRule
  ported := h.ported.next (s.axi.stateInput (executeStage _) (s.axiInput i))
  busy := h.busy_wordNext hRule
  pc _ hRuns := h.pc_next hRuns
  asks := h.asks_next hRule
  fetched _ hInst := h.fetched_next hRule hInst
  decoded _ hItem := h.decoded_next hRule hItem
  issues _ hItem := h.issues_next hRule hItem
  unread _ hWaiting := h.unread_next hRule hWaiting
  carries := h.carries_next hRule
  executed _ hc := h.executed_next hRule hc
  state _ hRuns := h.state_next hRule hRuns

theorem inv_reset (c : PipelineAxi.Contents params) : (reset c).Inv where
  axi := PipelineAxi.inv_reset c
  ported := .reset c.state
  busy t := by
    simp [Core.busy, waiting, reset, pipe, PipelineAxi.reset, WatchedPipeline.reset, Pipeline.reset, FetchUnit.reset, translatingThread,
      MemoryUnit.inFlight, MemoryUnit.accessing, MemoryUnit.reset, DoubleLatencyQueue.reset, RamQueue.items_reset]
  pc t hRuns := by cases hRuns
  asks := .reset _
  fetched inst hInst := by cases hInst
  decoded item hItem := by cases hItem
  issues item hItem := by cases hItem
  unread _ _ := rfl
  carries := .reset _
  executed c hc := by
    rw [show (reset _).pipe.commitU.commitQueue.items = [] from rfl] at hc
    cases hc
  state t hRuns := by cases hRuns

variable (s) (i) in
/-- What a cycle does to the threads. -/
structure Sequential : Prop where
  /-- A translation is requested for the program counter of a thread without a word under way. -/
  asks : ∀ req ∈ s.pipe.fetch.tlbReq (s.fetchInput i), s.word req.thid = none ∧ req.addr = (s.arch req.thid).pregs.pc
  /-- The word is the one the cache answers with for that program counter. -/
  reads : ∀ r ∈ s.answer i, s.word r.1.bits.id = none ∧ r.1.bits.pc = (s.arch r.1.bits.id).pregs.pc ∧
      s.wordNext i r.1.bits.id = some (FetchUnit.instBits r.1.bits.pc r.2)
  retires : ∀ c ∈ s.retired, ∃ w ∈ s.word c.tag, (s.arch c.tag).Executes params w (s.reads c.tag) c
  state : ∀ t, s.axi.pipeline.running t = true → s.axi.archstate.thread t = s.partway t
  settled : ∀ t, s.axi.pipeline.running t = true → s.word t = none → s.axi.archstate.thread t = s.arch t
  leaves : ∀ t, s.axi.pipeline.left (s.pipelineInput i) = some t → (s.next i).axi.archstate.thread t = (s.next i).arch t

theorem Inv.not_busy_of_asking (h : s.Inv) (hAsking : 0 < s.asking t) : s.word t = none := by
  have hOne := h.asking_add_busy_le_one (t := t)
  have hBusy := h.busy t
  cases hWord : s.word t with
  | none => rfl
  | some w =>
    rw [hWord, Option.isSome_some, Bool.toNat_true] at hBusy
    omega

theorem Inv.absent_of_none (h : s.Inv) (hNone : s.word t = none) :
    tokens CommitInst.tag t s.pipe.commitU.commitQueue.items = 0 := by
  have hBusy := h.busy t
  rw [hNone, Option.isSome_none, Bool.toNat_false] at hBusy
  simp only [Core.busy, waiting] at hBusy
  omega

theorem Inv.settled (h : s.Inv) (hRuns : s.axi.pipeline.running t = true) (hNone : s.word t = none) :
    s.axi.archstate.thread t = s.arch t := by
  rw [h.state t hRuns, partway_of_absent h.ported.midway (h.absent_of_none hNone)]

theorem Inv.retires (h : s.Inv) {c : CommitInst params.thidW} (hRetired : s.retired = some c) :
    ∃ w ∈ s.word c.tag, (s.arch c.tag).Executes params w (s.reads c.tag) c := by
  obtain ⟨hCommit, hHead⟩ := Option.ite_none_right_eq_some.mp hRetired
  rw [← Option.some.inj hHead]
  exact h.executed _ (RamQueue.deqBits_mem (Bool.and_eq_true_iff.mp hCommit).1)

theorem left_of_transplant {c : CommitInst params.thidW} (hRetired : s.retired = some c) (hTransplant : c.transplant = true) :
    s.axi.pipeline.left (s.pipelineInput i) = some c.tag := by
  obtain ⟨hCommit, hHead⟩ := Option.ite_none_right_eq_some.mp hRetired
  obtain rfl : s.pipe.commitU.head = c := Option.some.inj hHead
  have hFinal : s.pipe.commitU.finalCommit (s.pipelineInput i).commitReady = true := hCommit
  rw [left, hFinal, hTransplant]
  rfl

theorem Inv.sequential (h : s.Inv) (hRule : s.Rule i) : s.Sequential i where
  asks req hReq := by
    obtain ⟨hFire, hReq⟩ := Option.ite_none_right_eq_some.mp hReq
    obtain rfl := Option.some.inj hReq
    have hEnabled := enabled_of_tlbReqFire hFire
    refine ⟨h.not_busy_of_asking (t := s.pipe.fetch.pcUnit.reqTag) ?_, h.pc s.pipe.fetch.pcUnit.reqTag ?_⟩
    · simp only [asking]
      omega
    · refine (h.arch_kept (i := i) ?_).1
      simp only [places, pipe] at hEnabled ⊢
      omega
  reads r hr := by
    have hFetched : s.fetched i = some ⟨r.1.bits.id, FetchUnit.instBits r.1.bits.pc r.2⟩ := by
      rw [Core.fetched, hr]
      rfl
    have hAsking := held_fetched_le (s := s) (i := i) (t := r.1.bits.id)
    rw [hFetched, held_some, if_pos rfl] at hAsking
    exact ⟨h.not_busy_of_asking hAsking, h.asks.answered (i := s.fetchInput i) hr, wordNext_of_fetched hFetched⟩
  retires c hc := h.retires hc
  state _ hRuns := h.state _ hRuns
  settled _ hRuns hNone := h.settled hRuns hNone
  leaves t hLeft := by
    obtain ⟨hFinal, rfl⟩ := left_eq_some hLeft
    have hSum := h.busy_next (t := s.pipe.commitU.head.tag) hRule
    have hOne := h.asking_add_busy_le_one (t := s.pipe.commitU.head.tag)
    have hFetched := held_fetched_le (s := s) (i := i) (t := s.pipe.commitU.head.tag)
    have hRetired : s.retired = some s.pipe.commitU.head := if_pos hFinal
    have hOut := gone_le_busy (s := s) (i := i) (t := s.pipe.commitU.head.tag)
    rw [hRetired, held_some, if_pos rfl] at hSum hOut
    have hAbsent : (s.next i).busy s.pipe.commitU.head.tag = 0 := by omega
    simp only [Core.busy, waiting] at hAbsent
    rw [h.partway_next (h.running_of_retired hRetired), partway_of_absent (h.ported.midway.next _ _) (by omega)]

/-- In every run the threads execute one after the other the words that were read for their own program counters:
what an instruction commits is what its word makes of the state that the instruction before it has left. -/
theorem sequential_execution (c : PipelineAxi.Contents params) {is : List (Input params)}
    (hRule : (machine params).Along Rule (reset c) is) : (machine params).Along Sequential (reset c) is :=
  hRule.of_invariant (inv_reset c) (fun _ _ hInv h => hInv.next h) fun _ _ hInv h => hInv.sequential h

def hostCycle (bus : Option (Antmicro.CSRBusWrite axiDataW)) : Input twoThreads :=
  ⟨bus, .read 0 fun _ => 0, quietPort, quietPort, fun _ => none⟩

def fetchedWord (word : BitVec 32) : List (Input twoThreads) :=
  [{ hostCycle none with inst := hitPort false }, hostCycle none,
    { hostCycle none with inst := { quietPort with cacheResp := some ⟨word, true, false, false⟩ } }]

def loadedBlock (block : twoThreads.Block) : List (Input twoThreads) :=
  [{ hostCycle none with data := hitPort false }, hostCycle none,
    { hostCycle none with data := { quietPort with cacheResp := some ⟨block, true, false, false⟩ } }]

/-- Thread 0 is copied in, and `ADD X0, X0, #5` and `LDRB W1, [X0]` are read for it. -/
def addAndLoad : List (Input twoThreads) :=
  hostCycle (some ⟨1, 1⟩) :: List.replicate 38 (hostCycle none) ++
    fetchedWord 0x91001400 ++ List.replicate 5 (hostCycle none) ++
    fetchedWord 0x39400001 ++ List.replicate 4 (hostCycle none) ++ loadedBlock 0x11223344 ++ List.replicate 3 (hostCycle none)

/-- The load takes the second byte of its block. -/
theorem sequential_execution_add_load : (machine twoThreads).Along Sequential (reset (powerUpOf 1)) addAndLoad ∧
    ((machine twoThreads).run (reset (powerUpOf 1)) addAndLoad).reads 0 = [0x11223344] ∧
    ((machine twoThreads).run (reset (powerUpOf 1)) addAndLoad).axi.archstate.reg 0 0 = 5 ∧
    ((machine twoThreads).run (reset (powerUpOf 1)) addAndLoad).axi.archstate.reg 0 1 = 0x33 ∧
    ((machine twoThreads).run (reset (powerUpOf 1)) addAndLoad).axi.archstate.pregs 0 = ⟨8, 0⟩ :=
  ⟨sequential_execution (powerUpOf 1) (by decide +kernel), by decide +kernel⟩

end Runs

end Core

end KnockoutKraken.Armflex
