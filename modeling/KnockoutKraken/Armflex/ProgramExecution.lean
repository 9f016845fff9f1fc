import KnockoutKraken.Armflex.InstructionSet
import KnockoutKraken.Armflex.SequentialExecution

/-!
# The program of a thread

A thread whose words are those of its program, at the addresses of its
program counter, and plain. Whatever the other threads do in between, its
state goes through the steps of the architecture, one for each commit.
-/

namespace KnockoutKraken.Armflex

open Library Arm

namespace ThreadState

def afterSteps (program : Word → BitVec 32) : Nat → ThreadState → Option ThreadState
  | 0, s => some s
  | n + 1, s => (s.step (program s.pregs.pc)).bind (afterSteps program n)

theorem afterSteps_add (program : Word → BitVec 32) (n m : Nat) (s : ThreadState) :
    afterSteps program (n + m) s = (afterSteps program n s).bind (afterSteps program m) := by
  induction n generalizing s with
  | zero => rw [Nat.zero_add, afterSteps, Option.bind_some]
  | succ n ih =>
    rw [Nat.succ_add, afterSteps, afterSteps, Option.bind_assoc]
    exact congrArg _ (funext ih)

variable {params : PipelineParams} {s : ThreadState} {w : BitVec 32} {reads : List params.Block} {c : CommitInst params.thidW}

theorem step_of_executes (hPlain : Plain w) (hExecutes : s.Executes params w reads c) :
    s.step w = if c.transplant then none else some (s.commit c) := by
  obtain ⟨hMinst, hStep⟩ := hPlain.step_eq params.thidW s
  rw [Executes, hMinst] at hExecutes
  have hTransplant : c.transplant = (s.issue w params.thidW).commitNext.transplant := by
    rw [hExecutes]
    rfl
  have hCommit : s.commit c = s.commit (s.issue w params.thidW).commitNext := by
    rw [hExecutes]
    exact (commit_commitNext s (.decode w) (s.operands (.decode w)) c.tag).trans
      (commit_commitNext s (.decode w) (s.operands (.decode w)) 0).symm
  rw [hStep, hTransplant, hCommit]

end ThreadState

namespace Core

open WatchedPipeline PipelineAxi

variable {params : PipelineParams} (t : params.Thid) (program : Word → BitVec 32) (s : Core params) (i : Input params)

/-- The words that are read for the thread are those of its program, and plain. -/
def Runs : Prop :=
  ∀ r ∈ s.answer i, r.1.bits.id = t →
    FetchUnit.instBits r.1.bits.pc r.2 = program r.1.bits.pc ∧ Plain (program r.1.bits.pc)

def Resting : Prop := s.axi.pipeline.running t = true ∧ s.busy t = 0

instance : Decidable (s.Runs t program i) :=
  inferInstanceAs (Decidable (∀ r ∈ s.answer i, r.1.bits.id = t →
    FetchUnit.instBits r.1.bits.pc r.2 = program r.1.bits.pc ∧ Plain (program r.1.bits.pc)))

instance : Decidable (s.Resting t) := inferInstanceAs (Decidable (_ ∧ _))

def Follows : Prop := ∀ w ∈ s.word t, w = program (s.arch t).pregs.pc ∧ Plain w

variable {t} {program} {s} {i}

theorem Inv.word_of_resting (h : s.Inv) (hRests : s.Resting t) : s.word t = none := by
  have hBusy := h.busy t
  rw [hRests.2] at hBusy
  cases hWord : s.word t with
  | none => rfl
  | some w =>
    rw [hWord] at hBusy
    cases hBusy

theorem Inv.follows_next (h : s.Inv) (hRuns : s.Runs t program i) (hFollows : s.Follows t program) :
    (s.next i).Follows t program := by
  intro w hw
  change w ∈ s.wordNext i t at hw
  rcases Nat.eq_zero_or_pos (held FetchedInst.tag t (s.fetched i)) with hNone | hSome
  · rw [wordNext_of_not_fetched hNone, Option.mem_def, Option.ite_none_left_eq_some] at hw
    obtain ⟨hStill, hWord⟩ := hw
    have hGone := gone_eq_false_iff.mp (Bool.eq_false_iff.mpr hStill)
    have hIdle := h.asking_add_busy_le (t := t)
    have hBusy := h.busy t
    rw [hWord, Option.isSome_some, Bool.toNat_true] at hBusy
    have hArch : (s.next i).arch t = s.arch t := by
      refine archNext_of_not_retired (fun hStart => ?_) (by omega)
      rw [not_running_of_start (s.axiInput i) h.axi hStart, Bool.toNat_false] at hIdle
      omega
    rw [hArch]
    exact hFollows w hWord
  · have hAsking := held_fetched_le (s := s) (i := i) (t := t)
    have hOne := h.asking_add_busy_le_one (t := t)
    obtain ⟨inst, hInst, hTag⟩ := (held_pos_iff _ _).mp hSome
    obtain ⟨r, hr, rfl⟩ := Option.map_eq_some_iff.mp hInst
    have hArch : (s.next i).arch t = s.arch t := by
      refine (h.arch_kept ?_).2
      simp only [asking, Core.busy, places, FetchUnit.inFlight, pipe] at hAsking hOne ⊢
      omega
    have hPC : r.1.bits.pc = (s.arch t).pregs.pc := by
      rw [h.asks.answered (i := s.fetchInput i) hr]
      exact congrArg (fun t => (s.arch t).pregs.pc) hTag
    rw [← hTag, wordNext_of_fetched hInst, Option.mem_some_iff] at hw
    obtain ⟨hWord, hPlain⟩ := hRuns r hr hTag
    rw [hArch, ← hPC, ← hw]
    exact ⟨hWord, hWord ▸ hPlain⟩

/-- A thread that stays makes a step of the architecture with each commit. -/
theorem Inv.step_next (h : s.Inv) (hFollows : s.Follows t program) (hStart : s.axi.transplantU.control.start ≠ some t)
    (hStays : (s.next i).axi.pipeline.running t = true) :
    ThreadState.afterSteps program (held CommitInst.tag t s.retired) (s.arch t) = some ((s.next i).arch t) := by
  rcases Nat.eq_zero_or_pos (held CommitInst.tag t s.retired) with hNone | hSome
  · have hArch : (s.next i).arch t = s.arch t := archNext_of_not_retired hStart hNone
    rw [hNone, hArch]
    rfl
  · obtain ⟨c, hRetired, rfl⟩ := (held_pos_iff _ _).mp hSome
    have hArch : (s.next i).arch c.tag = (s.arch c.tag).commit c := archNext_of_retired hStart hRetired
    obtain ⟨w, hw, hExecutes⟩ := h.retires hRetired
    obtain ⟨hWord, hPlain⟩ := hFollows w hw
    have hKept : c.transplant = false := by
      by_contra hTransplant
      rw [running_next, left_of_transplant hRetired (Bool.eq_true_of_not_eq_false hTransplant)] at hStays
      simp at hStays
    have hStep := ThreadState.step_of_executes hPlain hExecutes
    rw [hKept, if_neg (by decide), hWord] at hStep
    rw [hRetired, held_some, if_pos rfl, hArch]
    exact congrArg (Option.bind · _) hStep

variable (t) (program) in
/-- A cycle of a thread that executes a program and is not started again. -/
def Programmed (s : Core params) (i : Input params) : Prop :=
  s.Rule i ∧ s.Runs t program i ∧ s.axi.transplantU.control.start ≠ some t

instance (s : Core params) (i : Input params) : Decidable (s.Programmed t program i) := inferInstanceAs (Decidable (_ ∧ _ ∧ _))

theorem Inv.run_steps (h : s.Inv) (hFollows : s.Follows t program) {qs : List (Input params)}
    (hQs : (machine params).Along (Programmed t program) s qs) (hStays : ((machine params).run s qs).axi.pipeline.running t = true) :
    s.axi.pipeline.running t = true ∧
      ThreadState.afterSteps program (tokens CommitInst.tag t ((machine params).emitted id s qs)) (s.arch t) =
        some (((machine params).run s qs).arch t) := by
  induction qs generalizing s with
  | nil => exact ⟨hStays, rfl⟩
  | cons i qs ih =>
    obtain ⟨⟨hRule, hRuns, hStart⟩, hRest⟩ := hQs
    obtain ⟨hNext, hSteps⟩ := ih (h.next hRule) (h.follows_next hRuns hFollows) hRest hStays
    have hHere : s.axi.pipeline.running t = true := by
      have hRun := running_next (s := s) (i := i) (t := t)
      rw [decide_eq_false hStart, Bool.or_false] at hRun
      exact (Bool.and_eq_true_iff.mp (hRun.symm.trans hNext)).1
    refine ⟨hHere, ?_⟩
    rw [Machine.emitted_cons, tokens_append, tokens_toList, ThreadState.afterSteps_add]
    exact (congrArg (Option.bind · _) (h.step_next hFollows hStart hNext)).trans hSteps

/-- Whatever the host and the other threads do, between two moments at which a thread rests and is not started in between
its registers, flags and program counter go through the steps of its program, as many as its instructions that commit. -/
theorem program_execution (c : PipelineAxi.Contents params) {is qs : List (Input params)} {t : params.Thid}
    {program : Word → BitVec 32} (hRule : (machine params).Along Rule (reset c) is)
    (hQs : (machine params).Along (Programmed t program) ((machine params).run (reset c) is) qs)
    (hStart : ((machine params).run (reset c) is).Resting t)
    (hEnd : ((machine params).run ((machine params).run (reset c) is) qs).Resting t) :
    ThreadState.afterSteps program (tokens CommitInst.tag t ((machine params).emitted id ((machine params).run (reset c) is) qs))
        (((machine params).run (reset c) is).axi.archstate.thread t) =
      some (((machine params).run ((machine params).run (reset c) is) qs).axi.archstate.thread t) := by
  have hStep : ∀ (s : Core params) (i : Input params), s.Inv → s.Rule i → (s.next i).Inv := fun _ _ hInv h => hInv.next h
  have hBegun : Inv ((machine params).run (reset c) is) := hRule.invariant (inv_reset c) hStep
  have hEnded : Inv ((machine params).run ((machine params).run (reset c) is) qs) :=
    hQs.invariant hBegun fun _ _ hInv h => hInv.next h.1
  have hNone := hBegun.word_of_resting hStart
  have hFollows : ((machine params).run (reset c) is).Follows t program := fun w hw => by
    rw [hNone] at hw
    cases hw
  obtain ⟨-, hSteps⟩ := hBegun.run_steps hFollows hQs hEnd.1
  rw [hBegun.settled hStart.1 hNone, hEnded.settled hEnd.1 (hEnded.word_of_resting hEnd), hSteps]

def copyIn : List (Input twoThreads) := hostCycle (some ⟨1, 1⟩) :: List.replicate 38 (hostCycle none)

/-- `ADD X0, X0, #5` is read for thread 0 and commits. -/
def addition : List (Input twoThreads) := fetchedWord 0x91001400 ++ List.replicate 5 (hostCycle none)

theorem program_execution_additions :
    ThreadState.afterSteps (fun _ => 0x91001400) 2
        (((machine twoThreads).run (reset (powerUpOf 1)) copyIn).axi.archstate.thread 0) =
      some (((machine twoThreads).run ((machine twoThreads).run (reset (powerUpOf 1)) copyIn)
        (addition ++ addition)).axi.archstate.thread 0) := by
  have hCommits : tokens CommitInst.tag 0 ((machine twoThreads).emitted id
      ((machine twoThreads).run (reset (powerUpOf 1)) copyIn) (addition ++ addition)) = 2 := by decide +kernel
  rw [← hCommits]
  exact program_execution (powerUpOf 1) (t := 0) (by decide +kernel) (by decide +kernel) (by decide +kernel) (by decide +kernel)

end Core

end KnockoutKraken.Armflex
