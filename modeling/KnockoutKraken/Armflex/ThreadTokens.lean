import KnockoutKraken.Armflex.TokenFlow

/-!
# Conservation of the threads

A thread that runs is in one place: it is enabled, or one instruction of
it is in a stage, in a queue or at a cache, or one translation of it is in
a buffer or waits for the end of its miss. The pipeline is watched together
with the translations the buffers hold, the misses they wait for and the
threads that were started and have not left.
-/

namespace KnockoutKraken.Armflex

open Library Util

structure WatchedPipeline (params : PipelineParams) (δ : Type) where
  pipe : Pipeline params δ Unit
  translating : Fin 2 → Bool
  missing : Fin 2 → List params.Thid
  running : params.Thid → Bool

namespace WatchedPipeline

open Pipeline

variable {params : PipelineParams} {δ : Type}

def port (i : Pipeline.Input params Unit) (k : Fin 2) : MemPort params Unit := if k = 0 then i.inst else i.data

variable (x : ExecuteStage δ params.thidW) (s : WatchedPipeline params δ) (i : Pipeline.Input params Unit)

def fetchInput : FetchUnit.Input params Unit := s.pipe.fetchInput x i

def memInput : MemoryUnit.Input params Unit := s.pipe.memInput x i

def translatingThread (k : Fin 2) : Option params.Thid :=
  if s.translating k then some (if k = 0 then s.pipe.fetch.metaDataTLB.id else s.pipe.memUnit.tlbMeta.tag) else none

def tlbReqFire (k : Fin 2) : Bool :=
  if k = 0 then s.pipe.fetch.tlbReqFire (s.fetchInput x i) else s.pipe.memUnit.tlbReqFire (s.memInput x i)

def missed (k : Fin 2) : Option params.Thid :=
  if (port i k).tlbResp.any fun resp => !resp.hit then s.translatingThread k else none

/-- The thread that leaves the pipeline: its instruction commits and it is transplanted or stopped. -/
def left : Option params.Thid :=
  if s.pipe.commitU.finalCommit i.commitReady && (s.pipe.commitU.head.transplant || s.pipe.stopped i)
  then some s.pipe.commitU.head.tag else none

def next : WatchedPipeline params δ where
  pipe := s.pipe.next x i
  translating k := s.translating k && (port i k).tlbResp.isNone || s.tlbReqFire x i k
  missing k := (match i.wake k with
    | some t => (s.missing k).erase t
    | none => s.missing k) ++ (s.missed i k).toList
  running t := (s.running t || decide (i.start.map Prod.fst = some t)) && !decide (s.left i = some t)

def machine : Machine (WatchedPipeline params δ) (Pipeline.Input params Unit) (Option params.Thid) := ⟨next x, left⟩

def reset (c : Contents params Unit) : WatchedPipeline params δ := ⟨.reset c, fun _ => false, fun _ => [], fun _ => false⟩

variable (t : params.Thid)

def places : Nat :=
  s.pipe.fetch.pcUnit.enabledCount t + held id t (s.translatingThread 0) + s.pipe.fetch.inFlight t +
    held Prod.fst t s.pipe.decReg.item + held Prod.fst t s.pipe.issuer.item + held id t (s.translatingThread 1) +
    s.pipe.memUnit.inFlight t + tokens CommitInst.tag t s.pipe.commitU.commitQueue.items +
    tokens id t (s.missing 0) + tokens id t (s.missing 1)

def Conserved : Prop := ∀ t, s.places t = (s.running t).toNat

/-- What surrounds the pipeline: a thread is started only when it does not run, the end of a miss is
told once, a buffer translates one request at a time and answers only that, and the caches answer with
hits, misses and refills. -/
structure Surrounded : Prop where
  start : ∀ c ∈ i.start, s.running c.1 = false
  wake : ∀ k, ∀ t ∈ i.wake k, t ∈ s.missing k
  answered : ∀ k, (port i k).tlbResp.isSome = true → s.translating k = true
  single : ∀ k, s.tlbReqFire x i k = true → s.translating k = true → (port i k).tlbResp.isSome = true
  cache : ∀ k, ∀ r ∈ (port i k).cacheResp, r.Legal

/-- No queue is offered an item while it is full, a memory instruction that hits does not violate the
permission of its page, and no pair over two pages is translated. -/
structure Passable : Prop where
  fetchRoom : s.pipe.fetch.Room (s.fetchInput x i)
  memRoom : s.pipe.memUnit.Room (s.memInput x i)
  permitted : ∀ resp ∈ i.data.tlbResp, resp.hit = true → resp.violation = false
  onePage : s.pipe.memUnit.tlbReqFire (s.memInput x i) = true → s.pipe.memUnit.head.isPairPageMisaligned = false

instance : Decidable (s.Surrounded x i) :=
  decidable_of_iff ((i.start.all fun c => !s.running c.1) = true ∧ (∀ k, ∀ t ∈ i.wake k, t ∈ s.missing k) ∧
    (∀ k, (port i k).tlbResp.isSome = true → s.translating k = true) ∧
    (∀ k, s.tlbReqFire x i k = true → s.translating k = true → (port i k).tlbResp.isSome = true) ∧
    ∀ k, ∀ r ∈ (port i k).cacheResp, r.Legal)
    ⟨fun ⟨hS, hW, hA, hT, hC⟩ => ⟨by simpa [Option.all_eq_true] using hS, hW, hA, hT, hC⟩,
      fun h => ⟨by simpa [Option.all_eq_true] using h.start, h.wake, h.answered, h.single, h.cache⟩⟩

instance : Decidable (s.Passable x i) :=
  decidable_of_iff (s.pipe.fetch.Room (s.fetchInput x i) ∧ s.pipe.memUnit.Room (s.memInput x i) ∧
    (∀ resp ∈ i.data.tlbResp, resp.hit = true → resp.violation = false) ∧
    (s.pipe.memUnit.tlbReqFire (s.memInput x i) = true → s.pipe.memUnit.head.isPairPageMisaligned = false))
    ⟨fun ⟨hF, hM, hP, hO⟩ => ⟨hF, hM, hP, hO⟩, fun h => ⟨h.fetchRoom, h.memRoom, h.permitted, h.onePage⟩⟩

structure Inv : Prop where
  conserved : s.Conserved
  state : s.pipe.memUnit.sTLBState = .req

variable {x} {s} {i} {t}

section Balance

theorem fetch_translating_balance (h : s.Surrounded x i) :
    held id t ((s.next x i).translatingThread 0) +
        held id t (if i.inst.tlbResp.isSome then s.translatingThread 0 else none) =
      held id t (s.translatingThread 0) + held id t (s.pipe.fetch.pcUnit.fired (s.pipe.fetch.pcReqReady (s.fetchInput x i))) := by
  have hFired : s.pipe.fetch.pcUnit.fired (s.pipe.fetch.pcReqReady (s.fetchInput x i)) =
      if s.tlbReqFire x i 0 then some s.pipe.fetch.pcUnit.reqTag else none := by
    rw [FetchUnit.fired_eq, FetchUnit.tlbReq, tlbReqFire, if_pos rfl]
    cases s.pipe.fetch.tlbReqFire (s.fetchInput x i) <;> rfl
  have hThread : (s.next x i).translatingThread 0 = if s.translating 0 && !i.inst.tlbResp.isSome || s.tlbReqFire x i 0
      then some (if s.tlbReqFire x i 0 then s.pipe.fetch.pcUnit.reqTag else s.pipe.fetch.metaDataTLB.id) else none := by
    simp only [translatingThread, next, port, if_pos, Option.not_isSome, tlbReqFire]
    cases hFire : s.pipe.fetch.tlbReqFire (s.fetchInput x i) <;>
      simp [Pipeline.next, FetchUnit.next, fetchInput, FetchUnit.metaDataTLBW] at hFire ⊢ <;> simp [hFire]
  rw [hThread, hFired]
  exact slot_balance t _ _ (h.answered 0) (h.single 0)

theorem mem_tlbReqFire_eq (hState : s.pipe.memUnit.sTLBState = .req)
    (hPage : s.pipe.memUnit.tlbReqFire (s.memInput x i) = true → s.pipe.memUnit.head.isPairPageMisaligned = false) :
    s.tlbReqFire x i 1 = s.pipe.memUnit.tlbReqDeqFire (s.memInput x i) := by
  rw [tlbReqFire, if_neg (by decide)]
  cases hReq : s.pipe.memUnit.tlbReqFire (s.memInput x i) with
  | true => exact (MemoryUnit.deqFire_of_tlbReqFire hState hReq (hPage hReq)).symm
  | false =>
    by_contra hDeq
    rw [Bool.false_eq, Bool.not_eq_false] at hDeq
    rw [(MemoryUnit.not_isPairPageMisaligned_of_deqFire hState hDeq).1] at hReq
    cases hReq

theorem mem_translating_balance (h : s.Surrounded x i) (hState : s.pipe.memUnit.sTLBState = .req)
    (hPage : s.pipe.memUnit.tlbReqFire (s.memInput x i) = true → s.pipe.memUnit.head.isPairPageMisaligned = false) :
    held id t ((s.next x i).translatingThread 1) +
        held id t (if i.data.tlbResp.isSome then s.translatingThread 1 else none) =
      held id t (s.translatingThread 1) +
        held MInst.tag t (if s.pipe.memUnit.tlbReqDeqFire (s.memInput x i) then some s.pipe.memUnit.head else none) := by
  have hFire := mem_tlbReqFire_eq hState hPage
  have hHeld : held MInst.tag t (if s.pipe.memUnit.tlbReqDeqFire (s.memInput x i) then some s.pipe.memUnit.head else none) =
      held id t (if s.tlbReqFire x i 1 then some s.pipe.memUnit.head.tag else none) := by
    rw [hFire]
    cases s.pipe.memUnit.tlbReqDeqFire (s.memInput x i) <;> rfl
  have hThread : (s.next x i).translatingThread 1 = if s.translating 1 && !i.data.tlbResp.isSome || s.tlbReqFire x i 1
      then some (if s.tlbReqFire x i 1 then s.pipe.memUnit.head.tag else s.pipe.memUnit.tlbMeta.tag) else none := by
    simp only [translatingThread, next, port, Option.not_isSome, hFire]
    cases hDeq : s.pipe.memUnit.tlbReqDeqFire (s.memInput x i) <;>
      simp [Pipeline.next, MemoryUnit.next, memInput] at hDeq ⊢ <;> simp [hDeq]
  rw [hThread, hHeld]
  exact slot_balance t _ _ (h.answered 1) (h.single 1)

theorem fetch_answer (h : s.Surrounded x i) :
    held (fun q : FetchPending params Unit => q.inst.bits.id) t (s.pipe.fetch.cacheReqEnq (s.fetchInput x i)) +
        held id t (s.missed i 0) = held id t (if i.inst.tlbResp.isSome then s.translatingThread 0 else none) := by
  have hAnswered := h.answered 0
  simp only [port, if_pos] at hAnswered
  cases hResp : i.inst.tlbResp with
  | none => simp [FetchUnit.cacheReqEnq, fetchInput, Pipeline.fetchInput, missed, port, hResp]
  | some resp =>
    have hBusy := hAnswered (by rw [hResp]; rfl)
    cases hHit : resp.hit <;>
      simp [FetchUnit.cacheReqEnq, fetchInput, Pipeline.fetchInput, missed, port, hResp, hHit, translatingThread, hBusy,
        Option.filter, held_some]

theorem mem_answer (h : s.Surrounded x i) (hPass : s.Passable x i) (hState : s.pipe.memUnit.sTLBState = .req) :
    held MemoryUnit.pendingTag t (s.pipe.memUnit.cacheReqEnq (s.memInput x i)) + held id t (s.missed i 1) =
      held id t (if i.data.tlbResp.isSome then s.translatingThread 1 else none) := by
  have hAnswered := h.answered 1
  simp only [port] at hAnswered
  cases hResp : i.data.tlbResp with
  | none => simp [MemoryUnit.cacheReqEnq, MemoryUnit.tlbRespFire, memInput, Pipeline.memInput, missed, port, hResp]
  | some resp =>
    have hBusy := hAnswered (by rw [if_neg (by decide), hResp]; rfl)
    cases hHit : resp.hit with
    | false =>
      have hDitched : MemoryUnit.ditched resp = true := by simp [MemoryUnit.ditched, hHit]
      have hEnq : s.pipe.memUnit.cacheReqEnq (s.memInput x i) = none := by
        rw [MemoryUnit.cacheReqEnq, Option.map_eq_none_iff, Option.filter_eq_none_iff]
        intro resp' hFire
        have hSame : i.data.tlbResp = some resp' := (Option.filter_eq_some_iff.mp hFire).1
        obtain rfl : resp = resp' := Option.some.inj (hResp.symm.trans hSame)
        simp [hDitched]
      rw [hEnq]
      simp [missed, port, hResp, hHit]
    | true =>
      have hReady : s.pipe.memUnit.tlbRespReady (s.memInput x i) = true := by
        rw [MemoryUnit.tlbRespReady, hPass.memRoom.translated resp hResp hHit, hState]
        rfl
      have hKept : MemoryUnit.ditched resp = false := by
        simp [MemoryUnit.ditched, hHit, hPass.permitted resp hResp hHit]
      have hEnq : s.pipe.memUnit.cacheReqEnq (s.memInput x i) = some (s.pipe.memUnit.cacheReqPacked resp) := by
        have hFire : s.pipe.memUnit.tlbRespFire (s.memInput x i) = some resp := by
          rw [MemoryUnit.tlbRespFire, Option.filter_eq_some_iff]
          exact ⟨hResp, hReady⟩
        simp [MemoryUnit.cacheReqEnq, hFire, hKept, Option.filter]
      rw [hEnq]
      have hMissed : s.missed i 1 = none := by simp [missed, port, hResp, hHit]
      have hThread : (if (some resp).isSome then s.translatingThread 1 else none) = some s.pipe.memUnit.tlbMeta.tag := by
        simp [translatingThread, hBusy]
      rw [hMissed, hThread, held_none, Nat.add_zero, held_some, held_some]
      rfl

/-- An issued instruction goes to the memory unit or to the commit queue, and what the memory unit
has done goes to the commit queue first. -/
theorem issue_balance :
    held MInst.tag t (if s.pipe.memReqReady x i then s.pipe.memReq x i else none) +
        held CommitInst.tag t (if s.pipe.commitEnqReady i then s.pipe.commitEnq x i else none) =
      held Prod.fst t (if s.pipe.issuerDeqReady x i then s.pipe.issuer.item else none) +
        held CommitInst.tag t (if s.pipe.commitEnqReady i then s.pipe.memUnit.doneInst.head? else none) := by
  rw [issuerDeqReady, commitEnq, aluEnq]
  cases hItem : s.pipe.issuer.item with
  | none =>
    have hReq : s.pipe.memReq x i = none := by rw [memReq, hItem]; rfl
    rw [hReq]
    simp
  | some item =>
    obtain ⟨tag, d⟩ := item
    cases hInst : (x.execute d (s.pipe.operands i)).minst with
    | some inst =>
      have hReq : s.pipe.memReq x i = some { inst with tag := tag } := by rw [memReq, hItem]; simp [hInst]
      rw [hReq]
      cases s.pipe.memReqReady x i <;> cases s.pipe.memUnit.doneInst <;> simp [hInst, held_some]
    | none =>
      have hReq : s.pipe.memReq x i = none := by rw [memReq, hItem]; simp [hInst]
      rw [hReq]
      cases s.pipe.memUnit.doneInst <;> cases s.pipe.commitEnqReady i <;> simp [hInst, held_some]

theorem commit_balance :
    tokens CommitInst.tag t (s.next x i).pipe.commitU.commitQueue.items +
        (held Prod.fst t (s.pipe.fetchCommit i) + held id t (s.left i)) =
      tokens CommitInst.tag t s.pipe.commitU.commitQueue.items +
        held CommitInst.tag t (if s.pipe.commitEnqReady i then s.pipe.commitEnq x i else none) := by
  have hQueue := s.pipe.commitU.commitQueue.tokens_next true (s.pipe.commitEnq x i)
    (s.pipe.commitU.deqReady i.commitReady) CommitInst.tag t
  have hOut : held Prod.fst t (s.pipe.fetchCommit i) + held id t (s.left i) = held CommitInst.tag t
      (if s.pipe.commitU.commitQueue.doDeq (s.pipe.commitU.deqReady i.commitReady) then
        some s.pipe.commitU.commitQueue.deqBits else none) := by
    rw [fetchCommit, left]
    change _ = held CommitInst.tag t (if s.pipe.commitU.finalCommit i.commitReady then some s.pipe.commitU.head else none)
    cases s.pipe.commitU.finalCommit i.commitReady <;> cases s.pipe.commitU.head.transplant <;> cases s.pipe.stopped i <;>
      simp [held_some]
  rw [hOut]
  exact hQueue

theorem stage_balance :
    held Prod.fst t (s.next x i).pipe.decReg.item + held Prod.fst t (s.next x i).pipe.issuer.item +
        held Prod.fst t (if s.pipe.issuerDeqReady x i then s.pipe.issuer.item else none) =
      held Prod.fst t s.pipe.decReg.item + held Prod.fst t s.pipe.issuer.item +
        held (fun inst : Labelled Unit (FetchedInst params) => inst.bits.tag) t
          (if s.pipe.instReady x i then s.pipe.fetch.instQueue.head? else none) := by
  have hDec := s.pipe.decReg.held_next (s.pipe.decDeqReady x i) t (s.pipe.decoded x)
  have hIssue := s.pipe.issuer.held_next (s.pipe.issuerDeqReady x i) t s.pipe.decReg.item
  have hDecoded : held Prod.fst t (if s.pipe.instReady x i then s.pipe.decoded x else none) =
      held (fun inst : Labelled Unit (FetchedInst params) => inst.bits.tag) t
        (if s.pipe.instReady x i then s.pipe.fetch.instQueue.head? else none) := by
    cases s.pipe.instReady x i with
    | false => rfl
    | true => exact (held_map Prod.fst t _ _).trans (held_map _ t _ _)
  rw [← instReady, hDecoded] at hDec
  rw [← decDeqReady] at hIssue
  simp only [next, Pipeline.next]
  omega

theorem missing_balance (k : Fin 2) (hWake : ∀ t ∈ i.wake k, t ∈ s.missing k) :
    tokens id t ((s.next x i).missing k) + held id t (i.wake k) = tokens id t (s.missing k) + held id t (s.missed i k) := by
  simp only [next]
  rw [tokens_append, tokens_toList]
  cases hEvent : i.wake k with
  | none => simp
  | some t' =>
    have hErase := tokens_erase id t (hWake t' hEvent)
    rw [held_some]
    simp only [id] at hErase ⊢
    omega

end Balance

section Conservation

theorem held_fetchCommit_le : held Prod.fst t (s.pipe.fetchCommit i) + held id t (s.left i) ≤
    tokens CommitInst.tag t s.pipe.commitU.commitQueue.items := by
  have hOut : held Prod.fst t (s.pipe.fetchCommit i) + held id t (s.left i) ≤
      held CommitInst.tag t s.pipe.commitU.commitQueue.items.head? := by
    rw [fetchCommit, left, RamQueue.head?_items]
    cases hCommit : s.pipe.commitU.finalCommit i.commitReady with
    | false => simp
    | true =>
      have hValid : s.pipe.commitU.commitQueue.deqValid = true := (Bool.and_eq_true_iff.mp hCommit).1
      rw [hValid, if_pos rfl]
      cases s.pipe.commitU.head.transplant <;> cases s.pipe.stopped i <;> simp [held_some, CommitUnit.head]
  refine hOut.trans ?_
  cases s.pipe.commitU.commitQueue.items with
  | nil => simp
  | cons item items => simp [held_some, tokens_cons]

theorem held_wake_le (h : s.Surrounded x i) (k : Fin 2) : held id t (i.wake k) ≤ tokens id t (s.missing k) := by
  cases hWake : i.wake k with
  | none => simp
  | some t' =>
    have hErase := tokens_erase id t (h.wake k t' hWake)
    rw [held_some]
    omega

theorem enabled_balance (hOne : s.places t + held Prod.fst t i.start ≤ 1) (h : s.Surrounded x i) :
    (s.next x i).pipe.fetch.pcUnit.enabledCount t +
        held id t (s.pipe.fetch.pcUnit.fired (s.pipe.fetch.pcReqReady (s.fetchInput x i))) =
      s.pipe.fetch.pcUnit.enabledCount t + held Prod.fst t i.start + held Prod.fst t (s.pipe.fetchCommit i) +
        held id t (i.wake 0) + held id t (i.wake 1) := by
  have hCommit := held_fetchCommit_le (s := s) (i := i) (t := t)
  have hWake0 := held_wake_le (t := t) h 0
  have hWake1 := held_wake_le (t := t) h 1
  refine FetchUnitPC.enabledCount_next ?_
  change s.pipe.fetch.pcUnit.enabledCount t + held Prod.fst t i.start + held Prod.fst t (s.pipe.fetchCommit i) +
    held id t (i.wake 0) + held id t (i.wake 1) ≤ 1
  simp only [places] at hOne
  omega

theorem mem_balance (h : s.Surrounded x i) (hPass : s.Passable x i) :
    (s.next x i).pipe.memUnit.inFlight t +
        held MInst.tag t (if s.pipe.memUnit.tlbReqDeqFire (s.memInput x i) then some s.pipe.memUnit.head else none) +
        held CommitInst.tag t (if s.pipe.commitEnqReady i then s.pipe.memUnit.doneInst.head? else none) =
      s.pipe.memUnit.inFlight t + held MInst.tag t (if s.pipe.memReqReady x i then s.pipe.memReq x i else none) +
        held MemoryUnit.pendingTag t (s.pipe.memUnit.cacheReqEnq (s.memInput x i)) :=
  MemoryUnit.inFlight_next t hPass.memRoom fun r hr => h.cache 1 r hr

theorem fetch_balance (h : s.Surrounded x i) (hPass : s.Passable x i) :
    (s.next x i).pipe.fetch.inFlight t + held (fun inst : Labelled Unit (FetchedInst params) => inst.bits.tag) t
        (if s.pipe.instReady x i then s.pipe.fetch.instQueue.head? else none) =
      s.pipe.fetch.inFlight t +
        held (fun q : FetchPending params Unit => q.inst.bits.id) t (s.pipe.fetch.cacheReqEnq (s.fetchInput x i)) :=
  FetchUnit.inFlight_next t hPass.fetchRoom fun r hr => h.cache 0 r hr

theorem places_next (hInv : s.Inv) (h : s.Surrounded x i) (hPass : s.Passable x i) :
    (s.next x i).places t + held id t (s.left i) = s.places t + held Prod.fst t i.start := by
  have hOne : s.places t + held Prod.fst t i.start ≤ 1 := by
    rw [hInv.conserved t]
    cases hStart : i.start with
    | none => simp [Bool.toNat_le]
    | some c =>
      by_cases hThread : c.1 = t
      · rw [held_some, if_pos hThread, ← hThread, h.start c hStart]
        rfl
      · rw [held_some, if_neg hThread, Nat.add_zero]
        exact Bool.toNat_le _
  have hEnabled := enabled_balance hOne h
  have hFetch := fetch_balance (t := t) h hPass
  have hMem := mem_balance (t := t) h hPass
  have hStages := stage_balance (x := x) (s := s) (i := i) (t := t)
  have hIssue := issue_balance (x := x) (s := s) (i := i) (t := t)
  have hCommit := commit_balance (x := x) (s := s) (i := i) (t := t)
  have hFetchTLB := fetch_translating_balance (t := t) h
  have hMemTLB := mem_translating_balance (t := t) h hInv.state hPass.onePage
  have hFetchAnswer := fetch_answer (t := t) h
  have hMemAnswer := mem_answer (t := t) h hPass hInv.state
  have hMissing0 := missing_balance (x := x) (t := t) 0 (h.wake 0)
  have hMissing1 := missing_balance (x := x) (t := t) 1 (h.wake 1)
  simp only [places]
  omega

theorem Inv.conserved_next (hInv : s.Inv) (h : s.Surrounded x i) (hPass : s.Passable x i) : (s.next x i).Conserved := by
  intro t
  have hSum := places_next (t := t) hInv h hPass
  have hRunning : s.places t + held Prod.fst t i.start = (s.running t || decide (i.start.map Prod.fst = some t)).toNat := by
    have hStart : held Prod.fst t i.start = held id t (i.start.map Prod.fst) := (held_map id t _ _).symm
    rw [hInv.conserved t, hStart, held_id_eq]
    cases hEvent : i.start with
    | none => simp
    | some c =>
      by_cases hThread : c.1 = t
      · have hIdle := h.start c hEvent
        rw [hThread] at hIdle
        simp [hThread, hIdle]
      · simp [hThread]
  have hNext : (s.next x i).running t =
      ((s.running t || decide (i.start.map Prod.fst = some t)) && !decide (s.left i = some t)) := rfl
  rw [hRunning, held_id_eq] at hSum
  rw [hNext]
  revert hSum
  generalize (s.next x i).places t = n
  cases (s.running t || decide (i.start.map Prod.fst = some t)) <;> cases decide (s.left i = some t) <;> simp

theorem Inv.next (hInv : s.Inv) (h : s.Surrounded x i) (hPass : s.Passable x i) : (s.next x i).Inv where
  conserved := hInv.conserved_next h hPass
  state := by
    have hPage := hPass.onePage
    simp only [WatchedPipeline.next, Pipeline.next, MemoryUnit.next, MemoryUnit.sTLBStateNext, hInv.state]
    refine if_neg fun hBoth => ?_
    obtain ⟨hFire, hMisaligned⟩ := Bool.and_eq_true_iff.mp hBoth
    rw [hPage hFire] at hMisaligned
    cases hMisaligned

theorem inv_reset (c : Contents params Unit) : (reset c : WatchedPipeline params δ).Inv where
  conserved t := by
    simp [places, reset, Pipeline.reset, FetchUnit.reset, FetchUnitPC.reset, FetchUnitPC.enabledCount, translatingThread,
      FetchUnit.inFlight, MemoryUnit.inFlight, MemoryUnit.accessing, MemoryUnit.reset, DoubleLatencyQueue.reset, RamQueue.items_reset]
  state := rfl

end Conservation

section Runs

variable (x)

theorem thread_conserved (c : Contents params Unit) {is : List (Pipeline.Input params Unit)}
    (hRule : (machine x).Along (fun s i => s.Surrounded x i ∧ s.Passable x i) (reset c) is) :
    ((machine x).run (reset c) is).Conserved :=
  (hRule.invariant (inv_reset c) fun _ _ hInv h => hInv.next h.1 h.2).conserved

abbrev twoThreads : PipelineParams := ⟨1, 14, 2⟩

def plainInst : MInst 1 := ⟨2, false, true, true, false, fun _ => ⟨4, 0, 1⟩, 0, none, 0⟩

def nothingNext : CommitInst 1 := ⟨0, fun _ => none, fun _ => 0, none, none, false, false, false⟩

/-- Every instruction is a load, or none is. -/
def loads (all : Bool) : ExecuteStage Unit twoThreads.thidW := ⟨fun _ => (), fun _ _ => ⟨if all then some plainInst else none, nothingNext⟩⟩

def powerUp : Contents twoThreads Unit := ⟨⟨0, 0⟩, ⟨fun _ => plainInst, plainInst, ⟨0, ()⟩⟩, fun _ => nothingNext⟩

def quietPort : MemPort twoThreads Unit := ⟨true, none, true, none, ⟨false, false⟩⟩

def hitPort (violation : Bool) : MemPort twoThreads Unit := { quietPort with tlbResp := some ⟨0x1000, true, violation, ()⟩ }

def dataPort : MemPort twoThreads Unit := { quietPort with cacheResp := some ⟨0, true, false, false⟩ }

def quiet : Pipeline.Input twoThreads Unit :=
  ⟨quietPort, quietPort, fun _ => none, none, 0, true, ⟨0, 0⟩, ⟨fun _ => 0, ⟨0, 0⟩⟩⟩

/-- Thread 0 is started and one word is fetched for it, up to the issue stage. -/
def oneInst : List (Pipeline.Input twoThreads Unit) :=
  [{ quiet with start := some (0, 4) }, quiet, { quiet with inst := hitPort false }, quiet, { quiet with inst := dataPort },
    quiet, quiet]

theorem thread_conserved_one : ((machine (loads false)).run (reset powerUp) (oneInst ++ [quiet, quiet])).Conserved := by
  refine thread_conserved (loads false) powerUp ?_
  decide +kernel

/-- Its load hits a page of another permission: the thread runs, but it is nowhere. -/
theorem thread_lost :
    (machine (loads true)).Along (fun s i => s.Surrounded (loads true) i ∧ i.stopCPU = 0) (reset powerUp)
        (oneInst ++ [quiet, quiet, { quiet with data := hitPort true }]) ∧
      ¬ ((machine (loads true)).run (reset powerUp)
        (oneInst ++ [quiet, quiet, { quiet with data := hitPort true }])).Conserved := by
  refine ⟨by decide +kernel, fun h => ?_⟩
  exact absurd (h 0) (by decide +kernel)

end Runs

end WatchedPipeline

end KnockoutKraken.Armflex
