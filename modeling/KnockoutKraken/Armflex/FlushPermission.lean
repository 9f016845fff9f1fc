import KnockoutKraken.Armflex.Fetch
import KnockoutKraken.Armflex.LoadStore

/-!
# The permission to flush

The page manager asks a unit for the permission to flush and tells it when
the flush is over. The translations are labelled with the number of
permissions the unit had granted when they arrived; a label that is behind
the count belongs to a translation from before a flush.
-/

namespace KnockoutKraken.Armflex

open Library Util

section Quiet

variable {params : PipelineParams} {Λ : Type}

def FetchUnit.Quiet (u : FetchUnit params Λ) : Prop := u.cacheReqQ = [] ∧ u.cacheAdaptor.baseQ = [] ∧ u.cacheAdaptor.longQ = []

def MemoryUnit.Quiet (u : MemoryUnit params Λ) : Prop :=
  u.cacheReqQ = [] ∧ u.cacheReqMisalignedQ = [] ∧ u.cacheAdaptor.baseQ = [] ∧ u.cacheAdaptor.longQ = []

instance (u : FetchUnit params Λ) : Decidable u.Quiet :=
  decidable_of_iff (u.cacheReqQ.isEmpty ∧ u.cacheAdaptor.baseQ.isEmpty ∧ u.cacheAdaptor.longQ.isEmpty)
    (by simp [FetchUnit.Quiet])

instance (u : MemoryUnit params Λ) : Decidable u.Quiet :=
  decidable_of_iff (u.cacheReqQ.isEmpty ∧ u.cacheReqMisalignedQ.isEmpty ∧ u.cacheAdaptor.baseQ.isEmpty ∧
    u.cacheAdaptor.longQ.isEmpty) (by simp [MemoryUnit.Quiet])

/-- The page manager has the permission, from the cycle it is granted. -/
def FetchUnit.flushing (u : FetchUnit params Λ) (i : FetchUnit.Input params Λ) : Bool :=
  u.granted i || CacheFlushingController.waitingForMMU u.flushState

def MemoryUnit.flushing (u : MemoryUnit params Λ) (i : MemoryUnit.Input params Λ) : Bool :=
  u.granted i || CacheFlushingController.waitingForMMU u.flushState

end Quiet

def PipeTLBResp.relabel {params : PipelineParams} (resp : PipeTLBResp params Unit) (grants : Nat) : PipeTLBResp params Nat :=
  ⟨resp.addr, resp.hit, resp.violation, grants⟩

structure FetchEpoch (params : PipelineParams) where
  unit : FetchUnit params Nat
  grants : Nat

namespace FetchEpoch

variable {params : PipelineParams} (s : FetchEpoch params) (i : FetchUnit.Input params Unit)

def input : FetchUnit.Input params Nat where
  ctrl := i.ctrl
  tlbReqReady := i.tlbReqReady
  tlbResp := i.tlbResp.map fun resp => resp.relabel s.grants
  cacheReqReady := i.cacheReqReady
  cacheResp := i.cacheResp
  instReady := i.instReady
  mmu := i.mmu

def granted : Bool := s.unit.granted (s.input i)

def machine (params : PipelineParams) : Machine (FetchEpoch params) (FetchUnit.Input params Unit) (Option (FetchPending params Nat)) where
  next s i := ⟨s.unit.next (s.input i), s.grants + (s.granted i).toNat⟩
  output s i := s.unit.cacheReqFired (s.input i)

def reset (metaDataTLB : FetchMeta params) : FetchEpoch params := ⟨.reset metaDataTLB, 0⟩

/-- While the page manager has the permission nothing is queued, in flight or requested; and a
request uses a translation that arrived after the last permission. -/
def Safe : Prop :=
  (s.unit.flushing (s.input i) = true → s.unit.Quiet ∧ (s.unit.cacheReqFired (s.input i)).isNone = true) ∧
    ∀ q ∈ s.unit.cacheReqFired (s.input i), q.inst.label = s.grants

/-- At a grant the requests in flight can be counted, and no hit arrives then or during the flush. -/
def Undisturbed : Prop :=
  (s.granted i = true → s.unit.cacheAdaptor.count < 2 ^ Nat.clog 2 FetchUnit.instQueueEntries) ∧
    (s.unit.flushing (s.input i) = true → i.tlbResp.any PipeTLBResp.hit = false)

instance : Decidable (s.Safe i) := inferInstanceAs (Decidable ((_ → _) ∧ ∀ _ ∈ s.unit.cacheReqFired (s.input i), _))

instance : Decidable (s.Undisturbed i) := inferInstanceAs (Decidable ((_ → _) ∧ (_ → _)))

structure Inv : Prop where
  current : ∀ q ∈ s.unit.cacheReqQ, q.inst.label = s.grants
  quiet : CacheFlushingController.waitingForMMU s.unit.flushState = true → s.unit.Quiet

variable {s} {i}

theorem quiet_of_granted (hGrant : s.granted i = true)
    (hCount : s.unit.cacheAdaptor.count < 2 ^ Nat.clog 2 FetchUnit.instQueueEntries) : s.unit.Quiet := by
  have hWork := CacheFlushingController.hasPendingWork_of_granted hGrant
  simp only [FetchUnit.hasPendingWork, Bool.or_eq_false_iff, Bool.not_eq_false', List.isEmpty_iff,
    decide_eq_false_iff_not, not_not] at hWork
  exact ⟨hWork.1, (DoubleLatencyQueue.pending_eq_zero_iff hCount).mp hWork.2⟩

theorem Inv.quiet_of_flushing (hInv : s.Inv) (hRule : s.Undisturbed i) (hFlush : s.unit.flushing (s.input i) = true) :
    s.unit.Quiet := by
  rcases Bool.or_eq_true_iff.mp hFlush with hGrant | hWait
  · exact quiet_of_granted hGrant (hRule.1 hGrant)
  · exact hInv.quiet hWait

theorem cacheReqFired_of_quiet (hQuiet : s.unit.Quiet) : s.unit.cacheReqFired (s.input i) = none := by
  rw [FetchUnit.cacheReqFired_eq, hQuiet.1]
  exact ite_self none

theorem cacheReqEnq_of_no_hit (hHit : i.tlbResp.any PipeTLBResp.hit = false) :
    s.unit.cacheReqEnq (s.input i) = none := by
  cases hResp : i.tlbResp with
  | none => simp [FetchUnit.cacheReqEnq, input, hResp]
  | some resp =>
    have hMiss : resp.hit = false := by simpa [hResp] using hHit
    simp [FetchUnit.cacheReqEnq, input, hResp, PipeTLBResp.relabel, hMiss]

theorem quiet_next (hQuiet : s.unit.Quiet) (hHit : i.tlbResp.any PipeTLBResp.hit = false) :
    (s.unit.next (s.input i)).Quiet := by
  have hAdaptor : s.unit.cacheAdaptor = .reset := by
    rw [← show DoubleLatencyQueue.mk _ _ = s.unit.cacheAdaptor from rfl, hQuiet.2.1, hQuiet.2.2]
    rfl
  have hNext : (s.unit.next (s.input i)).cacheAdaptor = .reset := by
    rw [FetchUnit.next, cacheReqFired_of_quiet hQuiet]
    exact hAdaptor ▸ DoubleLatencyQueue.next_empty_none
  refine ⟨?_, congrArg _ hNext, congrArg _ hNext⟩
  rw [FetchUnit.next, cacheReqEnq_of_no_hit hHit, hQuiet.1]
  exact FlushQueue.next_nil_none _

theorem mem_cacheReqQ_next {q : FetchPending params Nat} (h : q ∈ (s.unit.next (s.input i)).cacheReqQ) :
    q ∈ s.unit.cacheReqQ ∨ q.inst.label = s.grants := by
  refine (FlushQueue.mem_of_mem_next h).imp_right fun hEnq => ?_
  obtain ⟨resp, hResp, rfl⟩ := Option.map_eq_some_iff.mp hEnq
  obtain ⟨raw, -, rfl⟩ := Option.map_eq_some_iff.mp (Option.filter_eq_some_iff.mp hResp).1
  rfl

theorem Inv.next (hInv : s.Inv) (hRule : s.Undisturbed i) : ((machine params).next s i).Inv := by
  have hQuietNext : s.unit.flushing (s.input i) = true → (s.unit.next (s.input i)).Quiet := fun hFlush =>
    quiet_next (hInv.quiet_of_flushing hRule hFlush) (hRule.2 hFlush)
  refine ⟨fun q hq => ?_, fun hWait => ?_⟩
  · cases hGrant : s.granted i with
    | true =>
      have hEmpty := (hQuietNext (Bool.or_eq_true_iff.mpr (.inl hGrant))).1
      exact absurd hq (by simp [machine, hEmpty])
    | false =>
      have hLabel : q.inst.label = s.grants := (mem_cacheReqQ_next hq).elim (hInv.current q) id
      simpa [machine, hGrant] using hLabel
  · exact hQuietNext (Bool.or_eq_true_iff.mpr (CacheFlushingController.waitingForMMU_next hWait))

theorem Inv.safe (hInv : s.Inv) (hRule : s.Undisturbed i) : s.Safe i := by
  refine ⟨fun hFlush => ?_, fun q hq => ?_⟩
  · have hQuiet := hInv.quiet_of_flushing hRule hFlush
    exact ⟨hQuiet, by rw [cacheReqFired_of_quiet hQuiet]; rfl⟩
  · rw [FetchUnit.cacheReqFired_eq] at hq
    split at hq
    · exact hInv.current q (List.mem_of_mem_head? hq)
    · cases hq

theorem inv_reset (metaDataTLB : FetchMeta params) : (reset metaDataTLB).Inv := by
  refine ⟨fun q hq => ?_, fun _ => ⟨rfl, rfl, rfl⟩⟩
  cases hq

theorem safe (metaDataTLB : FetchMeta params) (is : List (FetchUnit.Input params Unit))
    (hRule : (machine params).Along Undisturbed (reset metaDataTLB) is) :
    (machine params).Along Safe (reset metaDataTLB) is :=
  hRule.of_invariant (inv_reset metaDataTLB) (fun _ _ hInv hRule => hInv.next hRule) fun _ _ hInv hRule => hInv.safe hRule

end FetchEpoch

/-- The memory unit, with the number of permissions it has granted and the number
of translations that have been requested and not answered. -/
structure MemoryEpoch (params : PipelineParams) where
  unit : MemoryUnit params Nat
  grants : Nat
  translating : Nat

namespace MemoryEpoch

open MemoryUnit STLBState

variable {params : PipelineParams} (s : MemoryEpoch params) (i : MemoryUnit.Input params Unit)

def input : MemoryUnit.Input params Nat where
  req := i.req
  tlbReqReady := i.tlbReqReady
  tlbResp := i.tlbResp.map fun resp => resp.relabel s.grants
  cacheReqReady := i.cacheReqReady
  cacheResp := i.cacheResp
  respReady := i.respReady
  mmu := i.mmu

def granted : Bool := s.unit.granted (s.input i)

def machine (params : PipelineParams) : Machine (MemoryEpoch params) (MemoryUnit.Input params Unit) (Option (MemPending params Nat)) where
  next s i :=
    { unit := s.unit.next (s.input i)
      grants := s.grants + (s.granted i).toNat
      translating := s.translating + (s.unit.tlbReqFire (s.input i)).toNat - i.tlbResp.isSome.toNat }
  output s i := s.unit.cacheReqFired (s.input i)

def reset (c : Contents params Nat) : MemoryEpoch params := ⟨.reset c, 0, 0⟩

/-- Both addresses come from translations that arrived after the last permission. -/
def Current (m : MemPending params Nat) (grants : Nat) : Prop := (m.paddr 0).label = grants ∧ (m.paddr 1).label = grants

instance (m : MemPending params Nat) (grants : Nat) : Decidable (Current m grants) := inferInstanceAs (Decidable (_ ∧ _))

def Safe : Prop :=
  (s.unit.flushing (s.input i) = true → s.unit.Quiet ∧ (s.unit.cacheReqFired (s.input i)).isNone = true) ∧
    ∀ m ∈ s.unit.cacheReqFired (s.input i), Current m s.grants

/-- At a grant the requests in flight can be counted, and no hit without a violation arrives then
or during the flush, unless the unit is between the two translations of a pair. The buffer answers
what it was asked. -/
def Undisturbed : Prop :=
  (s.granted i = true → s.unit.cacheAdaptor.count < 2 ^ Nat.clog 2 cacheInstsFlightEntries) ∧
    (s.unit.flushing (s.input i) = true → s.unit.sTLBState ≠ intermediateResp →
      i.tlbResp.any (fun resp => resp.hit && !resp.violation) = false) ∧
    (i.tlbResp.isSome = true → 0 < s.translating)

instance : Decidable (s.Safe i) := inferInstanceAs (Decidable ((_ → _) ∧ ∀ _ ∈ s.unit.cacheReqFired (s.input i), _))

instance : Decidable (s.Undisturbed i) := inferInstanceAs (Decidable ((_ → _) ∧ (_ → _) ∧ (_ → _)))

def waiting : List (MemPending params Nat) :=
  s.unit.cacheReqQ ++ s.unit.cacheReqMisalignedQ ++ s.unit.cacheAdaptor.baseQ ++ s.unit.cacheAdaptor.longQ

structure Inv : Prop where
  current : ∀ m ∈ s.waiting, Current m s.grants
  quiet : CacheFlushingController.waitingForMMU s.unit.flushState = true → s.unit.Quiet
  state : s.unit.sTLBState ≠ pairReq
  onePage : s.unit.sTLBState = req → 0 < s.translating → s.unit.tlbMeta.isPairPageMisaligned = false

variable {s} {i}

theorem mem_waiting {m : MemPending params Nat} : m ∈ s.waiting ↔ m ∈ s.unit.cacheReqQ ∨
    m ∈ s.unit.cacheReqMisalignedQ ∨ m ∈ s.unit.cacheAdaptor.baseQ ∨ m ∈ s.unit.cacheAdaptor.longQ := by
  simp only [waiting, List.mem_append, or_assoc]

theorem waiting_eq_nil (hQuiet : s.unit.Quiet) : s.waiting = [] := by
  rw [waiting, hQuiet.1, hQuiet.2.1, hQuiet.2.2.1, hQuiet.2.2.2]
  rfl

theorem quiet_of_granted (hGrant : s.granted i = true)
    (hCount : s.unit.cacheAdaptor.count < 2 ^ Nat.clog 2 cacheInstsFlightEntries) : s.unit.Quiet := by
  have hWork := CacheFlushingController.hasPendingWork_of_granted hGrant
  simp only [hasPendingWork, Bool.or_eq_false_iff, Bool.not_eq_false', List.isEmpty_iff,
    decide_eq_false_iff_not, not_not] at hWork
  exact ⟨hWork.1.1, hWork.1.2, (DoubleLatencyQueue.pending_eq_zero_iff hCount).mp hWork.2⟩

theorem Inv.quiet_of_flushing (hInv : s.Inv) (hRule : s.Undisturbed i) (hFlush : s.unit.flushing (s.input i) = true) :
    s.unit.Quiet := by
  rcases Bool.or_eq_true_iff.mp hFlush with hGrant | hWait
  · exact quiet_of_granted hGrant (hRule.1 hGrant)
  · exact hInv.quiet hWait

theorem cacheReqFired_of_quiet (hQuiet : s.unit.Quiet) : s.unit.cacheReqFired (s.input i) = none := by
  rw [cacheReqFired_eq, pipeMeta, hQuiet.1, hQuiet.2.1]
  exact ite_self none

theorem tlbRespFire_some {resp : PipeTLBResp params Nat} (h : s.unit.tlbRespFire (s.input i) = some resp) :
    resp.label = s.grants ∧ ∃ raw, i.tlbResp = some raw ∧ raw.hit = resp.hit ∧ raw.violation = resp.violation := by
  obtain ⟨raw, hRaw, rfl⟩ := Option.map_eq_some_iff.mp (Option.filter_eq_some_iff.mp h).1
  exact ⟨rfl, raw, hRaw, rfl, rfl⟩

theorem cacheReqEnq_of_no_hit (hState : s.unit.sTLBState ≠ intermediateResp →
    i.tlbResp.any (fun resp => resp.hit && !resp.violation) = false) : s.unit.cacheReqEnq (s.input i) = none := by
  by_cases hInter : s.unit.sTLBState = intermediateResp
  · rw [cacheReqEnq, tlbRespFire_intermediate hInter]
    rfl
  · rw [cacheReqEnq, Option.map_eq_none_iff, Option.filter_eq_none_iff]
    intro resp hResp
    obtain ⟨-, raw, hRaw, hHit, hViolation⟩ := tlbRespFire_some hResp
    have hNot := hState hInter
    rw [hRaw, Option.any_some, hHit, hViolation] at hNot
    cases hh : resp.hit <;> cases hv : resp.violation <;> simp [ditched, hh, hv] at hNot ⊢

theorem quiet_next (hQuiet : s.unit.Quiet) (hEnq : s.unit.cacheReqEnq (s.input i) = none) :
    (s.unit.next (s.input i)).Quiet := by
  have hAdaptor : s.unit.cacheAdaptor = .reset := by
    rw [← show DoubleLatencyQueue.mk _ _ = s.unit.cacheAdaptor from rfl, hQuiet.2.2.1, hQuiet.2.2.2]
    rfl
  have hNext : (s.unit.next (s.input i)).cacheAdaptor = .reset := by
    rw [MemoryUnit.next, cacheReqFired_of_quiet hQuiet]
    exact hAdaptor ▸ DoubleLatencyQueue.next_empty_none
  have hResp : s.unit.cachePipeResp (s.input i) = none := by
    rw [cachePipeResp, Option.eq_none_iff_forall_ne_some]
    intro r hr
    have hMem := CacheInterface.mem_of_pipeResp hr
    rw [hQuiet.2.2.1, hQuiet.2.2.2] at hMem
    simp at hMem
  refine ⟨?_, ?_, congrArg _ hNext, congrArg _ hNext⟩
  · rw [MemoryUnit.next, hEnq, hQuiet.1]
    exact FlushQueue.next_nil_none _
  · rw [MemoryUnit.next, misalignedEnq, hResp, hQuiet.2.1]
    exact FlushQueue.next_nil_none _

theorem current_of_cacheReqEnq {m : MemPending params Nat} (hPage : s.unit.tlbMeta.isPairPageMisaligned = false)
    (h : s.unit.cacheReqEnq (s.input i) = some m) : Current m s.grants := by
  obtain ⟨resp, hResp, rfl⟩ := Option.map_eq_some_iff.mp h
  have hLabel := (tlbRespFire_some (Option.filter_eq_some_iff.mp hResp).1).1
  exact ⟨(paddr_label hPage resp 0).trans hLabel, (paddr_label hPage resp 1).trans hLabel⟩

theorem Inv.onePage_of_enq (hInv : s.Inv) (hRule : s.Undisturbed i) {m : MemPending params Nat}
    (h : s.unit.cacheReqEnq (s.input i) = some m) : s.unit.tlbMeta.isPairPageMisaligned = false := by
  obtain ⟨resp, hResp, -⟩ := Option.map_eq_some_iff.mp h
  have hFire := (Option.filter_eq_some_iff.mp hResp).1
  obtain ⟨-, raw, hRaw, -⟩ := tlbRespFire_some hFire
  refine hInv.onePage ?_ (hRule.2.2 (by rw [hRaw]; rfl))
  cases hState : s.unit.sTLBState with
  | req => rfl
  | intermediateResp =>
    rw [tlbRespFire_intermediate hState] at hFire
    cases hFire
  | pairReq => exact absurd hState hInv.state

theorem Inv.current_next (hInv : s.Inv) (hRule : s.Undisturbed i) {m : MemPending params Nat}
    (h : m ∈ ((machine params).next s i).waiting) : Current m s.grants := by
  have hOld : ∀ m', m' ∈ s.unit.cacheReqQ ∨ m' ∈ s.unit.cacheReqMisalignedQ ∨ m' ∈ s.unit.cacheAdaptor.baseQ ∨
      m' ∈ s.unit.cacheAdaptor.longQ → Current m' s.grants := fun m' hm' => hInv.current m' (mem_waiting.mpr hm')
  rcases mem_waiting.mp h with hQ | hQ | hQ | hQ
  · rcases FlushQueue.mem_of_mem_next hQ with hStay | hEnq
    · exact hOld m (.inl hStay)
    · exact current_of_cacheReqEnq (hInv.onePage_of_enq hRule hEnq) hEnq
  · rcases FlushQueue.mem_of_mem_next hQ with hStay | hEnq
    · exact hOld m (.inr (.inl hStay))
    · obtain ⟨r, hr, rfl⟩ := Option.map_eq_some_iff.mp hEnq
      exact hOld r.1 (.inr (.inr (CacheInterface.mem_of_pipeResp (Option.filter_eq_some_iff.mp hr).1)))
  · rcases DoubleLatencyQueue.mem_base_of_next hQ with hStay | hReq
    · exact hOld m (.inr (.inr (.inl hStay)))
    · rw [cacheReqFired_eq] at hReq
      split at hReq
      · exact hOld m ((mem_of_pipeMeta hReq).imp id .inl)
      · cases hReq
  · exact hOld m (.inr (.inr (DoubleLatencyQueue.mem_long_of_next hQ).symm))

theorem Inv.onePage_next (hInv : s.Inv)
    (hState : s.unit.sTLBStateNext (s.input i) = req)
    (hPos : 0 < s.translating + (s.unit.tlbReqFire (s.input i)).toNat - i.tlbResp.isSome.toNat) :
    (s.unit.next (s.input i)).tlbMeta.isPairPageMisaligned = false := by
  have hNow : s.unit.sTLBState = req := by
    cases hCurr : s.unit.sTLBState with
    | req => rfl
    | intermediateResp => simp [sTLBStateNext, hCurr, tlbRespFire_intermediate hCurr] at hState
    | pairReq => exact absurd hCurr hInv.state
  cases hDeq : s.unit.tlbReqDeqFire (s.input i) with
  | true =>
    rw [MemoryUnit.next, if_pos hDeq]
    exact (not_isPairPageMisaligned_of_deqFire hNow hDeq).2
  | false =>
    have hIdle : s.unit.tlbReqFire (s.input i) = false := by
      by_contra hReq
      rw [Bool.not_eq_false] at hReq
      cases hPage : s.unit.head.isPairPageMisaligned with
      | true => simp [sTLBStateNext, hNow, hReq, hPage] at hState
      | false => exact absurd (deqFire_of_tlbReqFire hNow hReq hPage) (by simp [hDeq])
    rw [hIdle] at hPos
    have hMeta : (s.unit.next (s.input i)).tlbMeta = s.unit.tlbMeta := by simp [MemoryUnit.next, hDeq]
    rw [hMeta]
    exact hInv.onePage hNow (by simp only [Bool.toNat_false] at hPos; omega)

theorem Inv.next (hInv : s.Inv) (hRule : s.Undisturbed i) : ((machine params).next s i).Inv := by
  have hQuietNext : s.unit.flushing (s.input i) = true → (s.unit.next (s.input i)).Quiet := fun hFlush =>
    quiet_next (hInv.quiet_of_flushing hRule hFlush) (cacheReqEnq_of_no_hit (hRule.2.1 hFlush))
  refine ⟨fun m hm => ?_, fun hWait => ?_, sTLBStateNext_ne_pairReq hInv.state, hInv.onePage_next⟩
  · cases hGrant : s.granted i with
    | true =>
      have hEmpty := waiting_eq_nil (s := (machine params).next s i) (hQuietNext (Bool.or_eq_true_iff.mpr (.inl hGrant)))
      exact absurd hm (by simp [hEmpty])
    | false => simpa [machine, hGrant] using hInv.current_next hRule hm
  · exact hQuietNext (Bool.or_eq_true_iff.mpr (CacheFlushingController.waitingForMMU_next hWait))

theorem Inv.safe (hInv : s.Inv) (hRule : s.Undisturbed i) : s.Safe i := by
  refine ⟨fun hFlush => ?_, fun m hm => ?_⟩
  · have hQuiet := hInv.quiet_of_flushing hRule hFlush
    exact ⟨hQuiet, by rw [cacheReqFired_of_quiet hQuiet]; rfl⟩
  · rw [cacheReqFired_eq] at hm
    split at hm
    · exact hInv.current m (mem_waiting.mpr ((mem_of_pipeMeta hm).imp id .inl))
    · cases hm

theorem inv_reset (c : Contents params Nat) : (reset c).Inv where
  current m hm := by cases hm
  quiet _ := ⟨rfl, rfl, rfl, rfl⟩
  state := by simp [reset, MemoryUnit.reset]
  onePage _ hPos := absurd hPos (Nat.lt_irrefl 0)

theorem safe (c : Contents params Nat) (is : List (MemoryUnit.Input params Unit))
    (hRule : (machine params).Along Undisturbed (reset c) is) : (machine params).Along Safe (reset c) is :=
  hRule.of_invariant (inv_reset c) (fun _ _ hInv hRule => hInv.next hRule) fun _ _ hInv hRule => hInv.safe hRule

end MemoryEpoch

section Runs

/-- Both units are safe in every cycle of runs that leave their flushes undisturbed. -/
theorem flush_permission_safe {params : PipelineParams} (metaDataTLB : FetchMeta params)
    (c : MemoryUnit.Contents params Nat) {fs : List (FetchUnit.Input params Unit)}
    {ms : List (MemoryUnit.Input params Unit)}
    (hFetch : (FetchEpoch.machine params).Along FetchEpoch.Undisturbed (.reset metaDataTLB) fs)
    (hMemory : (MemoryEpoch.machine params).Along MemoryEpoch.Undisturbed (.reset c) ms) :
    (FetchEpoch.machine params).Along FetchEpoch.Safe (.reset metaDataTLB) fs ∧
      (MemoryEpoch.machine params).Along MemoryEpoch.Safe (.reset c) ms :=
  ⟨FetchEpoch.safe metaDataTLB fs hFetch, MemoryEpoch.safe c ms hMemory⟩

def smallParams : PipelineParams := ⟨1, 14, 2⟩

def fetchIdle : FetchUnit.Input smallParams Unit :=
  ⟨⟨none, none, fun _ => none⟩, true, none, true, none, true, ⟨false, false⟩⟩

def fetchStart : FetchUnit.Input smallParams Unit := { fetchIdle with ctrl := ⟨some (0, 4), none, fun _ => none⟩ }

def fetchHit : FetchUnit.Input smallParams Unit := { fetchIdle with tlbResp := some ⟨0x1000, true, false, ()⟩ }

def memoryIdle : MemoryUnit.Input smallParams Unit := ⟨none, true, none, true, none, true, ⟨false, false⟩⟩

def memoryLoad : MInst 1 := ⟨2, false, true, true, false, fun _ => ⟨4, 0, 1⟩, 0, none, 0⟩

/-- A thread is fetched, a load is translated and done, and both units are flushed afterwards. -/
theorem flush_permission_safe_one :
    (FetchEpoch.machine smallParams).Along FetchEpoch.Safe (.reset ⟨0, 0⟩)
        [fetchStart, fetchIdle, fetchHit, fetchIdle, { fetchIdle with cacheResp := some ⟨0, true, false, false⟩ },
          { fetchIdle with mmu := ⟨true, false⟩ }, { fetchIdle with mmu := ⟨true, false⟩ }, fetchIdle,
          { fetchIdle with mmu := ⟨false, true⟩ }] ∧
      (MemoryEpoch.machine smallParams).Along MemoryEpoch.Safe (.reset ⟨fun _ => memoryLoad, memoryLoad, ⟨0, 0⟩⟩)
        [{ memoryIdle with req := some memoryLoad }, memoryIdle,
          { memoryIdle with tlbResp := some ⟨0x1000, true, false, ()⟩ }, memoryIdle,
          { memoryIdle with cacheResp := some ⟨0, true, false, false⟩ }, { memoryIdle with mmu := ⟨true, false⟩ },
          { memoryIdle with mmu := ⟨true, false⟩ }, memoryIdle, { memoryIdle with mmu := ⟨false, true⟩ }] := by
  refine flush_permission_safe _ _ ?_ ?_
  · decide +kernel
  · decide +kernel

/-- The permission is asked for in the cycle a translation is requested. The translation arrives in the
cycle of the grant, and its cache request is made while the page manager has the permission. -/
theorem flush_permission_disturbed :
    ¬ (FetchEpoch.machine smallParams).Along FetchEpoch.Safe (.reset ⟨0, 0⟩)
      [fetchStart, { fetchIdle with mmu := ⟨true, false⟩ }, { fetchHit with mmu := ⟨true, false⟩ }, fetchIdle] := by
  decide +kernel

end Runs

end KnockoutKraken.Armflex
