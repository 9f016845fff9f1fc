import KnockoutKraken.Armflex.Pipeline

/-!
# Where the threads are

Every instruction under way carries the tag of its thread. For each unit
the number of its places with a given thread, and the balance of one cycle:
what is there afterwards and what left is what was there and what came in.
-/

namespace KnockoutKraken.Armflex

open Library Util

universe u v

namespace FetchUnitPC

variable {thidW : Nat} (u : FetchUnitPC thidW) (t : BitVec thidW)

def enabledCount : Nat := (u.en.getLsbD t.toNat).toNat

variable {u} {t}

theorem en_of_fired {reqReady : Bool} (h : u.fired reqReady = some t) : u.en.getLsbD t.toNat = true := by
  simp only [fired, Option.ite_none_right_eq_some, Bool.and_eq_true, Option.some.injEq] at h
  obtain ⟨⟨hValid, -⟩, rfl⟩ := h
  exact RoundRobinArbiter.getLsbD_thread _ _ hValid

theorem getLsbD_bitOf_tag (tag : Option (BitVec thidW)) : (bitOf (2 ^ thidW) tag).getLsbD t.toNat = decide (tag = some t) := by
  rw [getLsbD_bitOf, decide_eq_true t.isLt, Bool.true_and]

theorem enabledCount_next {ctrl : Ctrl thidW} {reqReady : Bool}
    (hOne : u.enabledCount t + held Prod.fst t ctrl.start + held Prod.fst t ctrl.commit +
      held id t (ctrl.memWake 0) + held id t (ctrl.memWake 1) ≤ 1) :
    (u.next ctrl reqReady).enabledCount t + held id t (u.fired reqReady) = u.enabledCount t +
      held Prod.fst t ctrl.start + held Prod.fst t ctrl.commit + held id t (ctrl.memWake 0) +
      held id t (ctrl.memWake 1) := by
  have hStart : held Prod.fst t ctrl.start = held id t (ctrl.start.map Prod.fst) := (held_map id t _ _).symm
  have hCommit : held Prod.fst t ctrl.commit = held id t (ctrl.commit.map Prod.fst) := (held_map id t _ _).symm
  have hEn : (u.next ctrl reqReady).en.getLsbD t.toNat = (u.en.getLsbD t.toNat && !decide (u.fired reqReady = some t) ||
      (decide (ctrl.start.map Prod.fst = some t) || decide (ctrl.commit.map Prod.fst = some t) ||
        decide (ctrl.memWake 0 = some t) || decide (ctrl.memWake 1 = some t))) := by
    simp only [next, enabled, BitVec.getLsbD_or, BitVec.getLsbD_and, BitVec.getLsbD_not, getLsbD_bitOf_tag,
      decide_eq_true t.isLt, Bool.true_and]
  rw [hStart, hCommit, held_id_eq, held_id_eq, held_id_eq, held_id_eq] at hOne ⊢
  rw [held_id_eq, enabledCount, hEn]
  rw [enabledCount] at hOne ⊢
  by_cases hFired : u.fired reqReady = some t
  · rw [en_of_fired hFired] at hOne ⊢
    revert hOne
    cases decide (ctrl.start.map Prod.fst = some t) <;> cases decide (ctrl.commit.map Prod.fst = some t) <;>
      cases decide (ctrl.memWake 0 = some t) <;> cases decide (ctrl.memWake 1 = some t) <;> simp [hFired]
  · revert hOne
    cases u.en.getLsbD t.toNat <;> cases decide (ctrl.start.map Prod.fst = some t) <;>
      cases decide (ctrl.commit.map Prod.fst = some t) <;> cases decide (ctrl.memWake 0 = some t) <;>
      cases decide (ctrl.memWake 1 = some t) <;> simp [hFired]

end FetchUnitPC

namespace FetchUnit

variable {params : PipelineParams} {Λ : Type u} (u : FetchUnit params Λ) (i : Input params Λ) (t : params.Thid)

/-- The instructions of the thread from the translated address to the instruction queue. -/
def inFlight : Nat :=
  tokens (fun q : FetchPending params Λ => q.inst.bits.id) t u.cacheReqQ +
    (tokens (fun m : Labelled Λ (FetchMeta params) => m.bits.id) t u.cacheAdaptor.baseQ +
      tokens (fun m : Labelled Λ (FetchMeta params) => m.bits.id) t u.cacheAdaptor.longQ) +
    tokens (fun inst : Labelled Λ (FetchedInst params) => inst.bits.tag) t u.instQueue

structure Room : Prop where
  translated : ∀ resp ∈ i.tlbResp, resp.hit = true → cacheReqQueue.enqReady u.cacheReqQ (u.cacheReqDeqReady i) = true
  answered : i.cacheResp.isSome = true → u.respReady i = true
  long : ∀ r ∈ i.cacheResp, r.miss = true → u.cacheAdaptor.longQ.length < instQueueEntries

instance : Decidable (u.Room i) :=
  decidable_of_iff ((∀ resp ∈ i.tlbResp, resp.hit = true →
      cacheReqQueue.enqReady u.cacheReqQ (u.cacheReqDeqReady i) = true) ∧
    (i.cacheResp.isSome = true → u.respReady i = true) ∧
    ∀ r ∈ i.cacheResp, r.miss = true → u.cacheAdaptor.longQ.length < instQueueEntries)
    ⟨fun ⟨hT, hA, hL⟩ => ⟨hT, hA, hL⟩, fun h => ⟨h.translated, h.answered, h.long⟩⟩

variable {u} {i}

theorem inFlight_next (hRoom : u.Room i) (hLegal : ∀ r ∈ i.cacheResp, r.Legal) :
    (u.next i).inFlight t +
        held (fun inst : Labelled Λ (FetchedInst params) => inst.bits.tag) t (if i.instReady then u.instQueue.head? else none) =
      u.inFlight t + held (fun q : FetchPending params Λ => q.inst.bits.id) t (u.cacheReqEnq i) := by
  have hFired : (if u.cacheReqDeqReady i then u.cacheReqQ.head? else none) = u.cacheReqFired i := by
    rw [cacheReqFired_eq, cacheReqDeqReady_eq]
  have hReq := cacheReqQueue.tokens_next u.cacheReqQ (u.cacheReqEnq i) (u.cacheReqDeqReady i)
    (fun q : FetchPending params Λ => q.inst.bits.id) t rfl (fun hSome => by
      obtain ⟨q, hq⟩ := Option.isSome_iff_exists.mp hSome
      obtain ⟨resp, hResp, -⟩ := Option.map_eq_some_iff.mp hq
      exact hRoom.translated resp (Option.filter_eq_some_iff.mp hResp).1 (Option.filter_eq_some_iff.mp hResp).2)
  have hAdaptor := CacheInterface.tokens_next instQueueEntries u.cacheAdaptor i.cacheResp (u.respReady i)
    ((u.cacheReqFired i).map FetchPending.inst) (fun m : Labelled Λ (FetchMeta params) => m.bits.id) t (fun hSome => by
      by_contra hFull
      simp [cacheReqFired_eq, portReady, CacheInterface.reqReady, hFull] at hSome) hLegal hRoom.answered hRoom.long
  have hInst := instructionQueue.tokens_next u.instQueue (u.instEnq i) i.instReady
    (fun inst : Labelled Λ (FetchedInst params) => inst.bits.tag) t rfl (fun hSome => by
      refine hRoom.answered ?_
      cases hResp : i.cacheResp with
      | none => simp [instEnq, CacheInterface.pipeResp, hResp] at hSome
      | some r => rfl)
  have hEnq : held (fun inst : Labelled Λ (FetchedInst params) => inst.bits.tag) t (u.instEnq i) =
      held (fun r : Labelled Λ (FetchMeta params) × params.Block => r.1.bits.id) t
        (CacheInterface.pipeResp u.cacheAdaptor i.cacheResp (u.respReady i)) := held_map _ t _ _
  rw [hFired] at hReq
  rw [held_map] at hAdaptor
  rw [hEnq] at hInst
  simp only [inFlight, next]
  omega

end FetchUnit

namespace MemoryUnit

open STLBState

variable {params : PipelineParams} {Λ : Type u} (u : MemoryUnit params Λ) (i : Input params Λ) (t : params.Thid)

def pendingTag (m : MemPending params Λ) : params.Thid := m.inst.tag

/-- The instructions of the thread whose access is at the cache. -/
def accessing : Nat := tokens pendingTag t u.cacheAdaptor.baseQ + tokens pendingTag t u.cacheAdaptor.longQ

/-- The instructions of the thread from the request queue to the queue of those that are done. -/
def inFlight : Nat :=
  tokens MInst.tag t u.tlbReqQ.items + tokens pendingTag t u.cacheReqQ + tokens pendingTag t u.cacheReqMisalignedQ +
    u.accessing t + tokens CommitInst.tag t u.doneInst

structure Room : Prop where
  translated : ∀ resp ∈ i.tlbResp, resp.hit = true → cacheReqQueue.enqReady u.cacheReqQ (u.cacheReqDeqReady i) = true
  long : ∀ r ∈ i.cacheResp, r.miss = true → u.cacheAdaptor.longQ.length < cacheInstsFlightEntries
  misaligned : (u.misalignedEnq i).isSome = true →
    cacheReqMisalignedQueue.enqReady u.cacheReqMisalignedQ (u.misalignedDeqReady i) = true
  done : (u.doneEnq i).isSome = true → doneInstQueue.enqReady u.doneInst i.respReady = true

instance : Decidable (u.Room i) :=
  decidable_of_iff ((∀ resp ∈ i.tlbResp, resp.hit = true →
      cacheReqQueue.enqReady u.cacheReqQ (u.cacheReqDeqReady i) = true) ∧
    (∀ r ∈ i.cacheResp, r.miss = true → u.cacheAdaptor.longQ.length < cacheInstsFlightEntries) ∧
    ((u.misalignedEnq i).isSome = true →
      cacheReqMisalignedQueue.enqReady u.cacheReqMisalignedQ (u.misalignedDeqReady i) = true) ∧
    ((u.doneEnq i).isSome = true → doneInstQueue.enqReady u.doneInst i.respReady = true))
    ⟨fun ⟨hT, hL, hM, hD⟩ => ⟨hT, hL, hM, hD⟩, fun h => ⟨h.translated, h.long, h.misaligned, h.done⟩⟩

variable {u} {i}

theorem held_cacheReqFired {τ : Type v} [DecidableEq τ] (token : MemPending params Λ → τ) (t : τ) :
    held token t (if u.cacheReqDeqReady i then u.cacheReqQ.head? else none) +
      held token t (if u.misalignedDeqReady i then u.cacheReqMisalignedQ.head? else none) =
        held token t (u.cacheReqFired i) := by
  rw [cacheReqFired_eq, cacheReqDeqReady, misalignedDeqReady, misalignedSelected_eq, cacheReqCredit_eq, pipeMeta]
  cases u.portReady i <;> cases u.cacheReqMisalignedQ <;> simp

theorem held_cachePipeResp : held pendingTag t (u.misalignedEnq i) + held CommitInst.tag t (u.doneEnq i) =
    held (fun r : MemPending params Λ × params.Block => pendingTag r.1) t (u.cachePipeResp i) := by
  rw [misalignedEnq, doneEnq, held_map, held_map]
  exact held_filter _ t (fun r => r.1.needsSecondAccess) (u.cachePipeResp i)

theorem accessing_next (hRoom : u.Room i) (hLegal : ∀ r ∈ i.cacheResp, r.Legal) :
    (u.next i).accessing t + held (fun r : MemPending params Λ × params.Block => pendingTag r.1) t (u.cachePipeResp i) =
      u.accessing t + held pendingTag t (u.cacheReqFired i) :=
  CacheInterface.tokens_next cacheInstsFlightEntries u.cacheAdaptor i.cacheResp true (u.cacheReqFired i) pendingTag t
    (fun hSome => by
      by_contra hFull
      simp [cacheReqFired_eq, portReady, CacheInterface.reqReady, hFull] at hSome) hLegal (fun _ => rfl) hRoom.long

theorem inFlight_next (hRoom : u.Room i) (hLegal : ∀ r ∈ i.cacheResp, r.Legal) :
    (u.next i).inFlight t + held MInst.tag t (if u.tlbReqDeqFire i then some u.head else none) +
        held CommitInst.tag t (if i.respReady then u.doneInst.head? else none) =
      u.inFlight t + held MInst.tag t (if u.tlbReqQ.enqReady true (u.tlbReqDeqReady i) then i.req else none) +
        held pendingTag t (u.cacheReqEnq i) := by
  have hTlb := u.tlbReqQ.tokens_next true i.req (u.tlbReqDeqReady i) MInst.tag t
  have hReq := cacheReqQueue.tokens_next u.cacheReqQ (u.cacheReqEnq i) (u.cacheReqDeqReady i) pendingTag t rfl
    (fun hSome => by
      obtain ⟨m, hm⟩ := Option.isSome_iff_exists.mp hSome
      obtain ⟨resp, hResp, -⟩ := Option.map_eq_some_iff.mp hm
      obtain ⟨hFire, hKept⟩ := Option.filter_eq_some_iff.mp hResp
      have hHit : resp.hit = true := by
        simp only [ditched, Bool.not_or, Bool.not_not, Bool.and_eq_true] at hKept
        exact hKept.1
      exact hRoom.translated resp (Option.filter_eq_some_iff.mp hFire).1 hHit)
  have hMisaligned := cacheReqMisalignedQueue.tokens_next u.cacheReqMisalignedQ (u.misalignedEnq i)
    (u.misalignedDeqReady i) pendingTag t rfl hRoom.misaligned
  have hAdaptor := accessing_next t hRoom hLegal
  have hDone := doneInstQueue.tokens_next u.doneInst (u.doneEnq i) i.respReady CommitInst.tag t rfl hRoom.done
  have hFired := held_cacheReqFired (u := u) (i := i) pendingTag t
  have hResp := held_cachePipeResp (u := u) (i := i) t
  simp only [inFlight, accessing, next] at hAdaptor ⊢
  rw [tlbReqDeqFire, head]
  omega

end MemoryUnit

end KnockoutKraken.Armflex
