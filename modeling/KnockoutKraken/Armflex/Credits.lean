import KnockoutKraken.Armflex.TokenFlow

/-!
# Credits

A producer is to send only while its receiver has room for what it sent
before. The number of outstanding transactions is counted beside each
credit counter, without the wrap of the counter and by the queue that the
answer goes to. The counters never hold a producer back; a unit whose
sends have a credit by that number offers no queue an item while it is
full.
-/

namespace KnockoutKraken.Util

open Library

def CreditTrans.outstandingNext (trans : CreditTrans) (n : Int) : Int :=
  n + trans.inn.toNat - trans.out.toNat - trans.dropped.toNat

/-- What is sent has a place, perhaps one that is given back in the same cycle. -/
def CreditTrans.HasCredit (trans : CreditTrans) (size : Nat) (n : Int) : Prop :=
  trans.inn = true → trans.outstandingNext n ≤ size

instance (trans : CreditTrans) (size : Nat) (n : Int) : Decidable (trans.HasCredit size n) :=
  inferInstanceAs (Decidable (_ → _))

theorem CreditTrans.HasCredit.outstandingNext_le {trans : CreditTrans} {size : Nat} {n : Int}
    (h : trans.HasCredit size n) (hLe : n ≤ size) : trans.outstandingNext n ≤ size := by
  cases hIn : trans.inn with
  | true => exact h hIn
  | false =>
    simp only [outstandingNext, hIn, Bool.toNat_false]
    omega

namespace CreditQueueController

structure Counted (size : Nat) where
  credits : CreditQueueController size
  outstanding : Int

variable {size : Nat}

/-- The counter and, beside it, what is really outstanding. -/
def counted (size : Nat) : Machine (Counted size) CreditTrans Bool where
  next s trans := ⟨s.credits.next trans, trans.outstandingNext s.outstanding⟩
  output s _ := s.credits.ready

def SentWhenReady (s : Counted size) (trans : CreditTrans) : Prop := trans.inn = true → s.credits.ready = true

instance (s : Counted size) (trans : CreditTrans) : Decidable (SentWhenReady s trans) := inferInstanceAs (Decidable (_ → _))

/-- A counter without bits never lets anything pass. -/
theorem ready_one (c : CreditQueueController 1) : c.ready = false := by
  have hBits : c.cnt = 0 := BitVec.eq_of_toNat_eq (by have := c.cnt.isLt; simp at this ⊢; omega)
  rw [ready, hBits]
  rfl

theorem outstanding_replicate (s : Counted size) (k : Nat) :
    ((counted size).run s (List.replicate k ⟨true, false, false⟩)).outstanding = s.outstanding + k := by
  induction k generalizing s with
  | zero => simp
  | succ k ih =>
    rw [List.replicate_succ, Machine.run_cons, ih]
    simp only [counted, CreditTrans.outstandingNext, Bool.toNat_true, Bool.toNat_false]
    omega

theorem along_sentWhenReady (h : 2 ≤ size) (s : Counted size) (ts : List CreditTrans) :
    (counted size).Along SentWhenReady s ts := by
  induction ts generalizing s with
  | nil => trivial
  | cons trans ts ih => exact ⟨fun _ => ready_eq_true _ h, ih _⟩

/-- The counter bounds what is outstanding for no receiver but one of a single place. -/
theorem outstanding_le_iff (h : 1 ≤ size) :
    (∀ ts, (counted size).Along SentWhenReady ⟨.reset size, 0⟩ ts →
      ((counted size).run ⟨.reset size, 0⟩ ts).outstanding ≤ size) ↔ size = 1 := by
  constructor
  · intro hBound
    by_contra hMore
    have hLe := hBound (List.replicate (size + 1) ⟨true, false, false⟩) (along_sentWhenReady (by omega) _ _)
    rw [outstanding_replicate] at hLe
    push_cast at hLe
    omega
  · rintro rfl ts hRule
    refine @Machine.Along.invariant _ _ _ _ _ (fun s => s.outstanding ≤ 1) _ _ hRule (by decide) fun s trans hLe hSent => ?_
    have hNot : trans.inn = false := by
      cases hIn : trans.inn with
      | false => rfl
      | true =>
        have hReady := hSent hIn
        rw [ready_one] at hReady
        cases hReady
    simp only [counted, CreditTrans.outstandingNext, hNot, Bool.toNat_false]
    omega

end CreditQueueController

end KnockoutKraken.Util

namespace KnockoutKraken.Armflex

open Library Util

universe u

structure CreditedFetch (params : PipelineParams) (Λ : Type u) where
  unit : FetchUnit params Λ
  translating : Nat
  pc2cache : Int
  cache2insts : Int

namespace CreditedFetch

open FetchUnit

variable {params : PipelineParams} {Λ : Type u} (s : CreditedFetch params Λ) (i : FetchUnit.Input params Λ)

def next : CreditedFetch params Λ where
  unit := s.unit.next i
  translating := s.translating - i.tlbResp.isSome.toNat + (s.unit.tlbReqFire i).toNat
  pc2cache := (s.unit.pc2cacheTrans i).outstandingNext s.pc2cache
  cache2insts := (s.unit.cache2instsTrans i).outstandingNext s.cache2insts

def machine (params : PipelineParams) (Λ : Type u) :
    Machine (CreditedFetch params Λ) (FetchUnit.Input params Λ) (FetchUnit.Output params Λ) :=
  ⟨next, fun s i => (FetchUnit.machine params Λ).output s.unit i⟩

def reset (metaDataTLB : FetchMeta params) : CreditedFetch params Λ := ⟨.reset metaDataTLB, 0, 0, 0⟩

structure Asked : Prop where
  translation : i.tlbResp.isSome = true → 0 < s.translating
  legal : ∀ r ∈ i.cacheResp, r.Legal
  first : ∀ r ∈ i.cacheResp, r.miss2hit = false → s.unit.cacheAdaptor.baseQ ≠ []
  refill : ∀ r ∈ i.cacheResp, r.miss2hit = true → s.unit.cacheAdaptor.longQ ≠ []

structure HasCredits : Prop where
  pc2cache : (s.unit.pc2cacheTrans i).HasCredit 3 s.pc2cache
  cache2insts : (s.unit.cache2instsTrans i).HasCredit 8 s.cache2insts

structure EnqReady : Prop where
  cacheReqQ : i.tlbResp.any PipeTLBResp.hit = true →
    cacheReqQueue.enqReady s.unit.cacheReqQ (s.unit.cacheReqDeqReady i) = true
  instQueue : i.cacheResp.isSome = true → s.unit.respReady i = true

instance : Decidable (s.Asked i) :=
  decidable_of_iff ((i.tlbResp.isSome = true → 0 < s.translating) ∧ (∀ r ∈ i.cacheResp, r.Legal) ∧
    (∀ r ∈ i.cacheResp, r.miss2hit = false → s.unit.cacheAdaptor.baseQ ≠ []) ∧
    ∀ r ∈ i.cacheResp, r.miss2hit = true → s.unit.cacheAdaptor.longQ ≠ [])
    ⟨fun ⟨hT, hL, hF, hR⟩ => ⟨hT, hL, hF, hR⟩, fun h => ⟨h.translation, h.legal, h.first, h.refill⟩⟩

instance : Decidable (s.HasCredits i) := decidable_of_iff (_ ∧ _) ⟨fun ⟨hP, hC⟩ => ⟨hP, hC⟩, fun h => ⟨h.pc2cache, h.cache2insts⟩⟩

instance : Decidable (s.EnqReady i) := decidable_of_iff (_ ∧ _) ⟨fun ⟨hC, hI⟩ => ⟨hC, hI⟩, fun h => ⟨h.cacheReqQ, h.instQueue⟩⟩

structure Inv : Prop where
  pc2cache : s.pc2cache = s.translating + s.unit.cacheReqQ.length
  cache2insts : s.cache2insts = s.unit.cacheAdaptor.count + s.unit.instQueue.length
  pc2cache_le : s.pc2cache ≤ 3
  cache2insts_le : s.cache2insts ≤ 8

variable {s} {i}

theorem Inv.enqReady (hInv : s.Inv) (h : s.Asked i) : s.EnqReady i where
  cacheReqQ hHit := by
    have hPos : 0 < s.translating := by
      refine h.translation ?_
      cases hResp : i.tlbResp with
      | none => simp [hResp] at hHit
      | some _ => rfl
    have hRoom : s.unit.cacheReqQ.length < 3 := by
      have hEq := hInv.pc2cache
      have hLe := hInv.pc2cache_le
      omega
    rw [FlushQueue.enqReady, cacheReqQueue, decide_eq_true hRoom, Bool.true_or]
  instQueue hResp := by
    obtain ⟨r, hr⟩ := Option.isSome_iff_exists.mp hResp
    have hPos : 0 < s.unit.cacheAdaptor.count := by
      cases hRefill : r.miss2hit with
      | false => exact Nat.add_pos_left (List.length_pos_of_ne_nil (h.first r hr hRefill)) _
      | true => exact Nat.add_pos_right _ (List.length_pos_of_ne_nil (h.refill r hr hRefill))
    have hRoom : s.unit.instQueue.length < 8 := by
      have hEq := hInv.cache2insts
      have hLe := hInv.cache2insts_le
      omega
    rw [FetchUnit.respReady, FlushQueue.enqReady, instructionQueue, instQueueEntries, decide_eq_true hRoom, Bool.true_or]

theorem Inv.room (hInv : s.Inv) (h : s.Asked i) : s.unit.Room i where
  translated resp hResp hHit := (hInv.enqReady h).cacheReqQ (by rw [hResp]; exact hHit)
  answered := (hInv.enqReady h).instQueue
  long r hr hMiss := by
    obtain ⟨hNotHit, hRefill⟩ := h.legal r hr
    have hFirst : r.miss2hit = false := by
      cases hm : r.miss2hit with
      | false => rfl
      | true => simp [hRefill hm, hMiss] at hNotHit
    have hPos := List.length_pos_of_ne_nil (h.first r hr hFirst)
    have hEq := hInv.cache2insts
    have hLe := hInv.cache2insts_le
    rw [DoubleLatencyQueue.count] at hEq
    rw [instQueueEntries]
    omega

theorem Inv.pc2cache_next (hInv : s.Inv) (h : s.Asked i) :
    (s.next i).pc2cache = (s.next i).translating + (s.next i).unit.cacheReqQ.length := by
  have hEnq : (s.unit.cacheReqEnq i).isSome = i.tlbResp.any PipeTLBResp.hit := by
    rw [cacheReqEnq, Option.isSome_map]
    cases i.tlbResp with
    | none => rfl
    | some resp => cases hHit : resp.hit <;> simp [Option.filter, hHit]
  have hQueue := cacheReqQueue.length_next s.unit.cacheReqQ (s.unit.cacheReqEnq i) (s.unit.cacheReqDeqReady i) rfl
    fun hSome => (hInv.enqReady h).cacheReqQ (hEnq ▸ hSome)
  have hAnswer : i.tlbResp.isSome.toNat = (i.tlbResp.any PipeTLBResp.hit).toNat + (i.tlbResp.any fun resp => !resp.hit).toNat := by
    cases i.tlbResp with
    | none => rfl
    | some resp => cases hHit : resp.hit <;> simp [hHit]
  have hSent : (s.unit.pcUnit.fired (s.unit.pcReqReady i)).isSome = s.unit.tlbReqFire i := by
    rw [fired_eq, tlbReq]
    cases s.unit.tlbReqFire i <;> rfl
  have hAsked : i.tlbResp.isSome.toNat ≤ s.translating := by
    cases hSome : i.tlbResp.isSome with
    | false => exact Nat.zero_le _
    | true => exact h.translation hSome
  have hEq := hInv.pc2cache
  simp only [CreditedFetch.next, FetchUnit.next, CreditTrans.outstandingNext, pc2cacheTrans, hSent]
  rw [hEnq] at hQueue
  omega

theorem Inv.cache2insts_next (hInv : s.Inv) (h : s.Asked i) :
    (s.next i).cache2insts = (s.next i).unit.cacheAdaptor.count + (s.next i).unit.instQueue.length := by
  have hRoom := hInv.room h
  have hInst := instructionQueue.length_next s.unit.instQueue (s.unit.instEnq i) i.instReady rfl fun hSome => by
    refine hRoom.answered ?_
    cases hResp : i.cacheResp with
    | none => simp [instEnq, CacheInterface.pipeResp, hResp] at hSome
    | some r => rfl
  have hAdaptor := CacheInterface.tokens_next instQueueEntries s.unit.cacheAdaptor i.cacheResp (s.unit.respReady i)
    ((s.unit.cacheReqFired i).map FetchPending.inst) (fun _ => ()) () (fun hSome => by
      by_contra hFull
      simp [cacheReqFired_eq, portReady, CacheInterface.reqReady, hFull] at hSome) h.legal hRoom.answered hRoom.long
  have hFired : (s.unit.cacheReqFired i).isSome = FlushQueue.doDeq s.unit.cacheReqQ (s.unit.cacheReqDeqReady i) := by
    rw [cacheReqFired_eq, cacheReqDeqReady_eq, FlushQueue.doDeq]
    cases s.unit.portReady i <;> cases s.unit.cacheReqQ <;> rfl
  have hEq := hInv.cache2insts
  rw [tokens_unit, tokens_unit, tokens_unit, tokens_unit, held_unit, held_unit, Option.isSome_map, hFired] at hAdaptor
  rw [instEnq, Option.isSome_map] at hInst
  simp only [CreditedFetch.next, FetchUnit.next, CreditTrans.outstandingNext, cache2instsTrans, DoubleLatencyQueue.count,
    Bool.toNat_false] at hEq ⊢
  rw [instEnq]
  omega

theorem Inv.next (hInv : s.Inv) (h : s.Asked i) (hCredits : s.HasCredits i) : (s.next i).Inv :=
  ⟨hInv.pc2cache_next h, hInv.cache2insts_next h, hCredits.pc2cache.outstandingNext_le hInv.pc2cache_le,
    hCredits.cache2insts.outstandingNext_le hInv.cache2insts_le⟩

theorem inv_reset (metaDataTLB : FetchMeta params) : (reset metaDataTLB : CreditedFetch params Λ).Inv :=
  ⟨rfl, rfl, (by decide : (0 : Int) ≤ 3), (by decide : (0 : Int) ≤ 8)⟩

end CreditedFetch

structure CreditedMemory (params : PipelineParams) (Λ : Type u) where
  unit : MemoryUnit params Λ
  translating : Nat
  tlb2cache : Int
  cache2cacheMisaligned : Int
  cache2doneInst : Int

namespace CreditedMemory

open MemoryUnit STLBState

variable {params : PipelineParams} {Λ : Type u} (s : CreditedMemory params Λ) (i : MemoryUnit.Input params Λ)

/-- The oldest request of the first queue is a pair that is done in two accesses. -/
def headNeedsSecond : Bool := s.unit.cacheReqQ.head?.any MemPending.needsSecondAccess

/-- What is sent to the cache and comes back to the queue of second accesses. The unit counts
every request with `blockMisaligned` set here, also of instructions that are no pairs. -/
def misalignedTrans : CreditTrans where
  inn := s.unit.cacheReqDeqFire i && s.headNeedsSecond
  dropped := false
  out := s.unit.misalignedDeqFire i

/-- What is sent to the cache and comes back to the queue of done instructions. -/
def doneInstTrans : CreditTrans where
  inn := if s.unit.cacheReqDeqFire i then !s.headNeedsSecond else s.unit.misalignedDeqFire i
  dropped := false
  out := FlushQueue.doDeq s.unit.doneInst i.respReady

def next : CreditedMemory params Λ where
  unit := s.unit.next i
  translating := s.translating - (s.unit.tlbRespFire i).isSome.toNat + (s.unit.tlbReqFire i).toNat
  tlb2cache := (s.unit.tlb2cacheTrans i).outstandingNext s.tlb2cache
  cache2cacheMisaligned := (s.misalignedTrans i).outstandingNext s.cache2cacheMisaligned
  cache2doneInst := (s.doneInstTrans i).outstandingNext s.cache2doneInst

def machine (params : PipelineParams) (Λ : Type u) :
    Machine (CreditedMemory params Λ) (MemoryUnit.Input params Λ) (MemoryUnit.Output params Λ) :=
  ⟨next, fun s i => (MemoryUnit.machine params Λ).output s.unit i⟩

def reset (c : MemoryUnit.Contents params Λ) : CreditedMemory params Λ := ⟨.reset c, 0, 0, 0, 0⟩

structure Asked : Prop where
  translation : i.tlbResp.isSome = true → 0 < s.translating
  legal : ∀ r ∈ i.cacheResp, r.Legal
  first : ∀ r ∈ i.cacheResp, r.miss2hit = false → s.unit.cacheAdaptor.baseQ ≠ []
  refill : ∀ r ∈ i.cacheResp, r.miss2hit = true → s.unit.cacheAdaptor.longQ ≠ []

/-- What is sent has a place in the queue it goes to. -/
structure HasCredits : Prop where
  tlb2cache : (s.unit.tlb2cacheTrans i).HasCredit 3 s.tlb2cache
  cache2cacheMisaligned : (s.misalignedTrans i).HasCredit 3 s.cache2cacheMisaligned
  cache2doneInst : (s.doneInstTrans i).HasCredit 4 s.cache2doneInst

structure EnqReady : Prop where
  cacheReqQ : i.tlbResp.isSome = true → s.unit.sTLBState ≠ intermediateResp →
    cacheReqQueue.enqReady s.unit.cacheReqQ (s.unit.cacheReqDeqReady i) = true
  misaligned : (s.unit.misalignedEnq i).isSome = true →
    cacheReqMisalignedQueue.enqReady s.unit.cacheReqMisalignedQ (s.unit.misalignedDeqReady i) = true
  doneInst : (s.unit.doneEnq i).isSome = true → doneInstQueue.enqReady s.unit.doneInst i.respReady = true

instance : Decidable (s.Asked i) :=
  decidable_of_iff ((i.tlbResp.isSome = true → 0 < s.translating) ∧ (∀ r ∈ i.cacheResp, r.Legal) ∧
    (∀ r ∈ i.cacheResp, r.miss2hit = false → s.unit.cacheAdaptor.baseQ ≠ []) ∧
    ∀ r ∈ i.cacheResp, r.miss2hit = true → s.unit.cacheAdaptor.longQ ≠ [])
    ⟨fun ⟨hT, hL, hF, hR⟩ => ⟨hT, hL, hF, hR⟩, fun h => ⟨h.translation, h.legal, h.first, h.refill⟩⟩

instance : Decidable (s.HasCredits i) :=
  decidable_of_iff ((s.unit.tlb2cacheTrans i).HasCredit 3 s.tlb2cache ∧
    (s.misalignedTrans i).HasCredit 3 s.cache2cacheMisaligned ∧ (s.doneInstTrans i).HasCredit 4 s.cache2doneInst)
    ⟨fun ⟨hT, hM, hD⟩ => ⟨hT, hM, hD⟩, fun h => ⟨h.tlb2cache, h.cache2cacheMisaligned, h.cache2doneInst⟩⟩

/-- The requests at the cache whose answer is, or is not, to be the first half of a pair. -/
def atCache (second : Bool) : Nat :=
  tokens MemPending.needsSecondAccess second s.unit.cacheAdaptor.baseQ +
    tokens MemPending.needsSecondAccess second s.unit.cacheAdaptor.longQ

structure Inv : Prop where
  state : s.unit.sTLBState ≠ pairReq
  tlb2cache : s.unit.sTLBState = req → s.tlb2cache = s.translating + s.unit.cacheReqQ.length
  cache2cacheMisaligned : s.cache2cacheMisaligned = s.atCache true + s.unit.cacheReqMisalignedQ.length
  cache2doneInst : s.cache2doneInst = s.atCache false + s.unit.doneInst.length
  tlb2cache_le : s.tlb2cache ≤ 3
  cache2cacheMisaligned_le : s.cache2cacheMisaligned ≤ 3
  cache2doneInst_le : s.cache2doneInst ≤ 4
  /-- The second access of a pair is marked by the queue it waits in. -/
  second : ∀ m ∈ s.unit.cacheReqMisalignedQ, m.needsSecondAccess = false

variable {s} {i}

theorem atCache_split : s.atCache true + s.atCache false = s.unit.cacheAdaptor.count := by
  have hSplit : ∀ items : List (MemPending params Λ), tokens MemPending.needsSecondAccess true items +
      tokens MemPending.needsSecondAccess false items = items.length := by
    intro items
    induction items with
    | nil => rfl
    | cons m items ih =>
      rw [tokens_cons, tokens_cons, List.length_cons]
      cases m.needsSecondAccess <;> simp <;> omega
  have hBase := hSplit s.unit.cacheAdaptor.baseQ
  have hLong := hSplit s.unit.cacheAdaptor.longQ
  simp only [atCache, DoubleLatencyQueue.count]
  omega

theorem atCache_pos {r : MemPending params Λ × params.Block} (hResp : s.unit.cachePipeResp i = some r) :
    0 < s.atCache r.1.needsSecondAccess := by
  rcases CacheInterface.mem_of_pipeResp hResp with hMem | hMem
  · exact Nat.add_pos_left ((tokens_pos_iff _ _).mpr ⟨r.1, hMem, rfl⟩) _
  · exact Nat.add_pos_right _ ((tokens_pos_iff _ _).mpr ⟨r.1, hMem, rfl⟩)

theorem Inv.enqReady (hInv : s.Inv) (h : s.Asked i) : s.EnqReady i where
  cacheReqQ hResp hState := by
    have hReq : s.unit.sTLBState = req := by
      cases hs : s.unit.sTLBState with
      | req => rfl
      | intermediateResp => exact absurd hs hState
      | pairReq => exact absurd hs hInv.state
    have hPos := h.translation hResp
    have hRoom : s.unit.cacheReqQ.length < 3 := by
      have hEq := hInv.tlb2cache hReq
      have hLe := hInv.tlb2cache_le
      omega
    rw [FlushQueue.enqReady, cacheReqQueue, decide_eq_true hRoom, Bool.true_or]
  misaligned hSome := by
    obtain ⟨m, hm⟩ := Option.isSome_iff_exists.mp hSome
    obtain ⟨r, hResp, -⟩ := Option.map_eq_some_iff.mp hm
    obtain ⟨hResp, hSecond⟩ := Option.filter_eq_some_iff.mp hResp
    have hPos := atCache_pos hResp
    rw [hSecond] at hPos
    have hRoom : s.unit.cacheReqMisalignedQ.length < 3 := by
      have hEq := hInv.cache2cacheMisaligned
      have hLe := hInv.cache2cacheMisaligned_le
      omega
    rw [FlushQueue.enqReady, cacheReqMisalignedQueue, decide_eq_true hRoom, Bool.true_or]
  doneInst hSome := by
    obtain ⟨inst, hInst⟩ := Option.isSome_iff_exists.mp hSome
    obtain ⟨r, hResp, -⟩ := Option.map_eq_some_iff.mp hInst
    obtain ⟨hResp, hSecond⟩ := Option.filter_eq_some_iff.mp hResp
    have hPos := atCache_pos hResp
    rw [(Bool.not_eq_true' _).mp hSecond] at hPos
    have hRoom : s.unit.doneInst.length < 4 := by
      have hEq := hInv.cache2doneInst
      have hLe := hInv.cache2doneInst_le
      omega
    rw [FlushQueue.enqReady, doneInstQueue, decide_eq_true hRoom, Bool.true_or]

theorem Inv.tlb2cache_next (hInv : s.Inv) (h : s.Asked i) (hNext : (s.next i).unit.sTLBState = req) :
    (s.next i).tlb2cache = (s.next i).translating + (s.next i).unit.cacheReqQ.length := by
  have hState : s.unit.sTLBState = req := by
    cases hs : s.unit.sTLBState with
    | req => rfl
    | intermediateResp =>
      change s.unit.sTLBStateNext i = req at hNext
      simp [sTLBStateNext, hs, tlbRespFire_intermediate hs] at hNext
    | pairReq => exact absurd hs hInv.state
  have hSent : s.unit.tlbReqFire i = s.unit.tlbReqDeqFire i := by
    rw [Bool.eq_iff_iff]
    constructor
    · intro hFire
      refine deqFire_of_tlbReqFire hState hFire ?_
      change s.unit.sTLBStateNext i = req at hNext
      simpa [sTLBStateNext, hState, hFire] using hNext
    · intro hDeq
      exact (not_isPairPageMisaligned_of_deqFire hState hDeq).1
  have hQueue := cacheReqQueue.length_next s.unit.cacheReqQ (s.unit.cacheReqEnq i) (s.unit.cacheReqDeqReady i) rfl
    fun hSome => (hInv.enqReady h).cacheReqQ (by
      cases hResp : i.tlbResp with
      | none => simp [cacheReqEnq, tlbRespFire, hResp] at hSome
      | some resp => rfl) (by simp [hState])
  have hAnswer : (s.unit.tlbRespFire i).isSome.toNat =
      (s.unit.cacheReqEnq i).isSome.toNat + ((s.unit.tlbRespFire i).any ditched).toNat := by
    rw [cacheReqEnq, Option.isSome_map]
    cases s.unit.tlbRespFire i with
    | none => rfl
    | some resp => cases hDitched : ditched resp <;> simp [Option.filter, hDitched]
  have hAsked : (s.unit.tlbRespFire i).isSome.toNat ≤ s.translating := by
    cases hFire : s.unit.tlbRespFire i with
    | none => exact Nat.zero_le _
    | some resp =>
      refine h.translation ?_
      rw [(Option.filter_eq_some_iff.mp hFire).1]
      rfl
  have hEq := hInv.tlb2cache hState
  simp only [CreditedMemory.next, MemoryUnit.next, CreditTrans.outstandingNext, tlb2cacheTrans, cacheReqDeqFire, hSent]
  omega

theorem Inv.held_fired (hInv : s.Inv) :
    held MemPending.needsSecondAccess true (s.unit.cacheReqFired i) = (s.misalignedTrans i).inn.toNat ∧
      held MemPending.needsSecondAccess false (s.unit.cacheReqFired i) = (s.doneInstTrans i).inn.toNat := by
  rw [← held_cacheReqFired, ← held_cacheReqFired]
  simp only [misalignedTrans, doneInstTrans, headNeedsSecond, cacheReqDeqFire, misalignedDeqFire, FlushQueue.doDeq,
    cacheReqDeqReady, misalignedDeqReady, misalignedSelected_eq, cacheReqCredit_eq]
  cases hSecond : s.unit.cacheReqMisalignedQ with
  | cons m' rest' =>
    have hLast : m'.needsSecondAccess = false := hInv.second m' (by rw [hSecond]; exact List.mem_cons_self)
    cases s.unit.portReady i <;> simp [held_some, hLast]
  | nil =>
    cases hFirst : s.unit.cacheReqQ with
    | nil => cases s.unit.portReady i <;> simp
    | cons m rest =>
      cases s.unit.portReady i <;> cases hNeeds : m.needsSecondAccess <;> simp [held_some, hNeeds]

theorem Inv.long_room (hInv : s.Inv) (h : s.Asked i) :
    ∀ r ∈ i.cacheResp, r.miss = true → s.unit.cacheAdaptor.longQ.length < cacheInstsFlightEntries := by
  intro r hr hMiss
  obtain ⟨hNotHit, hRefill⟩ := h.legal r hr
  have hFirst : r.miss2hit = false := by
    cases hm : r.miss2hit with
    | false => rfl
    | true => simp [hRefill hm, hMiss] at hNotHit
  have hPos := List.length_pos_of_ne_nil (h.first r hr hFirst)
  have hSplit := atCache_split (s := s)
  have hMisaligned := hInv.cache2cacheMisaligned
  have hDone := hInv.cache2doneInst
  have hMisalignedLe := hInv.cache2cacheMisaligned_le
  have hDoneLe := hInv.cache2doneInst_le
  rw [DoubleLatencyQueue.count] at hSplit
  change _ < 7
  omega

theorem Inv.atCache_next (hInv : s.Inv) (h : s.Asked i) (second : Bool) :
    (s.next i).atCache second + held (fun r : MemPending params Λ × params.Block => r.1.needsSecondAccess) second
        (s.unit.cachePipeResp i) = s.atCache second + held MemPending.needsSecondAccess second (s.unit.cacheReqFired i) :=
  CacheInterface.tokens_next cacheInstsFlightEntries s.unit.cacheAdaptor i.cacheResp true (s.unit.cacheReqFired i) _ second
    (fun hSome => by
      by_contra hFull
      simp [cacheReqFired_eq, portReady, CacheInterface.reqReady, hFull] at hSome) h.legal (fun _ => rfl) (hInv.long_room h)

theorem held_cachePipeResp_split :
    held (fun r : MemPending params Λ × params.Block => r.1.needsSecondAccess) true (s.unit.cachePipeResp i) =
        (s.unit.misalignedEnq i).isSome.toNat ∧
      held (fun r : MemPending params Λ × params.Block => r.1.needsSecondAccess) false (s.unit.cachePipeResp i) =
        (s.unit.doneEnq i).isSome.toNat := by
  rw [misalignedEnq, doneEnq, Option.isSome_map, Option.isSome_map]
  cases s.unit.cachePipeResp i with
  | none => exact ⟨rfl, rfl⟩
  | some r => cases hSecond : r.1.needsSecondAccess <;> simp [held_some, Option.filter, hSecond]

theorem Inv.next (hInv : s.Inv) (h : s.Asked i) (hCredits : s.HasCredits i) : (s.next i).Inv where
  state := sTLBStateNext_ne_pairReq hInv.state
  tlb2cache := hInv.tlb2cache_next h
  cache2cacheMisaligned := by
    have hQueue := cacheReqMisalignedQueue.length_next s.unit.cacheReqMisalignedQ (s.unit.misalignedEnq i)
      (s.unit.misalignedDeqReady i) rfl (hInv.enqReady h).misaligned
    have hCache := hInv.atCache_next h true
    rw [hInv.held_fired.1, held_cachePipeResp_split.1] at hCache
    have hEq := hInv.cache2cacheMisaligned
    simp only [CreditedMemory.next, MemoryUnit.next, CreditTrans.outstandingNext, misalignedTrans,
      misalignedDeqFire, Bool.toNat_false] at hCache ⊢
    omega
  cache2doneInst := by
    have hQueue := doneInstQueue.length_next s.unit.doneInst (s.unit.doneEnq i) i.respReady rfl (hInv.enqReady h).doneInst
    have hCache := hInv.atCache_next h false
    rw [hInv.held_fired.2, held_cachePipeResp_split.2] at hCache
    have hEq := hInv.cache2doneInst
    simp only [CreditedMemory.next, MemoryUnit.next, CreditTrans.outstandingNext, doneInstTrans,
      Bool.toNat_false] at hCache ⊢
    omega
  tlb2cache_le := hCredits.tlb2cache.outstandingNext_le hInv.tlb2cache_le
  cache2cacheMisaligned_le := hCredits.cache2cacheMisaligned.outstandingNext_le hInv.cache2cacheMisaligned_le
  cache2doneInst_le := hCredits.cache2doneInst.outstandingNext_le hInv.cache2doneInst_le
  second m hm := by
    rcases FlushQueue.mem_of_mem_next hm with hStay | hEnq
    · exact hInv.second m hStay
    · obtain ⟨r, -, rfl⟩ := Option.map_eq_some_iff.mp hEnq
      rw [MemPending.needsSecondAccess]
      exact Bool.and_false _

theorem inv_reset (c : MemoryUnit.Contents params Λ) : (reset c : CreditedMemory params Λ).Inv where
  state := by simp [reset, MemoryUnit.reset]
  tlb2cache _ := rfl
  cache2cacheMisaligned := rfl
  cache2doneInst := rfl
  tlb2cache_le := (by decide : (0 : Int) ≤ 3)
  cache2cacheMisaligned_le := (by decide : (0 : Int) ≤ 3)
  cache2doneInst_le := (by decide : (0 : Int) ≤ 4)
  second m hm := by cases hm

end CreditedMemory

section Runs

open CreditQueueController

variable (params : PipelineParams) (Λ : Type u)

theorem credits_prevent_overflow :
    (∀ size, 1 ≤ size → ((∀ ts, (counted size).Along SentWhenReady ⟨.reset size, 0⟩ ts →
      ((counted size).run ⟨.reset size, 0⟩ ts).outstanding ≤ size) ↔ size = 1)) ∧
    (∀ (metaDataTLB : FetchMeta params) (is : List (FetchUnit.Input params Λ)),
      (CreditedFetch.machine params Λ).Along (fun s i => s.Asked i ∧ s.HasCredits i) (.reset metaDataTLB) is →
      (CreditedFetch.machine params Λ).Along CreditedFetch.EnqReady (.reset metaDataTLB) is) ∧
    ∀ (c : MemoryUnit.Contents params Λ) (is : List (MemoryUnit.Input params Λ)),
      (CreditedMemory.machine params Λ).Along (fun s i => s.Asked i ∧ s.HasCredits i) (.reset c) is →
      (CreditedMemory.machine params Λ).Along CreditedMemory.EnqReady (.reset c) is := by
  refine ⟨fun size => outstanding_le_iff, fun metaDataTLB is hRule => ?_, fun c is hRule => ?_⟩
  · exact hRule.of_invariant (CreditedFetch.inv_reset metaDataTLB) (fun _ _ hInv h => hInv.next h.1 h.2)
      fun _ _ hInv h => hInv.enqReady h.1
  · exact hRule.of_invariant (CreditedMemory.inv_reset c) (fun _ _ hInv h => hInv.next h.1 h.2)
      fun _ _ hInv h => hInv.enqReady h.1

abbrev fourThreads : PipelineParams := ⟨2, 14, 2⟩

def idleFetch : FetchUnit.Input fourThreads Unit :=
  ⟨⟨none, none, fun _ => none⟩, true, none, false, none, true, ⟨false, false⟩⟩

/-- As many threads are started, and as many words are fetched up to the cache, which takes none. -/
def fetches (threads : Nat) : List (FetchUnit.Input fourThreads Unit) :=
  (List.range threads).map (fun t => { idleFetch with ctrl := ⟨some (.ofNat 2 t, 4), none, fun _ => none⟩, tlbReqReady := false }) ++
    idleFetch :: List.replicate threads { idleFetch with tlbResp := some ⟨0x1000, true, false, ()⟩ }

abbrev wideMemory : PipelineParams := ⟨2, 16, 6⟩

def idleMemory : MemoryUnit.Input wideMemory Unit := ⟨none, true, none, true, none, true, ⟨false, false⟩⟩

def loadWord (isPair : Bool) (tag : BitVec 2) : MInst 2 :=
  ⟨2, isPair, true, true, false, fun k => if k = 0 then ⟨0x1038, 0, 1⟩ else ⟨0x103c, 0, 2⟩, 0, none, tag⟩

def translated : Option (PipeTLBResp wideMemory Unit) := some ⟨0x3000, true, false, ()⟩

def cacheHit : Option (CacheResponse wideMemory) := some ⟨0, true, false, false⟩

/-- Two loads of one register and one of two; a first access misses and is refilled. -/
def memoryRequests : List (MemoryUnit.Input wideMemory Unit) :=
  [{ idleMemory with req := some (loadWord false 0) }, { idleMemory with req := some (loadWord true 1) },
    { idleMemory with req := some (loadWord false 2), tlbResp := translated }, { idleMemory with tlbResp := translated },
    { idleMemory with tlbResp := translated, cacheResp := cacheHit },
    { idleMemory with cacheResp := some ⟨0, false, true, false⟩ }, { idleMemory with cacheResp := cacheHit },
    { idleMemory with cacheResp := some ⟨0, true, false, true⟩ }, idleMemory, { idleMemory with cacheResp := cacheHit }, idleMemory]

theorem credits_prevent_overflow_three :
    (CreditedFetch.machine fourThreads Unit).Along CreditedFetch.EnqReady (.reset ⟨0, 0⟩) (fetches 3) ∧
      (CreditedMemory.machine wideMemory Unit).Along CreditedMemory.EnqReady
        (.reset ⟨fun _ => loadWord false 0, loadWord false 0, ⟨0, ()⟩⟩) memoryRequests :=
  ⟨(credits_prevent_overflow fourThreads Unit).2.1 ⟨0, 0⟩ (fetches 3) (by decide +kernel),
    (credits_prevent_overflow wideMemory Unit).2.2 _ memoryRequests (by decide +kernel)⟩

/-- The counter lets four transactions through to a queue of three places, and so does the fetch unit. -/
theorem fourth_fetch_overflows :
    (counted 3).Along SentWhenReady ⟨.reset 3, 0⟩ (List.replicate 4 ⟨true, false, false⟩) ∧
      ¬ ((counted 3).run ⟨.reset 3, 0⟩ (List.replicate 4 ⟨true, false, false⟩)).outstanding ≤ 3 ∧
      (CreditedFetch.machine fourThreads Unit).Along CreditedFetch.Asked (.reset ⟨0, 0⟩) (fetches 4) ∧
      ¬ (CreditedFetch.machine fourThreads Unit).Along CreditedFetch.EnqReady (.reset ⟨0, 0⟩) (fetches 4) := by
  refine ⟨?_, ?_, ?_, ?_⟩ <;> decide +kernel

end Runs

end KnockoutKraken.Armflex
