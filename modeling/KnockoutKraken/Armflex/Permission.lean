import KnockoutKraken.Armflex.Fetch
import KnockoutKraken.Armflex.LoadStore
import KnockoutKraken.Cache.TLBAnswer

/-!
# Permissions on the two paths to memory

The fetch unit and the memory unit, each with its translation buffer. A
translation is labelled with the entry the buffer answered it from. The
page manager may flush and refill the buffers at any time, and any mapping
of threads to address spaces may be in force.
-/

namespace KnockoutKraken.Armflex

open Cache Library Util

section Connection

variable (tp : PageTableParams) (blockW : Nat)

abbrev pipelineParams : PipelineParams := ⟨tp.thidW, tp.pPageW + tp.pageW, blockW⟩

/-- What reaches a translation buffer besides the requests of its unit. -/
structure TLBPorts where
  asid : BitVec tp.asidW
  flushReq : Option (PTTagPacket tp)
  refillResp : Option (TLBMMURespPacket tp)
  missReqReady : Bool
  writebackReqReady : Bool

variable {tp} {blockW}

def TLBPorts.input (ports : TLBPorts tp) (bits : PipeTLBReq (pipelineParams tp blockW)) (valid : Bool) : TLB.Input tp where
  translationReq := ⟨⟨(bits.addr >>> tp.pageW).setWidth _, ports.asid⟩, bits.perm, bits.thid⟩
  translationValid := valid
  flushReq := ports.flushReq
  refillResp := ports.refillResp
  missReqReady := ports.missReqReady
  writebackReqReady := ports.writebackReqReady

def toPipeTLBResponse (resp : TLBPipelineResp tp) : PipeTLBResp (pipelineParams tp blockW) (PTEntryPacket tp) :=
  ⟨resp.entry.ppn.setWidth _ <<< tp.pageW, resp.hit, resp.violation, resp.entry⟩

theorem permValid_instFetch (entry : PTEntryPacket tp) : entry.permValid instFetch = decide (entry.perm = instFetch) := rfl

theorem permValid_dataStore (entry : PTEntryPacket tp) : entry.permValid dataStore = decide (entry.perm = dataStore) := rfl

end Connection

structure InstPath (tp : PageTableParams) (blockW : Nat) (core : LRUCore tp.tlbWayWidth) where
  unit : FetchUnit (pipelineParams tp blockW) (PTEntryPacket tp)
  tlb : TLB tp core

namespace InstPath

variable {tp : PageTableParams} {blockW : Nat} {core : LRUCore tp.tlbWayWidth}

structure Input (tp : PageTableParams) (blockW : Nat) where
  ctrl : FetchUnitPC.Ctrl tp.thidW
  ports : TLBPorts tp
  cacheReqReady : Bool
  cacheResp : Option (CacheResponse (pipelineParams tp blockW))
  instReady : Bool
  mmu : PipeMMUPort

variable (s : InstPath tp blockW core) (i : Input tp blockW)

def tlbInput : TLB.Input tp := i.ports.input s.unit.tlbReqBits s.unit.tlbReqValid

def unitInput : FetchUnit.Input (pipelineParams tp blockW) (PTEntryPacket tp) where
  ctrl := i.ctrl
  tlbReqReady := s.tlb.translationReady (s.tlbInput i)
  tlbResp := (s.tlb.translationResp (s.tlbInput i)).map toPipeTLBResponse
  cacheReqReady := i.cacheReqReady
  cacheResp := i.cacheResp
  instReady := i.instReady
  mmu := i.mmu

def machine : Machine (InstPath tp blockW core) (Input tp blockW) (Option (Labelled (PTEntryPacket tp) (FetchedInst (pipelineParams tp blockW)))) where
  next s i := ⟨s.unit.next (s.unitInput i), s.tlb.next (s.tlbInput i)⟩
  output s i := s.unit.instEnq (s.unitInput i)

def reset (metaDataTLB : FetchMeta (pipelineParams tp blockW)) (permR : BitVec permW) : InstPath tp blockW core :=
  ⟨.reset metaDataTLB, .init permR⟩

/-- A word put into the instruction queue comes from a page for instructions, and a
translation the entry does not permit is not kept and leaves the buffer alone. -/
def Enforced : Prop :=
  (∀ inst ∈ s.unit.instEnq (s.unitInput i), inst.label.perm = instFetch) ∧
    ∀ hit ∈ s.tlb.hitTranslation, TLB.violated hit = true →
      (s.unit.cacheReqEnq (s.unitInput i)).isNone = true ∧
        (s.tlb.bank.bankRamWriteRequest (TLB.tlbUpdateFunction tp)).isNone = true

def NoViolation (s : InstPath tp blockW core) (_ : Input tp blockW) : Prop :=
  ∀ hit ∈ s.tlb.hitTranslation, TLB.violated hit = false

instance : Decidable (s.Enforced i) :=
  inferInstanceAs (Decidable ((∀ _ ∈ s.unit.instEnq (s.unitInput i), _) ∧ ∀ _ ∈ s.tlb.hitTranslation, _ → _ ∧ _))

instance : Decidable (s.NoViolation i) := inferInstanceAs (Decidable (∀ _ ∈ s.tlb.hitTranslation, _))

def labels : List (PTEntryPacket tp) :=
  s.unit.cacheReqQ.map (fun q => q.inst.label) ++ s.unit.cacheAdaptor.baseQ.map Labelled.label ++
    s.unit.cacheAdaptor.longQ.map Labelled.label

structure Inv : Prop where
  tlb : s.tlb.Inv
  fetches : ∀ tag perm thid, s.tlb.served = some (TLB.translationToBank tag perm thid) → perm = instFetch
  labels : ∀ entry ∈ s.labels, entry.perm = instFetch

variable {s} {i}

theorem mem_labels {entry : PTEntryPacket tp} : entry ∈ s.labels ↔ (∃ q ∈ s.unit.cacheReqQ, q.inst.label = entry) ∨
    (∃ m ∈ s.unit.cacheAdaptor.baseQ, m.label = entry) ∨ ∃ m ∈ s.unit.cacheAdaptor.longQ, m.label = entry := by
  simp only [labels, List.mem_append, List.mem_map, or_assoc]

theorem Inv.label_of_enq (hInv : s.Inv) (hRule : s.NoViolation i) {q : FetchPending (pipelineParams tp blockW) (PTEntryPacket tp)}
    (h : s.unit.cacheReqEnq (s.unitInput i) = some q) : q.inst.label.perm = instFetch := by
  obtain ⟨pipeResp, hPipe, rfl⟩ := Option.map_eq_some_iff.mp h
  obtain ⟨hPipe, hHit⟩ := Option.filter_eq_some_iff.mp hPipe
  obtain ⟨resp, hResp, rfl⟩ := Option.map_eq_some_iff.mp hPipe
  obtain ⟨tag, perm, thid, hServed, -, -, hEntry, -⟩ := hInv.tlb.translationResp_eq hResp
  have hValid := hRule (resp.entry, perm) (hEntry hHit)
  rw [TLB.violated, hInv.fetches tag perm thid hServed, permValid_instFetch, Bool.not_eq_false', decide_eq_true_eq] at hValid
  exact hValid

theorem Inv.labels_next (hInv : s.Inv) (hRule : s.NoViolation i) :
    ∀ entry ∈ (machine.next s i).labels, entry.perm = instFetch := by
  intro entry hEntry
  rcases mem_labels.mp hEntry with ⟨q, hq, rfl⟩ | ⟨m, hm, rfl⟩ | ⟨m, hm, rfl⟩
  · rcases FlushQueue.mem_of_mem_next hq with hStay | hEnq
    · exact hInv.labels _ (mem_labels.mpr (.inl ⟨q, hStay, rfl⟩))
    · exact hInv.label_of_enq hRule hEnq
  · rcases DoubleLatencyQueue.mem_base_of_next hm with hStay | hReq
    · exact hInv.labels _ (mem_labels.mpr (.inr (.inl ⟨m, hStay, rfl⟩)))
    · obtain ⟨q, hFired, rfl⟩ := Option.map_eq_some_iff.mp hReq
      rw [FetchUnit.cacheReqFired_eq, Option.ite_none_right_eq_some] at hFired
      exact hInv.labels _ (mem_labels.mpr (.inl ⟨q, List.mem_of_mem_head? hFired.2, rfl⟩))
  · rcases DoubleLatencyQueue.mem_long_of_next hm with hStay | hBase
    · exact hInv.labels _ (mem_labels.mpr (.inr (.inr ⟨m, hStay, rfl⟩)))
    · exact hInv.labels _ (mem_labels.mpr (.inr (.inl ⟨m, hBase, rfl⟩)))

theorem Inv.next (hInv : s.Inv) (hRule : s.NoViolation i) : (machine.next s i).Inv where
  tlb := hInv.tlb.next
  fetches _ _ _ hServed :=
    (TLB.accepted_translation ((TLB.served_next hInv.tlb.shape).symm.trans hServed)).2.2.symm
  labels := hInv.labels_next hRule

theorem Inv.enforced (hInv : s.Inv) (hRule : s.NoViolation i) : s.Enforced i := by
  refine ⟨fun inst hInst => ?_, fun hit hHit hViolated => ?_⟩
  · obtain ⟨r, hr, rfl⟩ := Option.map_eq_some_iff.mp hInst
    exact hInv.labels _ (mem_labels.mpr (.inr ((CacheInterface.mem_of_pipeResp hr).imp (⟨r.1, ·, rfl⟩) (⟨r.1, ·, rfl⟩))))
  · rw [hRule hit hHit] at hViolated
    cases hViolated

theorem inv_reset (metaDataTLB : FetchMeta (pipelineParams tp blockW)) (permR : BitVec permW) :
    (reset metaDataTLB permR : InstPath tp blockW core).Inv where
  tlb := .init permR
  fetches _ _ _ h := by cases h
  labels _ h := by cases h

end InstPath

structure DataPath (tp : PageTableParams) (blockW : Nat) (core : LRUCore tp.tlbWayWidth) where
  unit : MemoryUnit (pipelineParams tp blockW) (PTEntryPacket tp)
  tlb : TLB tp core

/-- Both translations permit what the instruction does. -/
def MemPending.Permitted {params : PipelineParams} {tp : PageTableParams} (m : MemPending params (PTEntryPacket tp)) : Prop :=
  ∀ k, (m.paddr k).label.permValid m.inst.perm = true

instance {params : PipelineParams} {tp : PageTableParams} (m : MemPending params (PTEntryPacket tp)) : Decidable m.Permitted :=
  inferInstanceAs (Decidable (∀ _ : Fin 2, _))

namespace DataPath

open MemoryUnit STLBState

variable {tp : PageTableParams} {blockW : Nat} {core : LRUCore tp.tlbWayWidth}

structure Input (tp : PageTableParams) (blockW : Nat) where
  req : Option (MInst tp.thidW)
  ports : TLBPorts tp
  cacheReqReady : Bool
  cacheResp : Option (CacheResponse (pipelineParams tp blockW))
  respReady : Bool
  mmu : PipeMMUPort

variable (s : DataPath tp blockW core) (i : Input tp blockW)

def tlbInput : TLB.Input tp := i.ports.input s.unit.tlbReqBits s.unit.tlbReqValid

def unitInput : MemoryUnit.Input (pipelineParams tp blockW) (PTEntryPacket tp) where
  req := i.req
  tlbReqReady := s.tlb.translationReady (s.tlbInput i)
  tlbResp := (s.tlb.translationResp (s.tlbInput i)).map toPipeTLBResponse
  cacheReqReady := i.cacheReqReady
  cacheResp := i.cacheResp
  respReady := i.respReady
  mmu := i.mmu

def machine : Machine (DataPath tp blockW core) (Input tp blockW) (Option (MemPending (pipelineParams tp blockW) (PTEntryPacket tp))) where
  next s i := ⟨s.unit.next (s.unitInput i), s.tlb.next (s.tlbInput i)⟩
  output s i := s.unit.cacheReqFired (s.unitInput i)

def reset (c : Contents (pipelineParams tp blockW) (PTEntryPacket tp)) (permR : BitVec permW) : DataPath tp blockW core :=
  ⟨.reset c, .init permR⟩

/-- Every access of the cache and everything that is packed for the commit is permitted, so
that a store writes pages for stores only; and a translation the entry does not permit is not
kept and leaves the buffer alone. -/
def Enforced : Prop :=
  (∀ m ∈ s.unit.cacheReqFired (s.unitInput i), m.Permitted ∧
      (m.cacheRequest.wEn ≠ 0 → (m.paddr m.selReqIdx).label.perm = dataStore)) ∧
    (∀ r ∈ s.unit.cachePipeResp (s.unitInput i), r.1.Permitted) ∧
    ∀ hit ∈ s.tlb.hitTranslation, TLB.violated hit = true →
      (s.unit.cacheReqEnq (s.unitInput i)).isNone = true ∧
        (s.tlb.bank.bankRamWriteRequest (TLB.tlbUpdateFunction tp)).isNone = true

/-- No store that its entry does not permit hits an entry that is not modified. -/
def NoMark (s : DataPath tp blockW core) (_ : Input tp blockW) : Prop :=
  ∀ hit ∈ s.tlb.hitTranslation, TLB.violated hit = true → TLB.marks hit = false

instance : Decidable (s.Enforced i) :=
  inferInstanceAs (Decidable ((∀ _ ∈ s.unit.cacheReqFired (s.unitInput i), _ ∧ (_ → _)) ∧
    (∀ _ ∈ s.unit.cachePipeResp (s.unitInput i), _) ∧ ∀ _ ∈ s.tlb.hitTranslation, _ → _ ∧ _))

instance : Decidable (s.NoMark i) := inferInstanceAs (Decidable (∀ _ ∈ s.tlb.hitTranslation, _ → _))

def pending : List (MemPending (pipelineParams tp blockW) (PTEntryPacket tp)) :=
  s.unit.cacheReqQ ++ s.unit.cacheReqMisalignedQ ++ s.unit.cacheAdaptor.baseQ ++ s.unit.cacheAdaptor.longQ

/-- The translation in the buffer is the one of the instruction the unit keeps for it. -/
structure Inv : Prop where
  tlb : s.tlb.Inv
  state : s.unit.sTLBState ≠ pairReq
  inFlight : ∀ tag perm thid, s.tlb.served = some (TLB.translationToBank tag perm thid) → s.unit.sTLBState = req →
    perm = s.unit.tlbMeta.perm ∧ s.unit.tlbMeta.isPairPageMisaligned = false
  permitted : ∀ m ∈ s.pending, m.Permitted

variable {s} {i}

theorem mem_pending {m : MemPending (pipelineParams tp blockW) (PTEntryPacket tp)} : m ∈ s.pending ↔
    m ∈ s.unit.cacheReqQ ∨ m ∈ s.unit.cacheReqMisalignedQ ∨ m ∈ s.unit.cacheAdaptor.baseQ ∨
      m ∈ s.unit.cacheAdaptor.longQ := by
  simp only [pending, List.mem_append, or_assoc]

/-- What is kept was translated for this very instruction, and the entry permits it. -/
theorem Inv.enq_cases (hInv : s.Inv) {m : MemPending (pipelineParams tp blockW) (PTEntryPacket tp)}
    (h : s.unit.cacheReqEnq (s.unitInput i) = some m) :
    ∃ entry, m.inst = s.unit.tlbMeta ∧ (∀ k, (m.paddr k).label = entry) ∧
      s.tlb.hitTranslation = some (entry, s.unit.tlbMeta.perm) ∧ entry.permValid s.unit.tlbMeta.perm = true := by
  obtain ⟨pipeResp, hPipe, rfl⟩ := Option.map_eq_some_iff.mp h
  obtain ⟨hFire, hKept⟩ := Option.filter_eq_some_iff.mp hPipe
  have hState : s.unit.sTLBState = req := by
    cases hCurr : s.unit.sTLBState with
    | req => rfl
    | intermediateResp =>
      rw [tlbRespFire_intermediate hCurr] at hFire
      cases hFire
    | pairReq => exact absurd hCurr hInv.state
  obtain ⟨resp, hResp, rfl⟩ := Option.map_eq_some_iff.mp (Option.filter_eq_some_iff.mp hFire).1
  obtain ⟨tag, perm, thid, hServed, -, hViolation, hEntry, -⟩ := hInv.tlb.translationResp_eq hResp
  obtain ⟨rfl, hPage⟩ := hInv.inFlight tag perm thid hServed hState
  simp only [ditched, toPipeTLBResponse, hViolation, Bool.not_or, Bool.not_not, Bool.and_eq_true] at hKept
  exact ⟨resp.entry, rfl, paddr_label hPage _, hEntry hKept.1, hKept.2⟩

theorem Inv.permitted_next (hInv : s.Inv) : ∀ m ∈ (machine.next s i).pending, m.Permitted := by
  intro m hm
  have hOld : ∀ m', m' ∈ s.unit.cacheReqQ ∨ m' ∈ s.unit.cacheReqMisalignedQ ∨ m' ∈ s.unit.cacheAdaptor.baseQ ∨
      m' ∈ s.unit.cacheAdaptor.longQ → m'.Permitted := fun m' hm' => hInv.permitted m' (mem_pending.mpr hm')
  rcases mem_pending.mp hm with hQ | hQ | hQ | hQ
  · rcases FlushQueue.mem_of_mem_next hQ with hStay | hEnq
    · exact hOld m (.inl hStay)
    · obtain ⟨entry, hInst, hLabel, -, hValid⟩ := hInv.enq_cases hEnq
      intro k
      rw [hLabel k, hInst]
      exact hValid
  · rcases FlushQueue.mem_of_mem_next hQ with hStay | hEnq
    · exact hOld m (.inr (.inl hStay))
    · obtain ⟨r, hr, rfl⟩ := Option.map_eq_some_iff.mp hEnq
      exact hOld r.1 (.inr (.inr (CacheInterface.mem_of_pipeResp (Option.filter_eq_some_iff.mp hr).1)))
  · rcases DoubleLatencyQueue.mem_base_of_next hQ with hStay | hReq
    · exact hOld m (.inr (.inr (.inl hStay)))
    · rw [cacheReqFired_eq, Option.ite_none_right_eq_some] at hReq
      exact hOld m ((mem_of_pipeMeta hReq.2).imp id .inl)
  · exact hOld m (.inr (.inr (DoubleLatencyQueue.mem_long_of_next hQ).symm))

theorem Inv.inFlight_next (hInv : s.Inv) {tag : PTTagPacket tp} {perm : BitVec permW} {thid : BitVec tp.thidW}
    (hServed : (machine.next s i).tlb.served = some (TLB.translationToBank tag perm thid))
    (hState : s.unit.sTLBStateNext (s.unitInput i) = req) :
    perm = (s.unit.next (s.unitInput i)).tlbMeta.perm ∧
      (s.unit.next (s.unitInput i)).tlbMeta.isPairPageMisaligned = false := by
  obtain ⟨hValid, hReady, hPerm⟩ := TLB.accepted_translation ((TLB.served_next hInv.tlb.shape).symm.trans hServed)
  have hFire : s.unit.tlbReqFire (s.unitInput i) = true := Bool.and_eq_true_iff.mpr ⟨hValid, hReady⟩
  have hNow : s.unit.sTLBState = req := by
    cases hCurr : s.unit.sTLBState with
    | req => rfl
    | intermediateResp => simp [tlbReqFire, tlbReqValid, hCurr] at hFire
    | pairReq => exact absurd hCurr hInv.state
  have hPage : s.unit.head.isPairPageMisaligned = false := by
    by_contra hPage
    rw [Bool.not_eq_false] at hPage
    simp [sTLBStateNext, hNow, hFire, hPage] at hState
  have hMeta : (s.unit.next (s.unitInput i)).tlbMeta = s.unit.head := if_pos (deqFire_of_tlbReqFire hNow hFire hPage)
  rw [hMeta]
  exact ⟨hPerm.symm, hPage⟩

theorem Inv.next (hInv : s.Inv) : (machine.next s i).Inv where
  tlb := hInv.tlb.next
  state := sTLBStateNext_ne_pairReq hInv.state
  inFlight _ _ _ hServed hState := hInv.inFlight_next hServed hState
  permitted := hInv.permitted_next

theorem MemPending.perm_of_store {m : MemPending (pipelineParams tp blockW) (PTEntryPacket tp)} (h : m.Permitted)
    (hStore : m.cacheRequest.wEn ≠ 0) : (m.paddr m.selReqIdx).label.perm = dataStore := by
  have hLoad : m.inst.isLoad = false := by
    by_contra hLoad
    exact hStore (if_pos (by simpa using hLoad))
  have hValid := h m.selReqIdx
  rwa [MInst.perm, if_neg (by simp [hLoad]), permValid_dataStore, decide_eq_true_eq] at hValid

theorem Inv.enforced (hInv : s.Inv) (hRule : s.NoMark i) : s.Enforced i := by
  refine ⟨fun m hm => ?_, fun r hr => ?_, fun hit hHit hViolated => ⟨?_, ?_⟩⟩
  · rw [cacheReqFired_eq, Option.mem_def, Option.ite_none_right_eq_some] at hm
    have hPermitted := hInv.permitted m (mem_pending.mpr ((mem_of_pipeMeta hm.2).imp id .inl))
    exact ⟨hPermitted, MemPending.perm_of_store hPermitted⟩
  · exact hInv.permitted _ (mem_pending.mpr (.inr (.inr (CacheInterface.mem_of_pipeResp hr))))
  · rw [Option.isNone_iff_eq_none, Option.eq_none_iff_forall_ne_some]
    intro m hEnq
    obtain ⟨entry, -, -, hEntry, hValid⟩ := hInv.enq_cases hEnq
    obtain rfl : (entry, s.unit.tlbMeta.perm) = hit := Option.some.inj (hEntry.symm.trans hHit)
    simp [TLB.violated, hValid] at hViolated
  · rw [TLB.bankRamWriteRequest_of_not_marks hInv.tlb hHit (hRule hit hHit hViolated)]
    rfl

theorem inv_reset (c : Contents (pipelineParams tp blockW) (PTEntryPacket tp)) (permR : BitVec permW) :
    (reset c permR : DataPath tp blockW core).Inv where
  tlb := .init permR
  state := by simp [reset, MemoryUnit.reset]
  inFlight _ _ _ h := by cases h
  permitted _ h := by cases h

end DataPath

section Runs

variable {tp : PageTableParams} {blockW : Nat} {core : LRUCore tp.tlbWayWidth}

theorem permission_enforced (metaDataTLB : FetchMeta (pipelineParams tp blockW))
    (c : MemoryUnit.Contents (pipelineParams tp blockW) (PTEntryPacket tp)) (permR : Fin 2 → BitVec permW)
    {is : List (InstPath.Input tp blockW)} {ds : List (DataPath.Input tp blockW)}
    (hInst : InstPath.machine.Along InstPath.NoViolation (.reset metaDataTLB (permR 0) : InstPath tp blockW core) is)
    (hData : DataPath.machine.Along DataPath.NoMark (.reset c (permR 1) : DataPath tp blockW core) ds) :
    InstPath.machine.Along InstPath.Enforced (.reset metaDataTLB (permR 0) : InstPath tp blockW core) is ∧
      DataPath.machine.Along DataPath.Enforced (.reset c (permR 1) : DataPath tp blockW core) ds :=
  ⟨hInst.of_invariant (InstPath.inv_reset metaDataTLB (permR 0)) (fun _ _ hInv hRule => hInv.next hRule)
      fun _ _ hInv hRule => hInv.enforced hRule,
    hData.of_invariant (DataPath.inv_reset c (permR 1)) (fun _ _ hInv _ => hInv.next)
      fun _ _ hInv hRule => hInv.enforced hRule⟩

abbrev twoEntryTLB : PageTableParams :=
  ⟨12, 7, 2, 1, 0, 1, 1, by decide, by decide, (by decide : 6 + 1 ≤ 7), by decide, by decide⟩

def quietPorts : TLBPorts twoEntryTLB := ⟨0, none, none, true, true⟩

def refillPorts (perm : BitVec permW) : TLBPorts twoEntryTLB :=
  { quietPorts with refillResp := some ⟨⟨0, 0⟩, ⟨1, perm, false⟩, 0⟩ }

def instIdle : InstPath.Input twoEntryTLB 2 := ⟨⟨none, none, fun _ => none⟩, quietPorts, true, none, true, ⟨false, false⟩⟩

/-- Thread 0 starts in page 0, while the entry of the page comes in. -/
def instStart (perm : BitVec permW) : InstPath.Input twoEntryTLB 2 :=
  { instIdle with ctrl := ⟨some (0, 4), none, fun _ => none⟩, ports := refillPorts perm }

def dataIdle : DataPath.Input twoEntryTLB 2 := ⟨none, quietPorts, true, none, true, ⟨false, false⟩⟩

def storeInst : MInst 1 := ⟨2, false, false, true, false, fun _ => ⟨4, 7, 1⟩, 0, none, 0⟩

theorem permission_enforced_one :
    InstPath.machine.Along InstPath.Enforced (.reset ⟨0, 0⟩ 0 : InstPath twoEntryTLB 2 (PseudoTreeLRUCore 1))
        [instStart instFetch, instIdle, instIdle, instIdle, { instIdle with cacheResp := some ⟨5, true, false, false⟩ }] ∧
      DataPath.machine.Along DataPath.Enforced
        (.reset ⟨fun _ => storeInst, storeInst, ⟨0, ⟨0, 0, false⟩⟩⟩ 0 : DataPath twoEntryTLB 2 (PseudoTreeLRUCore 1))
        [{ dataIdle with req := some storeInst, ports := refillPorts dataStore }, dataIdle, dataIdle, dataIdle,
          { dataIdle with cacheResp := some ⟨0, true, false, false⟩ }] := by
  refine permission_enforced _ _ (fun _ => 0) ?_ ?_
  · decide +kernel
  · decide +kernel

/-- A page that only data may be loaded from: its words enter the instruction queue. -/
theorem fetch_unpermitted :
    ¬ InstPath.machine.Along (fun s i => ∀ inst ∈ s.unit.instEnq (s.unitInput i), inst.label.perm = instFetch)
      (.reset ⟨0, 0⟩ 0 : InstPath twoEntryTLB 2 (PseudoTreeLRUCore 1))
      [instStart dataLoad, instIdle, instIdle, instIdle, { instIdle with cacheResp := some ⟨5, true, false, false⟩ }] := by
  decide +kernel

end Runs

end KnockoutKraken.Armflex
