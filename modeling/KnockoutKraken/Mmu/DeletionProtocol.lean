import KnockoutKraken.Cache.Untouched
import KnockoutKraken.Mmu.Atomicity
import KnockoutKraken.Mmu.PageDeletion

/-!
# The protocol of a page deletion

Every deletion tells the host twice, with 64 flushes between, and the
second time nothing of the page is left to be written. The handler that
asked leaves with the second message, as long as the page was modified:
for the others the common wire is raised one message too early.
-/

namespace KnockoutKraken.Mmu

open Library Util Cache Armflex

variable {params : MemoryHierarchyParams} {core : LRUCore params.getCacheParams.wayWidth}

/-- What others see of the deletion of a page, in order. -/
def deletionProtocol (item : PageTableItem params.getPageTableParams) (which : Fin 2) : List (DeletionEvent params) :=
  .message ⟨QEMUMessagesType.sEvictNotify, item⟩ :: (pageBlocks item.entry.ppn).map (.flush which) ++
    [.message ⟨QEMUMessagesType.sEvictDone, item⟩]

section Handlers

/-- A handler waits for a deletion once its request is taken, until the common wire is raised. -/
theorem QEMUMissReplyHandler.deleting_next {page : PageTableParams} {u : QEMUMissReplyHandler page}
    {i : QEMUMissReplyHandler.Input page} {moved : Moved SetWords} (h : (u.next i moved).stateR = .sDeletePage) :
    (u.next i moved).victimR = u.victimR ∧ (u.stateR = .sDeletePageReq ∧ i.pageDeleteReqReady = true ∨
      u.stateR = .sDeletePage ∧ i.pageDeleteDoneI = false) := by
  change u.nextState i moved = .sDeletePage at h
  rw [nextState] at h
  cases hState : u.stateR <;> simp only [hState] at h
  case sDeletePageReq =>
    refine ⟨by simp [next, hState], .inl ⟨rfl, ?_⟩⟩
    by_contra hNot
    simp [hNot] at h
  case sDeletePage =>
    refine ⟨by simp [next, hState], .inr ⟨rfl, ?_⟩⟩
    by_contra hDone
    simp [hDone] at h
  case sIdle | sLoadSet | sGetEvict | sReplace | sReplyToTLB =>
    split at h <;> cases h
  case sCheckHit =>
    split at h
    · split at h <;> cases h
    · cases h
  case sMoveback =>
    split at h
    · split at h <;> cases h
    · cases h

theorem QEMUMissReplyHandler.deleting_stays {page : PageTableParams} {u : QEMUMissReplyHandler page}
    {i : QEMUMissReplyHandler.Input page} {moved : Moved SetWords} (h : u.stateR = .sDeletePage)
    (hDone : i.pageDeleteDoneI = false) : (u.next i moved).stateR = .sDeletePage := by
  change u.nextState i moved = _
  rw [nextState, h, hDone]
  rfl

theorem QEMUPageEvictHandler.deleting_next {page : PageTableParams} {u : QEMUPageEvictHandler page}
    {i : QEMUPageEvictHandler.Input page} {moved : Moved SetWords} (h : (u.next i moved).stateR = .sDeletePage) :
    (u.next i moved).victimR = u.victimR ∧ (u.stateR = .sDeletePageReq ∧ i.pageDeleteReqReady = true ∨
      u.stateR = .sDeletePage ∧ i.pageDeleteDoneI = false) := by
  change u.nextState i moved = .sDeletePage at h
  rw [nextState] at h
  cases hState : u.stateR <;> simp only [hState] at h
  case sDeletePageReq =>
    refine ⟨by simp [next, hState], .inl ⟨rfl, ?_⟩⟩
    by_contra hNot
    simp [hNot] at h
  case sDeletePage =>
    refine ⟨by simp [next, hState], .inr ⟨rfl, ?_⟩⟩
    by_contra hDone
    simp [hDone] at h
  case sGetEntry => cases h
  all_goals split at h <;> cases h

theorem QEMUPageEvictHandler.deleting_stays {page : PageTableParams} {u : QEMUPageEvictHandler page}
    {i : QEMUPageEvictHandler.Input page} {moved : Moved SetWords} (h : u.stateR = .sDeletePage)
    (hDone : i.pageDeleteDoneI = false) : (u.next i moved).stateR = .sDeletePage := by
  change u.nextState i moved = _
  rw [nextState, h, hDone]
  rfl

end Handlers

namespace WatchedDeletion

open PageDeletorState

variable (s : WatchedDeletion params core) (i : PageDeletion.Input params)

section Rule

abbrev ppn : params.Ppn := s.deletor.itemR.entry.ppn

abbrev selected : MemoryPort params.getCacheParams core := s.machine.caches s.deletor.flushWhich

abbrev unselected : MemoryPort params.getCacheParams core := s.machine.caches s.deletor.flushOther

/-- From the grant of the unit until the second message. -/
def stopped : Bool := s.grantFire i || s.deletor.stateR.granted

structure Orderly : Prop where
  modified : s.deletor.stateR = sWait → s.deletor.queueEmpty (s.deletorInput i) = true →
    s.deletor.itemR.entry.modified = true
  drained : s.grantFire i = true → s.selected.cache.bank.s1FrontendRequestR = [] ∧
    s.selected.cache.bank.s2MissRequestR = [] ∧ s.selected.cache.refillQueue = []
  oneWay : s.grantFire i = true → ∀ addr ∈ pageBlocks s.ppn, InOneWay s.selected.cache.bank.bram.mem addr
  quiet : s.stopped i = true → (i.ports s.deletor.flushWhich).pipelineValid = false
  noStall : s.stopped i = true → s.selected.cache.bank.NoStall (s.machine.bankInput i s.deletor.flushWhich)
  untouched : s.grantFire i = true → s.unselected.Untouched (pageBlocks s.ppn)
  unasked : s.stopped i = true → (i.ports s.deletor.flushOther).pipelineValid = true →
    blockAddr (i.ports s.deletor.flushOther).pipelineReq.addr ∉ pageBlocks s.ppn

instance : Decidable (s.Orderly i) :=
  decidable_of_iff
    ((s.deletor.stateR = sWait → s.deletor.queueEmpty (s.deletorInput i) = true →
        s.deletor.itemR.entry.modified = true) ∧
      (s.grantFire i = true → s.selected.cache.bank.s1FrontendRequestR = [] ∧
        s.selected.cache.bank.s2MissRequestR = [] ∧ s.selected.cache.refillQueue = []) ∧
      (s.grantFire i = true → ∀ addr ∈ pageBlocks s.ppn, InOneWay s.selected.cache.bank.bram.mem addr) ∧
      (s.stopped i = true → (i.ports s.deletor.flushWhich).pipelineValid = false) ∧
      (s.stopped i = true → s.selected.cache.bank.NoStall (s.machine.bankInput i s.deletor.flushWhich)) ∧
      (s.grantFire i = true → s.unselected.Untouched (pageBlocks s.ppn)) ∧
      (s.stopped i = true → (i.ports s.deletor.flushOther).pipelineValid = true →
        blockAddr (i.ports s.deletor.flushOther).pipelineReq.addr ∉ pageBlocks s.ppn))
    ⟨fun ⟨h1, h2, h3, h4, h5, h6, h7⟩ => ⟨h1, h2, h3, h4, h5, h6, h7⟩,
      fun ⟨h1, h2, h3, h4, h5, h6, h7⟩ => ⟨h1, h2, h3, h4, h5, h6, h7⟩⟩

/-- Nothing of the block is left to be written: it is dirty in neither bank and on the way from neither,
and what was dirty when the unit granted the deletion has been written. -/
structure Settled (k : Fin 2) (addr : params.getCacheParams.Addr) : Prop where
  clean : ∀ way, InBank (s.machine.caches k).cache.bank.bram.mem addr way →
    ((s.machine.caches k).cache.bank.bram.mem (setIndex addr) way).d = false
  sent : ∀ request ∈ (s.machine.caches k).outstanding, request.addr ≠ addr
  saved : MemoryPort.Saved (s.granted k) (s.written k) addr

structure Protocol : Prop where
  ordered : s.deletor.stateR ≠ sIdle → s.events <+: deletionProtocol s.deletor.itemR s.deletor.flushWhich
  complete : s.deletor.flushCompleteRequestFire (s.deletorInput i) = true →
    s.events = deletionProtocol s.deletor.itemR s.deletor.flushWhich
  settled : s.doneFire i = true → ∀ k, ∀ addr ∈ pageBlocks s.ppn, s.Settled k addr
  missLeaves : s.machine.missHandler.stateR = .sDeletePage → (s.next i).machine.missHandler.stateR ≠ .sDeletePage →
    s.doneFire i = true ∧ s.owner = .missReply ∧ s.deletor.itemR.tag = s.machine.missHandler.victimR.tag
  evictLeaves : s.machine.evictHandler.stateR = .sDeletePage → (s.next i).machine.evictHandler.stateR ≠ .sDeletePage →
    s.doneFire i = true ∧ s.owner = .pageEvict ∧ s.deletor.itemR.tag = s.machine.evictHandler.victimR.tag

end Rule

section Handlers

/-- The handler that waits for a deletion is the one whose deletion is under way. -/
structure Owned (s : WatchedDeletion params core) : Prop where
  miss : s.machine.missHandler.stateR = .sDeletePage → s.deletor.stateR.pending = true ∧ s.owner = .missReply ∧
    s.deletor.itemR.tag = s.machine.missHandler.victimR.tag
  evict : s.machine.evictHandler.stateR = .sDeletePage → s.deletor.stateR.pending = true ∧ s.owner = .pageEvict ∧
    s.deletor.itemR.tag = s.machine.evictHandler.victimR.tag

variable {s} {i}

theorem busy_of_pending (h : s.deletor.stateR.pending = true) : s.deletor.stateR ≠ sIdle := by
  intro hIdle
  rw [hIdle] at h
  cases h

theorem accepted_of_busy (h : s.deletor.stateR ≠ sIdle) : s.accepted i = false := by
  rw [accepted, PageDeletor.pageDeleteReqFire_of_busy h]
  rfl

theorem owner_next (h : s.deletor.stateR ≠ sIdle) : (s.next i).owner = s.owner := by
  change (if s.accepted i then _ else s.owner) = _
  rw [accepted_of_busy h]
  rfl

theorem accept (hIdle : s.deletor.stateR = sIdle) {item : PageTableItem params.getPageTableParams}
    (hReq : s.machine.missReqO.or s.machine.evictReqO = some item) :
    (s.next i).deletor.stateR = sReqLSU ∧ (s.next i).deletor.itemR = item ∧ (s.next i).deletor.flushCntR = 0 ∧
      (s.next i).owner = (if s.machine.missReqO.isSome then .missReply else .pageEvict) ∧ (s.next i).events = [] := by
  have hFire : s.deletor.pageDeleteReqFire (s.deletorInput i) = some item := by
    rw [PageDeletor.pageDeleteReqFire, if_pos hIdle]
    exact hReq
  have hAccepted : s.accepted i = true := by rw [accepted, hFire]; rfl
  refine ⟨?_, ?_, ?_, ?_, ?_⟩
  · change s.deletor.nextState (s.deletorInput i) = _
    rw [PageDeletor.nextState, hIdle, hFire]
    rfl
  · change s.deletor.nextItem (s.deletorInput i) = _
    rw [PageDeletor.nextItem, hFire]
  · change s.deletor.nextFlushCnt (s.deletorInput i) = _
    rw [PageDeletor.nextFlushCnt, hFire]
    rfl
  · change (if s.accepted i then _ else _) = _
    rw [hAccepted, if_pos rfl]
  · change (if s.accepted i then _ else _) = _
    rw [hAccepted, if_pos rfl]

theorem own_next (hPending : s.deletor.stateR.pending = true) (hDone : s.machine.doneO i = false) :
    (s.next i).deletor.stateR.pending = true ∧ (s.next i).owner = s.owner ∧
      (s.next i).deletor.itemR.tag = s.deletor.itemR.tag := by
  have hBusy := busy_of_pending hPending
  exact ⟨PageDeletor.pending_next hPending hDone, owner_next hBusy, (PageDeletor.item_next hBusy).1⟩

theorem Owned.next (h : s.Owned) : (s.next i).Owned where
  miss hState := by
    obtain ⟨hVictim, hReq | hWait⟩ := QEMUMissReplyHandler.deleting_next hState
    · have hIdle : s.deletor.stateR = sIdle := of_decide_eq_true hReq.2
      have hO : s.machine.missReqO = some s.machine.missHandler.victimR := if_pos hReq.1
      obtain ⟨hNext, hItem, _, hOwner, _⟩ := accept (i := i) hIdle (by rw [hO]; exact rfl)
      rw [hO] at hOwner
      rw [hNext, hItem]
      exact ⟨rfl, hOwner, congrArg _ hVictim.symm⟩
    · obtain ⟨hPending, hOwner, hTag⟩ := h.miss hWait.1
      obtain ⟨hPending', hOwner', hTag'⟩ := own_next hPending hWait.2
      exact ⟨hPending', hOwner'.trans hOwner, hTag'.trans (hTag.trans (congrArg _ hVictim.symm))⟩
  evict hState := by
    obtain ⟨hVictim, hReq | hWait⟩ := QEMUPageEvictHandler.deleting_next hState
    · have hReady : s.machine.deletor.pageDeleteReqReady = true ∧ s.machine.missReqO.isNone = true := by
        rw [← Bool.and_eq_true]
        exact hReq.2
      have hIdle : s.deletor.stateR = sIdle := of_decide_eq_true hReady.1
      have hNone : s.machine.missReqO = none := Option.isNone_iff_eq_none.mp hReady.2
      have hO : s.machine.evictReqO = some s.machine.evictHandler.victimR := if_pos hReq.1
      obtain ⟨hNext, hItem, _, hOwner, _⟩ := accept (i := i) hIdle (by rw [hNone, hO]; exact rfl)
      rw [hNone] at hOwner
      rw [hNext, hItem]
      exact ⟨rfl, hOwner, congrArg _ hVictim.symm⟩
    · obtain ⟨hPending, hOwner, hTag⟩ := h.evict hWait.1
      obtain ⟨hPending', hOwner', hTag'⟩ := own_next hPending hWait.2
      exact ⟨hPending', hOwner'.trans hOwner, hTag'.trans (hTag.trans (congrArg _ hVictim.symm))⟩

theorem Owned.leaves (h : s.Owned) (hRule : s.Orderly i) :
    (s.machine.missHandler.stateR = .sDeletePage → (s.next i).machine.missHandler.stateR ≠ .sDeletePage →
      s.doneFire i = true ∧ s.owner = .missReply ∧ s.deletor.itemR.tag = s.machine.missHandler.victimR.tag) ∧
    (s.machine.evictHandler.stateR = .sDeletePage → (s.next i).machine.evictHandler.stateR ≠ .sDeletePage →
      s.doneFire i = true ∧ s.owner = .pageEvict ∧ s.deletor.itemR.tag = s.machine.evictHandler.victimR.tag) := by
  have hDone : s.machine.doneO i = s.doneFire i := PageDeletor.doneO_eq hRule.modified
  constructor
  · intro hState hLeaves
    refine ⟨?_, (h.miss hState).2⟩
    by_contra hNot
    exact hLeaves (QEMUMissReplyHandler.deleting_stays hState (hDone.trans (Bool.eq_false_iff.mpr hNot)))
  · intro hState hLeaves
    refine ⟨?_, (h.evict hState).2⟩
    by_contra hNot
    exact hLeaves (QEMUPageEvictHandler.deleting_stays hState (hDone.trans (Bool.eq_false_iff.mpr hNot)))

end Handlers

section Phases

variable {s} {i}

def blocksUpTo (ppn : params.Ppn) (n : Nat) : List params.getCacheParams.Addr :=
  (List.range n).map fun n => pageBlock ppn (.ofNat 6 n)

theorem blocksUpTo_subset {ppn : params.Ppn} {n : Nat} (hn : n ≤ 64) : blocksUpTo ppn n ⊆ pageBlocks ppn :=
  List.map_subset _ fun _ hm => List.mem_range.mpr (lt_of_lt_of_le (List.mem_range.mp hm) hn)

theorem blocksUpTo_succ (ppn : params.Ppn) (cnt : BitVec 6) :
    blocksUpTo ppn (cnt.toNat + 1) = blocksUpTo ppn cnt.toNat ++ [pageBlock ppn cnt] := by
  rw [blocksUpTo, List.range_succ, List.map_append, List.map_singleton, BitVec.ofNat_toNat, BitVec.setWidth_eq]
  rfl

theorem pageBlock_not_mem (ppn : params.Ppn) (cnt : BitVec 6) : pageBlock ppn cnt ∉ blocksUpTo ppn cnt.toNat := by
  intro hMem
  obtain ⟨n, hn, hEq⟩ := List.mem_map.mp hMem
  have hCnt := congrArg BitVec.toNat (pageBlock_inj hEq)
  have hLt := cnt.isLt
  rw [List.mem_range] at hn
  rw [BitVec.toNat_ofNat] at hCnt
  omega

/-- The burst of flushes of the page: the banks when it began, and what is gone since. -/
structure Burst (s : WatchedDeletion params core) (gone : List params.getCacheParams.Addr) : Prop where
  flushing : s.selected.Flushing (s.granted s.deletor.flushWhich) gone (s.written s.deletor.flushWhich)
  oneWay : ∀ addr ∈ pageBlocks s.ppn, InOneWay (s.granted s.deletor.flushWhich) addr
  untouched : s.unselected.Untouched (pageBlocks s.ppn)
  clean : ∀ addr ∈ pageBlocks s.ppn, ∀ way, InBank (s.granted s.deletor.flushOther) addr way →
    (s.granted s.deletor.flushOther (setIndex addr) way).d = false

def Flushed (s : WatchedDeletion params core) (n : Nat) : Prop :=
  ∃ gone, s.Burst gone ∧ gone ++ s.selected.cache.bank.inFlight = blocksUpTo s.ppn n

/-- What others saw after the first message and `n` flushes. -/
def told (s : WatchedDeletion params core) (n : Nat) : List (DeletionEvent params) :=
  .message ⟨QEMUMessagesType.sEvictNotify, s.deletor.itemR⟩ ::
    (blocksUpTo s.ppn n).map (.flush s.deletor.flushWhich)

/-- An empty queue of the port means that the bank has no writeback left either. -/
def Drained (s : WatchedDeletion params core) : Prop :=
  s.selected.requests = [] → s.selected.cache.bank.s2WritebackRequestR = []

def Phase (s : WatchedDeletion params core) : Prop :=
  match s.deletor.stateR with
  | sIdle => True
  | sReqLSU => s.events = [] ∧ s.deletor.flushCntR = 0
  | sFlushTLBReq | sFlushTLBReply | sNotify => s.events = [] ∧ s.deletor.flushCntR = 0 ∧ s.Flushed 0
  | sFlushPage => s.events = s.told s.deletor.flushCntR.toNat ∧ s.Flushed s.deletor.flushCntR.toNat
  | sPipe => s.events = s.told 64 ∧ s.Flushed 64 ∧
      (1 ≤ s.deletor.pipeCntR.toNat → s.selected.cache.bank.inFlight = [])
  | sWait => s.events = s.told 64 ∧ s.Flushed 64 ∧ s.selected.cache.bank.inFlight = [] ∧ s.Drained
  | sSend => s.events = s.told 64 ∧ s.Flushed 64 ∧ s.selected.cache.bank.inFlight = [] ∧ s.selected.outstanding = []
  | sNotifyLSU => s.events = deletionProtocol s.deletor.itemR s.deletor.flushWhich

theorem selected_next (hBusy : s.deletor.stateR ≠ sIdle) : (s.next i).selected =
    s.selected.next (PageDeletion.queueSize params) (s.machine.portInput i s.deletor.flushWhich) := by
  change (s.machine.caches (s.next i).deletor.flushWhich).next _ (s.machine.portInput i (s.next i).deletor.flushWhich) = _
  rw [show (s.next i).deletor.flushWhich = s.deletor.flushWhich from PageDeletor.flushWhich_next hBusy]

theorem unselected_next (hBusy : s.deletor.stateR ≠ sIdle) : (s.next i).unselected =
    s.unselected.next (PageDeletion.queueSize params) (s.machine.portInput i s.deletor.flushOther) := by
  change (s.machine.caches (s.next i).deletor.flushOther).next _ (s.machine.portInput i (s.next i).deletor.flushOther) = _
  rw [show (s.next i).deletor.flushOther = s.deletor.flushOther from PageDeletor.flushOther_next hBusy]

theorem ppn_next (hBusy : s.deletor.stateR ≠ sIdle) : (s.next i).ppn = s.ppn := (PageDeletor.item_next hBusy).2.1

theorem which_next (hBusy : s.deletor.stateR ≠ sIdle) : (s.next i).deletor.flushWhich = s.deletor.flushWhich :=
  PageDeletor.flushWhich_next hBusy

theorem other_next (hBusy : s.deletor.stateR ≠ sIdle) : (s.next i).deletor.flushOther = s.deletor.flushOther :=
  PageDeletor.flushOther_next hBusy

theorem flushValid_other : (s.machine.portInput i s.deletor.flushOther).flushValid = false := by
  change s.deletor.cacheFlushRequestValid s.deletor.flushOther = false
  rw [PageDeletor.cacheFlushRequestValid, beq_false_of_ne PageDeletor.flushOther_ne, Bool.and_false]

theorem flushValid_which : (s.machine.portInput i s.deletor.flushWhich).flushValid = decide (s.deletor.stateR = sFlushPage) := by
  change s.deletor.cacheFlushRequestValid s.deletor.flushWhich = _
  rw [PageDeletor.cacheFlushRequestValid, beq_self_eq_true, Bool.and_true]

theorem flush_open : ((s.machine.portInput i s.deletor.flushWhich).flushValid &&
    !(s.machine.portInput i s.deletor.flushWhich).stallReq) = decide (s.deletor.stateR = sFlushPage) := by
  rw [flushValid_which]
  change (_ && !s.deletor.stallVO s.deletor.flushWhich) = _
  rw [PageDeletor.stallVO]
  cases hState : s.deletor.stateR <;> simp

theorem busy_of_granted (h : s.deletor.stateR.granted = true) : s.deletor.stateR ≠ sIdle := by
  intro hIdle
  rw [hIdle] at h
  cases h

theorem grantFire_of_ne (h : s.deletor.stateR ≠ sReqLSU) : s.grantFire i = false := by
  rw [grantFire, PageDeletor.flushPermissionRequestFire, decide_eq_false h, Bool.false_and]

theorem state_of_grantFire (h : s.grantFire i = true) : s.deletor.stateR = sReqLSU := by
  by_contra hNot
  rw [grantFire_of_ne hNot] at h
  cases h

theorem unselected_untouched (hSets : params.getCacheParams.setWidth ≠ 1)
    (hSound : ∀ k, (s.machine.caches k).cache.bank.DirtyValid) (hRule : s.Orderly i) (hStopped : s.stopped i = true)
    (hBusy : s.deletor.stateR ≠ sIdle) (h : s.unselected.Untouched (pageBlocks s.ppn)) :
    (s.next i).unselected.Untouched (pageBlocks (s.next i).ppn) := by
  rw [unselected_next hBusy, ppn_next hBusy]
  exact h.next hSets (hSound _) flushValid_other (hRule.unasked hStopped)

theorem flushed_grant (hSets : params.getCacheParams.setWidth ≠ 1)
    (hSound : ∀ k, (s.machine.caches k).cache.bank.DirtyValid) (hRule : s.Orderly i) (hGrant : s.grantFire i = true) :
    (s.next i).Flushed 0 := by
  have hState := state_of_grantFire hGrant
  have hBusy : s.deletor.stateR ≠ sIdle := by simp [hState]
  have hStopped : s.stopped i = true := by rw [stopped, hGrant, Bool.true_or]
  obtain ⟨hS1, hMiss, hRefill⟩ := hRule.drained hGrant
  have hFlush : (s.machine.portInput i s.deletor.flushWhich).flushValid = false := by rw [flushValid_which, hState]; rfl
  have hQuiet : (s.machine.portInput i s.deletor.flushWhich).pipelineValid = false := hRule.quiet hStopped
  obtain ⟨hBurst, hFlight⟩ := @MemoryPort.Flushing.enter _ _ (PageDeletion.queueSize params) _ _
    (hSound s.deletor.flushWhich).toShape hS1 hMiss hRefill hQuiet hFlush
  have hMem : ∀ k, (s.next i).granted k = (s.machine.caches k).cache.bank.bram.mem := fun k => by
    change (if s.grantFire i then _ else _) = _
    rw [hGrant, if_pos rfl]
  have hWritten : ∀ k, (s.next i).written k = [] := fun k => by
    change (if s.grantFire i then _ else _) = _
    rw [hGrant, if_pos rfl]
  have hUntouched := hRule.untouched hGrant
  refine ⟨[], ⟨?_, ?_, ?_, ?_⟩, ?_⟩
  · rw [selected_next hBusy, which_next hBusy, hMem, hWritten]
    exact hBurst
  · rw [ppn_next hBusy, which_next hBusy, hMem]
    exact hRule.oneWay hGrant
  · exact unselected_untouched hSets hSound hRule hStopped hBusy hUntouched
  · rw [ppn_next hBusy, other_next hBusy, hMem]
    exact hUntouched.bank.clean
  · rw [selected_next hBusy, hFlight]
    rfl

theorem Burst.next (hSets : params.getCacheParams.setWidth ≠ 1)
    (hSound : ∀ k, (s.machine.caches k).cache.bank.DirtyValid) (hRule : s.Orderly i)
    (hGranted : s.deletor.stateR.granted = true) {gone : List params.getCacheParams.Addr} (h : s.Burst gone)
    (hFlight : s.selected.cache.bank.inFlight ⊆ pageBlocks s.ppn)
    (hEnter : s.deletor.stateR = sFlushPage → pageBlock s.ppn s.deletor.flushCntR ∉ gone ++ s.selected.cache.bank.inFlight) :
    (s.next i).Burst (gone ++ s.selected.cache.bank.inFlight) ∧
      (s.next i).selected.cache.bank.inFlight =
        if s.deletor.stateR = sFlushPage then [pageBlock s.ppn s.deletor.flushCntR] else [] := by
  have hBusy := busy_of_granted hGranted
  have hStopped : s.stopped i = true := by rw [stopped, hGranted, Bool.or_true]
  have hGrant : s.grantFire i = false := grantFire_of_ne fun hState => by rw [hState] at hGranted; cases hGranted
  have hMem : ∀ k, (s.next i).granted k = s.granted k := fun k => by
    change (if s.grantFire i then _ else _) = _
    rw [hGrant, if_neg Bool.false_ne_true]
  have hWritten : ∀ k, (s.next i).written k =
      s.written k ++ ((s.machine.caches k).writeFire (s.machine.portInput i k)).toList := fun k => by
    change (if s.grantFire i then _ else _) = _
    rw [hGrant, if_neg Bool.false_ne_true]
  have hQuiet : (s.machine.portInput i s.deletor.flushWhich).pipelineValid = false := hRule.quiet hStopped
  have hStall := hRule.noStall hStopped
  refine ⟨⟨?_, ?_, ?_, ?_⟩, ?_⟩
  · rw [selected_next hBusy, which_next hBusy, hMem, hWritten]
    refine h.flushing.next hSets hQuiet hStall (fun addr hAddr => h.oneWay addr (hFlight hAddr)) fun hFlush => ?_
    rw [flushValid_which] at hFlush
    exact hEnter (of_decide_eq_true hFlush)
  · rw [ppn_next hBusy, which_next hBusy, hMem]
    exact h.oneWay
  · exact unselected_untouched hSets hSound hRule hStopped hBusy h.untouched
  · rw [ppn_next hBusy, other_next hBusy, hMem]
    exact h.clean
  · rw [selected_next hBusy, h.flushing.inFlight_next hQuiet hStall, flush_open]
    by_cases hState : s.deletor.stateR = sFlushPage
    · rw [decide_eq_true hState, if_pos rfl, if_pos hState]
      rfl
    · rw [decide_eq_false hState, if_neg Bool.false_ne_true, if_neg hState]

theorem flushesEntered_of_closed {k : Fin 2} (hFlush : (s.machine.portInput i k).flushValid = false) :
    s.flushesEntered i k = [] := by
  rw [flushesEntered]
  cases hAccepted : (s.machine.caches k).cache.bank.accepted (s.machine.bankInput i k) with
  | none => rfl
  | some q =>
    have hNot := MemoryPort.flushV_of_accepted hFlush hAccepted
    rw [Option.filter_some, hNot, if_neg Bool.false_ne_true]
    rfl

theorem Burst.flushesEntered (hRule : s.Orderly i) (hGranted : s.deletor.stateR.granted = true)
    {gone : List params.getCacheParams.Addr} (h : s.Burst gone) :
    s.flushesEntered i s.deletor.flushWhich =
      if s.deletor.stateR = sFlushPage then [.flush s.deletor.flushWhich (pageBlock s.ppn s.deletor.flushCntR)] else [] := by
  have hStopped : s.stopped i = true := by rw [stopped, hGranted, Bool.or_true]
  have hQuiet : (s.machine.portInput i s.deletor.flushWhich).pipelineValid = false := hRule.quiet hStopped
  have hAccepted := h.flushing.accepted hQuiet (hRule.noStall hStopped)
  rw [flush_open] at hAccepted
  rw [WatchedDeletion.flushesEntered]
  change (Option.filter _ (s.selected.cache.bank.accepted (s.selected.bankInput (PageDeletion.queueSize params)
    (s.machine.portInput i s.deletor.flushWhich)))).toList.map _ = _
  rw [hAccepted]
  by_cases hState : s.deletor.stateR = sFlushPage
  · rw [decide_eq_true hState, if_pos rfl, if_pos hState]
    rfl
  · rw [decide_eq_false hState, if_neg Bool.false_ne_true, if_neg hState]
    rfl

theorem Burst.emitted (hRule : s.Orderly i) (hGranted : s.deletor.stateR.granted = true)
    {gone : List params.getCacheParams.Addr} (h : s.Burst gone) : s.emitted i =
      (s.deletor.startMessageFire (s.deletorInput i)).toList.map .message ++
        (if s.deletor.stateR = sFlushPage then [.flush s.deletor.flushWhich (pageBlock s.ppn s.deletor.flushCntR)] else []) ++
        (s.deletor.doneMessageFire (s.deletorInput i)).toList.map .message := by
  have hWhich := h.flushesEntered hRule hGranted
  have hOther : s.flushesEntered i s.deletor.flushOther = [] := flushesEntered_of_closed flushValid_other
  have hBoth : s.flushesEntered i 0 ++ s.flushesEntered i 1 = s.flushesEntered i s.deletor.flushWhich := by
    rcases PageDeletor.eq_which_or_other (u := s.deletor) 0 with hZero | hZero
    · rcases PageDeletor.eq_which_or_other (u := s.deletor) 1 with hOne | hOne
      · exact absurd (hZero.trans hOne.symm) (by decide)
      · rw [hOne, hOther, List.append_nil, ← hZero]
    · rcases PageDeletor.eq_which_or_other (u := s.deletor) 1 with hOne | hOne
      · rw [hZero, hOther, List.nil_append, ← hOne]
      · exact absurd (hZero.trans hOne.symm) (by decide)
  rw [WatchedDeletion.emitted, hBoth, hWhich]

theorem events_next (hBusy : s.deletor.stateR ≠ sIdle) : (s.next i).events = s.events ++ s.emitted i := by
  change (if s.accepted i then _ else _) = _
  rw [accepted_of_busy hBusy]
  rfl

theorem told_next (hBusy : s.deletor.stateR ≠ sIdle) (hReply : s.deletor.stateR ≠ sFlushTLBReply) (n : Nat) :
    (s.next i).told n = s.told n := by
  have hItem : (s.next i).deletor.itemR = s.deletor.itemR := PageDeletor.item_next_of_ne hBusy hReply
  rw [told, told, ppn_next hBusy, which_next hBusy, hItem]

theorem Flushed.next (hSets : params.getCacheParams.setWidth ≠ 1)
    (hSound : ∀ k, (s.machine.caches k).cache.bank.DirtyValid) (hRule : s.Orderly i)
    (hGranted : s.deletor.stateR.granted = true) {n : Nat} (hn : n ≤ 64)
    (hCnt : s.deletor.stateR = sFlushPage → n = s.deletor.flushCntR.toNat) (h : s.Flushed n) :
    (s.next i).Flushed (if s.deletor.stateR = sFlushPage then n + 1 else n) ∧
      (s.deletor.stateR ≠ sFlushPage → (s.next i).selected.cache.bank.inFlight = []) := by
  obtain ⟨gone, hBurst, hGone⟩ := h
  have hSubset : s.selected.cache.bank.inFlight ⊆ pageBlocks s.ppn := fun addr hAddr =>
    blocksUpTo_subset hn (hGone ▸ List.mem_append_right gone hAddr)
  obtain ⟨hNext, hFlight⟩ := hBurst.next hSets hSound hRule hGranted hSubset fun hState => by
    rw [hGone, hCnt hState]
    exact pageBlock_not_mem _ _
  refine ⟨⟨_, hNext, ?_⟩, fun hState => by rw [hFlight, if_neg hState]⟩
  rw [hFlight, hGone, ppn_next (busy_of_granted hGranted)]
  by_cases hState : s.deletor.stateR = sFlushPage
  · rw [if_pos hState, if_pos hState, hCnt hState, blocksUpTo_succ]
  · rw [if_neg hState, if_neg hState, List.append_nil]

theorem Flushed.emitted (hRule : s.Orderly i) (hGranted : s.deletor.stateR.granted = true) {n : Nat} (h : s.Flushed n) :
    s.emitted i = (s.deletor.startMessageFire (s.deletorInput i)).toList.map .message ++
        (if s.deletor.stateR = sFlushPage then [.flush s.deletor.flushWhich (pageBlock s.ppn s.deletor.flushCntR)] else []) ++
        (s.deletor.doneMessageFire (s.deletorInput i)).toList.map .message := by
  obtain ⟨gone, hBurst, _⟩ := h
  exact hBurst.emitted hRule hGranted

theorem queueSize_ge : 2 ≤ PageDeletion.queueSize params := Nat.succ_le_succ (Nat.two_pow_pos _)

/-- A cycle in which nothing is in the bank brings its last writeback out before the queue runs empty. -/
theorem Flushed.drained_next {n : Nat} (h : s.Flushed n) (hBusy : s.deletor.stateR ≠ sIdle)
    (hFlight : s.selected.cache.bank.inFlight = []) : (s.next i).Drained := by
  obtain ⟨gone, hBurst, _⟩ := h
  intro hEmpty
  rw [selected_next hBusy] at hEmpty ⊢
  exact MemoryPort.drained_next queueSize_ge (List.map_eq_nil_iff.mp hFlight) hBurst.flushing.bank.noMiss hEmpty

theorem state_next : (s.next i).deletor.stateR = s.deletor.nextState (s.deletorInput i) := rfl

theorem phase_idle (hState : s.deletor.stateR = sIdle) : (s.next i).Phase := by
  cases hReq : s.machine.missReqO.or s.machine.evictReqO with
  | none =>
    have hNext : (s.next i).deletor.stateR = sIdle := by
      have hFire : s.deletor.pageDeleteReqFire (s.deletorInput i) = none := by
        rw [PageDeletor.pageDeleteReqFire, if_pos hState]
        exact hReq
      rw [state_next, PageDeletor.nextState, hState, hFire]
      rfl
    rw [Phase, hNext]
    trivial
  | some item =>
    obtain ⟨hNext, _, hCnt, _, hEvents⟩ := accept (i := i) hState hReq
    rw [Phase, hNext]
    exact ⟨hEvents, hCnt⟩

theorem flushCnt_next (hBusy : s.deletor.stateR ≠ sIdle) (hState : s.deletor.stateR ≠ sFlushPage) :
    (s.next i).deletor.flushCntR = s.deletor.flushCntR := by
  change s.deletor.nextFlushCnt (s.deletorInput i) = _
  rw [PageDeletor.nextFlushCnt, PageDeletor.pageDeleteReqFire_of_busy hBusy, PageDeletor.flushFired,
    decide_eq_false hState]
  rfl

theorem phase_reqLSU (hSets : params.getCacheParams.setWidth ≠ 1)
    (hSound : ∀ k, (s.machine.caches k).cache.bank.DirtyValid) (hRule : s.Orderly i)
    (hState : s.deletor.stateR = sReqLSU) (hEvents : s.events = []) (hCnt : s.deletor.flushCntR = 0) :
    (s.next i).Phase := by
  have hBusy : s.deletor.stateR ≠ sIdle := by simp [hState]
  have hClosed : ∀ k, s.flushesEntered i k = [] := fun k => flushesEntered_of_closed (by
    change s.deletor.cacheFlushRequestValid k = false
    rw [PageDeletor.cacheFlushRequestValid, hState]
    rfl)
  have hEvents' : (s.next i).events = [] := by
    rw [events_next hBusy, hEvents, WatchedDeletion.emitted, hClosed, hClosed]
    simp [PageDeletor.startMessageFire, PageDeletor.startMessageO, PageDeletor.doneMessageFire, PageDeletor.doneMessageO,
      hState]
  have hCnt' : (s.next i).deletor.flushCntR = 0 := (flushCnt_next hBusy (by simp [hState])).trans hCnt
  cases hGrant : s.grantFire i with
  | true =>
    have hNext : (s.next i).deletor.stateR = sFlushTLBReq := by
      rw [state_next, PageDeletor.nextState, hState]
      exact if_pos hGrant
    rw [Phase, hNext]
    exact ⟨hEvents', hCnt', flushed_grant hSets hSound hRule hGrant⟩
  | false =>
    have hNext : (s.next i).deletor.stateR = sReqLSU := by
      rw [state_next, PageDeletor.nextState, hState]
      exact if_neg (ne_true_of_eq_false hGrant)
    rw [Phase, hNext]
    exact ⟨hEvents', hCnt'⟩

theorem phase_flushTLB (hSets : params.getCacheParams.setWidth ≠ 1)
    (hSound : ∀ k, (s.machine.caches k).cache.bank.DirtyValid) (hRule : s.Orderly i)
    (hState : s.deletor.stateR = sFlushTLBReq ∨ s.deletor.stateR = sFlushTLBReply) (hEvents : s.events = [])
    (hCnt : s.deletor.flushCntR = 0) (hFlushed : s.Flushed 0) : (s.next i).Phase := by
  have hGranted : s.deletor.stateR.granted = true := by rcases hState with hState | hState <;> rw [hState] <;> rfl
  have hBusy := busy_of_granted hGranted
  have hNot : s.deletor.stateR ≠ sFlushPage := by rcases hState with hState | hState <;> simp [hState]
  obtain ⟨hFlushed', _⟩ := hFlushed.next hSets hSound hRule hGranted (Nat.zero_le _) fun hFlush => absurd hFlush hNot
  rw [if_neg hNot] at hFlushed'
  have hEvents' : (s.next i).events = [] := by
    rw [events_next hBusy, hEvents, hFlushed.emitted hRule hGranted, if_neg hNot]
    rcases hState with hState | hState <;>
      simp [PageDeletor.startMessageFire, PageDeletor.startMessageO, PageDeletor.doneMessageFire,
        PageDeletor.doneMessageO, hState]
  have hCnt' : (s.next i).deletor.flushCntR = 0 := (flushCnt_next hBusy hNot).trans hCnt
  have hNext : (s.next i).deletor.stateR = sFlushTLBReq ∨ (s.next i).deletor.stateR = sFlushTLBReply ∨
      (s.next i).deletor.stateR = sNotify := by
    rw [state_next, PageDeletor.nextState]
    rcases hState with hState | hState <;> rw [hState] <;> simp only <;> split <;> simp
  rw [Phase]
  rcases hNext with hNext | hNext | hNext <;> rw [hNext] <;> exact ⟨hEvents', hCnt', hFlushed'⟩

theorem phase_notify (hSets : params.getCacheParams.setWidth ≠ 1)
    (hSound : ∀ k, (s.machine.caches k).cache.bank.DirtyValid) (hRule : s.Orderly i)
    (hState : s.deletor.stateR = sNotify) (hEvents : s.events = []) (hCnt : s.deletor.flushCntR = 0)
    (hFlushed : s.Flushed 0) : (s.next i).Phase := by
  have hGranted : s.deletor.stateR.granted = true := by rw [hState]; rfl
  have hBusy := busy_of_granted hGranted
  have hNot : s.deletor.stateR ≠ sFlushPage := by simp [hState]
  obtain ⟨hFlushed', _⟩ := hFlushed.next hSets hSound hRule hGranted (Nat.zero_le _) fun hFlush => absurd hFlush hNot
  rw [if_neg hNot] at hFlushed'
  have hEvents' := events_next (i := i) hBusy
  rw [hEvents, hFlushed.emitted hRule hGranted, if_neg hNot] at hEvents'
  have hDone : s.deletor.doneMessageFire (s.deletorInput i) = none := by
    simp [PageDeletor.doneMessageFire, PageDeletor.doneMessageO, hState]
  have hCnt' : (s.next i).deletor.flushCntR = 0 := (flushCnt_next hBusy hNot).trans hCnt
  cases hReady : i.startMessageReady with
  | true =>
    have hStart : s.deletor.startMessageFire (s.deletorInput i) =
        some ⟨QEMUMessagesType.sEvictNotify, s.deletor.itemR⟩ := by
      rw [PageDeletor.startMessageFire, PageDeletor.startMessageO, if_pos hState]
      exact if_pos hReady
    have hNext : (s.next i).deletor.stateR = sFlushPage := by
      rw [state_next, PageDeletor.nextState, hState, hStart]
      rfl
    rw [hStart, hDone] at hEvents'
    rw [Phase, hNext]
    refine ⟨?_, ?_⟩
    · rw [hEvents', hCnt', told_next hBusy (by simp [hState])]
      rfl
    · rw [hCnt']
      exact hFlushed'
  | false =>
    have hStart : s.deletor.startMessageFire (s.deletorInput i) = none := by
      rw [PageDeletor.startMessageFire]
      exact if_neg (ne_true_of_eq_false hReady)
    have hNext : (s.next i).deletor.stateR = sNotify := by
      rw [state_next, PageDeletor.nextState, hState, hStart]
      rfl
    rw [hStart, hDone] at hEvents'
    rw [Phase, hNext]
    exact ⟨hEvents', hCnt', hFlushed'⟩

theorem told_succ (cnt : BitVec 6) : s.told (cnt.toNat + 1) =
    s.told cnt.toNat ++ [.flush s.deletor.flushWhich (pageBlock s.ppn cnt)] := by
  rw [told, told, blocksUpTo_succ, List.map_append, List.cons_append]
  rfl

theorem messages_none (hNotify : s.deletor.stateR ≠ sNotify) (hSend : s.deletor.stateR ≠ sSend) :
    s.deletor.startMessageFire (s.deletorInput i) = none ∧ s.deletor.doneMessageFire (s.deletorInput i) = none := by
  simp [PageDeletor.startMessageFire, PageDeletor.startMessageO, PageDeletor.doneMessageFire, PageDeletor.doneMessageO,
    hNotify, hSend]

theorem Flushed.flushFired (hRule : s.Orderly i) (hState : s.deletor.stateR = sFlushPage) {n : Nat} (h : s.Flushed n) :
    s.deletor.flushFired (s.deletorInput i) = true := by
  obtain ⟨gone, hBurst, _⟩ := h
  have hStopped : s.stopped i = true := by rw [stopped, hState]; exact Bool.or_true _
  have hReady := hBurst.flushing.flushReady (hRule.noStall hStopped)
  rw [PageDeletor.flushFired, decide_eq_true hState, Bool.true_and]
  refine hReady.trans ?_
  change (!s.deletor.stallVO s.deletor.flushWhich) = true
  rw [PageDeletor.stallVO, hState]
  rfl

theorem phase_flushPage (hSets : params.getCacheParams.setWidth ≠ 1)
    (hSound : ∀ k, (s.machine.caches k).cache.bank.DirtyValid) (hRule : s.Orderly i)
    (hState : s.deletor.stateR = sFlushPage) (hEvents : s.events = s.told s.deletor.flushCntR.toNat)
    (hFlushed : s.Flushed s.deletor.flushCntR.toNat) : (s.next i).Phase := by
  have hGranted : s.deletor.stateR.granted = true := by rw [hState]; rfl
  have hBusy := busy_of_granted hGranted
  have hFired := hFlushed.flushFired hRule hState
  obtain ⟨hFlushed', _⟩ := hFlushed.next hSets hSound hRule hGranted (Nat.le_of_lt s.deletor.flushCntR.isLt) fun _ => rfl
  rw [if_pos hState] at hFlushed'
  obtain ⟨hStart, hDone⟩ := messages_none (i := i) (by simp [hState] : s.deletor.stateR ≠ sNotify) (by simp [hState])
  have hEvents' : (s.next i).events = (s.next i).told (s.deletor.flushCntR.toNat + 1) := by
    rw [events_next hBusy, hEvents, hFlushed.emitted hRule hGranted, if_pos hState, hStart, hDone,
      told_next hBusy (by simp [hState]), told_succ]
    rfl
  by_cases hLast : s.deletor.flushCntR = 63
  · have hNext : (s.next i).deletor.stateR = sPipe := by
      rw [state_next, PageDeletor.nextState, hState]
      exact if_pos ⟨hLast, hFired⟩
    have hPipe : (s.next i).deletor.pipeCntR = 0 := by
      change s.deletor.nextPipeCnt (s.deletorInput i) = 0
      rw [PageDeletor.nextPipeCnt, if_pos ⟨hLast, hFired⟩]
    have hCount : s.deletor.flushCntR.toNat + 1 = 64 := by rw [hLast]; rfl
    rw [hCount] at hEvents' hFlushed'
    rw [Phase, hNext]
    refine ⟨hEvents', hFlushed', fun hLe => ?_⟩
    rw [hPipe] at hLe
    exact absurd hLe (by decide)
  · have hNext : (s.next i).deletor.stateR = sFlushPage := by
      rw [state_next, PageDeletor.nextState, hState]
      exact if_neg fun hBoth => hLast hBoth.1
    have hCnt : (s.next i).deletor.flushCntR = s.deletor.flushCntR + 1 := by
      change s.deletor.nextFlushCnt (s.deletorInput i) = _
      rw [PageDeletor.nextFlushCnt, PageDeletor.pageDeleteReqFire_of_busy hBusy, hFired]
      rfl
    rw [Phase, hNext, hCnt]
    simp only
    rw [PageDeletor.flushCnt_succ hLast]
    exact ⟨hEvents', hFlushed'⟩

/-- All flushes are taken; the last one leaves the bank and the last writeback its queue. -/
theorem quiet_next (hSets : params.getCacheParams.setWidth ≠ 1)
    (hSound : ∀ k, (s.machine.caches k).cache.bank.DirtyValid) (hRule : s.Orderly i)
    (hState : s.deletor.stateR = sPipe ∨ s.deletor.stateR = sWait) (hEvents : s.events = s.told 64)
    (hFlushed : s.Flushed 64) : (s.next i).events = (s.next i).told 64 ∧ (s.next i).Flushed 64 ∧
      (s.next i).selected.cache.bank.inFlight = [] := by
  have hGranted : s.deletor.stateR.granted = true := by rcases hState with hState | hState <;> rw [hState] <;> rfl
  have hBusy := busy_of_granted hGranted
  have hNot : s.deletor.stateR ≠ sFlushPage := by rcases hState with hState | hState <;> simp [hState]
  have hReply : s.deletor.stateR ≠ sFlushTLBReply := by rcases hState with hState | hState <;> simp [hState]
  obtain ⟨hFlushed', hFlight⟩ := hFlushed.next hSets hSound hRule hGranted le_rfl fun hFlush => absurd hFlush hNot
  rw [if_neg hNot] at hFlushed'
  obtain ⟨hStart, hDone⟩ := messages_none (i := i)
    (by rcases hState with hState | hState <;> simp [hState] : s.deletor.stateR ≠ sNotify)
    (by rcases hState with hState | hState <;> simp [hState])
  refine ⟨?_, hFlushed', hFlight hNot⟩
  rw [events_next hBusy, hEvents, hFlushed.emitted hRule hGranted, if_neg hNot, hStart, hDone, told_next hBusy hReply]
  exact List.append_nil _

theorem phase_pipe (hSets : params.getCacheParams.setWidth ≠ 1)
    (hSound : ∀ k, (s.machine.caches k).cache.bank.DirtyValid) (hRule : s.Orderly i)
    (hState : s.deletor.stateR = sPipe) (hEvents : s.events = s.told 64) (hFlushed : s.Flushed 64)
    (hFlight : 1 ≤ s.deletor.pipeCntR.toNat → s.selected.cache.bank.inFlight = []) : (s.next i).Phase := by
  have hBusy : s.deletor.stateR ≠ sIdle := by simp [hState]
  obtain ⟨hEvents', hFlushed', hFlight'⟩ := quiet_next hSets hSound hRule (.inl hState) hEvents hFlushed
  by_cases hLast : s.deletor.pipeCntR = 3
  · have hNext : (s.next i).deletor.stateR = sWait := by
      rw [state_next, PageDeletor.nextState, hState]
      exact if_pos hLast
    rw [Phase, hNext]
    exact ⟨hEvents', hFlushed', hFlight', hFlushed.drained_next hBusy (hFlight (by rw [hLast]; decide))⟩
  · have hNext : (s.next i).deletor.stateR = sPipe := by
      rw [state_next, PageDeletor.nextState, hState]
      exact if_neg hLast
    rw [Phase, hNext]
    exact ⟨hEvents', hFlushed', fun _ => hFlight'⟩

theorem phase_wait (hSets : params.getCacheParams.setWidth ≠ 1)
    (hSound : ∀ k, (s.machine.caches k).cache.bank.DirtyValid) (hRule : s.Orderly i)
    (hState : s.deletor.stateR = sWait) (hEvents : s.events = s.told 64) (hFlushed : s.Flushed 64)
    (hFlight : s.selected.cache.bank.inFlight = []) (hDrained : s.Drained) : (s.next i).Phase := by
  have hBusy : s.deletor.stateR ≠ sIdle := by simp [hState]
  obtain ⟨hEvents', hFlushed', hFlight'⟩ := quiet_next hSets hSound hRule (.inr hState) hEvents hFlushed
  cases hEmpty : s.deletor.queueEmpty (s.deletorInput i) with
  | true =>
    have hNext : (s.next i).deletor.stateR = sSend := by
      rw [state_next, PageDeletor.nextState, hState]
      exact if_pos hEmpty
    have hRequests : s.selected.requests = [] := List.isEmpty_iff.mp hEmpty
    have hNone : s.selected.outstanding = [] := by
      rw [MemoryPort.outstanding, hRequests, OrderedPort.queued, if_pos rfl, hDrained hRequests]
      rfl
    rw [Phase, hNext]
    refine ⟨hEvents', hFlushed', hFlight', ?_⟩
    rw [selected_next hBusy]
    exact MemoryPort.outstanding_next_nil (List.map_eq_nil_iff.mp hFlight) hNone
  | false =>
    have hNext : (s.next i).deletor.stateR = sWait := by
      rw [state_next, PageDeletor.nextState, hState]
      exact if_neg (ne_true_of_eq_false hEmpty)
    rw [Phase, hNext]
    exact ⟨hEvents', hFlushed', hFlight', hFlushed.drained_next hBusy hFlight⟩

theorem phase_send (hSets : params.getCacheParams.setWidth ≠ 1)
    (hSound : ∀ k, (s.machine.caches k).cache.bank.DirtyValid) (hRule : s.Orderly i)
    (hState : s.deletor.stateR = sSend) (hEvents : s.events = s.told 64) (hFlushed : s.Flushed 64)
    (hFlight : s.selected.cache.bank.inFlight = []) (hNone : s.selected.outstanding = []) : (s.next i).Phase := by
  have hGranted : s.deletor.stateR.granted = true := by rw [hState]; rfl
  have hBusy := busy_of_granted hGranted
  have hNot : s.deletor.stateR ≠ sFlushPage := by simp [hState]
  have hReply : s.deletor.stateR ≠ sFlushTLBReply := by simp [hState]
  have hStart : s.deletor.startMessageFire (s.deletorInput i) = none := by
    simp [PageDeletor.startMessageFire, PageDeletor.startMessageO, hState]
  have hEvents' := events_next (i := i) hBusy
  rw [hEvents, hFlushed.emitted hRule hGranted, if_neg hNot, hStart] at hEvents'
  cases hReady : i.doneMessageReady with
  | true =>
    have hDone : s.deletor.doneMessageFire (s.deletorInput i) = some ⟨QEMUMessagesType.sEvictDone, s.deletor.itemR⟩ := by
      rw [PageDeletor.doneMessageFire, PageDeletor.doneMessageO, if_pos hState]
      exact if_pos hReady
    have hNext : (s.next i).deletor.stateR = sNotifyLSU := by
      rw [state_next, PageDeletor.nextState, hState, hDone]
      rfl
    have hItem : (s.next i).deletor.itemR = s.deletor.itemR := PageDeletor.item_next_of_ne hBusy hReply
    rw [Phase, hNext]
    simp only
    rw [hEvents', hDone, hItem, which_next hBusy]
    rfl
  | false =>
    have hDone : s.deletor.doneMessageFire (s.deletorInput i) = none := by
      rw [PageDeletor.doneMessageFire]
      exact if_neg (ne_true_of_eq_false hReady)
    have hNext : (s.next i).deletor.stateR = sSend := by
      rw [state_next, PageDeletor.nextState, hState, hDone]
      rfl
    obtain ⟨hFlushed', hFlight'⟩ := hFlushed.next hSets hSound hRule hGranted le_rfl fun hFlush => absurd hFlush hNot
    rw [if_neg hNot] at hFlushed'
    rw [hDone] at hEvents'
    rw [Phase, hNext]
    refine ⟨?_, hFlushed', hFlight' hNot, ?_⟩
    · rw [hEvents', told_next hBusy hReply]
      exact List.append_nil _
    · rw [selected_next hBusy]
      exact MemoryPort.outstanding_next_nil (List.map_eq_nil_iff.mp hFlight) hNone

theorem phase_notifyLSU (hState : s.deletor.stateR = sNotifyLSU)
    (hEvents : s.events = deletionProtocol s.deletor.itemR s.deletor.flushWhich) : (s.next i).Phase := by
  have hBusy : s.deletor.stateR ≠ sIdle := by simp [hState]
  cases hFire : s.deletor.flushCompleteRequestFire (s.deletorInput i) with
  | true =>
    have hNext : (s.next i).deletor.stateR = sIdle := by
      rw [state_next, PageDeletor.nextState, hState]
      exact if_pos hFire
    rw [Phase, hNext]
    trivial
  | false =>
    have hNext : (s.next i).deletor.stateR = sNotifyLSU := by
      rw [state_next, PageDeletor.nextState, hState]
      exact if_neg (ne_true_of_eq_false hFire)
    have hClosed : ∀ k, s.flushesEntered i k = [] := fun k => flushesEntered_of_closed (by
      change s.deletor.cacheFlushRequestValid k = false
      rw [PageDeletor.cacheFlushRequestValid, hState]
      rfl)
    obtain ⟨hStart, hDone⟩ := messages_none (i := i) (by simp [hState] : s.deletor.stateR ≠ sNotify) (by simp [hState])
    have hItem : (s.next i).deletor.itemR = s.deletor.itemR := PageDeletor.item_next_of_ne hBusy (by simp [hState])
    rw [Phase, hNext]
    simp only
    rw [events_next hBusy, hEvents, WatchedDeletion.emitted, hClosed, hClosed, hStart, hDone, hItem, which_next hBusy]
    exact List.append_nil _

theorem phase_next (hSets : params.getCacheParams.setWidth ≠ 1)
    (hSound : ∀ k, (s.machine.caches k).cache.bank.DirtyValid) (hRule : s.Orderly i) (h : s.Phase) : (s.next i).Phase := by
  rw [Phase] at h
  cases hState : s.deletor.stateR with
  | sIdle => exact phase_idle hState
  | sReqLSU =>
    rw [hState] at h
    exact phase_reqLSU hSets hSound hRule hState h.1 h.2
  | sFlushTLBReq =>
    rw [hState] at h
    exact phase_flushTLB hSets hSound hRule (.inl hState) h.1 h.2.1 h.2.2
  | sFlushTLBReply =>
    rw [hState] at h
    exact phase_flushTLB hSets hSound hRule (.inr hState) h.1 h.2.1 h.2.2
  | sNotify =>
    rw [hState] at h
    exact phase_notify hSets hSound hRule hState h.1 h.2.1 h.2.2
  | sFlushPage =>
    rw [hState] at h
    exact phase_flushPage hSets hSound hRule hState h.1 h.2
  | sPipe =>
    rw [hState] at h
    exact phase_pipe hSets hSound hRule hState h.1 h.2.1 h.2.2
  | sWait =>
    rw [hState] at h
    exact phase_wait hSets hSound hRule hState h.1 h.2.1 h.2.2.1 h.2.2.2
  | sSend =>
    rw [hState] at h
    exact phase_send hSets hSound hRule hState h.1 h.2.1 h.2.2.1 h.2.2.2
  | sNotifyLSU =>
    rw [hState] at h
    exact phase_notifyLSU hState h

end Phases

section Run

variable {s} {i}

structure Inv (s : WatchedDeletion params core) : Prop where
  owned : s.Owned
  sound : ∀ k, (s.machine.caches k).cache.bank.DirtyValid
  phase : s.Phase

theorem Inv.start (item : PageTableItem params.getPageTableParams)
    (missHandler : QEMUMissReplyHandler params.getPageTableParams)
    (evictHandler : QEMUPageEvictHandler params.getPageTableParams) (lastGrant : Fin 2 → Fin 2) :
    (start (.init item missHandler evictHandler lastGrant : PageDeletion params core)).Inv where
  owned := ⟨(fun h => by cases h), (fun h => by cases h)⟩
  sound _ := .init
  phase := trivial

theorem Inv.next (hSets : params.getCacheParams.setWidth ≠ 1) (h : s.Inv) (hRule : s.Orderly i) : (s.next i).Inv where
  owned := h.owned.next
  sound k := (h.sound k).next (cacheUpdateFunction _) _
  phase := phase_next hSets h.sound hRule h.phase

theorem told_prefix {n : Nat} (hn : n ≤ 64) :
    s.told n <+: deletionProtocol s.deletor.itemR s.deletor.flushWhich := by
  have hRange : List.range n <+: List.range 64 := by
    rw [show 64 = n + (64 - n) by omega, List.range_add]
    exact List.prefix_append _ _
  rw [told, deletionProtocol, List.cons_append, List.cons_prefix_cons]
  exact ⟨rfl, ((hRange.map _).map _).trans (List.prefix_append _ _)⟩

theorem Inv.ordered (h : s.Inv) (hBusy : s.deletor.stateR ≠ sIdle) :
    s.events <+: deletionProtocol s.deletor.itemR s.deletor.flushWhich := by
  have hPhase := h.phase
  rw [Phase] at hPhase
  cases hState : s.deletor.stateR <;> simp only [hState] at hPhase
  case sIdle => exact absurd hState hBusy
  case sReqLSU | sFlushTLBReq | sFlushTLBReply | sNotify =>
    rw [hPhase.1]
    exact List.nil_prefix
  case sFlushPage =>
    rw [hPhase.1]
    exact told_prefix (Nat.le_of_lt s.deletor.flushCntR.isLt)
  case sPipe | sWait | sSend =>
    rw [hPhase.1]
    exact told_prefix le_rfl
  case sNotifyLSU => rw [hPhase]

theorem Inv.complete (h : s.Inv) (hFire : s.deletor.flushCompleteRequestFire (s.deletorInput i) = true) :
    s.events = deletionProtocol s.deletor.itemR s.deletor.flushWhich := by
  have hState : s.deletor.stateR = sNotifyLSU := by
    rw [PageDeletor.flushCompleteRequestFire, Bool.and_eq_true] at hFire
    exact of_decide_eq_true hFire.1
  have hPhase := h.phase
  rw [Phase, hState] at hPhase
  exact hPhase

theorem Inv.settled (h : s.Inv) (hFire : s.doneFire i = true) (k : Fin 2) {addr : params.getCacheParams.Addr}
    (hAddr : addr ∈ pageBlocks s.ppn) : s.Settled k addr := by
  have hState : s.deletor.stateR = sSend := by
    by_contra hNot
    simp [doneFire, PageDeletor.doneMessageFire, PageDeletor.doneMessageO, hNot] at hFire
  have hPhase := h.phase
  rw [Phase, hState] at hPhase
  obtain ⟨_, ⟨gone, hBurst, hGone⟩, hFlight, hNone⟩ := hPhase
  rw [hFlight, List.append_nil] at hGone
  have hMem : addr ∈ gone := hGone ▸ hAddr
  rcases PageDeletor.eq_which_or_other (u := s.deletor) k with rfl | rfl
  · refine ⟨fun way hIn => absurd hIn (hBurst.flushing.bank.erased.absent addr hMem way), fun request hRequest => ?_, ?_⟩
    · rw [hNone] at hRequest
      cases hRequest
    · have hSaved := hBurst.flushing.saved addr hMem
      rwa [hNone, List.append_nil] at hSaved
  · refine ⟨hBurst.untouched.bank.clean addr hAddr, fun request hRequest hEq => ?_, fun way hIn hDirty => ?_⟩
    · exact hBurst.untouched.outstanding request hRequest (hEq ▸ hAddr)
    · rw [hBurst.clean addr hAddr way hIn] at hDirty
      cases hDirty

theorem Inv.protocol (h : s.Inv) (hRule : s.Orderly i) : s.Protocol i where
  ordered := h.ordered
  complete := h.complete
  settled hFire k _ hAddr := h.settled hFire k hAddr
  missLeaves := (h.owned.leaves hRule).1
  evictLeaves := (h.owned.leaves hRule).2

/-- A deletion under way comes to its end in a run that is longer than what is left of it and the
cycles in which another unit refuses a step. -/
theorem deletion_ends (s : WatchedDeletion params core) (is : List (PageDeletion.Input params))
    (hBusy : s.deletor.stateR ≠ sIdle)
    (hLong : s.deletor.remaining + machineOf.total (fun s i => (s.deletor.refused (s.deletorInput i)).toNat) s is < is.length) :
    0 < machineOf.total (fun s i => (s.deletor.flushCompleteRequestFire (s.deletorInput i)).toNat) s is := by
  have hAlong : machineOf.Along (fun _ _ => True) s is := by
    rw [Machine.along_iff_prefix]
    exact fun _ _ _ _ => trivial
  exact hAlong.progress (fun s => s.deletor.stateR ≠ sIdle) (fun s => s.deletor.remaining)
    (fun s i => (s.deletor.refused (s.deletorInput i)).toNat) hBusy
    (fun s i hBusy _ hOpen => PageDeletor.remaining_next hBusy hOpen) hLong

end Run

end WatchedDeletion

open WatchedDeletion

/-- In a run from reset in which the pages that are deleted were modified, the unit that accesses a
page has stopped when it grants the deletion, no flush waits in the cache, and the other cache has
nothing to do with the page, every deletion follows the protocol, and comes to its end unless another
unit refuses its steps for ever. -/
theorem page_deletion (hSets : params.getCacheParams.setWidth ≠ 1) (item : PageTableItem params.getPageTableParams)
    (missHandler : QEMUMissReplyHandler params.getPageTableParams)
    (evictHandler : QEMUPageEvictHandler params.getPageTableParams) (lastGrant : Fin 2 → Fin 2)
    {is : List (PageDeletion.Input params)}
    (hRule : machineOf.Along Orderly (start (.init item missHandler evictHandler lastGrant : PageDeletion params core)) is) :
    let s := start (.init item missHandler evictHandler lastGrant : PageDeletion params core)
    machineOf.Along Protocol s is ∧
      ∀ js ks, is = js ++ ks → (machineOf.run s js).deletor.stateR ≠ .sIdle →
        (machineOf.run s js).deletor.remaining +
          machineOf.total (fun s i => (s.deletor.refused (s.deletorInput i)).toNat) (machineOf.run s js) ks < ks.length →
        0 < machineOf.total (fun s i => (s.deletor.flushCompleteRequestFire (s.deletorInput i)).toNat)
          (machineOf.run s js) ks := by
  intro s
  have hStart : s.Inv := .start item missHandler evictHandler lastGrant
  refine ⟨hRule.of_invariant hStart (fun _ _ hInv hStep => hInv.next hSets hStep) (fun _ _ hInv hStep => hInv.protocol hStep), ?_⟩
  intro js ks _ hBusy hLong
  exact deletion_ends _ ks hBusy hLong

section Bare

/-- The deletor and the two handlers without the caches. -/
structure DeletionControls (params : MemoryHierarchyParams) where
  deletor : PageDeletor params.getPageTableParams
  missHandler : QEMUMissReplyHandler params.getPageTableParams
  evictHandler : QEMUPageEvictHandler params.getPageTableParams

variable {s : PageDeletion params core} {i : PageDeletion.Input params}

def PageDeletion.controls (s : PageDeletion params core) : DeletionControls params :=
  ⟨s.deletor, s.missHandler, s.evictHandler⟩

/-- The controls in front of caches that were just reset. -/
def DeletionControls.bare (core : LRUCore params.getCacheParams.wayWidth) (c : DeletionControls params) :
    PageDeletion params core :=
  ⟨c.deletor, c.missHandler, c.evictHandler, fun _ => .init 0⟩

/-- Caches that hold nothing take every flush and have nothing to write. -/
theorem deletorInput_of_bare (h : ∀ k, (s.caches k).Bare) : s.deletorInput i =
    { s.deletorInput i with cacheFlushRequestReady := fun k => !s.deletor.stallVO k, wbQueueEmptyI := fun _ => true } := by
  have hReady : (s.deletorInput i).cacheFlushRequestReady = fun k => !s.deletor.stallVO k := funext fun k => by
    change (!s.deletor.stallVO k && (s.caches k).cache.bank.pipelineStateReady0 _) = _
    rw [(h k).pipelineStateReady0, Bool.and_true]
  have hEmpty : (s.deletorInput i).wbQueueEmptyI = fun _ => true := funext fun k => by
    change (s.caches k).requests.isEmpty = true
    rw [(h k).requests]
    rfl
  rw [← hReady, ← hEmpty]

theorem controls_next (h : ∀ k, (s.caches k).Bare) : (s.next i).controls = ((s.controls.bare core).next i).controls := by
  have hInput : s.deletorInput i = (s.controls.bare core).deletorInput i := by
    rw [deletorInput_of_bare h, deletorInput_of_bare (s := s.controls.bare core) fun _ => .init 0]
    rfl
  have hDone : s.doneO i = (s.controls.bare core).doneO i := congrArg s.deletor.doneO hInput
  rw [PageDeletion.controls, PageDeletion.next, PageDeletion.missInput, PageDeletion.evictInput, hInput, hDone]
  rfl

namespace DeletionControls

variable (core) in
def machineOf : Machine (DeletionControls params) (PageDeletion.Input params) Unit where
  next c i := ((c.bare core).next i).controls
  output _ _ := ()

/-- No unit is stopped in this cycle, and the page that waits for its writes was modified. -/
def Calm (c : DeletionControls params) (i : PageDeletion.Input params) : Prop :=
  (c.deletor.stateR = .sReqLSU → i.flushPermReqReady c.deletor.flushWhich = false) ∧
    (c.deletor.stateR = .sWait → c.deletor.itemR.entry.modified = true)

instance (c : DeletionControls params) (i : PageDeletion.Input params) : Decidable (c.Calm i) :=
  inferInstanceAs (Decidable ((_ → _) ∧ (_ → _)))

end DeletionControls

/-- With no block cached a run of the controls is a run of the whole. -/
theorem controls_run (s : WatchedDeletion params core) {is : List (PageDeletion.Input params)}
    (h : ∀ k, (s.machine.caches k).Bare) (hQuiet : ∀ i ∈ is, ∀ k, (i.ports k).pipelineValid = false) :
    (machineOf.run s is).machine.controls = (DeletionControls.machineOf core).run s.machine.controls is := by
  induction is generalizing s with
  | nil => rfl
  | cons i is ih =>
    have hNext : ∀ k, ((s.next i).machine.caches k).Bare := fun k => (h k).next (hQuiet i List.mem_cons_self k)
    rw [Machine.run_cons, Machine.run_cons]
    exact (ih (s.next i) hNext fun j hj => hQuiet j (List.mem_cons_of_mem i hj)).trans
      (congrArg (fun c => (DeletionControls.machineOf core).run c is) (controls_next h))

/-- So is what the protocol asks of its cycles. -/
theorem orderly_of_controls (s : WatchedDeletion params core) {is : List (PageDeletion.Input params)}
    (h : ∀ k, (s.machine.caches k).Bare) (hQuiet : ∀ i ∈ is, ∀ k, (i.ports k).pipelineValid = false)
    (hCalm : (DeletionControls.machineOf core).Along DeletionControls.Calm s.machine.controls is) :
    machineOf.Along Orderly s is := by
  induction is generalizing s with
  | nil => trivial
  | cons i is ih =>
    obtain ⟨⟨hUngranted, hModified⟩, hRest⟩ := hCalm
    have hQuietNow := hQuiet i List.mem_cons_self
    have hGrant : s.grantFire i = false := by
      rw [grantFire, PageDeletor.flushPermissionRequestFire, Bool.and_eq_false_imp]
      exact fun hReq => hUngranted (of_decide_eq_true hReq)
    refine ⟨⟨fun hWait _ => hModified hWait, ?_, ?_, fun _ => hQuietNow _, fun _ _ => ?_, ?_, fun _ hAsk => ?_⟩, ?_⟩
    · simp [hGrant]
    · simp [hGrant]
    · rw [(h _).misses, (h _).writebacks]
      exact ⟨rfl, rfl⟩
    · simp [hGrant]
    · rw [hQuietNow] at hAsk
      cases hAsk
    · refine ih (s.next i) (fun k => (h k).next (hQuietNow k)) (fun j hj => hQuiet j (List.mem_cons_of_mem i hj)) ?_
      exact (controls_next h).symm ▸ hRest

end Bare

section FourSets

/-- Pages of 64 blocks of 64 bytes, and caches of four sets of two ways. -/
abbrev fourSetHierarchy : MemoryHierarchyParams := ⟨smallTable, ⟨2, 1, 5, 6, 4⟩, rfl⟩

def blankItem : PageTableItem fourSetHierarchy.getPageTableParams := ⟨⟨0, 0⟩, ⟨0, 0, false⟩⟩

def resetDeletion : PageDeletion fourSetHierarchy (PseudoTreeLRUCore 1) :=
  .init blankItem ⟨.sIdle, ⟨⟨0, 0⟩, 0, 0, false, 0⟩, false, blankItem, 0⟩ ⟨.sIdle, ⟨⟨0, 0⟩⟩, 0, blankItem⟩ fun _ => 0

/-- The set with page 0 alone in it, not modified. -/
def onePageSet : SetWords := fun k => if k = 0 then 0x10000 else 0

def readyPort : MemoryPort.Input fourSetHierarchy.getCacheParams := ⟨⟨0, 0, 0⟩, false, 0, false, false, none, false, false⟩

def readyCycle (modified : Bool) : PageDeletion.Input fourSetHierarchy where
  flushPermReqReady _ := true
  flushCompledReady _ := true
  tlbFlushReady _ := true
  tlbFlushResp _ := some ⟨⟨0, 0, modified⟩, true, false, 0⟩
  startMessageReady := true
  doneMessageReady := true
  qemuMissReply := none
  tlbBackendReplyReady := true
  missMoved := ⟨onePageSet, true, true, true⟩
  evictRequest := none
  evictMoved := ⟨onePageSet, true, true, true⟩
  ports _ := readyPort

/-- The host asks for the eviction of page 0; a modified page has a store to its first block in the data cache. -/
def evictCycle (modified : Bool) : PageDeletion.Input fourSetHierarchy :=
  { readyCycle modified with
    evictRequest := some ⟨⟨0, 0⟩⟩
    ports := fun k =>
      if k = 1 then { readyPort with pipelineReq := ⟨0, 5, BitVec.allOnes _⟩, pipelineValid := modified } else readyPort }

def writtenCycle : PageDeletion.Input fourSetHierarchy :=
  { readyCycle true with ports := fun k => { readyPort with writeDone := decide (k = 1) } }

theorem quiet_cycles (n : Nat) : ∀ i ∈ evictCycle false :: List.replicate n (readyCycle false), ∀ k,
    (i.ports k).pipelineValid = false := by
  intro i hi
  rcases List.mem_cons.mp hi with rfl | hi
  · decide
  · rw [List.eq_of_mem_replicate hi]
    decide

/-- The eviction of a page that was not modified: its handler goes on to take the entry out of the
page table one cycle before the host is told that the eviction is done. -/
theorem handler_leaves_early :
    ¬ machineOf.Along Protocol (start resetDeletion) (evictCycle false :: List.replicate 76 (readyCycle false)) := by
  intro hProtocol
  have hSplit : evictCycle false :: List.replicate 76 (readyCycle false) =
      (evictCycle false :: List.replicate 75 (readyCycle false)) ++ [readyCycle false] := by
    rw [List.cons_append, ← List.replicate_succ']
  have hLast := (Machine.along_iff_prefix _ _).mp hProtocol _ _ [] hSplit
  have hRun := controls_run (start resetDeletion) (fun _ => .init 0) (quiet_cycles 75)
  have hAfter := controls_run (start resetDeletion) (fun _ => .init 0) (quiet_cycles 76)
  rw [hSplit, Machine.run_append, Machine.run_cons, Machine.run_nil] at hAfter
  have hWait := congrArg (fun c => (c.deletor.stateR, c.evictHandler.stateR)) hRun
  have hLeft := congrArg (fun c => c.evictHandler.stateR) hAfter
  simp only [PageDeletion.controls] at hWait hLeft
  obtain ⟨hDone, _⟩ := hLast.evictLeaves ((Prod.mk.inj hWait).2.trans (by decide +kernel))
    (by
      change (machineOf.next _ _).machine.evictHandler.stateR ≠ _
      rw [hLeft]
      decide +kernel)
  have hState := (Prod.mk.inj hWait).1
  rw [doneFire, PageDeletor.doneMessageFire, PageDeletor.doneMessageO] at hDone
  have hSend : (machineOf.run (start resetDeletion) (evictCycle false :: List.replicate 75 (readyCycle false))).deletor.stateR
      ≠ .sSend := by
    change PageDeletor.stateR (machineOf.run _ _).machine.deletor ≠ _
    rw [hState]
    decide +kernel
  rw [if_neg hSend, ite_self] at hDone
  cases hDone

/-- The request of the host and the store are taken, the first blocks are flushed, and the block stored to is written. -/
def evicted : List (PageDeletion.Input fourSetHierarchy) :=
  evictCycle true :: List.replicate 16 (readyCycle true) ++ [writtenCycle]

/-- Nothing is cached any more when the write is done. -/
theorem bare_evicted (k : Fin 2) : ((machineOf.run (start resetDeletion) evicted).machine.caches k).Bare := by
  have hBare : ∀ k : Fin 2, let port := (machineOf.run (start resetDeletion) evicted).machine.caches k
      (port.cache.bank.s1FrontendRequestR.length ≤ 1 ∧ port.cache.bank.bankRamReplyQ = [] ∧
        (port.cache.bank.readReplyValid = true → port.cache.bank.s1FrontendRequestR ≠ [])) ∧
      (∀ set way, (port.cache.bank.bram.mem set way).v = false) ∧ (∀ way, (port.cache.bank.bram.ramDataA way).v = false) ∧
      (∀ q ∈ port.cache.bank.s1FrontendRequestR, q.packet.flushV = true ∧ port.cache.bank.readReplyValid = true) ∧
      port.cache.bank.s2BankWritingR.isNone = true ∧ port.cache.bank.s2MissRequestR = [] ∧
      port.cache.bank.s2WritebackRequestR = [] ∧ port.cache.refillQueue = [] ∧ port.requests = [] := by
    decide +kernel
  obtain ⟨⟨hOne, hReply, hSome⟩, hInvalid, hWord, hFlushes, hContext, hMisses, hWritebacks, hRefills, hRequests⟩ := hBare k
  exact ⟨⟨hOne, hReply, hSome⟩, hInvalid, hWord, hFlushes, Option.isNone_iff_eq_none.mp hContext, hMisses, hWritebacks,
    hRefills, hRequests⟩

/-- A page with a dirty block is deleted from the request of the host to the second message. -/
theorem page_deletion_modified :
    let s := start resetDeletion
    let is := evicted ++ List.replicate 67 (readyCycle true)
    machineOf.Along Protocol s is ∧
      ∀ js ks, is = js ++ ks → (machineOf.run s js).deletor.stateR ≠ .sIdle →
        (machineOf.run s js).deletor.remaining +
          machineOf.total (fun s i => (s.deletor.refused (s.deletorInput i)).toNat) (machineOf.run s js) ks < ks.length →
        0 < machineOf.total (fun s i => (s.deletor.flushCompleteRequestFire (s.deletorInput i)).toNat)
          (machineOf.run s js) ks := by
  refine page_deletion (by decide) _ _ _ _ ((Machine.along_append _ _ _).mpr ⟨by decide +kernel, ?_⟩)
  refine orderly_of_controls _ bare_evicted (fun i hi => ?_) (by decide +kernel)
  rw [List.eq_of_mem_replicate hi]
  decide

end FourSets

end KnockoutKraken.Mmu
