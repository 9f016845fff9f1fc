import KnockoutKraken.Armflex.Fetch
import KnockoutKraken.Armflex.ResponseMatching

/-!
# The addresses and words of the instruction fetch

The fetch unit is watched together with the program counters under
translation, the translated pages that wait for the cache, and the
requests at the cache. The address is put together from the page and the
program counter shown when the translation comes, which may be that of
the next thread.
-/

namespace KnockoutKraken.Armflex

open Library Util

structure WatchedFetch (params : PipelineParams) where
  unit : FetchUnit params Unit
  translating : List (FetchMeta params)
  translated : List (FetchMeta params × params.PAddr)
  port : WatchedInterface (Labelled Unit (FetchMeta params))

namespace WatchedFetch

open FetchUnit

variable {params : PipelineParams} (s : WatchedFetch params) (i : FetchUnit.Input params Unit)

def portInput : WatchedInterface.Input params (Labelled Unit (FetchMeta params)) where
  req := if s.unit.portValid then s.unit.cacheReqQ.head?.map FetchPending.inst else none
  cacheReady := i.cacheReqReady
  resp := i.cacheResp
  pipeReady := s.unit.respReady i

/-- The page that the oldest program counter under translation hits in this cycle, when its request is queued. -/
def hitPage : Option (FetchMeta params × params.PAddr) :=
  if cacheReqQueue.enqReady s.unit.cacheReqQ (s.unit.cacheReqDeqReady i) then
    (i.tlbResp.filter PipeTLBResp.hit).bind fun resp => s.translating.head?.map fun m => (m, resp.addr)
  else none

def next : WatchedFetch params where
  unit := s.unit.next i
  translating := (if i.tlbResp.isSome then s.translating.tail else s.translating) ++
    if s.unit.tlbReqFire i then [s.unit.metaDataTLBW] else []
  translated := (if (s.unit.cacheReqFired i).isSome then s.translated.tail else s.translated) ++ (s.hitPage i).toList
  port := s.port.next instQueueEntries (s.portInput i)

def machine (params : PipelineParams) : Machine (WatchedFetch params) (FetchUnit.Input params Unit) (FetchUnit.Output params Unit) :=
  ⟨next, fun s i => (FetchUnit.machine params Unit).output s.unit i⟩

def reset (metaDataTLB : FetchMeta params) : WatchedFetch params := ⟨.reset metaDataTLB, [], [], .reset⟩

structure Answers : Prop where
  asked : i.tlbResp.isSome = true → s.translating ≠ []
  page : ∀ resp ∈ i.tlbResp, params.IsPage resp.addr
  cache : s.port.InOrder (s.portInput i)

/-- The address that a translated program counter is to be fetched from, with what goes along. -/
def wanted (t : FetchMeta params × params.PAddr) : FetchMeta params × params.PAddr := (t.1, params.inPage t.2 t.1.pc)

/-- The cache is asked for the translated page and offset of one program counter, and the word put into the
instruction queue is the one that the program counter of the answered request selects. -/
structure Right : Prop where
  request : ∀ q ∈ s.unit.cacheReqFired i, s.translated.head?.map wanted = some (q.inst.bits, q.paddr)
  word : ∀ r ∈ i.cacheResp, r.miss = false → s.unit.respReady i = true ∧ s.unit.instEnq i =
    (s.port.answered (s.portInput i)).map fun m => ⟨⟨m.bits.id, instBits m.bits.pc r.data⟩, m.label⟩

/-- When a translation hits, the register holds its program counter and the one that is shown has the same
offset; when the cache answers, the receiver of the answer has room. -/
structure Shown : Prop where
  register : ∀ resp ∈ i.tlbResp, resp.hit = true → s.translating.head? = some s.unit.metaDataTLB ∧
    params.pageOffset s.unit.metaDataTLBW.pc = params.pageOffset s.unit.metaDataTLB.pc
  answered : i.cacheResp.isSome = true → s.unit.respReady i = true
  long : ∀ r ∈ i.cacheResp, r.miss = true → s.unit.cacheAdaptor.longQ.length < instQueueEntries

instance : Decidable (s.Answers i) :=
  decidable_of_iff ((i.tlbResp.isSome = true → s.translating ≠ []) ∧ (∀ resp ∈ i.tlbResp, params.IsPage resp.addr) ∧
    s.port.InOrder (s.portInput i)) ⟨fun ⟨hA, hP, hC⟩ => ⟨hA, hP, hC⟩, fun h => ⟨h.asked, h.page, h.cache⟩⟩

instance : Decidable (s.Right i) :=
  decidable_of_iff ((∀ q ∈ s.unit.cacheReqFired i, s.translated.head?.map wanted = some (q.inst.bits, q.paddr)) ∧
    ∀ r ∈ i.cacheResp, r.miss = false → s.unit.respReady i = true ∧ s.unit.instEnq i =
      (s.port.answered (s.portInput i)).map fun m => ⟨⟨m.bits.id, instBits m.bits.pc r.data⟩, m.label⟩)
    ⟨fun ⟨hR, hW⟩ => ⟨hR, hW⟩, fun h => ⟨h.request, h.word⟩⟩

instance : Decidable (s.Shown i) :=
  decidable_of_iff ((∀ resp ∈ i.tlbResp, resp.hit = true → s.translating.head? = some s.unit.metaDataTLB ∧
      params.pageOffset s.unit.metaDataTLBW.pc = params.pageOffset s.unit.metaDataTLB.pc) ∧
    (i.cacheResp.isSome = true → s.unit.respReady i = true) ∧
    ∀ r ∈ i.cacheResp, r.miss = true → s.unit.cacheAdaptor.longQ.length < instQueueEntries)
    ⟨fun ⟨hR, hA, hL⟩ => ⟨hR, hA, hL⟩, fun h => ⟨h.register, h.answered, h.long⟩⟩

structure Inv : Prop where
  requests : s.unit.cacheReqQ.map (fun q => (q.inst.bits, q.paddr)) = s.translated.map wanted
  adaptor : s.port.metaQ = s.unit.cacheAdaptor
  port : s.port.Inv

variable {s} {i}

theorem accept_eq (hInv : s.Inv) : s.port.accept instQueueEntries (s.portInput i) =
    (s.unit.cacheReqFired i).map FetchPending.inst := by
  rw [WatchedInterface.accept, cacheReqFired, portInput, hInv.adaptor]
  cases hValid : s.unit.portValid with
  | false => simp [CacheInterface.cacheValid]
  | true =>
    have hSome : (s.unit.cacheReqQ.head?.map FetchPending.inst).isSome = true := by
      simp only [FetchUnit.portValid, Bool.and_eq_true, Bool.not_eq_true', List.isEmpty_eq_false_iff] at hValid
      simpa using hValid.1
    rw [if_pos rfl, hSome]
    split <;> rfl

theorem Inv.request (hInv : s.Inv) {q : FetchPending params Unit} (hFired : s.unit.cacheReqFired i = some q) :
    s.translated.head?.map wanted = some (q.inst.bits, q.paddr) := by
  rw [← List.head?_map, ← hInv.requests, List.head?_map]
  rw [cacheReqFired_eq] at hFired
  split at hFired
  · rw [hFired]
    rfl
  · cases hFired

theorem Inv.word (hInv : s.Inv) (h : s.Answers i) {r : CacheResponse params} (hResp : i.cacheResp = some r)
    (hReady : s.unit.respReady i = true) (hMiss : r.miss = false) : s.unit.instEnq i =
      (s.port.answered (s.portInput i)).map fun m => ⟨⟨m.bits.id, instBits m.bits.pc r.data⟩, m.label⟩ := by
  rw [← hInv.port.delivery_eq h.cache, WatchedInterface.delivery, instEnq]
  simp only [portInput, hReady, if_true, hInv.adaptor, hResp, CacheInterface.pipeResp, Option.bind_some, hMiss,
    Bool.and_false, Bool.false_eq_true, if_false, Option.map_map]
  rfl

theorem Inv.right (hInv : s.Inv) (h : s.Answers i) (hShown : s.Shown i) : s.Right i where
  request _ hFired := hInv.request hFired
  word r hResp hMiss := by
    have hReady := hShown.answered (by rw [hResp]; rfl)
    exact ⟨hReady, hInv.word h hResp hReady hMiss⟩

def queued (s : WatchedFetch params) (i : FetchUnit.Input params Unit) : Option (FetchPending params Unit) :=
  if cacheReqQueue.enqReady s.unit.cacheReqQ (s.unit.cacheReqDeqReady i) then s.unit.cacheReqEnq i else none

theorem queued_wanted (h : s.Answers i) (hShown : s.Shown i) :
    (s.queued i).toList.map (fun q => (q.inst.bits, q.paddr)) = (s.hitPage i).toList.map wanted := by
  rw [queued, hitPage]
  split
  · rw [cacheReqEnq]
    cases hResp : i.tlbResp with
    | none => rfl
    | some resp =>
      cases hHit : resp.hit with
      | false => simp [Option.filter, hHit]
      | true =>
        obtain ⟨hHead, hOffset⟩ := hShown.register resp hResp hHit
        have hPage : resp.addr >>> 12 <<< 12 = resp.addr := h.page resp hResp
        simp [Option.filter, hHit, hHead, hOffset, wanted, PipelineParams.inPage, hPage]
  · rfl

theorem Inv.requests_next (hInv : s.Inv) (h : s.Answers i) (hShown : s.Shown i) :
    (s.next i).unit.cacheReqQ.map (fun q => (q.inst.bits, q.paddr)) = (s.next i).translated.map wanted := by
  have hRoom : (s.queued i).isSome = true → cacheReqQueue.enqReady s.unit.cacheReqQ (s.unit.cacheReqDeqReady i) = true := by
    rw [queued]
    split
    · next hReady => exact fun _ => hReady
    · exact fun hNone => absurd hNone Bool.false_ne_true
  have hDeq : (if s.unit.cacheReqDeqReady i then s.unit.cacheReqQ.tail else s.unit.cacheReqQ) =
      if (s.unit.cacheReqFired i).isSome then s.unit.cacheReqQ.tail else s.unit.cacheReqQ := by
    rw [cacheReqFired_eq, cacheReqDeqReady_eq]
    cases s.unit.portReady i <;> cases s.unit.cacheReqQ <;> rfl
  change (cacheReqQueue.next s.unit.cacheReqQ _ _).map _ =
    ((if (s.unit.cacheReqFired i).isSome then s.translated.tail else s.translated) ++ (s.hitPage i).toList).map wanted
  rw [← FlushQueue.next_accepted, ← queued, FlushQueue.next_of_ready rfl hRoom, hDeq, List.map_append, List.map_append,
    queued_wanted h hShown]
  split
  · rw [List.map_tail, List.map_tail, hInv.requests]
  · rw [hInv.requests]

theorem Inv.next (hInv : s.Inv) (h : s.Answers i) (hShown : s.Shown i) : (s.next i).Inv where
  requests := hInv.requests_next h hShown
  adaptor := by
    change CacheInterface.next _ s.port.metaQ _ _ _ = CacheInterface.next _ s.unit.cacheAdaptor _ _ _
    rw [accept_eq hInv, hInv.adaptor]
    rfl
  port := by
    have hRoom : (s.portInput i).missing = true → s.port.missed.length < instQueueEntries := by
      intro hMissing
      obtain ⟨r, hAnswer, hMiss⟩ := (Option.any_eq_true _ _).mp hMissing
      rw [← hInv.port.long, hInv.adaptor]
      refine hShown.long r ?_ hMiss
      rw [WatchedInterface.Input.answer] at hAnswer
      split at hAnswer
      · exact hAnswer
      · cases hAnswer
    exact ⟨hInv.port.base_next h.cache, hInv.port.long_next h.cache hRoom, hInv.port.kept_next h.cache hRoom⟩

theorem inv_reset (metaDataTLB : FetchMeta params) : (reset metaDataTLB).Inv := ⟨rfl, rfl, WatchedInterface.inv_reset⟩

section Runs

theorem fetch_addresses (metaDataTLB : FetchMeta params) {is : List (FetchUnit.Input params Unit)}
    (h : (machine params).Along (fun s i => s.Answers i ∧ s.Shown i) (reset metaDataTLB) is) :
    (machine params).Along Right (reset metaDataTLB) is :=
  h.of_invariant (inv_reset metaDataTLB) (fun _ _ hInv hi => hInv.next hi.1 hi.2) fun _ _ hInv hi => hInv.right hi.1 hi.2

abbrev twoFetches : PipelineParams := ⟨1, 16, 6⟩

def idle : FetchUnit.Input twoFetches Unit :=
  ⟨⟨none, none, fun _ => none⟩, true, none, true, none, true, ⟨false, false⟩⟩

def started (t : BitVec 1) (pc : Word) : FetchUnit.Input twoFetches Unit :=
  { idle with ctrl := ⟨some (t, pc), none, fun _ => none⟩, tlbReqReady := false }

def hits (page : BitVec 16) : FetchUnit.Input twoFetches Unit := { idle with tlbResp := some ⟨page, true, false, ()⟩ }

def word (data : BitVec 512) : FetchUnit.Input twoFetches Unit := { idle with cacheResp := some ⟨data, true, false, false⟩ }

def twoThreadsFetched (pc0 pc1 : Word) : List (FetchUnit.Input twoFetches Unit) :=
  [started 0 pc0, started 1 pc1, idle, hits 0x3000, hits 0x5000, word (0xAAAA5555 <<< 32), word (0x5555AAAA <<< 32)]

/-- Both program counters have the same offset. -/
theorem fetch_addresses_two :
    (machine twoFetches).Along Right (reset ⟨0, 0⟩) (twoThreadsFetched 0x1004 0x2004) := by
  refine fetch_addresses ⟨0, 0⟩ ?_
  decide +kernel

/-- The first thread is fetched from the offset of the second one. -/
theorem fetch_of_other_thread :
    (machine twoFetches).Along Answers (reset ⟨0, 0⟩) (twoThreadsFetched 0x1004 0x2008) ∧
      ¬ (machine twoFetches).Along Right (reset ⟨0, 0⟩) (twoThreadsFetched 0x1004 0x2008) := by
  refine ⟨?_, ?_⟩ <;> decide +kernel

end Runs

end WatchedFetch

end KnockoutKraken.Armflex
