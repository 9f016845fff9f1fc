import KnockoutKraken.Mmu.Operation

/-!
# Eviction of pages for the host

The handler looks the page up in its set, asks for the deletion of the
entry it found, waits until the deletion is through, and flushes the
entry from the page table.
-/

namespace KnockoutKraken.Mmu

open Library Cache Armflex

variable {params : PageTableParams} {tlbs : Nat}

inductive QEMUPageEvictState where
  | sIdle | sLoadSet | sGetEntry | sDeletePageReq | sDeletePage | sFlushEntry | sUpdatePT
deriving DecidableEq

structure QEMUPageEvictHandler (params : PageTableParams) where
  stateR : QEMUPageEvictState
  requestR : QEMUPageEvictRequest params
  indexR : Slot
  victimR : PageTableItem params
deriving DecidableEq

namespace QEMUPageEvictHandler

open QEMUPageEvictState

structure Input (params : PageTableParams) where
  evictRequestI : Option (QEMUPageEvictRequest params)
  pageDeleteReqReady : Bool
  pageDeleteDoneI : Bool

variable (u : QEMUPageEvictHandler params) (i : Input params) (moved : Moved SetWords)

def evictRequestFire : Option (QEMUPageEvictRequest params) := if u.stateR = sIdle then i.evictRequestI else none

theorem evictRequestFire_eq_some {u : QEMUPageEvictHandler params} {i : Input params}
    {request : QEMUPageEvictRequest params} (hFire : u.evictRequestFire i = some request) :
    i.evictRequestI = some request := by
  rw [evictRequestFire] at hFire
  split at hFire
  · exact hFire
  · cases hFire

def pageDeleteReqFire : Option (PageTableItem params) :=
  if u.stateR = sDeletePageReq ∧ i.pageDeleteReqReady = true then some u.victimR else none

def writeRequest : Option (PageSetBufferWriteRequestPacket params) :=
  if u.stateR = sFlushEntry then some ⟨⟨⟨0, 0⟩, ⟨0, 0, false⟩⟩, true, u.indexR⟩ else none

def nextState : QEMUPageEvictState :=
  match u.stateR with
  | sIdle => if (u.evictRequestFire i).isSome then sLoadSet else sIdle
  | sLoadSet => if moved.readDone then sGetEntry else sLoadSet
  | sGetEntry => sDeletePageReq
  | sDeletePageReq => if i.pageDeleteReqReady then sDeletePage else sDeletePageReq
  | sDeletePage => if i.pageDeleteDoneI then sFlushEntry else sDeletePage
  | sFlushEntry => if moved.writeReady then sUpdatePT else sFlushEntry
  | sUpdatePT => if moved.writeDone then sIdle else sUpdatePT

def lookupReply : PageSetBufferLookupReplyPacket params :=
  (PageTableSetPacket.ofWords moved.block).lookup u.requestR.tag

def next : QEMUPageEvictHandler params where
  stateR := u.nextState i moved
  requestR := (u.evictRequestFire i).getD u.requestR
  indexR := if u.stateR = sGetEntry then (u.lookupReply moved).index else u.indexR
  victimR := if u.stateR = sGetEntry then (u.lookupReply moved).item else u.victimR

def handler (params : PageTableParams) (tlbs : Nat) : Handler (BitVec params.pPageW) SetWords
    (PageSetBufferWriteRequestPacket params) (Operation params tlbs) (Event params tlbs) where
  State := QEMUPageEvictHandler params
  Input := Input params
  idle u := decide (u.stateR = sIdle)
  accept u i := (u.evictRequestFire i).map .pageEvict
  loading u := if u.stateR = sLoadSet then some (pagesetNumber u.requestR.tag) else none
  storing u := if u.stateR = sUpdatePT then some (pagesetNumber u.requestR.tag) else none
  writeRequest := writeRequest
  emit u i := (u.pageDeleteReqFire i).map .pageDelete
  next := next
  idle_of_accept {u i op} hAccept := by
    by_cases hIdle : u.stateR = sIdle
    · exact decide_eq_true hIdle
    · rw [evictRequestFire, if_neg hIdle] at hAccept
      cases hAccept

/-- The registers hold what the lookup in the loaded set found. -/
structure Found (u : QEMUPageEvictHandler params) (words : SetWords) : Prop where
  index : u.indexR = ((PageTableSetPacket.ofWords words).lookup u.requestR.tag).index
  victim : u.victimR = ((PageTableSetPacket.ofWords words).lookup u.requestR.tag).item

def Phase (x : Txn SetWords (Operation params tlbs) (Event params tlbs)) (c : (handler params tlbs).Client) : Prop :=
  match c.state.stateR with
  | sIdle => False
  | sLoadSet => Loading x c ∧ x.emitted = []
  | sGetEntry => Held x c c.block false ∧ x.emitted = []
  | sDeletePageReq => Held x c c.block false ∧ Found c.state c.block ∧ x.emitted = []
  | sDeletePage => Held x c c.block false ∧ Found c.state c.block ∧ x.emitted = [.pageDelete c.state.victimR]
  | sFlushEntry => Held x c c.block false ∧ Found c.state c.block ∧ x.emitted = [.pageDelete c.state.victimR]
  | sUpdatePT => ∃ words, Storing x c words ∧ c.block = (Operation.effect params tlbs).apply x.op words ∧
      x.emitted = (Operation.effect params tlbs).emits x.op words

structure Serving (x : Txn SetWords (Operation params tlbs) (Event params tlbs)) (c : (handler params tlbs).Client) :
    Prop where
  op : x.op = .pageEvict c.state.requestR
  phase : Phase x c

theorem Serving.state_ne {x : Txn SetWords (Operation params tlbs) (Event params tlbs)}
    {c : (handler params tlbs).Client} (h : Serving x c) : c.state.stateR ≠ sIdle := by
  intro hState
  have hPhase := h.phase
  rw [Phase, hState] at hPhase
  exact hPhase

section Steps

variable {x : Txn SetWords (Operation params tlbs) (Event params tlbs)} {c : (handler params tlbs).Client}
  (table : BitVec params.pPageW → SetWords) (stamp : BitVec params.pPageW → Nat) (i : (handler params tlbs).ClientInput)

theorem state_next : (c.next writeWords table i).state = c.state.next i.handler (c.moved i) := rfl

theorem request_next (hBusy : c.state.stateR ≠ sIdle) :
    (c.next writeWords table i).state.requestR = c.state.requestR := by
  simp [state_next, next, evictRequestFire, hBusy]

theorem emitted_next (hState : c.state.stateR ≠ sDeletePageReq) :
    (x.advance table stamp c i).emitted = x.emitted := by
  simp [Txn.advance, handler, pageDeleteReqFire, hState]

theorem found_next {words : SetWords} (h : Found c.state words) (hBusy : c.state.stateR ≠ sIdle)
    (hState : c.state.stateR ≠ sGetEntry) : Found (c.next writeWords table i).state words := by
  obtain ⟨hIndex, hVictim⟩ := h
  refine ⟨?_, ?_⟩
  · rw [request_next table i hBusy, ← hIndex]
    simp [state_next, next, hState]
  · rw [request_next table i hBusy, ← hVictim]
    simp [state_next, next, hState]

theorem held_next {words : SetWords} {stored : Bool} (h : Held x c words stored)
    (hStill : c.state.stateR ≠ sLoadSet ∧ c.state.stateR ≠ sFlushEntry ∧ c.state.stateR ≠ sUpdatePT) :
    Held (x.advance table stamp c i) (c.next writeWords table i) words stored ∧ (c.next writeWords table i).block = c.block :=
  h.next_same writeWords table stamp i (by simp [handler, hStill]) (by simp [handler, hStill]) (by simp [handler, writeRequest, hStill])

theorem phase_next_of_loadSet (hState : c.state.stateR = sLoadSet) (h : Phase x c) :
    Phase (x.advance table stamp c i) (c.next writeWords table i) := by
  rw [Phase, hState] at h
  obtain ⟨h, hEmitted⟩ := h
  have hStore : (handler params tlbs).storing c.state = none := by simp [handler, hState]
  have hWrite : (handler params tlbs).writeRequest c.state = none := by simp [handler, writeRequest, hState]
  have hNext : (c.next writeWords table i).state.stateR = if (c.moved i).readDone then sGetEntry else sLoadSet := by
    simp [state_next, next, nextState, hState]
  have hEmitted' : (x.advance table stamp c i).emitted = [] :=
    (emitted_next table stamp i (by simp [hState])).trans hEmitted
  cases hDone : (c.moved i).readDone with
  | true =>
    obtain ⟨hHeld, hBlock⟩ := h.next_of_done writeWords table stamp hStore hWrite hDone
    rw [Phase, hNext, hDone, if_pos rfl, hBlock]
    exact ⟨hHeld, hEmitted'⟩
  | false =>
    rw [Phase, hNext, hDone, if_neg Bool.false_ne_true]
    exact ⟨h.next writeWords table stamp (by simp [handler, hState]) hStore hWrite hDone, hEmitted'⟩

theorem phase_next_of_getEntry (hState : c.state.stateR = sGetEntry) (h : Phase x c) :
    Phase (x.advance table stamp c i) (c.next writeWords table i) := by
  rw [Phase, hState] at h
  obtain ⟨h, hEmitted⟩ := h
  have hNext : (c.next writeWords table i).state.stateR = sDeletePageReq := by
    simp [state_next, next, nextState, hState]
  obtain ⟨hHeld, hBlock⟩ := held_next table stamp i h (by simp [hState])
  rw [Phase, hNext, hBlock]
  refine ⟨hHeld, ⟨?_, ?_⟩, (emitted_next table stamp i (by simp [hState])).trans hEmitted⟩
  · rw [request_next table i (by simp [hState])]
    simp [state_next, next, hState, lookupReply, Handler.Client.moved]
  · rw [request_next table i (by simp [hState])]
    simp [state_next, next, hState, lookupReply, Handler.Client.moved]

theorem phase_next_of_deletePageReq (hState : c.state.stateR = sDeletePageReq) (h : Phase x c) :
    Phase (x.advance table stamp c i) (c.next writeWords table i) := by
  rw [Phase, hState] at h
  obtain ⟨h, hFound, hEmitted⟩ := h
  have hNext : (c.next writeWords table i).state.stateR =
      if i.handler.pageDeleteReqReady then sDeletePage else sDeletePageReq := by
    simp [state_next, next, nextState, hState]
  have hVictim : (c.next writeWords table i).state.victimR = c.state.victimR := by simp [state_next, next, hState]
  obtain ⟨hHeld, hBlock⟩ := held_next table stamp i h (by simp [hState])
  have hFound' := found_next table i hFound (by simp [hState]) (by simp [hState])
  cases hReady : i.handler.pageDeleteReqReady with
  | true =>
    rw [Phase, hNext, hReady, if_pos rfl, hBlock, hVictim]
    refine ⟨hHeld, hFound', ?_⟩
    simp [Txn.advance, handler, pageDeleteReqFire, hState, hReady, hEmitted]
  | false =>
    rw [Phase, hNext, hReady, if_neg Bool.false_ne_true, hBlock]
    refine ⟨hHeld, hFound', ?_⟩
    simp [Txn.advance, handler, pageDeleteReqFire, hReady, hEmitted]

theorem phase_next_of_deletePage (hState : c.state.stateR = sDeletePage) (h : Phase x c) :
    Phase (x.advance table stamp c i) (c.next writeWords table i) := by
  rw [Phase, hState] at h
  obtain ⟨h, hFound, hEmitted⟩ := h
  have hNext : (c.next writeWords table i).state.stateR =
      if i.handler.pageDeleteDoneI then sFlushEntry else sDeletePage := by
    simp [state_next, next, nextState, hState]
  have hVictim : (c.next writeWords table i).state.victimR = c.state.victimR := by simp [state_next, next, hState]
  obtain ⟨hHeld, hBlock⟩ := held_next table stamp i h (by simp [hState])
  have hFound' := found_next table i hFound (by simp [hState]) (by simp [hState])
  have hEmitted' : (x.advance table stamp c i).emitted = [.pageDelete c.state.victimR] :=
    (emitted_next table stamp i (by simp [hState])).trans hEmitted
  cases hDone : i.handler.pageDeleteDoneI with
  | true =>
    rw [Phase, hNext, hDone, if_pos rfl, hBlock, hVictim]
    exact ⟨hHeld, hFound', hEmitted'⟩
  | false =>
    rw [Phase, hNext, hDone, if_neg Bool.false_ne_true, hBlock, hVictim]
    exact ⟨hHeld, hFound', hEmitted'⟩

theorem phase_next_of_flushEntry (hState : c.state.stateR = sFlushEntry) (hOp : x.op = .pageEvict c.state.requestR)
    (h : Phase x c) :
    Phase (x.advance table stamp c i) (c.next writeWords table i) := by
  rw [Phase, hState] at h
  obtain ⟨h, hFound, hEmitted⟩ := h
  have hNext : (c.next writeWords table i).state.stateR = sUpdatePT := by
    simp [state_next, next, nextState, hState, Handler.Client.moved]
  obtain ⟨hHeld, hBlock⟩ := h.next writeWords table stamp i (by simp [handler, hState]) (by simp [handler, hState])
  rw [Phase, hNext]
  refine ⟨c.block, hHeld.storing, ?_, ?_⟩
  · rw [hBlock]
    simp [handler, writeRequest, hState, hFound.index, Operation.effect, Txn.advance, hOp, Operation.writeRequest]
  · rw [emitted_next table stamp i (by simp [hState]), hEmitted, hFound.victim]
    simp [Txn.advance, hOp, Operation.effect, Operation.emits]

theorem phase_next_of_updatePT (hState : c.state.stateR = sUpdatePT) (h : Phase x c)
    (hBusy : (c.next writeWords table i).state.stateR ≠ sIdle) :
    Phase (x.advance table stamp c i) (c.next writeWords table i) := by
  rw [Phase, hState] at h
  obtain ⟨words, h, hBlock, hEmitted⟩ := h
  have hWrite : (handler params tlbs).writeRequest c.state = none := by simp [handler, writeRequest, hState]
  have hNext : (c.next writeWords table i).state.stateR = if (c.moved i).writeDone then sIdle else sUpdatePT := by
    simp [state_next, next, nextState, hState]
  cases hDone : (c.moved i).writeDone with
  | true => exact absurd (by rw [hNext, hDone, if_pos rfl]) hBusy
  | false =>
    obtain ⟨hStoring, hSame⟩ := h.next writeWords table stamp (by simp [handler, hState]) hWrite hDone
    rw [Phase, hNext, hDone, if_neg Bool.false_ne_true]
    exact ⟨words, hStoring, hSame.trans hBlock, (emitted_next table stamp i (by simp [hState])).trans hEmitted⟩

theorem phase_next (hOp : x.op = .pageEvict c.state.requestR) (h : Phase x c)
    (hBusy : (c.next writeWords table i).state.stateR ≠ sIdle) :
    Phase (x.advance table stamp c i) (c.next writeWords table i) := by
  cases hState : c.state.stateR with
  | sIdle =>
    rw [Phase, hState] at h
    exact h.elim
  | sLoadSet => exact phase_next_of_loadSet table stamp i hState h
  | sGetEntry => exact phase_next_of_getEntry table stamp i hState h
  | sDeletePageReq => exact phase_next_of_deletePageReq table stamp i hState h
  | sDeletePage => exact phase_next_of_deletePage table stamp i hState h
  | sFlushEntry => exact phase_next_of_flushEntry table stamp i hState hOp h
  | sUpdatePT => exact phase_next_of_updatePT table stamp i hState h hBusy

end Steps

theorem serves : (handler params tlbs).Serves writeWords (Operation.effect params tlbs) Serving where
  quiet {u} hIdle := by
    have hState : u.stateR = sIdle := of_decide_eq_true hIdle
    simp [handler, hState]
  rest {u i} m hIdle hAccept := by
    have hState : u.stateR = sIdle := of_decide_eq_true hIdle
    have hFire : u.evictRequestFire i = none := Option.map_eq_none_iff.mp hAccept
    simp [handler, next, nextState, hState, hFire]
  accept {c i op} table hFree hAccept := by
    have hState : c.state.stateR = sIdle := of_decide_eq_true hFree.idle
    obtain ⟨request, hFire, rfl⟩ := Option.map_eq_some_iff.mp hAccept
    have hFire' : c.state.evictRequestFire i.handler = some request := hFire
    refine ⟨by simp [state_next, next, hFire', Txn.start], ?_⟩
    have hNext : (c.next writeWords table i).state.stateR = sLoadSet := by
      simp [state_next, next, nextState, hState, hFire']
    rw [Phase, hNext]
    refine ⟨.start _ ?_ ?_, rfl⟩
    · simp [Handler.Client.next, Handler.Client.reads, handler, hState, hFree.readMoved]
    · simp [Handler.Client.next, Handler.Client.stores, handler, hState, hFree.writeMoved]
  busy {x c} h := decide_eq_false h.state_ne
  loading {x c t} h hLoad := by
    have hPhase := h.phase
    by_cases hState : c.state.stateR = sLoadSet
    · have hSet : some (pagesetNumber c.state.requestR.tag) = some t := by simpa [handler, hState] using hLoad
      rw [Phase, hState] at hPhase
      rw [Option.some.injEq] at hSet
      rw [h.op, ← hSet]
      exact ⟨hPhase.1, rfl⟩
    · simp [handler, hState] at hLoad
  storing {x c t} h hStore := by
    have hPhase := h.phase
    by_cases hState : c.state.stateR = sUpdatePT
    · have hSet : some (pagesetNumber c.state.requestR.tag) = some t := by simpa [handler, hState] using hStore
      rw [Phase, hState] at hPhase
      obtain ⟨words, hStoring, hBlock, _⟩ := hPhase
      rw [Option.some.injEq] at hSet
      refine ⟨words, hStoring, ?_, ?_, hBlock⟩
      · rw [h.op]
        rfl
      · rw [h.op, ← hSet]
        rfl
    · simp [handler, hState] at hStore
  advance {x c} table stamp i h hBusy := by
    refine ⟨?_, phase_next table stamp i h.op h.phase (of_decide_eq_false hBusy)⟩
    rw [request_next table i h.state_ne]
    exact h.op
  close {x c} table stamp i h hIdle := by
    have hNext : c.state.nextState i.handler (c.moved i) = sIdle := of_decide_eq_true hIdle
    have hPhase := h.phase
    rw [Phase] at hPhase
    cases hState : c.state.stateR with
    | sIdle => exact absurd hState h.state_ne
    | sUpdatePT =>
      rw [hState] at hPhase
      obtain ⟨words, hStoring, _, hEmitted⟩ := hPhase
      have hDone : (c.moved i).writeDone = true := by
        simp only [nextState, hState] at hNext
        split at hNext
        · assumption
        · cases hNext
      have hHeld := hStoring.next_of_done writeWords table stamp (by simp [handler, hState]) hDone
      refine ⟨words, ?_, (emitted_next table stamp i (by simp [hState])).trans hEmitted⟩
      rw [h.op]
      exact hHeld
    | sLoadSet | sDeletePageReq | sDeletePage | sFlushEntry =>
      simp only [nextState, hState] at hNext
      split at hNext <;> cases hNext
    | sGetEntry =>
      simp only [nextState, hState] at hNext
      cases hNext

theorem patient : (handler params tlbs).Patient where
  loading {u t} i m hLoading hDone := by
    by_cases hState : u.stateR = sLoadSet
    · simpa [handler, next, nextState, evictRequestFire, hState, hDone] using hLoading
    · simp [handler, hState] at hLoading
  storing {u t} i m hStoring hDone := by
    by_cases hState : u.stateR = sUpdatePT
    · simpa [handler, next, nextState, evictRequestFire, hState, hDone] using hStoring
    · simp [handler, hState] at hStoring
  of_loading {u t} hLoading := by
    by_cases hState : u.stateR = sLoadSet
    · simp [handler, writeRequest, hState]
    · simp [handler, hState] at hLoading
  of_storing {u t} hStoring := by
    by_cases hState : u.stateR = sUpdatePT
    · simp [handler, writeRequest, hState]
    · simp [handler, hState] at hStoring
  silent {u} i hIdle := by
    have hState : u.stateR = sIdle := of_decide_eq_true hIdle
    simp [handler, pageDeleteReqFire, hState]
  ready {u} i m hNone := by
    have hState : u.stateR ≠ sFlushEntry := fun hState => by simp [handler, writeRequest, hState] at hNone
    have hNext : u.nextState i m = u.nextState i { m with writeReady := true } := by
      unfold nextState
      cases hCase : u.stateR <;> first | rfl | exact absurd hCase hState
    exact congrArg (fun state => { u.next i m with stateR := state }) hNext

/-- The deletion is asked for before the set is stored. -/
theorem Serving.announced {x : Txn SetWords (Operation params tlbs) (Event params tlbs)} {c : (handler params tlbs).Client}
    (h : Serving x c) : Announced (Operation.effect params tlbs) Event.IsDeletion x c := by
  have hPhase := h.phase
  have hFound {words : SetWords} (hFound : Found c.state words) :
      (Operation.effect params tlbs).emits x.op words = [.pageDelete c.state.victimR] ++ [] := by
    rw [h.op, hFound.victim]
    rfl
  rw [Phase] at hPhase
  cases hState : c.state.stateR with
  | sIdle => exact absurd hState h.state_ne
  | sLoadSet =>
    rw [hState] at hPhase
    exact .of_nothing hPhase.2 hPhase.1.stored (by simp [handler, hState])
  | sGetEntry =>
    rw [hState] at hPhase
    exact .of_nothing hPhase.2 hPhase.1.stored (by simp [handler, hState])
  | sDeletePageReq =>
    rw [hState] at hPhase
    exact .of_nothing hPhase.2.2 hPhase.1.stored (by simp [handler, hState])
  | sDeletePage | sFlushEntry =>
    rw [hState] at hPhase
    obtain ⟨hHeld, hFoundIn, hEmitted⟩ := hPhase
    refine .of_block hHeld.loaded [] ?_ (fun e he => absurd he List.not_mem_nil)
    rw [hEmitted, hFound hFoundIn]
  | sUpdatePT =>
    rw [hState] at hPhase
    obtain ⟨words, hStoring, _, hEmitted⟩ := hPhase
    refine .of_block hStoring.loaded [] ?_ (fun e he => absurd he List.not_mem_nil)
    rw [hEmitted, List.append_nil]

end QEMUPageEvictHandler

end KnockoutKraken.Mmu
