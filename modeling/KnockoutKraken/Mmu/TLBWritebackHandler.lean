import KnockoutKraken.Mmu.Operation

/-!
# Writeback of translation buffer entries

The handler takes the entries that the translation buffers evict, one at
a time, and replaces the entry with the same tag in the page table. It
does not look at the hit bit: a tag that is absent is written over the
first slot.
-/

namespace KnockoutKraken.Mmu

open Library Cache Armflex

variable {params : PageTableParams} {tlbs : Nat}

/-- The request that a round-robin arbiter offers, with the number of its port. -/
def arbitrate {α : Type} (requests : Fin (tlbs + 1) → Option α) (lastGrant : Fin (tlbs + 1)) :
    Option (α × Fin (tlbs + 1)) :=
  let port := RRArbiter.chosen (fun j => (requests j).isSome) lastGrant
  (requests port).map (·, port)

inductive TLBWritebackState where
  | sIdle | sMoveIn | sPick | sUpdatePT | sMoveOut
deriving DecidableEq

structure TLBWritebackHandler (params : PageTableParams) (tlbs : Nat) where
  stateR : TLBWritebackState
  requestR : TLBEvictionMessage params
  source : Fin (tlbs + 1)
  victimIndexR : Slot
  lastGrant : Fin (tlbs + 1)
deriving DecidableEq

namespace TLBWritebackHandler

open TLBWritebackState

abbrev Input (params : PageTableParams) (tlbs : Nat) := Fin (tlbs + 1) → Option (TLBEvictionMessage params)

variable (u : TLBWritebackHandler params tlbs) (tlbEvictReqI : Input params tlbs) (moved : Moved SetWords)

def outFire : Option (TLBEvictionMessage params × Fin (tlbs + 1)) :=
  if u.stateR = sIdle then arbitrate tlbEvictReqI u.lastGrant else none

def writeRequest : Option (PageSetBufferWriteRequestPacket params) :=
  if u.stateR = sUpdatePT then some ⟨⟨u.requestR.tag, u.requestR.entry⟩, false, u.victimIndexR⟩ else none

def nextState : TLBWritebackState :=
  match u.stateR with
  | sIdle => if (u.outFire tlbEvictReqI).isSome then sMoveIn else sIdle
  | sMoveIn => if moved.readDone then sPick else sMoveIn
  | sPick => sUpdatePT
  | sUpdatePT => if moved.writeReady then sMoveOut else sUpdatePT
  | sMoveOut => if moved.writeDone then sIdle else sMoveOut

def next : TLBWritebackHandler params tlbs where
  stateR := u.nextState tlbEvictReqI moved
  requestR := ((u.outFire tlbEvictReqI).map Prod.fst).getD u.requestR
  source := ((u.outFire tlbEvictReqI).map Prod.snd).getD u.source
  victimIndexR :=
    if u.stateR = sPick then ((PageTableSetPacket.ofWords moved.block).lookup u.requestR.tag).index else u.victimIndexR
  lastGrant := RRArbiter.next (fun j => (tlbEvictReqI j).isSome) u.lastGrant (decide (u.stateR = sIdle))

def handler (params : PageTableParams) (tlbs : Nat) : Handler (BitVec params.pPageW) SetWords
    (PageSetBufferWriteRequestPacket params) (Operation params tlbs) (Event params tlbs) where
  State := TLBWritebackHandler params tlbs
  Input := Input params tlbs
  idle u := decide (u.stateR = sIdle)
  accept u i := (u.outFire i).map fun fired => .writeback fired.1 fired.2
  loading u := if u.stateR = sMoveIn then some (pagesetNumber u.requestR.tag) else none
  storing u := if u.stateR = sMoveOut then some (pagesetNumber u.requestR.tag) else none
  writeRequest := writeRequest
  emit _ _ := none
  next := next
  idle_of_accept {u i op} hAccept := by
    by_cases hIdle : u.stateR = sIdle
    · exact decide_eq_true hIdle
    · rw [outFire, if_neg hIdle] at hAccept
      cases hAccept

def Phase (x : Txn SetWords (Operation params tlbs) (Event params tlbs)) (c : (handler params tlbs).Client) : Prop :=
  match c.state.stateR with
  | sIdle => False
  | sMoveIn => Loading x c
  | sPick => Held x c c.block false
  | sUpdatePT => Held x c c.block false ∧
      c.state.victimIndexR = ((PageTableSetPacket.ofWords c.block).lookup c.state.requestR.tag).index
  | sMoveOut => ∃ words, Storing x c words ∧ c.block = (Operation.effect params tlbs).apply x.op words

structure Serving (x : Txn SetWords (Operation params tlbs) (Event params tlbs)) (c : (handler params tlbs).Client) :
    Prop where
  op : x.op = .writeback c.state.requestR c.state.source
  emitted : x.emitted = []
  phase : Phase x c

theorem Serving.state_ne {x : Txn SetWords (Operation params tlbs) (Event params tlbs)}
    {c : (handler params tlbs).Client} (h : Serving x c) : c.state.stateR ≠ sIdle := by
  intro hState
  have hPhase := h.phase
  rw [Phase, hState] at hPhase
  exact hPhase

section Steps

variable {x : Txn SetWords (Operation params tlbs) (Event params tlbs)} {c : (handler params tlbs).Client}
  (table : BitVec params.pPageW → SetWords) (stamp : BitVec params.pPageW → Nat) (i : (handler params tlbs).ClientInput)

theorem state_next : (c.next writeWords table i).state = c.state.next i.handler (c.moved i) := rfl

theorem request_next (hBusy : c.state.stateR ≠ sIdle) :
    (c.next writeWords table i).state.requestR = c.state.requestR ∧
      (c.next writeWords table i).state.source = c.state.source := by
  simp [state_next, next, outFire, hBusy]

theorem phase_next (hOp : x.op = .writeback c.state.requestR c.state.source) (h : Phase x c)
    (hBusy : (c.next writeWords table i).state.stateR ≠ sIdle) :
    Phase (x.advance table stamp c i) (c.next writeWords table i) := by
  rw [Phase] at h
  cases hState : c.state.stateR with
  | sIdle =>
    rw [hState] at h
    exact h.elim
  | sMoveIn =>
    rw [hState] at h
    have hStore : (handler params tlbs).storing c.state = none := by simp [handler, hState]
    have hWrite : (handler params tlbs).writeRequest c.state = none := by simp [handler, writeRequest, hState]
    have hNext : (c.next writeWords table i).state.stateR = if (c.moved i).readDone then sPick else sMoveIn := by
      simp [state_next, next, nextState, hState]
    cases hDone : (c.moved i).readDone with
    | true =>
      obtain ⟨hHeld, hBlock⟩ := h.next_of_done writeWords table stamp hStore hWrite hDone
      rw [Phase, hNext, hDone, if_pos rfl, hBlock]
      exact hHeld
    | false =>
      rw [Phase, hNext, hDone, if_neg Bool.false_ne_true]
      exact h.next writeWords table stamp (by simp [handler, hState]) hStore hWrite hDone
  | sPick =>
    rw [hState] at h
    have hWrite : (handler params tlbs).writeRequest c.state = none := by simp [handler, writeRequest, hState]
    have hNext : (c.next writeWords table i).state.stateR = sUpdatePT := by
      simp [state_next, next, nextState, hState]
    obtain ⟨hHeld, hBlock⟩ :=
      h.next_same writeWords table stamp i (by simp [handler, hState]) (by simp [handler, hState]) hWrite
    rw [Phase, hNext, hBlock]
    refine ⟨hHeld, ?_⟩
    rw [(request_next table i (by simp [hState])).1]
    simp [state_next, next, hState, Handler.Client.moved]
  | sUpdatePT =>
    rw [hState] at h
    obtain ⟨h, hIndex⟩ := h
    have hNext : (c.next writeWords table i).state.stateR = sMoveOut := by
      simp [state_next, next, nextState, hState, Handler.Client.moved]
    obtain ⟨hHeld, hBlock⟩ := h.next writeWords table stamp i (by simp [handler, hState]) (by simp [handler, hState])
    rw [Phase, hNext]
    refine ⟨c.block, hHeld.storing, ?_⟩
    rw [hBlock]
    simp [handler, writeRequest, hState, hIndex, Operation.effect, Txn.advance, hOp, Operation.writeRequest]
  | sMoveOut =>
    rw [hState] at h
    obtain ⟨words, h, hBlock⟩ := h
    have hWrite : (handler params tlbs).writeRequest c.state = none := by simp [handler, writeRequest, hState]
    have hNext : (c.next writeWords table i).state.stateR = if (c.moved i).writeDone then sIdle else sMoveOut := by
      simp [state_next, next, nextState, hState]
    cases hDone : (c.moved i).writeDone with
    | true => exact absurd (by rw [hNext, hDone, if_pos rfl]) hBusy
    | false =>
      obtain ⟨hStoring, hSame⟩ := h.next writeWords table stamp (by simp [handler, hState]) hWrite hDone
      rw [Phase, hNext, hDone, if_neg Bool.false_ne_true]
      exact ⟨words, hStoring, hSame.trans hBlock⟩

end Steps

theorem serves : (handler params tlbs).Serves writeWords (Operation.effect params tlbs) Serving where
  quiet {u} hIdle := by
    have hState : u.stateR = sIdle := of_decide_eq_true hIdle
    simp [handler, hState]
  rest {u i} m hIdle hAccept := by
    have hState : u.stateR = sIdle := of_decide_eq_true hIdle
    have hFire : u.outFire i = none := Option.map_eq_none_iff.mp hAccept
    simp [handler, next, nextState, hState, hFire]
  accept {c i op} table hFree hAccept := by
    have hState : c.state.stateR = sIdle := of_decide_eq_true hFree.idle
    obtain ⟨fired, hFire, rfl⟩ := Option.map_eq_some_iff.mp hAccept
    have hFire' : c.state.outFire i.handler = some fired := hFire
    refine ⟨by simp [state_next, next, hFire', Txn.start], rfl, ?_⟩
    have hNext : (c.next writeWords table i).state.stateR = sMoveIn := by
      simp [state_next, next, nextState, hState, hFire']
    rw [Phase, hNext]
    refine .start _ ?_ ?_
    · simp [Handler.Client.next, Handler.Client.reads, handler, hState, hFree.readMoved]
    · simp [Handler.Client.next, Handler.Client.stores, handler, hState, hFree.writeMoved]
  busy {x c} h := decide_eq_false h.state_ne
  loading {x c t} h hLoad := by
    have hPhase := h.phase
    by_cases hState : c.state.stateR = sMoveIn
    · have hSet : some (pagesetNumber c.state.requestR.tag) = some t := by simpa [handler, hState] using hLoad
      rw [Phase, hState] at hPhase
      rw [Option.some.injEq] at hSet
      rw [h.op, ← hSet]
      exact ⟨hPhase, rfl⟩
    · simp [handler, hState] at hLoad
  storing {x c t} h hStore := by
    have hPhase := h.phase
    by_cases hState : c.state.stateR = sMoveOut
    · have hSet : some (pagesetNumber c.state.requestR.tag) = some t := by simpa [handler, hState] using hStore
      rw [Phase, hState] at hPhase
      obtain ⟨words, hStoring, hBlock⟩ := hPhase
      rw [Option.some.injEq] at hSet
      refine ⟨words, hStoring, ?_, ?_, hBlock⟩
      · rw [h.op]
        rfl
      · rw [h.op, ← hSet]
        rfl
    · simp [handler, hState] at hStore
  advance {x c} table stamp i h hBusy := by
    obtain ⟨hRequest, hSource⟩ := request_next table i h.state_ne
    refine ⟨?_, ?_, phase_next table stamp i h.op h.phase (of_decide_eq_false hBusy)⟩
    · rw [hRequest, hSource]
      exact h.op
    · rw [Txn.advance, h.emitted]
      rfl
  close {x c} table stamp i h hIdle := by
    have hNext : c.state.nextState i.handler (c.moved i) = sIdle := of_decide_eq_true hIdle
    have hPhase := h.phase
    rw [Phase] at hPhase
    cases hState : c.state.stateR with
    | sIdle => exact absurd hState h.state_ne
    | sMoveIn | sUpdatePT =>
      simp only [nextState, hState] at hNext
      split at hNext <;> cases hNext
    | sPick =>
      simp only [nextState, hState] at hNext
      cases hNext
    | sMoveOut =>
      rw [hState] at hPhase
      obtain ⟨words, hStoring, _⟩ := hPhase
      have hDone : (c.moved i).writeDone = true := by
        simp only [nextState, hState] at hNext
        split at hNext
        · assumption
        · cases hNext
      have hHeld := hStoring.next_of_done writeWords table stamp (by simp [handler, hState]) hDone
      refine ⟨words, ?_, ?_⟩
      · rw [h.op]
        exact hHeld
      · rw [Txn.advance, h.emitted, h.op]
        rfl

theorem patient : (handler params tlbs).Patient where
  loading {u t} i m hLoading hDone := by
    by_cases hState : u.stateR = sMoveIn
    · simpa [handler, next, nextState, outFire, hState, hDone] using hLoading
    · simp [handler, hState] at hLoading
  storing {u t} i m hStoring hDone := by
    by_cases hState : u.stateR = sMoveOut
    · simpa [handler, next, nextState, outFire, hState, hDone] using hStoring
    · simp [handler, hState] at hStoring
  of_loading {u t} hLoading := by
    by_cases hState : u.stateR = sMoveIn
    · simp [handler, writeRequest, hState]
    · simp [handler, hState] at hLoading
  of_storing {u t} hStoring := by
    by_cases hState : u.stateR = sMoveOut
    · simp [handler, writeRequest, hState]
    · simp [handler, hState] at hStoring
  silent _ _ := rfl
  ready {u} i m hNone := by
    have hState : u.stateR ≠ sUpdatePT := fun hState => by simp [handler, writeRequest, hState] at hNone
    have hNext : u.nextState i m = u.nextState i { m with writeReady := true } := by
      unfold nextState
      cases hCase : u.stateR <;> first | rfl | exact absurd hCase hState
    exact congrArg (fun state => { u.next i m with stateR := state }) hNext

/-- A writeback sends nothing. -/
theorem Serving.announced {x : Txn SetWords (Operation params tlbs) (Event params tlbs)} {c : (handler params tlbs).Client}
    (h : Serving x c) : Announced (Operation.effect params tlbs) Event.IsDeletion x c := by
  have hPhase := h.phase
  rw [Phase] at hPhase
  cases hState : c.state.stateR with
  | sIdle => exact absurd hState h.state_ne
  | sMoveIn =>
    rw [hState] at hPhase
    exact .of_nothing h.emitted hPhase.stored (by simp [handler, hState])
  | sPick =>
    rw [hState] at hPhase
    exact .of_nothing h.emitted hPhase.stored (by simp [handler, hState])
  | sUpdatePT =>
    rw [hState] at hPhase
    exact .of_nothing h.emitted hPhase.1.stored (by simp [handler, hState])
  | sMoveOut =>
    rw [hState] at hPhase
    obtain ⟨words, hStoring, _⟩ := hPhase
    refine .of_block hStoring.loaded [] ?_ (fun e he => absurd he List.not_mem_nil)
    rw [h.op, h.emitted]
    rfl

end TLBWritebackHandler

end KnockoutKraken.Mmu
