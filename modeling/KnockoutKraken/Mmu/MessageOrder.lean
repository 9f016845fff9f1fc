import KnockoutKraken.Mmu.QEMUMessageDecoder

/-!
# Order of the messages of the host

Insertions and evictions wait in two queues for two handlers, so that a
later message can overtake an earlier one. The messages about a page take
effect in the order sent when none of them is loaded while an earlier one
about the page waits.
-/

namespace KnockoutKraken.Mmu

open Library Armflex

variable {params : PageTableParams} {tlbs : Nat}

namespace Operation

def inserts (op : Operation params tlbs) (tag : PTTagPacket params) : Bool :=
  match op with
  | missReply request => decide (request.tag = tag)
  | _ => false

def overflowStep (tag : PTTagPacket params) (s : Bool × (BitVec params.pPageW → SetWords)) (op : Operation params tlbs) :
    Bool × (BitVec params.pPageW → SetWords) :=
  (!op.inserts tag && (s.1 || decide (op.Displaces s.2 tag)), (effect params tlbs).exec s.2 op)

/-- A set overflow took the entry of the page after the page was inserted last. -/
def displaced (table : BitVec params.pPageW → SetWords) (ops : List (Operation params tlbs)) (tag : PTTagPacket params) :
    Bool := (ops.foldl (overflowStep tag) (false, table)).1

theorem overflowStep_table (tag : PTTagPacket params) (s : Bool × (BitVec params.pPageW → SetWords))
    (ops : List (Operation params tlbs)) :
    (ops.foldl (overflowStep tag) s).2 = (effect params tlbs).serial s.2 ops := by
  induction ops generalizing s with
  | nil => rfl
  | cons op ops ih => exact ih _

theorem displaced_append (table : BitVec params.pPageW → SetWords) (ops : List (Operation params tlbs))
    (op : Operation params tlbs) (tag : PTTagPacket params) : displaced table (ops ++ [op]) tag =
      (!op.inserts tag && (displaced table ops tag || decide (op.Displaces ((effect params tlbs).serial table ops) tag))) := by
  rw [displaced, List.foldl_append, List.foldl_cons, List.foldl_nil, overflowStep, displaced, overflowStep_table]

def handler : Operation params tlbs → MMUHandler
  | walk _ _ => .pageWalker
  | writeback _ _ => .tlbWriteback
  | missReply _ => .missReply
  | pageEvict _ => .pageEvict

def message? : Operation params tlbs → Option (HostMessage params)
  | missReply request => some (.missReply request)
  | pageEvict request => some (.pageEvict request)
  | _ => none

theorem handler_of_message {op : Operation params tlbs} {message : HostMessage params}
    (hMessage : op.message? = some message) : message.handler = op.handler ∧ message.tag = op.tag := by
  cases op with
  | walk | writeback => cases hMessage
  | missReply | pageEvict =>
    cases hMessage
    exact ⟨rfl, rfl⟩

theorem handler_ne_of_none {op : Operation params tlbs} (hNone : op.message? = none) (message : HostMessage params) :
    message.handler ≠ op.handler := by
  cases op with
  | walk | writeback => cases message <;> exact fun hEq => by cases hEq
  | missReply | pageEvict => cases hNone

end Operation

namespace MessageUnit

variable (fifoDepth : Nat) (table : BitVec params.pPageW → SetWords) (g : MessageUnit params tlbs)

def sentFor (tag : PTTagPacket params) : List (HostMessage params) := g.sent.filter fun message => decide (message.tag = tag)

/-- The messages about a page that took effect on the page table, in that order. -/
def effectsFor (tag : PTTagPacket params) : List (HostMessage params) :=
  (g.effects.filterMap Operation.message?).filter fun message => decide (message.tag = tag)

/-- No earlier message about the page waits. -/
def Unblocked (message : HostMessage params) : Prop :=
  ∀ e ∈ g.log.older fun other => decide (other.handler = message.handler), e.2.tag ≠ message.tag

instance (message : HostMessage params) : Decidable (g.Unblocked message) :=
  inferInstanceAs (Decidable (∀ e ∈ _, _))

/-- When an operation loads its set: a message about its page waits for the earlier ones, an eviction
is for a page that no overflow displaced, a writeback is for a page that is present. -/
def LoadsInTurn (op : Operation params tlbs) : Prop :=
  match op with
  | .walk _ _ => True
  | .writeback request _ => Operation.PresentIn g.unit.table request.tag
  | .missReply request => g.Unblocked (.missReply request)
  | .pageEvict request => g.Unblocked (.pageEvict request) ∧ Operation.displaced table g.effects request.tag = false

instance (op : Operation params tlbs) : Decidable (g.LoadsInTurn table op) :=
  match op with
  | .walk _ _ => .isTrue trivial
  | .writeback _ _ => inferInstanceAs (Decidable (PageSet.Present _ _))
  | .missReply _ => inferInstanceAs (Decidable (Unblocked _ _))
  | .pageEvict _ => inferInstanceAs (Decidable (_ ∧ _))

/-- The host evicts only what it inserted, no set is stored that another handler stored since it
was loaded, and every set is loaded in turn. -/
def InTurn : Input params tlbs → Prop
  | .message raw => ∀ message ∈ g.messageFire fifoDepth raw, message.isMissReply = false →
      (g.sentFor message.tag).getLast?.any HostMessage.isMissReply = true
  | .cycle i => g.unit.NotStale (g.unitInput i) ∧
      ∀ t ∈ (g.unit.client (g.unitInput i).1).reads (g.unitInput i).2, ∀ x ∈ g.unit.txn (g.unitInput i).1,
        g.LoadsInTurn table x.op

instance (i : Input params tlbs) : Decidable (g.InTurn fifoDepth table i) :=
  match i with
  | .message _ => inferInstanceAs (Decidable (∀ message ∈ _, _ → _))
  | .cycle _ => inferInstanceAs (Decidable (_ ∧ ∀ t ∈ _, ∀ x ∈ _, _))

def queued : MMUHandler → List (HostMessage params)
  | .missReply => g.qemuMissReplyQ.map .missReply
  | .pageEvict => g.qemuEvictPageReqQ.map .pageEvict
  | _ => []

def accepted (k : MMUHandler) : List (HostMessage params) :=
  ((g.unit.log.waiting.filter fun e => decide (e.2.1 = k)).map Prod.snd).filterMap fun a => a.2.message?

def waitingOf (k : MMUHandler) : List (HostMessage params) :=
  (g.log.waiting.filter fun e => decide (e.2.handler = k)).map Prod.snd

def Fair (messages : List (HostMessage params)) : Prop :=
  ∀ before request after, messages = before ++ .pageEvict request :: after →
    before.getLast?.any HostMessage.isMissReply = true

section Queues

variable {g} {i : PageTableUnit.Input params tlbs}

theorem unitInput_fst : (g.unitInput i).1 = i.1 := by
  obtain ⟨k, c⟩ := i
  cases k <;> rfl

theorem queued_of_none (hNone : g.unit.accepted (g.unitInput i) = none) (k : MMUHandler) :
    (g.nextCycle i).queued k = g.queued k := by
  cases k <;> simp [queued, nextCycle, takes, hNone]

theorem queued_of_ne {k : MMUHandler} (hk : k ≠ i.1) : (g.nextCycle i).queued k = g.queued k := by
  have hTakes : g.takes k i = false := by simp [takes, Ne.symm hk]
  cases k <;> simp [queued, nextCycle, hTakes]

theorem queued_of_some {op : Operation params tlbs} (hSome : g.unit.accepted (g.unitInput i) = some (i.1, op)) :
    op.message?.toList ++ (g.nextCycle i).queued i.1 = g.queued i.1 := by
  have hTakes : g.takes i.1 i = true := by simp [takes, hSome]
  obtain ⟨k, c⟩ := i
  obtain ⟨op', hAccept, hOp⟩ := Option.map_eq_some_iff.mp hSome
  rw [Prod.mk.injEq] at hOp
  obtain ⟨_, rfl⟩ := hOp
  cases k with
  | pageWalker | tlbWriteback =>
    obtain ⟨fired, _, rfl⟩ := Option.map_eq_some_iff.mp hAccept
    rfl
  | missReply =>
    obtain ⟨request, hFire, rfl⟩ := Option.map_eq_some_iff.mp hAccept
    have hHead : g.qemuMissReplyQ.head? = some request := QEMUMissReplyHandler.qemuMissReplyFire_eq_some hFire
    obtain ⟨tail, hQueue⟩ := List.head?_eq_some_iff.mp hHead
    have hTakes' : g.takes .missReply ⟨.missReply, c⟩ = true := hTakes
    simp [queued, nextCycle, hTakes', hQueue, Operation.message?]
  | pageEvict =>
    obtain ⟨request, hFire, rfl⟩ := Option.map_eq_some_iff.mp hAccept
    have hHead : g.qemuEvictPageReqQ.head? = some request := QEMUPageEvictHandler.evictRequestFire_eq_some hFire
    obtain ⟨tail, hQueue⟩ := List.head?_eq_some_iff.mp hHead
    have hTakes' : g.takes .pageEvict ⟨.pageEvict, c⟩ = true := hTakes
    simp [queued, nextCycle, hTakes', hQueue, Operation.message?]

end Queues

structure Ordered (g : MessageUnit params tlbs) : Prop where
  settled : g.unit.Settled (Operation.effect params tlbs) serving table
  waiting : ∀ k, g.waitingOf k = g.accepted k ++ g.queued k
  pages : ∀ tag, g.effectsFor tag ++
    (g.log.waiting.filter fun e => decide (e.2.tag = tag)).map Prod.snd = g.sentFor tag
  fair : ∀ tag, Fair (g.sentFor tag)
  unique : Operation.UniqueIn params g.unit.table
  enabled : ∀ k x words, g.unit.txn k = some x → x.loaded = some words → x.op.Enabled (Operation.viewOf words)
  present : ∀ tag, (g.effectsFor tag).getLast?.any HostMessage.isMissReply = true →
    Operation.PresentIn g.unit.table tag ∨ Operation.displaced table g.effects tag = true
  unblocked : ∀ k x words message, g.unit.txn k = some x → x.loaded = some words →
    x.pending (Operation.effect params tlbs) = true → x.op.message? = some message → g.Unblocked message

section Cycle

variable {fifoDepth} {table} {g} {i : PageTableUnit.Input params tlbs}

theorem Ordered.handler_of_txn (h : g.Ordered table) {k : MMUHandler} {x : Txn SetWords (Operation params tlbs) (Event params tlbs)}
    (hTxn : g.unit.txn k = some x) : x.op.handler = k := by
  have hServing := h.settled.serves k
  rw [hTxn] at hServing
  cases k with
  | pageWalker => rw [(hServing : PageWalker.Serving x _).op]; rfl
  | tlbWriteback => rw [(hServing : TLBWritebackHandler.Serving x _).op]; rfl
  | missReply => rw [(hServing : QEMUMissReplyHandler.Serving x _).op]; rfl
  | pageEvict => rw [(hServing : QEMUPageEvictHandler.Serving x _).op]; rfl

/-- The message that takes effect is the first of its kind that waits. -/
theorem Ordered.find_message (h : g.Ordered table) {k : MMUHandler} {op : Operation params tlbs} (hHandler : op.handler = k)
    (hFind : (g.unit.log.waiting.find? fun e => decide (e.2.1 = k)).map Prod.snd = some (k, op)) :
    (g.log.waiting.find? fun e => decide (e.2.handler = k)).map Prod.snd = op.message? := by
  cases hMessage : op.message? with
  | none =>
    rw [Option.map_eq_none_iff, List.find?_eq_none]
    intro e _ hPick
    exact Operation.handler_ne_of_none hMessage e.2 ((of_decide_eq_true hPick).trans hHandler.symm)
  | some message =>
    have hWaiting := h.waiting k
    rw [← List.head?_filter, ← List.head?_map] at hFind ⊢
    obtain ⟨rest, hRest⟩ := List.head?_eq_some_iff.mp hFind
    simp only [waitingOf, accepted, hRest, List.filterMap_cons, hMessage] at hWaiting
    rw [hWaiting]
    rfl

variable (i) in
theorem accepted_queued (k : MMUHandler) :
    ((g.unit.accepted (g.unitInput i)).filter fun a => decide (a.1 = k)).toList.filterMap (fun a => a.2.message?) ++
      (g.nextCycle i).queued k = g.queued k := by
  cases hAccepted : g.unit.accepted (g.unitInput i) with
  | none => exact queued_of_none hAccepted k
  | some a =>
    obtain ⟨k', op⟩ := a
    have hk' : k' = i.1 := by
      obtain ⟨op', _, hOp⟩ := Option.map_eq_some_iff.mp hAccepted
      rw [Prod.mk.injEq, unitInput_fst] at hOp
      exact hOp.1.symm
    subst hk'
    by_cases hk : i.1 = k
    · subst hk
      rw [← queued_of_some hAccepted, Option.filter_some, if_pos (decide_eq_true rfl), Option.toList_some]
      cases hMessage : op.message? <;> simp [hMessage]
    · rw [queued_of_ne (Ne.symm hk), Option.filter_some, if_neg (by simpa using hk)]
      rfl

theorem Ordered.settles_txn (h : g.Ordered table)
    (hSettles : g.unit.settles (Operation.effect params tlbs) (g.unitInput i) = true) :
    ∃ x, g.unit.txn i.1 = some x ∧ x.pending (Operation.effect params tlbs) = true ∧
      (g.unit.log.waiting.find? fun e => decide (e.2.1 = i.1)).map Prod.snd = some (i.1, x.op) := by
  rw [Bursts.settles, Option.any_eq_true] at hSettles
  obtain ⟨x, hTxn, hSettles⟩ := hSettles
  have hServing := h.settled.serves (g.unitInput i).1
  rw [hTxn] at hServing
  have hPending := (handlers_serve _).pending_of_settles hServing g.unit.table hSettles
  have hFind := h.settled.settled hTxn hPending
  rw [unitInput_fst] at hTxn hFind
  exact ⟨x, hTxn, hPending, hFind⟩

variable (i) in
theorem Ordered.waiting_cycle (h : g.Ordered table) (k : MMUHandler) :
    (g.nextCycle i).waitingOf k = (g.nextCycle i).accepted k ++ (g.nextCycle i).queued k := by
  have hWaiting := h.waiting k
  have hUnit : (g.nextCycle i).unit.log = g.unit.nextLog (Operation.effect params tlbs) (g.unitInput i) := rfl
  rw [← accepted_queued i k] at hWaiting
  rw [accepted, hUnit, Bursts.nextLog, Log.emit_filter _ fun a : MMUHandler × Operation params tlbs => decide (a.1 = k),
    List.filterMap_append, List.append_assoc, waitingOf, nextCycle, unitInput_fst]
  cases hSettles : g.unit.settles (Operation.effect params tlbs) (g.unitInput i) with
  | false => exact hWaiting
  | true =>
    rw [if_pos rfl, if_pos rfl]
    by_cases hk : k = i.1
    · subst hk
      obtain ⟨x, hTxn, _, hFind⟩ := h.settles_txn hSettles
      have hMessage := h.find_message (h.handler_of_txn hTxn) hFind
      have hLog := congrArg (List.map Prod.snd) (g.log.pass_conserves fun message => decide (message.handler = i.1))
      have hUnitLog := congrArg (fun es => (es.map Prod.snd).filterMap fun a => a.2.message?)
        (g.unit.log.pass_conserves fun a => decide (a.1 = i.1))
      simp only [List.map_append, List.filterMap_append, ← Option.toList_map, hMessage, hFind] at hLog hUnitLog
      have hHead : [(i.1, x.op)].filterMap (fun a => a.2.message?) = x.op.message?.toList := by
        cases hCase : x.op.message? <;> simp [hCase]
      rw [Option.toList_some, hHead] at hUnitLog
      rw [waitingOf, accepted, ← hLog, ← hUnitLog, List.append_assoc, List.append_cancel_left_eq] at hWaiting
      exact hWaiting
    · have hApart : ∀ k' : MMUHandler, decide (k' = i.1) = true → decide (k' = k) = false := by
        intro k' hk'
        rw [decide_eq_false_iff_not, of_decide_eq_true hk']
        exact Ne.symm hk
      have hLog := Log.pass_filter_other (l := g.log) fun message : HostMessage params => hApart message.handler
      have hUnitLog := Log.pass_filter_other (l := g.unit.log) fun a : MMUHandler × Operation params tlbs => hApart a.1
      rw [hLog, hUnitLog]
      exact hWaiting

theorem Ordered.find_of_pending (h : g.Ordered table) {x : Txn SetWords (Operation params tlbs) (Event params tlbs)}
    {k : MMUHandler} (hTxn : g.unit.txn k = some x) (hPending : x.pending (Operation.effect params tlbs) = true) :
    (g.log.waiting.find? fun e => decide (e.2.handler = k)).map Prod.snd = x.op.message? := by
  refine h.find_message (h.handler_of_txn hTxn) ?_
  rw [← List.head?_filter, ← List.head?_map, h.settled.waiting, Bursts.pendingOp, hTxn]
  simp [Option.filter, hPending]

/-- What a message unblocks: the messages about its page that took effect are those sent before it. -/
theorem Ordered.sentFor_eq (h : g.Ordered table) {x : Txn SetWords (Operation params tlbs) (Event params tlbs)}
    {k : MMUHandler} (hTxn : g.unit.txn k = some x) (hPending : x.pending (Operation.effect params tlbs) = true)
    {message : HostMessage params} (hMessage : x.op.message? = some message) (hUnblocked : g.Unblocked message) :
    ∃ e, (g.log.waiting.find? fun e => decide (e.2.handler = k)) = some e ∧ e.2 = message ∧
      (g.log.waiting.filter fun e => decide (e.2.tag = message.tag)) =
        e :: (g.log.pass fun other => decide (other.handler = k)).waiting.filter fun e => decide (e.2.tag = message.tag) := by
  have hFind := h.find_of_pending hTxn hPending
  rw [hMessage, Option.map_eq_some_iff] at hFind
  obtain ⟨e, hFind, hItem⟩ := hFind
  have hHandler : message.handler = k := (Operation.handler_of_message hMessage).1.trans (h.handler_of_txn hTxn)
  refine ⟨e, hFind, hItem, ?_⟩
  subst hHandler
  refine Log.pass_filter_first (fun other : HostMessage params => decide (other.handler = message.handler))
    (fun other => decide (other.tag = message.tag)) hFind ?_ ?_
  · exact decide_eq_true (congrArg HostMessage.tag hItem)
  · exact fun e' he' => decide_eq_false (hUnblocked e' he')

theorem LoadsInTurn.unblocked {op : Operation params tlbs} (hRule : g.LoadsInTurn table op) {message : HostMessage params}
    (hMessage : op.message? = some message) : g.Unblocked message := by
  cases op with
  | walk | writeback => cases hMessage
  | missReply request =>
    cases hMessage
    exact hRule
  | pageEvict request =>
    cases hMessage
    exact hRule.1

/-- The set that an operation loads in turn is one it can be executed on. -/
theorem Ordered.enabled_of_reads (h : g.Ordered table) {k : MMUHandler}
    {x : Txn SetWords (Operation params tlbs) (Event params tlbs)} (hTxn : g.unit.txn k = some x) (hLoaded : x.loaded = none)
    (hRule : g.LoadsInTurn table x.op) : Operation.EnabledIn g.unit.table x.op := by
  have hPending : x.pending (Operation.effect params tlbs) = true := by rw [Txn.pending, hLoaded]
  cases hOp : x.op with
  | walk => trivial
  | writeback request source =>
    rw [hOp] at hRule
    exact hRule
  | missReply => trivial
  | pageEvict request =>
    have hMessage : x.op.message? = some (.pageEvict request) := by rw [hOp]; rfl
    obtain ⟨e, _, hItem, hFirst⟩ := h.sentFor_eq hTxn hPending hMessage (hRule.unblocked hMessage)
    have hPages := h.pages request.tag
    rw [show (HostMessage.pageEvict request).tag = request.tag from rfl] at hFirst
    rw [hFirst, List.map_cons, hItem] at hPages
    have hInserted := h.fair request.tag _ _ _ hPages.symm
    rw [hOp] at hRule
    rcases h.present request.tag hInserted with hPresent | hGone
    · exact hPresent
    · rw [hRule.2] at hGone
      cases hGone

section Step

variable (hRule : g.InTurn fifoDepth table (.cycle i))
include hRule

theorem Ordered.reads_in_turn (h : g.Ordered table) {t : BitVec params.pPageW}
    (hReads : (g.unit.client (g.unitInput i).1).reads (g.unitInput i).2 = some t) :
    ∃ x, g.unit.txn (g.unitInput i).1 = some x ∧ x.loaded = none ∧ pagesetNumber x.op.tag = t ∧ g.LoadsInTurn table x.op := by
  obtain ⟨x, hTxn, hLoaded, hAddr⟩ := h.settled.served.txn_of_reads handlers_serve hReads
  exact ⟨x, hTxn, hLoaded, hAddr, hRule.2 t hReads x hTxn⟩

/-- What takes effect is enabled, and no earlier message about its page waits. -/
theorem Ordered.settles_in_turn (h : g.Ordered table)
    {x : Txn SetWords (Operation params tlbs) (Event params tlbs)} (hTxn : g.unit.txn i.1 = some x)
    (hSettles : g.unit.settles (Operation.effect params tlbs) (g.unitInput i) = true) :
    Operation.EnabledIn g.unit.table x.op ∧ ∀ message, x.op.message? = some message → g.Unblocked message := by
  rw [← unitInput_fst (g := g)] at hTxn
  cases hReads : (g.unit.client (g.unitInput i).1).reads (g.unitInput i).2 with
  | some t =>
    obtain ⟨y, hTxn', hLoaded, _, hTurn⟩ := h.reads_in_turn hRule hReads
    rw [hTxn, Option.some.injEq] at hTxn'
    subst hTxn'
    exact ⟨h.enabled_of_reads hTxn hLoaded hTurn, fun message hMessage => hTurn.unblocked hMessage⟩
  | none =>
    rw [Bursts.settles, hTxn, Option.any_some, Txn.settles, hReads, Option.map_none, Option.getD_none,
      Option.isSome_iff_exists] at hSettles
    obtain ⟨t, hStores⟩ := hSettles
    obtain ⟨y, words, hTxn', hLoaded, hAddr, _⟩ := h.settled.served.txn_of_stores handlers_serve hStores
    rw [hTxn, Option.some.injEq] at hTxn'
    subst hTxn'
    have hStamp : x.stamp = g.unit.stamp (pagesetNumber x.op.tag) := by
      rw [show pagesetNumber x.op.tag = t from hAddr]
      exact (hRule.1 t hStores x hTxn).symm
    have hNow := (h.settled.fresh _ x words hTxn hLoaded).2 hStamp
    constructor
    · have hEnabled := h.enabled _ x words hTxn hLoaded
      rw [← hNow] at hEnabled
      exact hEnabled
    · intro message hMessage
      refine h.unblocked _ x words message hTxn hLoaded ?_ hMessage
      have hServing := h.settled.serves (g.unitInput i).1
      rw [hTxn] at hServing
      refine (handlers_serve _).pending_of_settles hServing g.unit.table (i := (g.unitInput i).2) ?_
      rw [Txn.settles, hReads, Option.map_none, Option.getD_none, hStores]
      rfl

theorem Ordered.settled_cycle (h : g.Ordered table) :
    (g.nextCycle i).unit.Settled (Operation.effect params tlbs) serving table :=
  h.settled.next handlers_serve hRule.1

theorem Ordered.effects_of_settles (h : g.Ordered table) {x : Txn SetWords (Operation params tlbs) (Event params tlbs)}
    (hTxn : g.unit.txn i.1 = some x) (hPending : x.pending (Operation.effect params tlbs) = true)
    (hSettles : g.unit.settles (Operation.effect params tlbs) (g.unitInput i) = true) :
    (g.nextCycle i).effects = g.effects ++ [x.op] ∧
      (g.nextCycle i).unit.table = (Operation.effect params tlbs).exec g.unit.table x.op := by
  rw [← unitInput_fst (g := g)] at hTxn
  have hEffects : (g.nextCycle i).effects = g.effects ++ [x.op] :=
    h.settled.passed_next writeWords hTxn hSettles hPending
  refine ⟨hEffects, ?_⟩
  have hTable : (g.nextCycle i).unit.table = (Operation.effect params tlbs).serial table (g.nextCycle i).effects :=
    h.settled.table_next handlers_serve hRule.1
  rw [hTable, hEffects, Effect.serial_append, effects, ← h.settled.table]
  rfl

theorem Ordered.effects_of_not_settles (h : g.Ordered table)
    (hSettles : g.unit.settles (Operation.effect params tlbs) (g.unitInput i) = false) :
    (g.nextCycle i).effects = g.effects ∧ (g.nextCycle i).unit.table = g.unit.table ∧ (g.nextCycle i).log = g.log := by
  have hEffects : (g.nextCycle i).effects = g.effects := by
    have hLog : (g.nextCycle i).unit.log = g.unit.nextLog (Operation.effect params tlbs) (g.unitInput i) := rfl
    rw [effects, hLog, Bursts.nextLog, hSettles, if_neg Bool.false_ne_true, Log.emit_passed]
    rfl
  refine ⟨hEffects, ?_, ?_⟩
  · have hTable : (g.nextCycle i).unit.table = (Operation.effect params tlbs).serial table (g.nextCycle i).effects :=
      h.settled.table_next handlers_serve hRule.1
    rw [hTable, hEffects, h.settled.table]
    rfl
  · exact if_neg (by simp [hSettles])

theorem Ordered.pages_cycle (h : g.Ordered table) (tag : PTTagPacket params) : (g.nextCycle i).effectsFor tag ++
    ((g.nextCycle i).log.waiting.filter fun e => decide (e.2.tag = tag)).map Prod.snd = (g.nextCycle i).sentFor tag := by
  have hPages := h.pages tag
  have hSent : (g.nextCycle i).sentFor tag = g.sentFor tag := rfl
  rw [hSent, ← hPages, effectsFor, effectsFor]
  cases hSettles : g.unit.settles (Operation.effect params tlbs) (g.unitInput i) with
  | false =>
    obtain ⟨hEffects, _, hLog⟩ := h.effects_of_not_settles hRule hSettles
    rw [hEffects, hLog]
  | true =>
    obtain ⟨x, hTxn, hPending, _⟩ := h.settles_txn hSettles
    obtain ⟨hEffects, _⟩ := h.effects_of_settles hRule hTxn hPending hSettles
    obtain ⟨_, hUnblocked⟩ := h.settles_in_turn hRule hTxn hSettles
    have hLog : (g.nextCycle i).log = g.log.pass fun message => decide (message.handler = i.1) := if_pos hSettles
    rw [hEffects, hLog, List.filterMap_append, List.filter_append, List.append_assoc, List.append_cancel_left_eq]
    cases hMessage : x.op.message? with
    | none =>
      have hFind := h.find_of_pending hTxn hPending
      rw [hMessage, Option.map_eq_none_iff] at hFind
      rw [Log.pass_of_none _ hFind]
      simp [hMessage]
    | some message =>
      obtain ⟨e, hFind, hItem, hFirst⟩ := h.sentFor_eq hTxn hPending hMessage (hUnblocked message hMessage)
      by_cases hTag : message.tag = tag
      · subst hTag
        rw [hFirst, List.map_cons, hItem]
        simp [hMessage]
      · rw [Log.pass_filter_skip _ (fun other : HostMessage params => decide (other.tag = tag)) hFind
          (by rw [hItem]; exact decide_eq_false hTag)]
        simp [hMessage, hTag]

theorem Ordered.unique_cycle (h : g.Ordered table) : Operation.UniqueIn params (g.nextCycle i).unit.table := by
  cases hSettles : g.unit.settles (Operation.effect params tlbs) (g.unitInput i) with
  | false =>
    rw [(h.effects_of_not_settles hRule hSettles).2.1]
    exact h.unique
  | true =>
    obtain ⟨x, hTxn, hPending, _⟩ := h.settles_txn hSettles
    rw [(h.effects_of_settles hRule hTxn hPending hSettles).2]
    exact Operation.unique_exec h.unique (h.settles_in_turn hRule hTxn hSettles).1

theorem Ordered.present_cycle (h : g.Ordered table) (tag : PTTagPacket params)
    (hLast : ((g.nextCycle i).effectsFor tag).getLast?.any HostMessage.isMissReply = true) :
    Operation.PresentIn (g.nextCycle i).unit.table tag ∨
      Operation.displaced table (g.nextCycle i).effects tag = true := by
  rw [effectsFor] at hLast
  cases hSettles : g.unit.settles (Operation.effect params tlbs) (g.unitInput i) with
  | false =>
    obtain ⟨hEffects, hTable, _⟩ := h.effects_of_not_settles hRule hSettles
    rw [hEffects] at hLast ⊢
    rw [hTable]
    exact h.present tag hLast
  | true =>
    obtain ⟨x, hTxn, hPending, _⟩ := h.settles_txn hSettles
    obtain ⟨hEffects, hTable⟩ := h.effects_of_settles hRule hTxn hPending hSettles
    obtain ⟨hEnabled, _⟩ := h.settles_in_turn hRule hTxn hSettles
    rw [hEffects, List.filterMap_append, List.filter_append] at hLast
    rw [hEffects, hTable, Operation.displaced_append, effects, ← h.settled.table]
    by_cases hAbout : ∃ message, x.op.message? = some message ∧ message.tag = tag
    · obtain ⟨message, hMessage, hTag⟩ := hAbout
      simp only [List.filterMap_cons, hMessage, List.filterMap_nil, List.filter_cons, hTag, decide_true, if_true,
        List.filter_nil, List.getLast?_append, List.getLast?_singleton, Option.some_or, Option.any_some] at hLast
      cases hOp : x.op with
      | walk | writeback =>
        rw [hOp] at hMessage
        cases hMessage
      | pageEvict request =>
        rw [hOp] at hMessage
        cases hMessage
        cases hLast
      | missReply request =>
        rw [hOp] at hMessage
        cases hMessage
        subst hTag
        exact .inl (Operation.present_exec_missReply h.unique)
    · have hKept : ((([x.op].filterMap Operation.message?).filter fun message => decide (message.tag = tag))) = [] := by
        cases hMessage : x.op.message? with
        | none => simp [hMessage]
        | some message => simpa [hMessage] using fun hTag => hAbout ⟨message, hMessage, hTag⟩
      have hInserts : x.op.inserts tag = false := by
        cases hOp : x.op with
        | walk | writeback | pageEvict => rfl
        | missReply request => exact decide_eq_false fun hTag => hAbout ⟨.missReply request, by rw [hOp]; rfl, hTag⟩
      rw [hKept, List.append_nil] at hLast
      rw [hInserts, Bool.not_false, Bool.true_and]
      rcases h.present tag hLast with hPresent | hGone
      · refine (Operation.present_exec h.unique hEnabled hPresent fun request hOp hTag => ?_).imp_right fun hDisplaces => ?_
        · exact hAbout ⟨.pageEvict request, by rw [hOp]; rfl, hTag.symm⟩
        · rw [decide_eq_true hDisplaces, Bool.or_true]
      · refine .inr ?_
        change (Operation.displaced table g.effects tag || _) = true
        rw [hGone, Bool.true_or]

theorem Ordered.enabled_cycle (h : g.Ordered table) (k : MMUHandler) (y : Txn SetWords (Operation params tlbs) (Event params tlbs))
    (words : SetWords) (hTxn : (g.nextCycle i).unit.txn k = some y) (hLoaded : y.loaded = some words) :
    y.op.Enabled (Operation.viewOf words) ∧ (y.pending (Operation.effect params tlbs) = true →
      ∀ message, y.op.message? = some message → (g.nextCycle i).Unblocked message) := by
  have hUnit : (g.nextCycle i).unit = g.unit.next writeWords (Operation.effect params tlbs) (g.unitInput i) := rfl
  rw [hUnit] at hTxn
  by_cases hk : k = (g.unitInput i).1
  · subst hk
    rw [Bursts.next_txn_self] at hTxn
    cases hOld : g.unit.txn (g.unitInput i).1 with
    | none =>
      rw [hOld, Txn.next, Option.map_eq_some_iff] at hTxn
      obtain ⟨op, _, rfl⟩ := hTxn
      cases hLoaded
    | some x =>
      rw [hOld, Txn.next] at hTxn
      split at hTxn
      · cases hTxn
      rw [Option.some.injEq] at hTxn
      subst hTxn
      have hInv := h.settled.serves (g.unitInput i).1
      rw [hOld] at hInv
      -- an operation that is still pending did not take effect in this step
      have hSame : Txn.pending (Operation.effect params tlbs)
          (x.advance g.unit.table g.unit.stamp (g.unit.client (g.unitInput i).1) (g.unitInput i).2) = true →
          x.pending (Operation.effect params tlbs) = true ∧ (g.nextCycle i).log = g.log := by
        intro hPending
        rw [(handlers_serve _).pending_advance hInv, Bool.and_eq_true, Bool.not_eq_true'] at hPending
        refine ⟨hPending.1, (h.effects_of_not_settles hRule ?_).2.2⟩
        rw [Bursts.settles, hOld, Option.any_some]
        exact hPending.2
      cases hReads : (g.unit.client (g.unitInput i).1).reads (g.unitInput i).2 with
      | some t =>
        obtain ⟨x', hOld', hNone, hAddr, hTurn⟩ := h.reads_in_turn hRule hReads
        rw [hOld, Option.some.injEq] at hOld'
        subst hOld'
        rw [Txn.advance, hReads, Option.map_some, Option.some_or, Option.some.injEq] at hLoaded
        constructor
        · have hEnabled := h.enabled_of_reads hOld hNone hTurn
          rw [← hLoaded, ← hAddr]
          exact hEnabled
        · intro hPending message hMessage
          rw [Unblocked, (hSame hPending).2]
          exact hTurn.unblocked hMessage
      | none =>
        rw [Txn.advance, hReads, Option.map_none, Option.none_or] at hLoaded
        constructor
        · exact h.enabled _ x words hOld hLoaded
        · intro hPending message hMessage
          rw [Unblocked, (hSame hPending).2]
          exact h.unblocked _ x words message hOld hLoaded (hSame hPending).1 hMessage
  · rw [Bursts.next_txn_of_ne _ _ _ _ hk] at hTxn
    refine ⟨h.enabled k y words hTxn hLoaded, fun hPending message hMessage e he => ?_⟩
    refine h.unblocked k y words message hTxn hLoaded hPending hMessage e ?_
    have hHandler : message.handler = k := (Operation.handler_of_message hMessage).1.trans (h.handler_of_txn hTxn)
    have hLog : (g.nextCycle i).log = if g.unit.settles (Operation.effect params tlbs) (g.unitInput i) then
        g.log.pass fun message => decide (message.handler = i.1) else g.log := rfl
    rw [hLog] at he
    split at he
    · refine Log.older_pass_subset (fun other hOther => ?_) he
      rw [unitInput_fst] at hk
      rw [decide_eq_false_iff_not, of_decide_eq_true hOther, hHandler]
      exact Ne.symm hk
    · exact he

theorem Ordered.cycle (h : g.Ordered table) : (g.nextCycle i).Ordered table where
  settled := h.settled_cycle hRule
  waiting := h.waiting_cycle i
  pages := h.pages_cycle hRule
  fair tag := h.fair tag
  unique := h.unique_cycle hRule
  enabled k x words hTxn hLoaded := (h.enabled_cycle hRule k x words hTxn hLoaded).1
  present := h.present_cycle hRule
  unblocked k x words message hTxn hLoaded hPending :=
    (h.enabled_cycle hRule k x words hTxn hLoaded).2 hPending message

end Step

end Cycle

section Message

variable {fifoDepth} {table} {g} {raw : TxMessage}

theorem Fair.append {messages : List (HostMessage params)} (h : Fair messages) {message : HostMessage params}
    (hLast : message.isMissReply = false → messages.getLast?.any HostMessage.isMissReply = true) :
    Fair (messages ++ [message]) := by
  intro before request after hSplit
  rcases List.eq_nil_or_concat after with rfl | ⟨init, last, rfl⟩
  · obtain ⟨rfl, hItem⟩ := List.append_inj' hSplit rfl
    rw [List.cons.injEq] at hItem
    obtain ⟨rfl, _⟩ := hItem
    exact hLast rfl
  · rw [List.concat_eq_append, ← List.cons_append, ← List.append_assoc] at hSplit
    exact h before request init (List.append_inj' hSplit rfl).1

theorem queued_message {message : HostMessage params} (hFire : g.messageFire fifoDepth raw = some message) (k : MMUHandler) :
    (g.nextMessage fifoDepth raw).queued k = g.queued k ++ (if message.handler = k then [message] else []) := by
  rw [nextMessage, hFire]
  cases message <;> cases k <;> simp [queued, HostMessage.handler]

theorem Ordered.message (h : g.Ordered table) (hRule : g.InTurn fifoDepth table (.message raw)) :
    (g.nextMessage fifoDepth raw).Ordered table := by
  cases hFire : g.messageFire fifoDepth raw with
  | none =>
    rw [nextMessage, hFire]
    exact h
  | some message =>
    have hUnit : (g.nextMessage fifoDepth raw).unit = g.unit := by rw [nextMessage, hFire]
    have hLog : (g.nextMessage fifoDepth raw).log = g.log.emit (some message) := by rw [nextMessage, hFire]
    have hSent : (g.nextMessage fifoDepth raw).sent = g.sent ++ [message] := by rw [nextMessage, hFire]
    have hEffects : (g.nextMessage fifoDepth raw).effects = g.effects := by rw [effects, hUnit]; rfl
    have hSentFor : ∀ tag, (g.nextMessage fifoDepth raw).sentFor tag =
        g.sentFor tag ++ ((some message).filter fun m => decide (m.tag = tag)).toList := by
      intro tag
      rw [sentFor, hSent, List.filter_append]
      by_cases hTag : message.tag = tag <;> simp [sentFor, Option.filter, hTag]
    refine ⟨?_, fun k => ?_, fun tag => ?_, fun tag => ?_, ?_, ?_, fun tag => ?_, ?_⟩
    · rw [hUnit]
      exact h.settled
    · have hAccepted : (g.nextMessage fifoDepth raw).accepted k = g.accepted k := by rw [accepted, hUnit]; rfl
      rw [waitingOf, hLog, Log.emit_filter _ fun m : HostMessage params => decide (m.handler = k), hAccepted,
        queued_message hFire, ← List.append_assoc, ← h.waiting k]
      by_cases hk : message.handler = k <;> simp [waitingOf, Option.filter, hk]
    · rw [hSentFor, effectsFor, hEffects, hLog, Log.emit_filter _ fun m : HostMessage params => decide (m.tag = tag),
        ← List.append_assoc]
      exact congrArg (· ++ _) (h.pages tag)
    · rw [hSentFor]
      by_cases hTag : message.tag = tag
      · rw [Option.filter_some, if_pos (decide_eq_true hTag)]
        exact (h.fair tag).append fun hEvict => hTag ▸ hRule message hFire hEvict
      · rw [Option.filter_some, if_neg (by simpa using hTag), Option.toList_none, List.append_nil]
        exact h.fair tag
    · rw [hUnit]
      exact h.unique
    · rw [hUnit]
      exact h.enabled
    · rw [effectsFor, hEffects, hUnit]
      exact h.present tag
    · rw [hUnit]
      intro k x words other hTxn hLoaded hPending hMessage
      have hFind := h.find_of_pending hTxn hPending
      rw [hMessage, Option.map_eq_some_iff] at hFind
      obtain ⟨e, hFind, _⟩ := hFind
      have hHandler : other.handler = k := (Operation.handler_of_message hMessage).1.trans (h.handler_of_txn hTxn)
      have hPick : decide (e.2.handler = k) = true := List.find?_some (p := fun e : Nat × HostMessage params => decide (e.2.handler = k)) hFind
      rw [← hHandler] at hPick
      rw [Unblocked, hLog, Log.older_emit _ ⟨e, List.mem_of_find?_eq_some hFind, hPick⟩]
      exact h.unblocked k x words other hTxn hLoaded hPending hMessage

end Message

theorem Ordered.init {table : BitVec params.pPageW → SetWords} (hUnique : Operation.UniqueIn params table)
    (reset : PageTableUnit.Reset params tlbs) : (init table reset).Ordered table where
  settled := .init table reset.free
  waiting k := by cases k <;> rfl
  pages _ := rfl
  fair _ before _ _ hSplit := by cases before <;> cases hSplit
  unique := hUnique
  enabled _ _ _ hTxn := by cases hTxn
  present _ hLast := by cases hLast
  unblocked _ _ _ _ hTxn := by cases hTxn

theorem Ordered.run {fifoDepth : Nat} {g : MessageUnit params tlbs} {table : BitVec params.pPageW → SetWords} (h : g.Ordered table)
    {is : List (Input params tlbs)} (hRule : (machine params tlbs fifoDepth).Along (InTurn fifoDepth table) g is) :
    ((machine params tlbs fifoDepth).run g is).Ordered table := by
  refine hRule.invariant h fun g i hOld hStep => ?_
  cases i with
  | message raw => exact hOld.message hStep
  | cycle i => exact hOld.cycle hStep

end MessageUnit

open MessageUnit PageTableUnit

/-- In a run in which the messages about a page are loaded in turn they take effect in the order sent:
an eviction finds its entry, and a page that was inserted last is present or displaced by an overflow. -/
theorem messages_in_order (fifoDepth : Nat) {table : BitVec params.pPageW → SetWords}
    (hUnique : Operation.UniqueIn params table) (reset : Reset params tlbs) {is : List (MessageUnit.Input params tlbs)}
    (hRule : (MessageUnit.machine params tlbs fifoDepth).Along (InTurn fifoDepth table) (MessageUnit.init table reset) is) :
    let g := (MessageUnit.machine params tlbs fifoDepth).run (MessageUnit.init table reset) is
    (∀ tag, g.effectsFor tag <+: g.sentFor tag) ∧
    g.unit.table = (Operation.effect params tlbs).serial table g.effects ∧
    (∀ u block, (g.unit.client .pageEvict).state = u → (g.unit.client .pageEvict).block = block →
      u.stateR = .sGetEntry → ((PageTableSetPacket.ofWords block).lookup u.requestR.tag).hitV = true) ∧
    (∀ tag, (g.effectsFor tag).getLast?.any HostMessage.isMissReply = true →
      Operation.PresentIn g.unit.table tag ∨ Operation.displaced table g.effects tag = true) := by
  intro g
  have hOrdered : g.Ordered table := (Ordered.init hUnique reset).run hRule
  refine ⟨fun tag => ⟨_, hOrdered.pages tag⟩, hOrdered.settled.table, ?_, hOrdered.present⟩
  rintro u block rfl rfl hState
  have hServing := hOrdered.settled.serves .pageEvict
  cases hTxn : g.unit.txn .pageEvict with
  | none =>
    rw [hTxn] at hServing
    have hIdle : decide ((g.unit.client .pageEvict).state.stateR = .sIdle) = true := hServing.idle
    rw [hState] at hIdle
    cases hIdle
  | some x =>
    rw [hTxn] at hServing
    have hOp := (hServing : QEMUPageEvictHandler.Serving x _).op
    have hPhase := (hServing : QEMUPageEvictHandler.Serving x _).phase
    rw [QEMUPageEvictHandler.Phase, hState] at hPhase
    have hEnabled := hOrdered.enabled .pageEvict x _ hTxn hPhase.1.loaded
    rw [hOp] at hEnabled
    exact PageTableSetPacket.hitV_iff.mpr hEnabled

section BackToBack

theorem onePage_unique : Operation.UniqueIn smallTable onePage := by
  have hEmpty : emptySet.view.Unique := fun tag i j hHolds => by
    rw [Holds, PageTableSetPacket.view_slots] at hHolds
    simp [emptySet, PageSet.page] at hHolds
  intro t
  rw [onePage, Operation.viewOf]
  split
  · rw [PageTableSetPacket.ofWords_asWords, PageTableSetPacket.view_write]
    refine UniqueKeys.update hEmpty fun tag j _ hHolds => ?_
    rw [Holds, PageTableSetPacket.view_slots] at hHolds
    simp [emptySet, PageSet.page] at hHolds
  · rw [PageTableSetPacket.ofWords_asWords]
    exact hEmpty

def rawMessage (type : BitVec 3) (data : List (BitVec 32)) : TxMessage :=
  packVec 16 fun k => (type.setWidth 32 :: data).getD k.val 0

def insertMessage : TxMessage := rawMessage QEMUMessagesType.sMissReply [0, 1, 0, 1, -1, 1]

def evictMessage : TxMessage := rawMessage QEMUMessagesType.sPageEvict [0, 1, 0]

def evictStep (ready done move moveDone : Bool) : PageTableUnit.Input smallTable 0 :=
  ⟨.pageEvict, ⟨⟨none, ready, done⟩, move, moveDone, fun _ => 0⟩⟩

/-- The eviction loads the set while the insertion before it waits to store it. -/
def backToBack : List (MessageUnit.Input smallTable 0) :=
  [.message insertMessage, .message evictMessage] ++ missLoad.map .cycle ++
    [.cycle (evictStep false false false false), .cycle (evictStep false false true false),
      .cycle (evictStep false false false true)]

/-- An eviction sent right after the insertion of its page does not find the page. -/
theorem evict_overtakes_insert :
    let g := (MessageUnit.machine smallTable 0 2).run (MessageUnit.init onePage atReset) backToBack
    Operation.UniqueIn smallTable onePage ∧ g.sentFor ⟨1, 0⟩ = [.missReply insertion, .pageEvict ⟨⟨1, 0⟩⟩] ∧
      (g.unit.client .pageEvict).state.stateR = .sGetEntry ∧
      (g.unit.client .pageEvict).state.requestR.tag = ⟨1, 0⟩ ∧
      ((PageTableSetPacket.ofWords (g.unit.client .pageEvict).block : PageTableSetPacket smallTable).lookup
        ⟨1, 0⟩).hitV = false ∧
      Operation.displaced onePage g.effects ⟨1, 0⟩ = false := by
  exact ⟨onePage_unique, by decide +kernel⟩

/-- The same two messages, the second one loaded after the first took effect. -/
def oneByOne : List (MessageUnit.Input smallTable 0) :=
  [.message insertMessage, .message evictMessage] ++ (missLoad ++ missStore).map .cycle ++
    [.cycle (evictStep false false false false), .cycle (evictStep false false true false),
      .cycle (evictStep false false false true)]

instance (g : MessageUnit smallTable 0) (i : MessageUnit.Input smallTable 0) : Decidable (InTurn 2 onePage g i) :=
  inferInstance

theorem messages_in_order_one_by_one :
    let g := (MessageUnit.machine smallTable 0 2).run (MessageUnit.init onePage atReset) oneByOne
    (∀ tag, g.effectsFor tag <+: g.sentFor tag) ∧
    g.unit.table = (Operation.effect smallTable 0).serial onePage g.effects ∧
    (∀ u block, (g.unit.client .pageEvict).state = u → (g.unit.client .pageEvict).block = block →
      u.stateR = .sGetEntry → ((PageTableSetPacket.ofWords block).lookup u.requestR.tag).hitV = true) ∧
    (∀ tag, (g.effectsFor tag).getLast?.any HostMessage.isMissReply = true →
      Operation.PresentIn g.unit.table tag ∨ Operation.displaced onePage g.effects tag = true) :=
  messages_in_order 2 onePage_unique atReset (by decide +kernel)

end BackToBack

end KnockoutKraken.Mmu
