import KnockoutKraken.Mmu.Atomicity
import KnockoutKraken.Mmu.SetTransfer

/-!
# The page table in memory

The walker and the three handlers with their buffers and memory ports, on
the words of the memory. When they take turns, each one from its request
to its end, the memory is the page table after the operations, one after
another. A set is not touched before the deletion of the entry that has
to leave it was asked for.
-/

namespace KnockoutKraken.Mmu

open Library Armflex

variable {params : PageTableParams} {tlbs : Nat}

section Wiring

/-- The walker has no way out of its buffer, the handler of miss replies opens it while it stores. -/
def wiring : (k : MMUHandler) → Wiring (handlers params tlbs k)
  | .pageWalker => ⟨fun u => u.requestR.tag, fun _ => false, PageWalker.patient, fun hStoring => by cases hStoring⟩
  | .tlbWriteback => ⟨fun u => u.requestR.tag, fun _ => true, TLBWritebackHandler.patient, fun _ => rfl⟩
  | .missReply =>
    { lookupRequest := fun u => u.requestR.tag
      moveOut := fun u => decide (u.stateR = .sMoveback)
      patient := QEMUMissReplyHandler.patient
      moveOut_of_storing := fun {u t} hStoring => by
        by_cases hState : u.stateR = .sMoveback
        · exact decide_eq_true hState
        · simp [handlers, QEMUMissReplyHandler.handler, hState] at hStoring }
  | .pageEvict => ⟨fun u => u.requestR.tag, fun _ => true, QEMUPageEvictHandler.patient, fun _ => rfl⟩

theorem serving_announced {k : MMUHandler} {x : Txn SetWords (Operation params tlbs) (Event params tlbs)}
    {c : (handlers params tlbs k).Client} (h : serving k x c) : Announced (Operation.effect params tlbs) Event.IsDeletion x c := by
  cases k with
  | pageWalker => exact PageWalker.Serving.announced h
  | tlbWriteback => exact TLBWritebackHandler.Serving.announced h
  | missReply => exact QEMUMissReplyHandler.Serving.announced h
  | pageEvict => exact QEMUPageEvictHandler.Serving.announced h

end Wiring

namespace Operation

/-- The operations on the page table, stated on what the sets are for. -/
def tableEffect (params : PageTableParams) (tlbs : Nat) :
    Effect (BitVec params.pPageW) (PageSet params) (Operation params tlbs) (Event params tlbs) where
  addr op := pagesetNumber op.tag
  apply op set := op.onSet set
  stores op set :=
    match op with
    | walk _ _ => false
    | missReply request => !(set.find request.tag).isSome
    | _ => true
  emits op set := op.sends set
  apply_eq {op set} hStores := by
    cases op with
    | walk => rfl
    | writeback => cases hStores
    | missReply request =>
      rw [Bool.not_eq_false'] at hStores
      rw [onSet, PageSet.insert]
      exact if_pos hStores
    | pageEvict => cases hStores

/-- The entries of all other pages are where they were, but for one whose deletion is asked for. -/
def SparesOthers (op : Operation params tlbs) (set : PageSet params) : Prop :=
  ∀ i, ∀ item ∈ set.slots i, item.tag ≠ op.tag → (op.onSet set).slots i = some item ∨ .pageDelete item ∈ op.sends set

theorem slots_place {set : PageSet params} {i j : Slot} {item : PageTableItem params} {next : Option (PageTableItem params)}
    (hSlot : set.slots i = some item) (hj : set.slots j ≠ some item) : (set.place j next).slots i = some item := by
  have hi : i ≠ j := by
    rintro rfl
    exact hj hSlot
  exact (Function.update_of_ne hi _ _).trans hSlot

theorem slot_of_find {set : PageSet params} {tag : PTTagPacket params} {j : Slot} {item : PageTableItem params}
    (hFind : set.find tag = some j) (hTag : item.tag ≠ tag) : set.slots j ≠ some item := by
  intro hSlot
  have hHolds : PageSet.page (set.slots j) = some tag := PageSet.holds_of_find hFind
  rw [hSlot, PageSet.page, Option.map_some, Option.some.injEq] at hHolds
  exact hTag hHolds

theorem sparesOthers (op : Operation params tlbs) (set : PageSet params) : op.SparesOthers set := by
  intro i item hSlot hTag
  cases op with
  | walk => exact .inl hSlot
  | writeback request =>
    rw [onSet, PageSet.replace]
    cases hFind : set.find request.tag with
    | none => exact .inl hSlot
    | some j => exact .inl (slots_place hSlot (slot_of_find hFind hTag))
  | missReply request =>
    rw [onSet, PageSet.insert]
    cases hFind : set.find request.tag with
    | some j => exact .inl (by simpa [QEMUMissReply.item, hFind] using hSlot)
    | none =>
      have hFind' : (set.find (QEMUMissReply.item request).tag).isSome = false := by
        rw [QEMUMissReply.item, hFind, Option.isSome_none]
      rw [if_neg (Bool.eq_false_iff.mp hFind')]
      rcases eq_or_ne (set.slots set.target) (some item) with hVictim | hOther
      · right
        have hGone : set.victim = some item := hVictim
        rw [sends, hFind, hGone]
        simp
      · exact .inl (slots_place hSlot hOther)
  | pageEvict request =>
    rw [onSet, PageSet.remove]
    cases hFind : set.find request.tag with
    | none => exact .inl hSlot
    | some j => exact .inl (slots_place hSlot (slot_of_find hFind hTag))

end Operation

/-- The page table as the host knows it. -/
abbrev PageTable (params : PageTableParams) := BitVec params.pPageW → PageSet params

def pageTable (memory : Dram) : PageTable params := fun t => Operation.viewOf (tableOf memory t)

structure BufferedUnit (params : PageTableParams) (tlbs : Nat) where
  memory : Dram
  client : (k : MMUHandler) → Buffered (handlers params tlbs k)

namespace BufferedUnit

abbrev Input (params : PageTableParams) (tlbs : Nat) := (k : MMUHandler) × Buffered.Input (handlers params tlbs k)

section Circuit

variable (g : BufferedUnit params tlbs) (i : Input params tlbs)

def accepted : Option (Operation params tlbs) := (handlers params tlbs i.1).accept (g.client i.1).state i.2.handler

def sent : Option (Event params tlbs) := (handlers params tlbs i.1).emit (g.client i.1).state i.2.handler

def next : BufferedUnit params tlbs where
  memory := (g.client i.1).nextMemory (wiring i.1) g.memory i.2
  client := Function.update g.client i.1 ((g.client i.1).next (wiring i.1) g.memory i.2)

variable (params tlbs) in
def machine : Machine (BufferedUnit params tlbs) (Input params tlbs)
    (Option (Operation params tlbs) × Option (Event params tlbs)) where
  next := next
  output g i := (g.accepted i, g.sent i)

def Idle : Prop := ∀ k, (handlers params tlbs k).idle (g.client k).state = true

/-- An operation is accepted while no other one is served; a writeback and an eviction are for pages that are present. -/
def InTurn : Prop := ∀ op ∈ g.accepted i, g.Idle ∧ Operation.EnabledIn (tableOf g.memory) op

/-- The handlers after reset, over the memory as the host left it. -/
def init (memory : Dram) (reset : PageTableUnit.Reset params tlbs) : BufferedUnit params tlbs where
  memory := memory
  client
    | .pageWalker => ⟨reset.walker, .atReset (reset.buffer .pageWalker), .idle, .idle⟩
    | .tlbWriteback => ⟨reset.writeback, .atReset (reset.buffer .tlbWriteback), .idle, .idle⟩
    | .missReply => ⟨reset.missReply, .atReset (reset.buffer .missReply), .idle, .idle⟩
    | .pageEvict => ⟨reset.pageEvict, .atReset (reset.buffer .pageEvict), .idle, .idle⟩

end Circuit

section Serial

variable {start : PageTable params} {ops : List (Operation params tlbs)} {sent : List (Event params tlbs)}
  {table : BitVec params.pPageW → SetWords} {g : BufferedUnit params tlbs}

open Operation in
/-- The table after the operations, and what was sent for them. -/
structure Between (start : PageTable params) (ops : List (Operation params tlbs)) (sent : List (Event params tlbs))
    (table : BitVec params.pPageW → SetWords) : Prop where
  unique : UniqueIn params table
  table : (fun t => viewOf (table t)) = (tableEffect params tlbs).serial start ops
  sent : sent = (tableEffect params tlbs).messages start ops

open Operation in
theorem Between.concat (h : Between start ops sent table) {op : Operation params tlbs} (hEnabled : EnabledIn table op) :
    Between start (ops ++ [op]) (sent ++ (effect params tlbs).emits op (table ((effect params tlbs).addr op)))
      ((effect params tlbs).exec table op) where
  unique := unique_exec h.unique hEnabled
  table := by
    rw [Effect.serial_concat, ← h.table]
    refine funext fun t => (view_exec h.unique hEnabled t).trans ?_
    split
    · next ht =>
      subst ht
      exact ((tableEffect params tlbs).exec_self (fun t => viewOf (table t)) op).symm
    · next ht =>
      have hApart : t ≠ (tableEffect params tlbs).addr op := ht
      exact ((tableEffect params tlbs).exec_of_ne (fun t => viewOf (table t)) hApart).symm
  sent := by
    rw [Effect.messages_concat, ← h.sent, ← h.table]
    exact congrArg (sent ++ ·) (emits_eq (h.unique _) hEnabled)

/-- The handlers have carried out some operations, and one of them is at work on at most one more. -/
inductive Serially (start : PageTable params) (ops : List (Operation params tlbs)) (sent : List (Event params tlbs))
    (g : BufferedUnit params tlbs) : Prop
  | rest (resting : ∀ k, (g.client k).Resting) (between : Between start ops sent (tableOf g.memory))
  | busy {k : MMUHandler} {x : Txn SetWords (Operation params tlbs) (Event params tlbs)} {c : (handlers params tlbs k).Client}
      {table before : BitVec params.pPageW → SetWords} {done : List (Operation params tlbs)}
      {told : List (Event params tlbs)} (others : ∀ k' ≠ k, (g.client k').Resting)
      (follows : Buffered.Follows g.memory (g.client k) c table)
      (alone : Alone (Operation.effect params tlbs) (serving k) before x c table) (between : Between start done told before)
      (enabled : Operation.EnabledIn before x.op) (accepted : ops = done ++ [x.op]) (sent : sent = told ++ x.emitted)

theorem resting_init (memory : Dram) (reset : PageTableUnit.Reset params tlbs) (k : MMUHandler) :
    ((init memory reset).client k).Resting := by
  have hFree := reset.free k
  cases k with
  | pageWalker => exact ⟨hFree.idle, rfl, rfl, iff_of_true rfl rfl, rfl⟩
  | tlbWriteback => exact ⟨hFree.idle, rfl, rfl, iff_of_true rfl rfl, rfl⟩
  | missReply => exact ⟨hFree.idle, rfl, rfl, iff_of_true rfl rfl, rfl⟩
  | pageEvict => exact ⟨hFree.idle, rfl, rfl, iff_of_true rfl rfl, rfl⟩

theorem Serially.init {memory : Dram} (reset : PageTableUnit.Reset params tlbs)
    (hUnique : Operation.UniqueIn params (tableOf memory)) :
    Serially (pageTable memory) [] [] (init memory reset) :=
  .rest (resting_init memory reset) ⟨hUnique, rfl, rfl⟩

section Step

variable {i : Input params tlbs}

theorem client_next (k : MMUHandler) (hk : k ≠ i.1) : (g.next i).client k = g.client k := Function.update_of_ne hk _ _

theorem client_next_self : (g.next i).client i.1 = (g.client i.1).next (wiring i.1) g.memory i.2 :=
  Function.update_self _ _ _

theorem Serially.next_of_rest (hResting : ∀ k, (g.client k).Resting) (hBetween : Between start ops sent (tableOf g.memory))
    (hTurn : g.InTurn i) : Serially start (ops ++ (g.accepted i).toList) (sent ++ (g.sent i).toList) (g.next i) := by
  have hServes : (handlers params tlbs i.1).Serves writeWords (Operation.effect params tlbs) (serving i.1) := handlers_serve i.1
  have hSent : g.sent i = none := (wiring i.1).patient.silent i.2.handler (hResting i.1).idle
  rw [hSent, Option.toList_none, List.append_nil]
  cases hAccept : g.accepted i with
  | none =>
    obtain ⟨hNext, hMemory⟩ := (hResting i.1).next hServes (wiring i.1) g.memory i.2 hAccept
    rw [Option.toList_none, List.append_nil]
    refine .rest (fun k => ?_) ?_
    · rcases eq_or_ne k i.1 with rfl | hk
      · rwa [client_next_self]
      · rw [client_next k hk]
        exact hResting k
    · rw [next, hMemory]
      exact hBetween
  | some op =>
    have hFree := (hResting i.1).free
    have hFollows := ((hResting i.1).follows g.memory).next (wiring i.1) i.2
    have hAlone := Alone.start hServes ((g.client i.1).whole (wiring i.1) g.memory i.2) (tableOf g.memory) hFree hAccept
    refine .busy (k := i.1) (fun k hk => ?_) ?_ hAlone hBetween (hTurn op hAccept).2 rfl (List.append_nil _).symm
    · rw [client_next k hk]
      exact hResting k
    · rw [client_next_self]
      exact hFollows

theorem Serially.next_of_busy {x : Txn SetWords (Operation params tlbs) (Event params tlbs)}
    {c : (handlers params tlbs i.1).Client} {before : BitVec params.pPageW → SetWords} {done : List (Operation params tlbs)}
    {told : List (Event params tlbs)} (hOthers : ∀ k ≠ i.1, (g.client k).Resting)
    (hFollows : Buffered.Follows g.memory (g.client i.1) c table)
    (hAlone : Alone (Operation.effect params tlbs) (serving i.1) before x c table) (hBetween : Between start done told before)
    (hEnabled : Operation.EnabledIn before x.op) :
    Serially start (done ++ [x.op]) (told ++ x.emitted ++ (g.sent i).toList) (g.next i) := by
  have hServes : (handlers params tlbs i.1).Serves writeWords (Operation.effect params tlbs) (serving i.1) := handlers_serve i.1
  have hNext := hFollows.next (wiring i.1) i.2
  have hSent (stamp : BitVec params.pPageW → Nat) : told ++ x.emitted ++ (g.sent i).toList =
      told ++ (x.advance table stamp c ((g.client i.1).whole (wiring i.1) g.memory i.2)).emitted := by
    rw [List.append_assoc, BufferedUnit.sent, ← hFollows.state]
    rfl
  have hRest (k : MMUHandler) (hk : k ≠ i.1) : ((g.next i).client k).Resting := by
    rw [client_next k hk]
    exact hOthers k hk
  rw [hSent fun _ => 0]
  cases hIdle : (handlers params tlbs i.1).idle
      (c.next writeWords table ((g.client i.1).whole (wiring i.1) g.memory i.2)).state with
  | true =>
    obtain ⟨hFree, hTable, hEmitted⟩ := hAlone.close hServes (fun _ => 0) _ hIdle
    obtain ⟨hResting, hMemory⟩ := hNext.resting hFree hServes.quiet
    refine .rest (fun k => ?_) ?_
    · rcases eq_or_ne k i.1 with rfl | hk
      · rwa [client_next_self]
      · exact hRest k hk
    · rw [hEmitted, next, hMemory, hTable]
      exact hBetween.concat hEnabled
  | false =>
    refine .busy (k := i.1) hRest ?_ (hAlone.next hServes (fun _ => 0) _ hIdle) hBetween hEnabled rfl rfl
    rw [client_next_self]
    exact hNext

theorem Serially.next (h : Serially start ops sent g) (hTurn : g.InTurn i) :
    Serially start (ops ++ (g.accepted i).toList) (sent ++ (g.sent i).toList) (g.next i) := by
  cases h with
  | rest resting between => exact next_of_rest resting between hTurn
  | @busy k x c table before done told others follows alone between enabled accepted sent =>
    have hBusy : (handlers params tlbs k).idle (g.client k).state = false := by
      rw [← follows.state]
      exact (handlers_serve k).busy alone.serving
    -- an operation is accepted by a handler that is idle, and when all others are
    have hNone : g.accepted i = none := by
      refine Option.eq_none_iff_forall_not_mem.mpr fun op hOp => ?_
      exact Bool.false_ne_true (hBusy.symm.trans ((hTurn op hOp).1 k))
    rw [hNone, Option.toList_none, List.append_nil, accepted, sent]
    rcases eq_or_ne k i.1 with rfl | hk
    · exact next_of_busy others follows alone between enabled
    · obtain ⟨hNext, hMemory⟩ := (others i.1 hk.symm).next (handlers_serve i.1) (wiring i.1) g.memory i.2 hNone
      have hSent : g.sent i = none := (wiring i.1).patient.silent i.2.handler (others i.1 hk.symm).idle
      rw [hSent, Option.toList_none, List.append_nil]
      refine .busy (k := k) (fun k' hk' => ?_) ?_ alone between enabled rfl rfl
      · rcases eq_or_ne k' i.1 with rfl | hOther
        · rwa [client_next_self]
        · rw [client_next k' hOther]
          exact others k' hk'
      · rw [client_next k hk, BufferedUnit.next, hMemory]
        exact follows

end Step

/-- How far the handlers are with the page table `table` and the operation that is served. -/
structure Progress (table : PageTable params) (current : Option (Operation params tlbs)) (told : List (Event params tlbs))
    (g : BufferedUnit params tlbs) : Prop where
  unique : ∀ t, (table t).Unique
  idle : current = none → g.Idle ∧ told = []
  busy : ∀ op ∈ current, ¬ g.Idle ∧ told <+: op.sends (table (pagesetNumber op.tag))
  /-- Until all deletions are asked for the set is as it was. -/
  untouched : ∀ op ∈ current, pageTable g.memory (pagesetNumber op.tag) = table (pagesetNumber op.tag) ∨
    ∀ e ∈ op.sends (table (pagesetNumber op.tag)), e.IsDeletion → e ∈ told
  others : ∀ t, (∀ op ∈ current, t ≠ pagesetNumber op.tag) → pageTable g.memory t = table t
  spared : ∀ op ∈ current, op.SparesOthers (table (pagesetNumber op.tag))

theorem Progress.of_rest (hResting : ∀ k, (g.client k).Resting)
    (hBetween : Between start ops sent (tableOf g.memory)) :
    Progress ((Operation.tableEffect params tlbs).serial start ops) none [] g where
  unique t := by
    rw [← hBetween.table]
    exact hBetween.unique t
  idle _ := ⟨fun k => (hResting k).idle, rfl⟩
  busy op hOp := by cases hOp
  untouched op hOp := by cases hOp
  others t _ := congrFun hBetween.table t
  spared op hOp := by cases hOp

theorem Progress.of_busy {k : MMUHandler} {x : Txn SetWords (Operation params tlbs) (Event params tlbs)}
    {c : (handlers params tlbs k).Client} {before : BitVec params.pPageW → SetWords}
    (hFollows : Buffered.Follows g.memory (g.client k) c table)
    (hAlone : Alone (Operation.effect params tlbs) (serving k) before x c table) (hBetween : Between start ops sent before)
    (hEnabled : Operation.EnabledIn before x.op) :
    Progress ((Operation.tableEffect params tlbs).serial start ops) (some x.op) x.emitted g := by
  have hServes : (handlers params tlbs k).Serves writeWords (Operation.effect params tlbs) (serving k) := handlers_serve k
  have hAnnounced := serving_announced hAlone.serving
  have hSends : (Operation.effect params tlbs).emits x.op (before (pagesetNumber x.op.tag)) =
      x.op.sends (Operation.viewOf (before (pagesetNumber x.op.tag))) := Operation.emits_eq (hBetween.unique _) hEnabled
  have hBlock : ∀ block ∈ x.loaded, (Operation.effect params tlbs).emits x.op block =
      x.op.sends (Operation.viewOf (before (pagesetNumber x.op.tag))) := by
    intro block hLoaded
    rw [hAlone.loaded block hLoaded]
    exact hSends
  have hLoadedLate (hLate : x.stored = true ∨ ((handlers params tlbs k).storing c.state).isSome = true) :
      ∃ block, x.loaded = some block := by
    rcases hLate with hStored | hStoring
    · exact Option.isSome_iff_exists.mp (hAnnounced.loaded hStored)
    · obtain ⟨t, hAsked⟩ := Option.isSome_iff_exists.mp hStoring
      obtain ⟨block, hPhase, _⟩ := hServes.storing hAlone.serving hAsked
      exact ⟨block, hPhase.loaded⟩
  rw [← hBetween.table]
  refine ⟨hBetween.unique, fun hNone => (Option.some_ne_none _ hNone).elim, fun op hOp => ?_, fun op hOp => ?_, fun t ht => ?_,
    fun op _ => Operation.sparesOthers op _⟩
  · obtain rfl := Option.some.inj hOp
    refine ⟨fun hIdle => ?_, ?_⟩
    · have hBusy := hServes.busy hAlone.serving
      rw [hFollows.state] at hBusy
      exact Bool.false_ne_true (hBusy.symm.trans (hIdle k))
    · cases hLoaded : x.loaded with
      | none =>
        rw [hAnnounced.quiet hLoaded]
        exact List.nil_prefix
      | some block =>
        rw [← hBlock block hLoaded]
        exact hAnnounced.order block hLoaded
  · obtain rfl := Option.some.inj hOp
    by_cases hLate : x.stored = true ∨ ((handlers params tlbs k).storing c.state).isSome = true
    · obtain ⟨block, hLoaded⟩ := hLoadedLate hLate
      right
      rw [← hBlock block hLoaded]
      exact hAnnounced.first hLate block hLoaded
    · obtain ⟨hStored, hStoring⟩ := not_or.mp hLate
      have hApart : (handlers params tlbs k).storing (g.client k).state ≠ some (pagesetNumber x.op.tag) := by
        intro hAsked
        rw [← hFollows.state] at hAsked
        exact hStoring (by rw [hAsked, Option.isSome_some])
      left
      rw [pageTable, hFollows.tableOf_eq hApart, hAlone.table, if_neg hStored]
  · have hNe : t ≠ (Operation.effect params tlbs).addr x.op := ht x.op rfl
    have hApart : (handlers params tlbs k).storing (g.client k).state ≠ some t := by
      intro hAsked
      rw [← hFollows.state] at hAsked
      obtain ⟨_, _, _, hAddr, _⟩ := hServes.storing hAlone.serving hAsked
      exact hNe hAddr.symm
    rw [pageTable, hFollows.tableOf_eq hApart, hAlone.table]
    split
    · rw [Effect.exec_of_ne _ _ hNe]
    · rfl

end Serial

theorem Serially.run {start : PageTable params} {ops : List (Operation params tlbs)} {sent : List (Event params tlbs)}
    {g : BufferedUnit params tlbs} (h : Serially start ops sent g) {is : List (Input params tlbs)}
    (hTurns : (machine params tlbs).Along InTurn g is) :
    Serially start (ops ++ (machine params tlbs).emitted Prod.fst g is) (sent ++ (machine params tlbs).emitted Prod.snd g is)
      ((machine params tlbs).run g is) := by
  induction is generalizing g ops sent with
  | nil => simpa using h
  | cons i is ih =>
    rw [Machine.emitted_cons, Machine.emitted_cons, ← List.append_assoc, ← List.append_assoc]
    exact ih (h.next hTurns.1) hTurns.2

/-- In every run in which the handlers take turns the memory is the page table after the operations that were carried
out, one after another, and what was sent are their messages; the set of an operation that is served is not touched
before the deletions it needs are asked for. -/
theorem page_table_refines (memory : Dram) (reset : PageTableUnit.Reset params tlbs)
    (hUnique : ∀ t, (pageTable memory t : PageSet params).Unique) {is : List (Input params tlbs)}
    (hTurns : (machine params tlbs).Along InTurn (init memory reset) is) :
    let g := (machine params tlbs).run (init memory reset) is
    let effect := Operation.tableEffect params tlbs
    ∃ done current told,
      (machine params tlbs).emitted Prod.fst (init memory reset) is = done ++ current.toList ∧
      (machine params tlbs).emitted Prod.snd (init memory reset) is = effect.messages (pageTable memory) done ++ told ∧
      Progress (effect.serial (pageTable memory) done) current told g := by
  have hRun := (Serially.init reset hUnique).run hTurns
  rw [List.nil_append, List.nil_append] at hRun
  generalize hOps : (machine params tlbs).emitted Prod.fst (init memory reset) is = ops at hRun ⊢
  generalize hSent : (machine params tlbs).emitted Prod.snd (init memory reset) is = sent at hRun ⊢
  cases hRun with
  | rest resting between =>
    exact ⟨ops, none, [], (List.append_nil _).symm, by rw [between.sent, List.append_nil], .of_rest resting between⟩
  | busy others follows alone between enabled accepted sent =>
    exact ⟨_, some _, _, accepted, by rw [sent, between.sent], .of_busy follows alone between enabled⟩

section Example

instance (g : BufferedUnit params tlbs) : Decidable g.Idle :=
  decidable_of_iff ((∀ k ∈ [MMUHandler.pageWalker, .tlbWriteback, .missReply, .pageEvict],
      (handlers params tlbs k).idle (g.client k).state = true))
    ⟨fun hAll k => hAll k (by cases k <;> decide), fun hAll k _ => hAll k⟩

instance (table : BitVec params.pPageW → SetWords) (op : Operation params tlbs) : Decidable (Operation.EnabledIn table op) :=
  match op with
  | .walk _ _ => .isTrue trivial
  | .writeback request _ =>
    inferInstanceAs (Decidable ((Operation.viewOf (table (pagesetNumber request.tag)) : PageSet params).Present request.tag))
  | .missReply _ => .isTrue trivial
  | .pageEvict request =>
    inferInstanceAs (Decidable ((Operation.viewOf (table (pagesetNumber request.tag)) : PageSet params).Present request.tag))

instance (g : BufferedUnit params tlbs) (i : Input params tlbs) : Decidable (g.InTurn i) :=
  inferInstanceAs (Decidable (∀ op ∈ g.accepted i, g.Idle ∧ Operation.EnabledIn (tableOf g.memory) op))

def noTable : Dram := fun _ => 0

theorem unique_noTable (t : BitVec smallTable.pPageW) : (pageTable noTable t : PageSet smallTable).Unique := by
  intro tag i j hHolds
  have hFree : ∀ i : Slot, (Operation.viewOf (fun _ => 0) : PageSet smallTable).slots i = none := by decide +kernel
  have hSlot : (pageTable noTable t : PageSet smallTable).slots i = none := hFree i
  rw [Holds, hSlot] at hHolds
  cases hHolds

def missCycle (request : Option (QEMUMissReply smallTable)) : Input smallTable 0 :=
  ⟨.missReply, ⟨⟨request, true, true, true⟩, true, true⟩⟩

def walkCycle (request : Option (TLBMissRequestMessage smallTable)) : Input smallTable 0 :=
  ⟨.pageWalker, ⟨⟨fun _ => request, fun _ => true, true⟩, true, true⟩⟩

/-- A page is inserted and then looked up. -/
def insertThenWalk : List (Input smallTable 0) :=
  missCycle (some insertion) :: List.replicate 13 (missCycle none) ++
    walkCycle (some ⟨insertion.tag, 0, 0⟩) :: List.replicate 7 (walkCycle none)

theorem page_table_refines_insertion :
    let g := (machine smallTable 0).run (init noTable atReset) insertThenWalk
    let effect := Operation.tableEffect smallTable 0
    g.Idle ∧ ∃ done current told,
      (machine smallTable 0).emitted Prod.fst (init noTable atReset) insertThenWalk = done ++ current.toList ∧
      (machine smallTable 0).emitted Prod.snd (init noTable atReset) insertThenWalk =
        effect.messages (pageTable noTable) done ++ told ∧
      Progress (effect.serial (pageTable noTable) done) current told g :=
  ⟨by decide +kernel, page_table_refines noTable atReset unique_noTable (by decide +kernel)⟩

end Example

end BufferedUnit

end KnockoutKraken.Mmu
