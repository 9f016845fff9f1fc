import KnockoutKraken.Library.Machine
import KnockoutKraken.Library.Overtaking

/-!
# Blocks moved in bursts

Handlers share a table of blocks. A handler serves one operation at a
time: it loads the block of the operation into a buffer of its own in one
burst, edits the buffer and may store it back in a second burst. Nothing
locks the block in between. When no handler stores a block that was
stored by another since it loaded it, the table is that of the operations
executed one after another, each at the burst at which it took effect.
-/

namespace KnockoutKraken.Library

structure Moved (α : Type) where
  block : α
  readDone : Bool
  writeDone : Bool
  writeReady : Bool

structure Handler (τ α ρ ω ε : Type) where
  State : Type
  Input : Type
  idle : State → Bool
  accept : State → Input → Option ω
  loading : State → Option τ
  storing : State → Option τ
  writeRequest : State → Option ρ
  emit : State → Input → Option ε
  next : State → Input → Moved α → State
  idle_of_accept : ∀ {s i op}, accept s i = some op → idle s = true

/-- What an operation does to its block, and what the handler sends while it serves it. -/
structure Effect (τ α ω ε : Type) where
  addr : ω → τ
  apply : ω → α → α
  stores : ω → α → Bool
  emits : ω → α → List ε
  apply_eq : ∀ {op block}, stores op block = false → apply op block = block

variable {κ τ α ρ ω ε : Type}

namespace Handler

variable (h : Handler τ α ρ ω ε)

/-- A handler with its buffer; a burst that has been moved is still to be signalled. -/
structure Client where
  state : h.State
  block : α
  readMoved : Bool
  writeMoved : Bool

/-- `move` lets the burst that is asked for happen, `done` signals one that happened. Until
a load has happened the buffer holds a torn block. -/
structure ClientInput where
  handler : h.Input
  move : Bool
  done : Bool
  torn : α

end Handler

namespace Handler.Client

variable {h : Handler τ α ρ ω ε} (write : α → ρ → α) (c : h.Client) (table : τ → α) (i : h.ClientInput)

def moved : Moved α := ⟨c.block, c.readMoved && i.done, c.writeMoved && i.done, true⟩

def reads : Option τ := if !c.readMoved && i.move then h.loading c.state else none

def stores : Option τ := if !c.writeMoved && i.move then h.storing c.state else none

def nextBlock : α :=
  if (h.loading c.state).isSome && !c.readMoved then ((c.reads i).map table).getD i.torn
  else ((h.writeRequest c.state).map (write c.block)).getD c.block

def next : h.Client where
  state := h.next c.state i.handler (c.moved i)
  block := c.nextBlock write table i
  readMoved := if c.readMoved then !i.done else (c.reads i).isSome
  writeMoved := if c.writeMoved then !i.done else (c.stores i).isSome

end Handler.Client

/-- An operation being served: the block it loaded, whether it stored it back, what was sent
for it, and how often the block had been stored when it was loaded. -/
structure Txn (α ω ε : Type) where
  op : ω
  loaded : Option α
  stored : Bool
  emitted : List ε
  stamp : Nat

namespace Txn

variable (effect : Effect τ α ω ε) (x : Txn α ω ε)

def start (op : ω) : Txn α ω ε := ⟨op, none, false, [], 0⟩

/-- The operation has not taken effect yet. -/
def pending : Bool :=
  match x.loaded with
  | none => true
  | some block => effect.stores x.op block && !x.stored

variable {h : Handler τ α ρ ω ε} (write : α → ρ → α) (table : τ → α) (stamp : τ → Nat) (c : h.Client)
  (i : h.ClientInput)

def advance : Txn α ω ε where
  op := x.op
  loaded := ((c.reads i).map table).or x.loaded
  stored := x.stored || (c.stores i).isSome
  emitted := x.emitted ++ (h.emit c.state i.handler).toList
  stamp := ((c.reads i).map stamp).getD x.stamp

/-- The operation takes effect when it stores its block, or when it loads a block that it
will not store. -/
def settles : Bool :=
  ((c.reads i).map fun t => !effect.stores x.op (table t)).getD (c.stores i).isSome

def next (x : Option (Txn α ω ε)) : Option (Txn α ω ε) :=
  match x with
  | none => (h.accept c.state i.handler).map start
  | some x => if h.idle (c.next write table i).state then none else some (x.advance table stamp c i)

end Txn

/-- The handlers over their table, with the operations they are serving, the number of times
each block was stored, and the operations in the order in which they took effect. -/
structure Bursts (h : κ → Handler τ α ρ ω ε) where
  table : τ → α
  client : (k : κ) → (h k).Client
  txn : κ → Option (Txn α ω ε)
  stamp : τ → Nat
  log : Log (κ × ω)

namespace Bursts

variable [DecidableEq κ] [DecidableEq τ] {h : κ → Handler τ α ρ ω ε} (write : α → ρ → α) (effect : Effect τ α ω ε)

abbrev Input (h : κ → Handler τ α ρ ω ε) := (k : κ) × (h k).ClientInput

variable (g : Bursts h) (i : Input h)

def accepted : Option (κ × ω) := ((h i.1).accept (g.client i.1).state i.2.handler).map (i.1, ·)

def sent : Option (κ × ε) := ((h i.1).emit (g.client i.1).state i.2.handler).map (i.1, ·)

def settles : Bool := (g.txn i.1).any fun x => x.settles effect g.table (g.client i.1) i.2

def nextLog : Log (κ × ω) :=
  (if g.settles effect i then g.log.pass fun a => decide (a.1 = i.1) else g.log).emit (g.accepted i)

def next : Bursts h where
  table :=
    match (g.client i.1).stores i.2 with
    | some t => Function.update g.table t (g.client i.1).block
    | none => g.table
  client := Function.update g.client i.1 ((g.client i.1).next write g.table i.2)
  txn := Function.update g.txn i.1 (Txn.next write g.table g.stamp (g.client i.1) i.2 (g.txn i.1))
  stamp :=
    match (g.client i.1).stores i.2 with
    | some t => Function.update g.stamp t (g.stamp t + 1)
    | none => g.stamp
  log := g.nextLog effect i

section Next

variable {k : κ}

@[simp] theorem next_txn_self : (g.next write effect i).txn i.1 =
    Txn.next write g.table g.stamp (g.client i.1) i.2 (g.txn i.1) := Function.update_self _ _ _

@[simp] theorem next_txn_of_ne (hk : k ≠ i.1) : (g.next write effect i).txn k = g.txn k :=
  Function.update_of_ne hk _ _

@[simp] theorem next_client_self :
    (g.next write effect i).client i.1 = (g.client i.1).next write g.table i.2 := Function.update_self _ _ _

@[simp] theorem next_client_of_ne (hk : k ≠ i.1) : (g.next write effect i).client k = g.client k :=
  Function.update_of_ne hk _ _

end Next

/-- The operation that is accepted, if any, and the message that is sent. -/
def machine : Machine (Bursts h) (Input h) (Option (κ × ω) × Option (κ × ε)) where
  next := next write effect
  output g i := (g.accepted i, g.sent i)

/-- A handler stores no block that was stored by another since it loaded it. -/
def NotStale : Prop :=
  ∀ t ∈ (g.client i.1).stores i.2, ∀ x ∈ g.txn i.1, g.stamp t = x.stamp

instance : Decidable (g.NotStale i) :=
  inferInstanceAs (Decidable (∀ t ∈ (g.client i.1).stores i.2, ∀ x ∈ g.txn i.1, g.stamp t = x.stamp))

end Bursts

namespace Effect

variable [DecidableEq τ] (effect : Effect τ α ω ε)

def exec (table : τ → α) (op : ω) : τ → α :=
  Function.update table (effect.addr op) (effect.apply op (table (effect.addr op)))

def serial (table : τ → α) (ops : List ω) : τ → α := ops.foldl effect.exec table

theorem serial_append (table : τ → α) (ops ops' : List ω) :
    effect.serial table (ops ++ ops') = effect.serial (effect.serial table ops) ops' := List.foldl_append

theorem exec_of_not_stores {table : τ → α} {op : ω} (hStores : effect.stores op (table (effect.addr op)) = false) :
    effect.exec table op = table := by
  rw [exec, effect.apply_eq hStores, Function.update_eq_self]

end Effect

section Phases

variable {h : Handler τ α ρ ω ε} (x : Txn α ω ε) (c : h.Client)

structure Loading : Prop where
  loaded : x.loaded = if c.readMoved then some c.block else none
  stored : x.stored = false
  writeMoved : c.writeMoved = false

structure Held (loaded : α) (stored : Bool) : Prop where
  loaded : x.loaded = some loaded
  stored : x.stored = stored
  readMoved : c.readMoved = false
  writeMoved : c.writeMoved = false

structure Storing (loaded : α) : Prop where
  loaded : x.loaded = some loaded
  stored : x.stored = c.writeMoved
  readMoved : c.readMoved = false

variable {x} {c} (write : α → ρ → α) (table : τ → α) (stamp : τ → Nat) {i : h.ClientInput} {loaded : α} {stored : Bool}

theorem Loading.start (op : ω) (hReadMoved : c.readMoved = false) (hWriteMoved : c.writeMoved = false) :
    Loading (Txn.start op : Txn α ω ε) c := by
  refine ⟨?_, rfl, hWriteMoved⟩
  rw [hReadMoved]
  rfl

theorem Loading.next_of_done (hPhase : Loading x c) (hStore : h.storing c.state = none)
    (hWrite : h.writeRequest c.state = none) (hDone : (c.readMoved && i.done) = true) :
    Held (x.advance table stamp c i) (c.next write table i) c.block false ∧ (c.next write table i).block = c.block := by
  obtain ⟨hLoaded, hStored, hWriteMoved⟩ := hPhase
  rw [Bool.and_eq_true] at hDone
  obtain ⟨hMoved, hDone⟩ := hDone
  rw [if_pos hMoved] at hLoaded
  have hReads : c.reads i = none := by simp [Handler.Client.reads, hMoved]
  have hStores : c.stores i = none := by simp [Handler.Client.stores, hStore]
  refine ⟨⟨?_, ?_, ?_, ?_⟩, ?_⟩
  · simp [Txn.advance, hReads, hLoaded]
  · simp [Txn.advance, hStored, hStores]
  · simp [Handler.Client.next, hMoved, hDone]
  · simp [Handler.Client.next, hWriteMoved, hStores]
  · simp [Handler.Client.next, Handler.Client.nextBlock, hMoved, hWrite]

theorem Loading.next (hPhase : Loading x c) (hLoad : (h.loading c.state).isSome = true)
    (hStore : h.storing c.state = none) (hWrite : h.writeRequest c.state = none)
    (hDone : (c.readMoved && i.done) = false) :
    Loading (x.advance table stamp c i) (c.next write table i) := by
  obtain ⟨hLoaded, hStored, hWriteMoved⟩ := hPhase
  have hStores : c.stores i = none := by simp [Handler.Client.stores, hStore]
  refine ⟨?_, ?_, ?_⟩
  · cases hMoved : c.readMoved with
    | true =>
      rw [hMoved] at hDone hLoaded
      have hReads : c.reads i = none := by simp [Handler.Client.reads, hMoved]
      simp only [Bool.true_and] at hDone
      simp [Txn.advance, Handler.Client.next, Handler.Client.nextBlock, hReads, hMoved, hDone, hWrite, hLoaded]
    | false =>
      rw [hMoved] at hLoaded
      cases hReads : c.reads i <;>
        simp [Txn.advance, Handler.Client.next, Handler.Client.nextBlock, hReads, hMoved, hLoad, hLoaded]
  · simp [Txn.advance, hStored, hStores]
  · simp [Handler.Client.next, hWriteMoved, hStores]

variable (i) in
theorem Held.next (hPhase : Held x c loaded stored) (hLoad : h.loading c.state = none) (hStore : h.storing c.state = none) :
    Held (x.advance table stamp c i) (c.next write table i) loaded stored ∧
      (c.next write table i).block = ((h.writeRequest c.state).map (write c.block)).getD c.block := by
  obtain ⟨hLoaded, hStored, hReadMoved, hWriteMoved⟩ := hPhase
  have hReads : c.reads i = none := by simp [Handler.Client.reads, hLoad]
  have hStores : c.stores i = none := by simp [Handler.Client.stores, hStore]
  refine ⟨⟨?_, ?_, ?_, ?_⟩, ?_⟩
  · simp [Txn.advance, hReads, hLoaded]
  · simp [Txn.advance, hStored, hStores]
  · simp [Handler.Client.next, hReadMoved, hReads]
  · simp [Handler.Client.next, hWriteMoved, hStores]
  · simp [Handler.Client.next, Handler.Client.nextBlock, hLoad]

variable (i) in
theorem Held.next_same (hPhase : Held x c loaded stored) (hLoad : h.loading c.state = none)
    (hStore : h.storing c.state = none) (hWrite : h.writeRequest c.state = none) :
    Held (x.advance table stamp c i) (c.next write table i) loaded stored ∧ (c.next write table i).block = c.block := by
  obtain ⟨hHeld, hBlock⟩ := hPhase.next write table stamp i hLoad hStore
  rw [hWrite] at hBlock
  exact ⟨hHeld, hBlock⟩

theorem Held.storing (hPhase : Held x c loaded false) : Storing x c loaded :=
  ⟨hPhase.loaded, by rw [hPhase.stored, hPhase.writeMoved], hPhase.readMoved⟩

theorem Storing.next_of_done (hPhase : Storing x c loaded) (hLoad : h.loading c.state = none)
    (hDone : (c.writeMoved && i.done) = true) :
    Held (x.advance table stamp c i) (c.next write table i) loaded true := by
  obtain ⟨hLoaded, hStored, hReadMoved⟩ := hPhase
  rw [Bool.and_eq_true] at hDone
  obtain ⟨hMoved, hDone⟩ := hDone
  have hReads : c.reads i = none := by simp [Handler.Client.reads, hLoad]
  refine ⟨?_, ?_, ?_, ?_⟩
  · simp [Txn.advance, hReads, hLoaded]
  · simp [Txn.advance, hStored, hMoved]
  · simp [Handler.Client.next, hReadMoved, hReads]
  · simp [Handler.Client.next, hMoved, hDone]

theorem Storing.next (hPhase : Storing x c loaded) (hLoad : h.loading c.state = none)
    (hWrite : h.writeRequest c.state = none) (hDone : (c.writeMoved && i.done) = false) :
    Storing (x.advance table stamp c i) (c.next write table i) loaded ∧ (c.next write table i).block = c.block := by
  obtain ⟨hLoaded, hStored, hReadMoved⟩ := hPhase
  have hReads : c.reads i = none := by simp [Handler.Client.reads, hLoad]
  refine ⟨⟨?_, ?_, ?_⟩, ?_⟩
  · simp [Txn.advance, hReads, hLoaded]
  · cases hMoved : c.writeMoved with
    | true =>
      rw [hMoved, Bool.true_and] at hDone
      simp [Txn.advance, Handler.Client.next, hStored, hMoved, hDone]
    | false => simp [Txn.advance, Handler.Client.next, hStored, hMoved]
  · simp [Handler.Client.next, hReadMoved, hReads]
  · simp [Handler.Client.next, Handler.Client.nextBlock, hLoad, hWrite]

end Phases

/-- Nothing is being served. -/
structure Handler.Client.Free {h : Handler τ α ρ ω ε} (c : h.Client) : Prop where
  idle : h.idle c.state = true
  readMoved : c.readMoved = false
  writeMoved : c.writeMoved = false

/-- A handler serves its operations: `serving` ties its state and its buffer to the operation,
from the step that accepts it to the step that makes the handler idle again. -/
structure Handler.Serves (h : Handler τ α ρ ω ε) (write : α → ρ → α) (effect : Effect τ α ω ε)
    (serving : Txn α ω ε → h.Client → Prop) : Prop where
  quiet : ∀ {s}, h.idle s = true → h.loading s = none ∧ h.storing s = none
  rest : ∀ {s i} (m), h.idle s = true → h.accept s i = none → h.idle (h.next s i m) = true
  accept : ∀ {c : h.Client} {i op} (table), c.Free → h.accept c.state i.handler = some op →
    serving (.start op) (c.next write table i)
  busy : ∀ {x c}, serving x c → h.idle c.state = false
  loading : ∀ {x c t}, serving x c → h.loading c.state = some t → Loading x c ∧ effect.addr x.op = t
  storing : ∀ {x c t}, serving x c → h.storing c.state = some t →
    ∃ block, Storing x c block ∧ effect.stores x.op block = true ∧ effect.addr x.op = t ∧
      c.block = effect.apply x.op block
  advance : ∀ {x c} (table stamp i), serving x c → h.idle (c.next write table i).state = false →
    serving (x.advance table stamp c i) (c.next write table i)
  close : ∀ {x c} (table stamp i), serving x c → h.idle (c.next write table i).state = true →
    ∃ block, Held (x.advance table stamp c i) (c.next write table i) block (effect.stores x.op block) ∧
      (x.advance table stamp c i).emitted = effect.emits x.op block

def Handler.Inv {h : Handler τ α ρ ω ε} (serving : Txn α ω ε → h.Client → Prop) (x : Option (Txn α ω ε)) (c : h.Client) :
    Prop :=
  match x with
  | none => c.Free
  | some x => serving x c

namespace Handler.Serves

variable {h : Handler τ α ρ ω ε} {write : α → ρ → α} {effect : Effect τ α ω ε}
  {serving : Txn α ω ε → h.Client → Prop} (serves : h.Serves write effect serving)
include serves

variable {x : Txn α ω ε} {y : Option (Txn α ω ε)} {c : h.Client} {i : h.ClientInput} {t : τ}

theorem bursts_of_free (hFree : c.Free) : c.reads i = none ∧ c.stores i = none := by
  obtain ⟨hLoading, hStoring⟩ := serves.quiet hFree.idle
  simp [Handler.Client.reads, Handler.Client.stores, hLoading, hStoring]

theorem inv_next (hInv : h.Inv serving y c) (table : τ → α) (stamp : τ → Nat) (i : h.ClientInput) :
    h.Inv serving (Txn.next write table stamp c i y) (c.next write table i) := by
  cases y with
  | none =>
    obtain ⟨hReads, hStores⟩ := serves.bursts_of_free (i := i) hInv
    rw [Txn.next]
    cases hAccept : h.accept c.state i.handler with
    | none =>
      refine ⟨serves.rest _ hInv.idle hAccept, ?_, ?_⟩
      · simp [Handler.Client.next, hInv.readMoved, hReads]
      · simp [Handler.Client.next, hInv.writeMoved, hStores]
    | some op => exact serves.accept table hInv hAccept
  | some x =>
    rw [Txn.next]
    split
    · next hIdle =>
      obtain ⟨block, hHeld, _⟩ := serves.close table stamp i hInv hIdle
      exact ⟨hIdle, hHeld.readMoved, hHeld.writeMoved⟩
    · next hBusy => exact serves.advance table stamp i hInv (Bool.eq_false_iff.mpr hBusy)

theorem txn_of_idle (hInv : h.Inv serving y c) (hIdle : h.idle c.state = true) : y = none := by
  cases y with
  | none => rfl
  | some x =>
    rw [serves.busy hInv] at hIdle
    cases hIdle

theorem txn_of_reads (hInv : h.Inv serving y c) (hReads : c.reads i = some t) :
    ∃ x, y = some x ∧ x.loaded = none ∧ x.stored = false ∧ effect.addr x.op = t := by
  cases y with
  | none =>
    rw [(serves.bursts_of_free hInv).1] at hReads
    cases hReads
  | some x =>
    rw [Handler.Client.reads] at hReads
    split at hReads
    · next hMove =>
      rw [Bool.and_eq_true, Bool.not_eq_true'] at hMove
      obtain ⟨⟨hLoaded, hStored, _⟩, hAddr⟩ := serves.loading hInv hReads
      rw [hMove.1] at hLoaded
      exact ⟨x, rfl, hLoaded, hStored, hAddr⟩
    · cases hReads

theorem txn_of_stores (hInv : h.Inv serving y c) (hStores : c.stores i = some t) :
    ∃ x block, y = some x ∧ x.loaded = some block ∧ x.stored = false ∧ effect.stores x.op block = true ∧
      effect.addr x.op = t ∧ c.block = effect.apply x.op block := by
  cases y with
  | none =>
    rw [(serves.bursts_of_free hInv).2] at hStores
    cases hStores
  | some x =>
    rw [Handler.Client.stores] at hStores
    split at hStores
    · next hMove =>
      rw [Bool.and_eq_true, Bool.not_eq_true'] at hMove
      obtain ⟨block, ⟨hLoaded, hStored, _⟩, hEffect, hAddr, hBlock⟩ := serves.storing hInv hStores
      rw [hMove.1] at hStored
      exact ⟨x, block, rfl, hLoaded, hStored, hEffect, hAddr, hBlock⟩
    · cases hStores

theorem stores_of_reads (hInv : h.Inv serving y c) (hReads : c.reads i = some t) : c.stores i = none := by
  cases hStores : c.stores i with
  | none => rfl
  | some t' =>
    obtain ⟨x, hx, hLoaded, _⟩ := serves.txn_of_reads hInv hReads
    obtain ⟨x', block, hx', hLoaded', _⟩ := serves.txn_of_stores hInv hStores
    rw [hx, Option.some.injEq] at hx'
    rw [← hx', hLoaded] at hLoaded'
    cases hLoaded'

theorem pending_advance (hInv : serving x c) (table : τ → α) (stamp : τ → Nat) (i : h.ClientInput) :
    (x.advance table stamp c i).pending effect = (x.pending effect && !x.settles effect table c i) := by
  have hSome : h.Inv serving (some x) c := hInv
  cases hReads : c.reads i with
  | some t =>
    obtain ⟨x', hx, hLoaded, hStored, _⟩ := serves.txn_of_reads hSome hReads
    rw [Option.some.injEq] at hx
    subst hx
    simp [Txn.pending, Txn.advance, Txn.settles, hReads, serves.stores_of_reads hSome hReads, hLoaded, hStored]
  | none =>
    cases hStores : c.stores i with
    | none => simp [Txn.pending, Txn.advance, Txn.settles, hReads, hStores]
    | some t =>
      obtain ⟨x', block, hx, hLoaded, _⟩ := serves.txn_of_stores hSome hStores
      rw [Option.some.injEq] at hx
      subst hx
      simp [Txn.pending, Txn.advance, Txn.settles, hReads, hStores, hLoaded]

theorem pending_of_settles (hInv : serving x c) (table : τ → α) (hSettles : x.settles effect table c i = true) :
    x.pending effect = true := by
  have hSome : h.Inv serving (some x) c := hInv
  cases hReads : c.reads i with
  | some t =>
    obtain ⟨x', hx, hLoaded, _⟩ := serves.txn_of_reads hSome hReads
    rw [Option.some.injEq] at hx
    subst hx
    rw [Txn.pending, hLoaded]
  | none =>
    rw [Txn.settles, hReads, Option.map_none, Option.getD_none, Option.isSome_iff_exists] at hSettles
    obtain ⟨t, hStores⟩ := hSettles
    obtain ⟨x', block, hx, hLoaded, hStored, hEffect, _⟩ := serves.txn_of_stores hSome hStores
    rw [Option.some.injEq] at hx
    subst hx
    simp only [Txn.pending, hLoaded, hStored, hEffect]
    rfl

theorem pending_of_close (hInv : serving x c) (table : τ → α) (stamp : τ → Nat)
    (hIdle : h.idle (c.next write table i).state = true) :
    (x.advance table stamp c i).pending effect = false := by
  obtain ⟨block, hHeld, _⟩ := serves.close table stamp i hInv hIdle
  have hOp : (x.advance table stamp c i).op = x.op := rfl
  rw [Txn.pending, hHeld.loaded]
  simp [hOp, hHeld.stored]

end Handler.Serves

namespace Bursts

variable [DecidableEq κ] [DecidableEq τ] {h : κ → Handler τ α ρ ω ε} {write : α → ρ → α} {effect : Effect τ α ω ε}
  {serving : (k : κ) → Txn α ω ε → (h k).Client → Prop}

def pendingOp (effect : Effect τ α ω ε) (g : Bursts h) (k : κ) : Option (κ × ω) :=
  ((g.txn k).filter (Txn.pending effect)).map fun x => (k, x.op)

/-- The table is that of the operations that took effect; a block that was not stored since
a handler loaded it is the one the handler loaded. -/
structure Settled (effect : Effect τ α ω ε) (serving : (k : κ) → Txn α ω ε → (h k).Client → Prop)
    (start : τ → α) (g : Bursts h) : Prop where
  serves : ∀ k, (h k).Inv (serving k) (g.txn k) (g.client k)
  table : g.table = effect.serial start (g.log.passed.map fun e => e.2.2)
  fresh : ∀ k x block, g.txn k = some x → x.loaded = some block → x.stamp ≤ g.stamp (effect.addr x.op) ∧
    (x.stamp = g.stamp (effect.addr x.op) → g.table (effect.addr x.op) = block)
  waiting : ∀ k, (g.log.waiting.filter fun e => decide (e.2.1 = k)).map Prod.snd = (g.pendingOp effect k).toList

/-- What holds in every run: the handlers serve their operations, and a block that was not stored
since a handler loaded it is the one it loaded. -/
structure Served (effect : Effect τ α ω ε) (serving : (k : κ) → Txn α ω ε → (h k).Client → Prop) (g : Bursts h) :
    Prop where
  serves : ∀ k, (h k).Inv (serving k) (g.txn k) (g.client k)
  fresh : ∀ k x block, g.txn k = some x → x.loaded = some block → x.stamp ≤ g.stamp (effect.addr x.op) ∧
    (x.stamp = g.stamp (effect.addr x.op) → g.table (effect.addr x.op) = block)

variable {start : τ → α} {g : Bursts h} {i : Input h}

theorem Settled.served (hSettled : g.Settled effect serving start) : g.Served effect serving :=
  ⟨hSettled.serves, hSettled.fresh⟩

theorem Settled.settled (hSettled : g.Settled effect serving start) {x : Txn α ω ε} (hTxn : g.txn i.1 = some x)
    (hPending : x.pending effect = true) :
    (g.log.waiting.find? fun e => decide (e.2.1 = i.1)).map Prod.snd = some (i.1, x.op) := by
  rw [← List.head?_filter, ← List.head?_map, hSettled.waiting, pendingOp, hTxn]
  simp [Option.filter, hPending]

omit [DecidableEq κ] [DecidableEq τ] in
variable (effect) in
theorem settles_of_none (hReads : (g.client i.1).reads i.2 = none) (hStores : (g.client i.1).stores i.2 = none) :
    g.settles effect i = false := by
  rw [settles]
  cases g.txn i.1 with
  | none => rfl
  | some x => simp [Txn.settles, hReads, hStores]

section Served

variable (write effect g i) in
/-- A block that counts as many stores as before is the one from before. -/
theorem stamp_next (t : τ) : g.stamp t ≤ (g.next write effect i).stamp t ∧
    ((g.next write effect i).stamp t = g.stamp t → (g.next write effect i).table t = g.table t) := by
  rw [next]
  cases hStores : (g.client i.1).stores i.2 with
  | none =>
    exact ⟨Nat.le_refl _, fun _ => Eq.refl _⟩
  | some t' =>
    by_cases hAddr : t = t'
    · subst hAddr
      simp only [Function.update_self]
      exact ⟨by omega, fun hEq => by omega⟩
    · exact ⟨(Function.update_of_ne hAddr _ _).ge, fun _ => Function.update_of_ne hAddr _ _⟩

variable (hServes : ∀ k, (h k).Serves write effect (serving k)) (hServed : g.Served effect serving)
include hServes hServed

omit [DecidableEq κ] [DecidableEq τ] in
theorem Served.txn_of_reads {t : τ} (hReads : (g.client i.1).reads i.2 = some t) :
    ∃ x, g.txn i.1 = some x ∧ x.loaded = none ∧ effect.addr x.op = t := by
  obtain ⟨x, hTxn, hLoaded, _, hAddr⟩ := (hServes i.1).txn_of_reads (hServed.serves i.1) hReads
  exact ⟨x, hTxn, hLoaded, hAddr⟩

omit [DecidableEq κ] [DecidableEq τ] in
theorem Served.txn_of_stores {t : τ} (hStores : (g.client i.1).stores i.2 = some t) :
    ∃ x block, g.txn i.1 = some x ∧ x.loaded = some block ∧ effect.addr x.op = t ∧
      (g.client i.1).block = effect.apply x.op block := by
  obtain ⟨x, block, hTxn, hLoaded, _, _, hAddr, hBlock⟩ := (hServes i.1).txn_of_stores (hServed.serves i.1) hStores
  exact ⟨x, block, hTxn, hLoaded, hAddr, hBlock⟩

theorem Served.fresh_next (k : κ) (x : Txn α ω ε) (block : α) (hTxn : (g.next write effect i).txn k = some x)
    (hLoaded : x.loaded = some block) :
    x.stamp ≤ (g.next write effect i).stamp (effect.addr x.op) ∧
      (x.stamp = (g.next write effect i).stamp (effect.addr x.op) →
        (g.next write effect i).table (effect.addr x.op) = block) := by
  have keep : ∀ y : Txn α ω ε, g.txn k = some y → y.loaded = some block → y.op = x.op → y.stamp = x.stamp →
      x.stamp ≤ (g.next write effect i).stamp (effect.addr x.op) ∧
        (x.stamp = (g.next write effect i).stamp (effect.addr x.op) →
          (g.next write effect i).table (effect.addr x.op) = block) := by
    intro y hOld hBlock hOp hStamp
    obtain ⟨hLe, hNow⟩ := hServed.fresh k y block hOld hBlock
    obtain ⟨hMore, hSame⟩ := stamp_next write effect g i (effect.addr x.op)
    rw [hOp, hStamp] at hLe hNow
    refine ⟨hLe.trans hMore, fun hEq => ?_⟩
    rw [hSame (by omega)]
    exact hNow (by omega)
  by_cases hk : k = i.1
  · subst hk
    rw [next_txn_self] at hTxn
    cases hOld : g.txn i.1 with
    | none =>
      rw [hOld, Txn.next, Option.map_eq_some_iff] at hTxn
      obtain ⟨op, _, rfl⟩ := hTxn
      cases hLoaded
    | some y =>
      rw [hOld, Txn.next] at hTxn
      split at hTxn
      · cases hTxn
      · rw [Option.some.injEq] at hTxn
        subst hTxn
        cases hReads : (g.client i.1).reads i.2 with
        | none =>
          rw [Txn.advance, hReads, Option.map_none, Option.none_or] at hLoaded
          refine keep y hOld hLoaded rfl ?_
          simp only [Txn.advance, hReads, Option.map_none, Option.getD_none]
        | some t =>
          obtain ⟨z, hz, _, hAddr⟩ := hServed.txn_of_reads hServes hReads
          rw [hOld, Option.some.injEq] at hz
          subst hz
          have hInv := hServed.serves i.1
          rw [hOld] at hInv
          have hStores := (hServes i.1).stores_of_reads hInv hReads
          rw [Txn.advance, hReads, Option.map_some, Option.some_or, Option.some.injEq] at hLoaded
          simp only [Txn.advance, hReads, Option.map_some, Option.getD_some, next, hStores, hAddr]
          exact ⟨le_rfl, fun _ => hLoaded⟩
  · rw [next_txn_of_ne write effect g i hk] at hTxn
    exact keep x hTxn hLoaded rfl rfl

theorem Served.serves_next (k : κ) :
    (h k).Inv (serving k) ((g.next write effect i).txn k) ((g.next write effect i).client k) := by
  by_cases hk : k = i.1
  · subst hk
    rw [next_txn_self, next_client_self]
    exact (hServes i.1).inv_next (hServed.serves i.1) g.table g.stamp i.2
  · rw [next_txn_of_ne write effect g i hk, next_client_of_ne write effect g i hk]
    exact hServed.serves k

theorem Served.next : (g.next write effect i).Served effect serving :=
  ⟨hServed.serves_next hServes, hServed.fresh_next hServes⟩

end Served

section Step

variable (hServes : ∀ k, (h k).Serves write effect (serving k)) (hSettled : g.Settled effect serving start)
include hServes hSettled

variable (write) in
omit hServes in
theorem Settled.passed_next {x : Txn α ω ε} (hTxn : g.txn i.1 = some x) (hSettles : g.settles effect i = true)
    (hPending : x.pending effect = true) :
    (g.next write effect i).log.passed.map (fun e => e.2.2) = g.log.passed.map (fun e => e.2.2) ++ [x.op] := by
  have hFind := hSettled.settled hTxn hPending
  rw [Option.map_eq_some_iff] at hFind
  obtain ⟨e, hFind, hItem⟩ := hFind
  have hPick : (g.log.waiting.find? fun e => (fun a : κ × ω => decide (a.1 = i.1)) e.2) = some e := hFind
  rw [next, nextLog, if_pos hSettles, Log.emit_passed, Log.pass, hPick, Option.toList_some, List.map_append,
    List.map_singleton, hItem]

/-- What an operation does to the table when it takes effect is what it does when it is executed alone. -/
theorem Settled.table_next (hRule : g.NotStale i) : (g.next write effect i).table =
    effect.serial start ((g.next write effect i).log.passed.map fun e => e.2.2) := by
  have hInv := hSettled.serves i.1
  cases hReads : (g.client i.1).reads i.2 with
  | some t =>
    obtain ⟨x, hTxn, hLoaded, hAddr⟩ := hSettled.served.txn_of_reads hServes hReads
    rw [hTxn] at hInv
    have hStores := (hServes i.1).stores_of_reads hInv hReads
    have hSame : (g.next write effect i).table = g.table := by rw [next, hStores]
    have hSettles : g.settles effect i = !effect.stores x.op (g.table t) := by
      rw [settles, hTxn, Option.any_some, Txn.settles, hReads, Option.map_some, Option.getD_some]
    cases hEffect : effect.stores x.op (g.table t) with
    | true =>
      rw [hEffect] at hSettles
      rw [hSame, hSettled.table, next, nextLog, if_neg (by simp [hSettles]), Log.emit_passed]
    | false =>
      rw [hEffect] at hSettles
      have hPending : x.pending effect = true := by rw [Txn.pending, hLoaded]
      rw [hSame, hSettled.passed_next write hTxn hSettles hPending, effect.serial_append, ← hSettled.table]
      exact (effect.exec_of_not_stores (hAddr ▸ hEffect)).symm
  | none =>
    cases hStores : (g.client i.1).stores i.2 with
    | none =>
      have hSettles := settles_of_none effect hReads hStores
      have hSame : (g.next write effect i).table = g.table := by rw [next, hStores]
      rw [hSame, hSettled.table, next, nextLog, if_neg (by simp [hSettles]), Log.emit_passed]
    | some t =>
      obtain ⟨x, block, hTxn, hLoaded, hAddr, hBlock⟩ := hSettled.served.txn_of_stores hServes hStores
      have hSettles : g.settles effect i = true := by
        rw [settles, hTxn, Option.any_some, Txn.settles, hReads, hStores]
        rfl
      rw [hTxn] at hInv
      have hPending := (hServes i.1).pending_of_settles hInv g.table (by rwa [settles, hTxn] at hSettles)
      -- the block was not stored since it was loaded, so the edited one is what the operation makes of it now
      have hStamp : x.stamp = g.stamp (effect.addr x.op) := hAddr ▸ (hRule t hStores x hTxn).symm
      have hNow := (hSettled.fresh i.1 x block hTxn hLoaded).2 hStamp
      rw [hSettled.passed_next write hTxn hSettles hPending, effect.serial_append, ← hSettled.table, next, hStores]
      change Function.update g.table t (g.client i.1).block = effect.exec g.table x.op
      rw [Effect.exec, hNow, hAddr, hBlock]

theorem Settled.waiting_next (k : κ) :
    ((g.next write effect i).log.waiting.filter fun e => decide (e.2.1 = k)).map Prod.snd =
      ((g.next write effect i).pendingOp effect k).toList := by
  have hWaiting := hSettled.waiting k
  have hInv := hSettled.serves i.1
  have hLog : (g.next write effect i).log = g.nextLog effect i := rfl
  rw [hLog, nextLog, Log.emit_filter _ fun a : κ × ω => decide (a.1 = k)]
  by_cases hk : k = i.1
  · subst hk
    rw [pendingOp] at hWaiting ⊢
    rw [next_txn_self]
    cases hTxn : g.txn i.1 with
    | none =>
      have hSettles : g.settles effect i = false := by rw [settles, hTxn, Option.any_none]
      rw [hTxn] at hWaiting
      rw [if_neg (by simp [hSettles])]
      refine (congrArg (· ++ _) hWaiting).trans ?_
      rw [accepted, Txn.next]
      cases (h i.1).accept (g.client i.1).state i.2.handler <;> simp [Option.filter, Txn.start, Txn.pending]
    | some x =>
      rw [hTxn] at hInv hWaiting
      have hAccepted : g.accepted i = none := by
        rw [accepted, Option.map_eq_none_iff, Option.eq_none_iff_forall_ne_some]
        intro op hOp
        have hNone := (hServes i.1).txn_of_idle hInv ((h i.1).idle_of_accept hOp)
        cases hNone
      have hPending := (hServes i.1).pending_advance hInv g.table g.stamp i.2
      have hNext : (Option.filter (Txn.pending effect)
            (Txn.next write g.table g.stamp (g.client i.1) i.2 (some x))).map (fun y => (i.1, y.op)) =
          if x.pending effect && !x.settles effect g.table (g.client i.1) i.2 then some (i.1, x.op) else none := by
        rw [← hPending, Txn.next]
        split
        · next hIdle =>
          rw [(hServes i.1).pending_of_close hInv g.table g.stamp hIdle]
          rfl
        · rw [Option.filter]
          cases Txn.pending effect (x.advance g.table g.stamp (g.client i.1) i.2) <;> rfl
      rw [hAccepted, hNext, Option.filter_none, Option.toList_none, List.append_nil]
      have hSettles : g.settles effect i = x.settles effect g.table (g.client i.1) i.2 := by
        rw [settles, hTxn, Option.any_some]
      cases hCase : x.settles effect g.table (g.client i.1) i.2 with
      | false =>
        rw [if_neg (by simp [hSettles, hCase]), Bool.not_false, Bool.and_true]
        refine hWaiting.trans ?_
        rw [Option.filter]
        cases x.pending effect <;> rfl
      | true =>
        have hOld := (hServes i.1).pending_of_settles hInv g.table hCase
        have hConserves := congrArg (List.map Prod.snd) (g.log.pass_conserves fun a => decide (a.1 = i.1))
        have hFind := hSettled.settled hTxn hOld
        rw [List.map_append, hWaiting, ← Option.toList_map, hFind] at hConserves
        rw [if_pos (hSettles.trans hCase), Bool.not_true, Bool.and_false, if_neg Bool.false_ne_true]
        simpa [Option.filter, hOld] using hConserves
  · have hOther : (g.accepted i).filter (fun a => decide (a.1 = k)) = none := by
      rw [accepted]
      cases (h i.1).accept (g.client i.1).state i.2.handler
      · rfl
      · simp [Option.filter, Ne.symm hk]
    rw [hOther, Option.toList_none, List.append_nil, pendingOp, next_txn_of_ne write effect g i hk]
    refine Eq.trans ?_ hWaiting
    split
    · have hApart : ∀ a : κ × ω, decide (a.1 = i.1) = true → decide (a.1 = k) = false := by
        intro a ha
        rw [decide_eq_false_iff_not, of_decide_eq_true ha]
        exact Ne.symm hk
      exact congrArg (List.map Prod.snd) (Log.pass_filter_other hApart)
    · rfl

theorem Settled.next (hRule : g.NotStale i) : (g.next write effect i).Settled effect serving start where
  serves := hSettled.served.serves_next hServes
  table := hSettled.table_next hServes hRule
  fresh := hSettled.served.fresh_next hServes
  waiting := hSettled.waiting_next hServes

end Step

section Run

variable (hServes : ∀ k, (h k).Serves write effect (serving k))
include hServes

theorem Settled.run (hSettled : g.Settled effect serving start) {is : List (Input h)}
    (hRule : (machine write effect).Along NotStale g is) :
    ((machine write effect).run g is).Settled effect serving start :=
  hRule.invariant hSettled fun _ _ hOld hStep => hOld.next hServes hStep

theorem Served.run (hServed : g.Served effect serving) (is : List (Input h)) :
    ((machine write effect).run g is).Served effect serving := by
  induction is generalizing g with
  | nil => exact hServed
  | cons i is ih => exact ih (hServed.next hServes)

/-- When every handler is idle nothing is pending. -/
theorem Settled.waiting_eq_nil (hSettled : g.Settled effect serving start)
    (hIdle : ∀ k, (h k).idle (g.client k).state = true) : g.log.waiting = [] := by
  rw [List.eq_nil_iff_forall_not_mem]
  intro e he
  have hWaiting := hSettled.waiting e.2.1
  rw [pendingOp, (hServes e.2.1).txn_of_idle (hSettled.serves e.2.1) (hIdle e.2.1), Option.filter_none, Option.map_none,
    Option.toList_none, List.map_eq_nil_iff, List.filter_eq_nil_iff] at hWaiting
  exact hWaiting e he (decide_eq_true rfl)

end Run

variable (write effect) in
theorem emitted_run (g : Bursts h) (is : List (Input h)) :
    (((machine write effect).run g is).log.emitted.map Prod.snd).Perm
      (g.log.emitted.map Prod.snd ++ (machine write effect).emitted Prod.fst g is) := by
  induction is generalizing g with
  | nil => rw [Machine.run_nil, Machine.emitted_nil, List.append_nil]
  | cons i is ih =>
    have hPass : (if g.settles effect i then g.log.pass fun a => decide (a.1 = i.1) else g.log).emitted.Perm
        g.log.emitted := by
      split
      · exact Log.pass_perm _
      · exact List.Perm.refl _
    have hStep := (Log.emit_perm (g.accepted i)).trans (List.Perm.append_right _ (hPass.map Prod.snd))
    rw [Machine.run_cons, Machine.emitted_cons, ← List.append_assoc]
    exact (ih (g.next write effect i)).trans (List.Perm.append_right _ hStep)

def init (table : τ → α) (client : (k : κ) → (h k).Client) : Bursts h := ⟨table, client, fun _ => none, fun _ => 0, .empty⟩

theorem Settled.init (table : τ → α) {client : (k : κ) → (h k).Client} (hFree : ∀ k, (client k).Free) :
    (Bursts.init table client).Settled effect serving table where
  serves := hFree
  table := rfl
  fresh _ _ _ hTxn _ := by cases hTxn
  waiting _ := rfl

/-- In a run in which no handler stores a stale block the table is that of the operations in
some order; only those that handlers are still serving may be missing. -/
theorem serializable (hServes : ∀ k, (h k).Serves write effect (serving k)) (table : τ → α)
    {client : (k : κ) → (h k).Client} (hFree : ∀ k, (client k).Free) {is : List (Input h)}
    (hRule : (machine write effect).Along NotStale (init table client) is) :
    let g := (machine write effect).run (init table client) is
    ∃ order waiting : List (κ × ω),
      (waiting ++ order).Perm ((machine write effect).emitted Prod.fst (init table client) is) ∧
      g.table = effect.serial table (order.map Prod.snd) ∧
      ((∀ k, (h k).idle (g.client k).state = true) → waiting = []) := by
  have hStart : (init table client).Settled effect serving table := .init table hFree
  have hSettled := hStart.run hServes hRule
  refine ⟨?_, ((machine write effect).run (init table client) is).log.waiting.map Prod.snd, ?_, ?_, fun hIdle => ?_⟩
  · exact ((machine write effect).run (init table client) is).log.passed.map Prod.snd
  · rw [← List.map_append]
    exact emitted_run write effect (init table client) is
  · rw [List.map_map]
    exact hSettled.table
  · rw [hSettled.waiting_eq_nil hServes hIdle, List.map_nil]

end Bursts

end KnockoutKraken.Library
