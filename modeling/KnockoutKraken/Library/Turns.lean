import KnockoutKraken.Library.Bursts

/-!
# Operations in turn

An operation that is served while no other one is takes effect as if it
were executed at once, however long its bursts take, and what is sent for
it is what its effect says.
-/

namespace KnockoutKraken.Library

variable {τ α ρ ω ε : Type}

namespace Effect

variable [DecidableEq τ] (effect : Effect τ α ω ε)

/-- What is sent for the operations, one after another. -/
def messages (table : τ → α) : List ω → List ε
  | [] => []
  | op :: ops => effect.emits op (table (effect.addr op)) ++ messages (effect.exec table op) ops

theorem messages_concat (table : τ → α) (ops : List ω) (op : ω) : effect.messages table (ops ++ [op]) =
    effect.messages table ops ++ effect.emits op (effect.serial table ops (effect.addr op)) := by
  induction ops generalizing table with
  | nil => exact List.append_nil _
  | cons op' ops ih =>
    rw [List.cons_append, messages, messages, ih, List.append_assoc]
    rfl

theorem serial_concat (table : τ → α) (ops : List ω) (op : ω) :
    effect.serial table (ops ++ [op]) = effect.exec (effect.serial table ops) op := effect.serial_append table ops [op]

theorem exec_self (table : τ → α) (op : ω) :
    effect.exec table op (effect.addr op) = effect.apply op (table (effect.addr op)) := Function.update_self _ _ _

theorem exec_of_ne (table : τ → α) {op : ω} {t : τ} (ht : t ≠ effect.addr op) : effect.exec table op t = table t :=
  Function.update_of_ne ht _ _

end Effect

/-- A handler waits for the end of a burst, writes to its buffer between its bursts only, and sends nothing while it
is idle. -/
structure Handler.Patient (h : Handler τ α ρ ω ε) : Prop where
  loading : ∀ {s t} (i) (m : Moved α), h.loading s = some t → m.readDone = false → h.loading (h.next s i m) = some t
  storing : ∀ {s t} (i) (m : Moved α), h.storing s = some t → m.writeDone = false → h.storing (h.next s i m) = some t
  of_loading : ∀ {s t}, h.loading s = some t → h.storing s = none ∧ h.writeRequest s = none
  of_storing : ∀ {s t}, h.storing s = some t → h.writeRequest s = none
  silent : ∀ {s} (i), h.idle s = true → h.emit s i = none
  ready : ∀ {s} (i) (m : Moved α), h.writeRequest s = none → h.next s i m = h.next s i { m with writeReady := true }

namespace Handler

variable {h : Handler τ α ρ ω ε}

theorem Patient.loading_of_storing (hPatient : h.Patient) {s : h.State} {t : τ} (hStoring : h.storing s = some t) :
    h.loading s = none := by
  cases hLoading : h.loading s with
  | none => rfl
  | some t' =>
    rw [(hPatient.of_loading hLoading).1] at hStoring
    cases hStoring

/-- The table after a step of the handler, which may store its block. -/
def Client.nextTable [DecidableEq τ] (c : h.Client) (table : τ → α) (i : h.ClientInput) : τ → α :=
  match c.stores i with
  | some t => Function.update table t c.block
  | none => table

end Handler

/-- The messages of an operation go out in order, and some of them before its block is stored. -/
structure Announced {h : Handler τ α ρ ω ε} (effect : Effect τ α ω ε) (first : ε → Prop) (x : Txn α ω ε) (c : h.Client) :
    Prop where
  quiet : x.loaded = none → x.emitted = []
  order : ∀ block ∈ x.loaded, x.emitted <+: effect.emits x.op block
  loaded : x.stored = true → x.loaded.isSome = true
  first : x.stored = true ∨ (h.storing c.state).isSome = true →
    ∀ block ∈ x.loaded, ∀ e ∈ effect.emits x.op block, first e → e ∈ x.emitted

section Announced

variable {h : Handler τ α ρ ω ε} {effect : Effect τ α ω ε} {first : ε → Prop} {x : Txn α ω ε} {c : h.Client} {block : α}

theorem Announced.of_nothing (hEmitted : x.emitted = []) (hStored : x.stored = false) (hStoring : h.storing c.state = none) :
    Announced effect first x c where
  quiet _ := hEmitted
  order block _ := hEmitted ▸ List.nil_prefix
  loaded hLate := by
    rw [hStored] at hLate
    cases hLate
  first hLate := by
    rw [hStored, hStoring] at hLate
    simp at hLate

theorem Announced.of_block (hLoaded : x.loaded = some block) (rest : List ε)
    (hEmits : effect.emits x.op block = x.emitted ++ rest) (hRest : ∀ e ∈ rest, ¬ first e) : Announced effect first x c where
  quiet hNone := by
    rw [hLoaded] at hNone
    cases hNone
  order block' hBlock := by
    rw [hLoaded, Option.mem_some_iff] at hBlock
    rw [← hBlock, hEmits]
    exact List.prefix_append _ _
  loaded _ := by rw [hLoaded, Option.isSome_some]
  first _ block' hBlock e hMem hFirst := by
    rw [hLoaded, Option.mem_some_iff] at hBlock
    rw [← hBlock, hEmits, List.mem_append] at hMem
    exact hMem.resolve_right fun hLate => hRest e hLate hFirst

end Announced

/-- An operation is served while nobody else touches the table, which was `before` when it was accepted. -/
structure Alone [DecidableEq τ] {h : Handler τ α ρ ω ε} (effect : Effect τ α ω ε) (serving : Txn α ω ε → h.Client → Prop)
    (before : τ → α) (x : Txn α ω ε) (c : h.Client) (table : τ → α) : Prop where
  serving : serving x c
  loaded : ∀ block ∈ x.loaded, block = before (effect.addr x.op)
  table : table = if x.stored then effect.exec before x.op else before

section Alone

variable [DecidableEq τ] {h : Handler τ α ρ ω ε} {write : α → ρ → α} {effect : Effect τ α ω ε}
  {serving : Txn α ω ε → h.Client → Prop} (serves : h.Serves write effect serving) {before table : τ → α}
  {x : Txn α ω ε} {c : h.Client} (stamp : τ → Nat) (i : h.ClientInput)
include serves

theorem Handler.Serves.nextTable_of_free (hFree : c.Free) (table : τ → α) : c.nextTable table i = table := by
  rw [Handler.Client.nextTable, (serves.bursts_of_free hFree).2]

theorem Alone.start {op : ω} (table : τ → α) (hFree : c.Free) (hAccept : h.accept c.state i.handler = some op) :
    Alone effect serving table (.start op) (c.next write table i) (c.nextTable table i) where
  serving := serves.accept table hFree hAccept
  loaded block hLoaded := by cases hLoaded
  table := serves.nextTable_of_free i hFree table

variable (hAlone : Alone effect serving before x c table)
include hAlone

theorem Alone.loaded_next : ∀ block ∈ (x.advance table stamp c i).loaded, block = before (effect.addr x.op) := by
  intro block hLoaded
  have hInv : h.Inv serving (some x) c := hAlone.serving
  cases hReads : c.reads i with
  | none =>
    rw [Txn.advance, hReads, Option.map_none, Option.none_or] at hLoaded
    exact hAlone.loaded block hLoaded
  | some t =>
    obtain ⟨_, hx, _, hStored, hAddr⟩ := serves.txn_of_reads hInv hReads
    obtain rfl := Option.some.inj hx
    rw [Txn.advance, hReads, Option.map_some, Option.some_or, Option.mem_some_iff] at hLoaded
    rw [← hLoaded, hAlone.table, if_neg (Bool.eq_false_iff.mp hStored), hAddr]

/-- The table takes the effect of the operation when its block is stored. -/
theorem Alone.table_next :
    c.nextTable table i = if (x.advance table stamp c i).stored then effect.exec before x.op else before := by
  have hInv : h.Inv serving (some x) c := hAlone.serving
  rw [Handler.Client.nextTable, Txn.advance]
  cases hStores : c.stores i with
  | none => simpa using hAlone.table
  | some t =>
    obtain ⟨_, block, hx, hLoaded, hStored, _, hAddr, hBlock⟩ := serves.txn_of_stores hInv hStores
    obtain rfl := Option.some.inj hx
    have hBefore : table = before := by rw [hAlone.table, if_neg (Bool.eq_false_iff.mp hStored)]
    rw [Option.isSome_some, Bool.or_true, if_pos rfl, Effect.exec, hAddr, hBlock, hAlone.loaded block hLoaded, hAddr,
      hBefore]

theorem Alone.next (hBusy : h.idle (c.next write table i).state = false) :
    Alone effect serving before (x.advance table stamp c i) (c.next write table i) (c.nextTable table i) where
  serving := serves.advance table stamp i hAlone.serving hBusy
  loaded := hAlone.loaded_next serves stamp i
  table := hAlone.table_next serves stamp i

/-- When the handler is idle again the operation is executed, and all its messages are sent. -/
theorem Alone.close (hIdle : h.idle (c.next write table i).state = true) : (c.next write table i).Free ∧
    c.nextTable table i = effect.exec before x.op ∧
    (x.advance table stamp c i).emitted = effect.emits x.op (before (effect.addr x.op)) := by
  obtain ⟨block, hHeld, hEmitted⟩ := serves.close table stamp i hAlone.serving hIdle
  have hBlock := hAlone.loaded_next serves stamp i block hHeld.loaded
  refine ⟨⟨hIdle, hHeld.readMoved, hHeld.writeMoved⟩, ?_, hBlock ▸ hEmitted⟩
  rw [hAlone.table_next serves stamp i, hHeld.stored]
  cases hStores : effect.stores x.op block with
  | true => rfl
  | false =>
    rw [hBlock] at hStores
    rw [if_neg Bool.false_ne_true, effect.exec_of_not_stores hStores]

end Alone

end KnockoutKraken.Library
