import Mathlib.Data.List.Permutation
import KnockoutKraken.Mmu.PageWalker
import KnockoutKraken.Mmu.QEMUMissReplyHandler
import KnockoutKraken.Mmu.QEMUPageEvictHandler

/-!
# Atomicity of the handlers

The walker and the three handlers that write the page table work side by
side, each with a set buffer of its own. Their operations are atomic in
the runs in which no handler writes a set back after another one wrote it
since it was loaded.
-/

namespace KnockoutKraken.Mmu

open Library Armflex

inductive MMUHandler where
  | pageWalker | tlbWriteback | missReply | pageEvict
deriving DecidableEq

variable {params : PageTableParams} {tlbs : Nat}

abbrev handlers (params : PageTableParams) (tlbs : Nat) : MMUHandler → Handler (BitVec params.pPageW) SetWords
    (PageSetBufferWriteRequestPacket params) (Operation params tlbs) (Event params tlbs)
  | .pageWalker => PageWalker.handler params tlbs
  | .tlbWriteback => TLBWritebackHandler.handler params tlbs
  | .missReply => QEMUMissReplyHandler.handler params tlbs
  | .pageEvict => QEMUPageEvictHandler.handler params tlbs

def serving : (k : MMUHandler) → Txn SetWords (Operation params tlbs) (Event params tlbs) →
    (handlers params tlbs k).Client → Prop
  | .pageWalker => PageWalker.Serving
  | .tlbWriteback => TLBWritebackHandler.Serving
  | .missReply => QEMUMissReplyHandler.Serving
  | .pageEvict => QEMUPageEvictHandler.Serving

theorem handlers_serve (k : MMUHandler) :
    (handlers params tlbs k).Serves writeWords (Operation.effect params tlbs) (serving k) := by
  cases k with
  | pageWalker => exact PageWalker.serves
  | tlbWriteback => exact TLBWritebackHandler.serves
  | missReply => exact QEMUMissReplyHandler.serves
  | pageEvict => exact QEMUPageEvictHandler.serves

/-- The page table with its handlers. -/
abbrev PageTableUnit (params : PageTableParams) (tlbs : Nat) := Bursts (handlers params tlbs)

namespace PageTableUnit

abbrev Input (params : PageTableParams) (tlbs : Nat) := Bursts.Input (handlers params tlbs)

abbrev machine (params : PageTableParams) (tlbs : Nat) := Bursts.machine (h := handlers params tlbs) writeWords (Operation.effect params tlbs)

/-- The handlers after reset, with any values in the registers that are not reset. -/
structure Reset (params : PageTableParams) (tlbs : Nat) where
  walker : PageWalker params tlbs
  writeback : TLBWritebackHandler params tlbs
  missReply : QEMUMissReplyHandler params
  pageEvict : QEMUPageEvictHandler params
  buffer : MMUHandler → SetWords
  walker_idle : walker.stateR = .sIdle
  writeback_idle : writeback.stateR = .sIdle
  missReply_idle : missReply.stateR = .sIdle
  pageEvict_idle : pageEvict.stateR = .sIdle

def Reset.client (reset : Reset params tlbs) : (k : MMUHandler) → (handlers params tlbs k).Client
  | .pageWalker => ⟨reset.walker, reset.buffer .pageWalker, false, false⟩
  | .tlbWriteback => ⟨reset.writeback, reset.buffer .tlbWriteback, false, false⟩
  | .missReply => ⟨reset.missReply, reset.buffer .missReply, false, false⟩
  | .pageEvict => ⟨reset.pageEvict, reset.buffer .pageEvict, false, false⟩

theorem Reset.free (reset : Reset params tlbs) (k : MMUHandler) : (reset.client k).Free := by
  cases k with
  | pageWalker => exact ⟨decide_eq_true reset.walker_idle, rfl, rfl⟩
  | tlbWriteback => exact ⟨decide_eq_true reset.writeback_idle, rfl, rfl⟩
  | missReply => exact ⟨decide_eq_true reset.missReply_idle, rfl, rfl⟩
  | pageEvict => exact ⟨decide_eq_true reset.pageEvict_idle, rfl, rfl⟩

abbrev init (table : BitVec params.pPageW → SetWords) (reset : Reset params tlbs) : PageTableUnit params tlbs :=
  Bursts.init table reset.client

def Idle (g : PageTableUnit params tlbs) : Prop := ∀ k, (handlers params tlbs k).idle (g.client k).state = true

end PageTableUnit

open PageTableUnit

/-- In a run in which no handler stores a set that was stored by another since it loaded it, the
page table is that of the accepted operations in some order, but for those still being served. -/
theorem page_table_serial (table : BitVec params.pPageW → SetWords) (reset : Reset params tlbs)
    {is : List (Input params tlbs)} (hRule : (machine params tlbs).Along Bursts.NotStale (init table reset) is) :
    let g := (machine params tlbs).run (init table reset) is
    ∃ order waiting : List (MMUHandler × Operation params tlbs),
      (waiting ++ order).Perm ((machine params tlbs).emitted Prod.fst (init table reset) is) ∧
      g.table = (Operation.effect params tlbs).serial table (order.map Prod.snd) ∧ (Idle g → waiting = []) :=
  Bursts.serializable handlers_serve table reset.free hRule

section SharedSet

abbrev smallTable : PageTableParams :=
  ⟨8, 7, 1, 0, 0, 0, 0, by decide, by decide, by decide, by decide, by decide⟩

def emptySet : PageTableSetPacket smallTable := ⟨fun _ => ⟨0, 0⟩, fun _ => ⟨0, 0, false⟩, 0, 0⟩

/-- Page zero is in the first slot, not modified. -/
def onePage (t : BitVec 1) : SetWords :=
  if t = 0 then (emptySet.write ⟨⟨⟨0, 0⟩, ⟨0, 1, false⟩⟩, false, 0⟩).asWords else emptySet.asWords

def atReset : Reset smallTable 0 where
  walker := ⟨.sIdle, ⟨⟨0, 0⟩, 0, 0⟩, 0, none, 0⟩
  writeback := ⟨.sIdle, ⟨⟨0, 0⟩, ⟨0, 0, false⟩⟩, 0, 0, 0⟩
  missReply := ⟨.sIdle, ⟨⟨0, 0⟩, 0, 0, false, 0⟩, false, ⟨⟨0, 0⟩, ⟨0, 0, false⟩⟩, 0⟩
  pageEvict := ⟨.sIdle, ⟨⟨0, 0⟩⟩, 0, ⟨⟨0, 0⟩, ⟨0, 0, false⟩⟩⟩
  buffer _ _ := 0
  walker_idle := rfl
  writeback_idle := rfl
  missReply_idle := rfl
  pageEvict_idle := rfl

def missStep (request : Option (QEMUMissReply smallTable)) (move done : Bool) : Input smallTable 0 :=
  ⟨.missReply, ⟨⟨request, false, false, false⟩, move, done, fun _ => 0⟩⟩

def writebackStep (request : Option (TLBEvictionMessage smallTable)) (move done : Bool) : Input smallTable 0 :=
  ⟨.tlbWriteback, ⟨fun _ => request, move, done, fun _ => 0⟩⟩

def insertion : QEMUMissReply smallTable := ⟨⟨1, 0⟩, 1, 0, false, 1⟩

def dirtyEntry : TLBEvictionMessage smallTable := ⟨⟨0, 0⟩, ⟨0, 1, true⟩⟩

/-- The insertion up to the state in which it waits for the write engine. -/
def missLoad : List (Input smallTable 0) :=
  [missStep (some insertion) false false, missStep none true false, missStep none false true,
    missStep none false false, missStep none false false, missStep none false false]

def missStore : List (Input smallTable 0) := [missStep none true false, missStep none false true]

def wholeWriteback : List (Input smallTable 0) :=
  [writebackStep (some dirtyEntry) false false, writebackStep none true false, writebackStep none false true,
    writebackStep none false false, writebackStep none false false, writebackStep none true false,
    writebackStep none false true]

def modifiedAtZero (words : SetWords) : Bool := ((PageTableSetPacket.ofWords words : PageTableSetPacket smallTable).lookup ⟨0, 0⟩).item.entry.modified

/-- While an insertion waits to store the set it loaded, the modified bit of another page in the
set is written back. The bit is lost, in whatever order the two are executed. -/
theorem update_lost :
    let g := (machine smallTable 0).run (init onePage atReset) (missLoad ++ wholeWriteback ++ missStore)
    Idle g ∧ ¬ ∃ order : List (MMUHandler × Operation smallTable 0),
      order.Perm ((machine smallTable 0).emitted Prod.fst (init onePage atReset) (missLoad ++ wholeWriteback ++ missStore)) ∧
      g.table = (Operation.effect smallTable 0).serial onePage (order.map Prod.snd) := by
  refine ⟨fun k => by cases k <;> decide +kernel, ?_⟩
  rintro ⟨order, hPerm, hTable⟩
  have hAccepted : (machine smallTable 0).emitted Prod.fst (init onePage atReset)
      (missLoad ++ wholeWriteback ++ missStore) =
      [(.missReply, .missReply insertion), (.tlbWriteback, .writeback dirtyEntry 0)] := by decide +kernel
  rw [hAccepted, ← List.mem_permutations] at hPerm
  have hLost : modifiedAtZero (((Operation.effect smallTable 0).serial onePage (order.map Prod.snd)) 0) = false := by
    rw [← hTable]
    decide +kernel
  have hOrders : order = [(.missReply, .missReply insertion), (.tlbWriteback, .writeback dirtyEntry 0)] ∨
      order = [(.tlbWriteback, .writeback dirtyEntry 0), (.missReply, .missReply insertion)] := by
    simpa [List.permutations] using hPerm
  rcases hOrders with rfl | rfl
  · exact absurd hLost (by decide +kernel)
  · exact absurd hLost (by decide +kernel)

theorem page_table_serial_of_turns :
    let g := (machine smallTable 0).run (init onePage atReset) (missLoad ++ missStore ++ wholeWriteback)
    ∃ order waiting : List (MMUHandler × Operation smallTable 0),
      (waiting ++ order).Perm
        ((machine smallTable 0).emitted Prod.fst (init onePage atReset) (missLoad ++ missStore ++ wholeWriteback)) ∧
      g.table = (Operation.effect smallTable 0).serial onePage (order.map Prod.snd) ∧ (Idle g → waiting = []) :=
  page_table_serial onePage atReset (by decide +kernel)

end SharedSet

end KnockoutKraken.Mmu
