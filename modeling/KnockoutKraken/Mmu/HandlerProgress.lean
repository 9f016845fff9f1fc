import KnockoutKraken.Mmu.PageTableRefinement

/-!
# The handlers come to their end

A handler that serves an operation goes through its states in one
direction. Every cycle in which the port moves and the receivers take what
is offered brings it closer to its end, and no cycle takes it back.
-/

namespace KnockoutKraken.Mmu

open Library Armflex

variable {params : PageTableParams} {tlbs : Nat} {ω ε : Type}

/-- The cycles that a side of the port needs, once it is asked for a set. -/
def Transfer.left : Transfer params → Nat
  | .idle => 5
  | .beats _ beat => 4 - beat.val
  | .moved => 1

theorem Transfer.left_le (x : Transfer params) : x.left ≤ 5 := by
  cases x with
  | idle => exact le_rfl
  | beats _ beat => exact (Nat.sub_le _ _).trans (by decide)
  | moved => exact Nat.le_add_left 1 4

theorem Transfer.left_pos (x : Transfer params) : 0 < x.left := by
  cases x with
  | idle => exact Nat.succ_pos 4
  | beats _ beat => exact Nat.sub_pos_of_lt (beat.isLt.trans (Nat.lt_succ_self 3))
  | moved => exact Nat.one_pos

theorem Transfer.left_next {x : Transfer params} {step fired : Bool} (address : BitVec (dramAddrW params))
    (hDone : x.done step = false) (hFired : ∀ a b, x = .beats a b → fired = step) :
    (x.next step (some address) fired).left + step.toNat ≤ x.left := by
  cases x with
  | idle => cases step <;> exact le_rfl
  | beats a b =>
    rw [hFired a b rfl, Transfer.next]
    cases step with
    | false => exact le_rfl
    | true =>
      have hBeat := b.isLt
      rw [if_pos rfl]
      split
      · next hLast =>
        rw [hLast]
        exact le_rfl
      · next hMore =>
        have hVal : (b + 1).val = b.val + 1 := Fin.val_add_one_of_lt' (by omega)
        simp only [Transfer.left, hVal, Bool.toNat_true]
        omega
  | moved =>
    rw [Transfer.done_moved] at hDone
    rw [hDone]
    exact le_rfl

theorem Transfer.moved_of_done {x : Transfer params} {step : Bool} (hDone : x.done step = true) : x = .moved ∧ step = true := by
  rw [Transfer.done, Bool.and_eq_true, decide_eq_true_eq] at hDone
  exact hDone.symm

section Timed

variable (h : SetHandler params ω ε) (remaining : h.State → Nat)

/-- The cycles that a handler needs when its port is idle: those of the states behind, and those of the burst it asks for. -/
def cost (s : h.State) : Nat :=
  remaining s + (if (h.loading s).isSome then 5 else 0) + (if (h.storing s).isSome then 5 else 0)

/-- `remaining` counts the cycles behind the burst that a state asks for. In a cycle in which a handler hurries it is
not kept waiting by another unit, its port apart. -/
structure Timed (hurries : h.State → h.Input → Bool) : Prop where
  waits : ∀ {s} (i) (m : Moved SetWords), ((h.loading s).isSome = true ∧ m.readDone = false) ∨
    ((h.storing s).isSome = true ∧ m.writeDone = false) → remaining (h.next s i m) = remaining s
  moved : ∀ {s} (i) (m : Moved SetWords), ((h.loading s).isSome = true ∧ m.readDone = true) ∨
    ((h.storing s).isSome = true ∧ m.writeDone = true) → cost h remaining (h.next s i m) ≤ remaining s
  keeps : ∀ {s} (i) (m : Moved SetWords), h.idle s = false → h.loading s = none → h.storing s = none →
    cost h remaining (h.next s i m) ≤ cost h remaining s
  closer : ∀ {s i} (m : Moved SetWords), h.idle s = false → h.loading s = none → h.storing s = none → hurries s i = true →
    m.writeReady = true → cost h remaining (h.next s i m) < cost h remaining s
  idle : ∀ {s}, h.idle s = true → cost h remaining s = 0
  busy : ∀ {s}, h.idle s = false → 0 < cost h remaining s
  bounded : ∀ s, cost h remaining s ≤ 16

end Timed

namespace Buffered

variable {h : SetHandler params ω ε} (remaining : h.State → Nat)

/-- The cycles that a handler still needs, if nothing keeps it waiting. -/
def left (d : Buffered h) : Nat :=
  remaining d.state + (if (h.loading d.state).isSome then d.reader.left else 0) +
    (if (h.storing d.state).isSome then d.writer.left else 0)

def moves (hurries : h.State → h.Input → Bool) (d : Buffered h) (i : Input h) : Bool :=
  (!(h.loading d.state).isSome || i.readStep) && (!(h.storing d.state).isSome || i.writeStep) && hurries d.state i.handler

variable {remaining} {d : Buffered h} {memory : Dram} {c : h.Client} {table : BitVec params.pPageW → SetWords}

section Stages

variable (w : Wiring h) (hFollows : Follows memory d c table)
include w hFollows

theorem Follows.reading {t : BitVec params.pPageW} (asked : h.loading d.state = some t) :
    d.writer = .idle ∧ ∀ a b, d.reader = .beats a b → d.buffer.stateR ≠ .sMoveOut := by
  have hNone := (w.patient.of_loading asked).1
  cases hFollows.stage with
  | rest reader writer =>
    refine ⟨writer, fun a b hBeats => ?_⟩
    rw [reader] at hBeats
    cases hBeats
  | load _ writer _ burst => exact ⟨writer, fun _ _ _ => burst⟩
  | loaded reader writer =>
    refine ⟨writer, fun a b hBeats => ?_⟩
    rw [reader] at hBeats
    cases hBeats
  | store _ _ asked' => exact absurd (asked'.symm.trans hNone) (Option.some_ne_none _)
  | stored _ _ asked' => exact absurd (asked'.symm.trans hNone) (Option.some_ne_none _)

theorem Follows.writing {t : BitVec params.pPageW} (asked : h.storing d.state = some t) :
    d.reader = .idle ∧ ∀ a b, d.writer = .beats a b → d.buffer.stateR ≠ .sMoveIn := by
  have hNone := w.patient.loading_of_storing asked
  cases hFollows.stage with
  | rest reader writer =>
    refine ⟨reader, fun a b hBeats => ?_⟩
    rw [writer] at hBeats
    cases hBeats
  | load _ _ asked' => exact absurd (asked'.symm.trans hNone) (Option.some_ne_none _)
  | loaded _ _ asked' => exact absurd (asked'.symm.trans hNone) (Option.some_ne_none _)
  | store reader _ _ burst => exact ⟨reader, fun _ _ _ => burst⟩
  | stored reader writer =>
    refine ⟨reader, fun a b hBeats => ?_⟩
    rw [writer] at hBeats
    cases hBeats

omit w in
theorem Follows.between (hLoading : h.loading d.state = none) (hStoring : h.storing d.state = none) :
    d.reader = .idle ∧ d.writer = .idle ∧ d.buffer.stateR = .sIdle := by
  cases hFollows.stage with
  | rest reader writer count => exact ⟨reader, writer, hFollows.counted.mpr count⟩
  | load _ _ asked => exact absurd (asked.symm.trans hLoading) (Option.some_ne_none _)
  | loaded _ _ asked => exact absurd (asked.symm.trans hLoading) (Option.some_ne_none _)
  | store _ _ asked => exact absurd (asked.symm.trans hStoring) (Option.some_ne_none _)
  | stored _ _ asked => exact absurd (asked.symm.trans hStoring) (Option.some_ne_none _)

end Stages

theorem left_eq_cost (hReader : d.reader = .idle) (hWriter : d.writer = .idle) : d.left remaining = cost h remaining d.state := by
  rw [left, cost, hReader, hWriter]
  rfl

theorem left_of_loading (w : Wiring h) {t : BitVec params.pPageW} (asked : h.loading d.state = some t) :
    d.left remaining = remaining d.state + d.reader.left := by
  rw [left, asked, (w.patient.of_loading asked).1]
  rfl

theorem left_of_storing (w : Wiring h) {t : BitVec params.pPageW} (asked : h.storing d.state = some t) :
    d.left remaining = remaining d.state + d.writer.left := by
  rw [left, asked, w.patient.loading_of_storing asked]
  rfl

variable {hurries : h.State → h.Input → Bool} (hTimed : Timed h remaining hurries) (w : Wiring h)
include hTimed

theorem left_bounded (d : Buffered h) : d.left remaining ≤ 16 := by
  have hCost := hTimed.bounded d.state
  have hReader := d.reader.left_le
  have hWriter := d.writer.left_le
  rw [cost] at hCost
  rw [left]
  split <;> split <;> simp_all <;> omega

variable (i : Input h) (hFollows : Follows memory d c table)
include hFollows

theorem Follows.left_next_of_loading {t : BitVec params.pPageW} (asked : h.loading d.state = some t) :
    (d.next w memory i).left remaining + i.readStep.toNat ≤ d.left remaining := by
  obtain ⟨hWriter, hBurst⟩ := hFollows.reading w asked
  have hReader : (d.next w memory i).reader = d.reader.next i.readStep (some (vpn2ptSetPA t)) (d.dataI w memory i).isSome := by
    rw [Buffered.next, asked]
    rfl
  rw [left_of_loading w asked]
  cases hDone : d.reader.done i.readStep with
  | true =>
    obtain ⟨hMoved, hStep⟩ := Transfer.moved_of_done hDone
    have hWriter' : (d.next w memory i).writer = .idle := by
      rw [Buffered.next, hWriter, (w.patient.of_loading asked).1, Option.map_none, Transfer.next_idle_none]
    have hReader' : (d.next w memory i).reader = .idle := by
      rw [hReader, hMoved, hStep]
      rfl
    have hCost := hTimed.moved i.handler (d.moved i) (s := d.state) (.inl ⟨by rw [asked]; rfl, hDone⟩)
    rw [left_eq_cost hReader' hWriter', hMoved, hStep]
    exact Nat.succ_le_succ hCost
  | false =>
    have hWaits := hTimed.waits i.handler (d.moved i) (s := d.state) (.inl ⟨by rw [asked]; rfl, hDone⟩)
    have hAsked : h.loading (d.next w memory i).state = some t := w.patient.loading i.handler (d.moved i) asked hDone
    have hFired : ∀ a b, d.reader = .beats a b → (d.dataI w memory i).isSome = i.readStep := by
      intro a b hBeats
      cases hStep : i.readStep with
      | true => rw [dataI_of_load i hBeats (w.patient.of_loading asked).2 (hBurst a b hBeats) hStep, Option.isSome_some]
      | false => rw [dataI_of_word w memory i (by rw [hBeats, hStep]; rfl), Option.isSome_none]
    have hLeft := Transfer.left_next (vpn2ptSetPA t) hDone hFired
    rw [left_of_loading w hAsked, hReader, Nat.add_assoc]
    exact Nat.add_le_add (le_of_eq hWaits) hLeft

theorem Follows.left_next_of_storing {t : BitVec params.pPageW} (asked : h.storing d.state = some t) :
    (d.next w memory i).left remaining + i.writeStep.toNat ≤ d.left remaining := by
  obtain ⟨hReader, hBurst⟩ := hFollows.writing w asked
  have hWriter : (d.next w memory i).writer = d.writer.next i.writeStep (some (vpn2ptSetPA t)) (d.dataO w memory i).isSome := by
    rw [Buffered.next, asked]
    rfl
  rw [left_of_storing w asked]
  cases hDone : d.writer.done i.writeStep with
  | true =>
    obtain ⟨hMoved, hStep⟩ := Transfer.moved_of_done hDone
    have hReader' : (d.next w memory i).reader = .idle := by
      rw [Buffered.next, hReader, w.patient.loading_of_storing asked, Option.map_none, Transfer.next_idle_none]
    have hWriter' : (d.next w memory i).writer = .idle := by
      rw [hWriter, hMoved, hStep]
      rfl
    have hCost := hTimed.moved i.handler (d.moved i) (s := d.state) (.inr ⟨by rw [asked]; rfl, hDone⟩)
    rw [left_eq_cost hReader' hWriter', hMoved, hStep]
    exact Nat.succ_le_succ hCost
  | false =>
    have hWaits := hTimed.waits i.handler (d.moved i) (s := d.state) (.inr ⟨by rw [asked]; rfl, hDone⟩)
    have hAsked : h.storing (d.next w memory i).state = some t := w.patient.storing i.handler (d.moved i) asked hDone
    have hFired : ∀ a b, d.writer = .beats a b → (d.dataO w memory i).isSome = i.writeStep := by
      intro a b hBeats
      cases hStep : i.writeStep with
      | true => rw [dataO_of_store i hBeats asked (hBurst a b hBeats) hStep, Option.isSome_some]
      | false => rw [dataO_of_word w memory i (by rw [hBeats, hStep]; rfl), Option.isSome_none]
    have hLeft := Transfer.left_next (vpn2ptSetPA t) hDone hFired
    rw [left_of_storing w hAsked, hWriter, Nat.add_assoc]
    exact Nat.add_le_add (le_of_eq hWaits) hLeft

/-- No cycle takes a handler back, and one in which it is not kept waiting brings it closer to its end. -/
theorem Follows.left_next (hBusy : h.idle d.state = false) :
    (d.next w memory i).left remaining + (d.moves hurries i).toNat ≤ d.left remaining := by
  rw [moves]
  cases hLoading : h.loading d.state with
  | some t =>
    refine (Nat.add_le_add_left ?_ _).trans (hFollows.left_next_of_loading hTimed w i hLoading)
    cases i.readStep with
    | false => exact le_rfl
    | true => exact Bool.toNat_le _
  | none =>
    cases hStoring : h.storing d.state with
    | some t =>
      refine (Nat.add_le_add_left ?_ _).trans (hFollows.left_next_of_storing hTimed w i hStoring)
      cases i.writeStep with
      | false => exact le_rfl
      | true => exact Bool.toNat_le _
    | none =>
      obtain ⟨hReader, hWriter, hIdle⟩ := hFollows.between hLoading hStoring
      have hReader' : (d.next w memory i).reader = .idle := by
        rw [Buffered.next, hReader, hLoading, Option.map_none, Transfer.next_idle_none]
      have hWriter' : (d.next w memory i).writer = .idle := by
        rw [Buffered.next, hWriter, hStoring, Option.map_none, Transfer.next_idle_none]
      rw [left_eq_cost hReader hWriter, left_eq_cost hReader' hWriter']
      cases hHurries : hurries d.state i.handler with
      | false => exact hTimed.keeps i.handler (d.moved i) hBusy hLoading hStoring
      | true => exact hTimed.closer (d.moved i) hBusy hLoading hStoring hHurries (by rw [moved, hIdle]; rfl)

omit i hFollows in
theorem left_pos (hBusy : h.idle d.state = false) : 0 < d.left remaining := by
  have hCost := hTimed.busy hBusy
  rw [cost] at hCost
  rw [left]
  have hReader := d.reader.left_pos
  have hWriter := d.writer.left_pos
  split <;> split <;> simp_all

end Buffered

section Handlers

namespace PageWalker

open PageWalkerState

variable (u : PageWalker params tlbs) (i : Input params tlbs)

def remaining : Nat :=
  match u.stateR with
  | sIdle => 0
  | sMove | sLookup => 2
  | sReply => 1

def hurries : Bool := u.stateR != sReply || u.replyReady i

theorem timed : Timed (handler params tlbs) remaining hurries where
  waits {u} i m := by
    cases hState : u.stateR <;> simp +contextual [handler, remaining, next, nextState, hState]
  moved {u} i m := by
    cases hState : u.stateR <;> simp +contextual [cost, handler, remaining, next, nextState, hState]
  keeps {u} i m := by
    cases hState : u.stateR with
    | sReply => cases hReady : u.replyReady i <;> simp [cost, handler, remaining, next, nextState, replyFire, hState, hReady]
    | _ => simp [cost, handler, remaining, next, nextState, hState]
  closer {u i} m := by
    cases hState : u.stateR <;> simp +contextual [cost, handler, remaining, hurries, next, nextState, replyFire, hState]
  idle {u} := by
    cases hState : u.stateR <;> simp [cost, handler, remaining, hState]
  busy {u} := by
    cases hState : u.stateR <;> simp [cost, handler, remaining, hState]
  bounded u := by
    cases hState : u.stateR <;> simp [cost, handler, remaining, hState]

end PageWalker

namespace TLBWritebackHandler

open TLBWritebackState

def remaining (u : TLBWritebackHandler params tlbs) : Nat :=
  match u.stateR with
  | sIdle | sMoveOut => 0
  | sMoveIn | sPick => 7
  | sUpdatePT => 6

/-- Only the port keeps the handler waiting. -/
theorem timed : Timed (handler params tlbs) remaining fun _ _ => true where
  waits {u} i m := by
    cases hState : u.stateR <;> simp +contextual [handler, remaining, next, nextState, hState]
  moved {u} i m := by
    cases hState : u.stateR <;> simp +contextual [cost, handler, remaining, next, nextState, hState]
  keeps {u} i m := by
    cases hState : u.stateR with
    | sUpdatePT => cases hReady : m.writeReady <;> simp [cost, handler, remaining, next, nextState, hState, hReady]
    | _ => simp [cost, handler, remaining, next, nextState, hState]
  closer {u i} m := by
    cases hState : u.stateR <;> simp +contextual [cost, handler, remaining, next, nextState, hState]
  idle {u} := by
    cases hState : u.stateR <;> simp [cost, handler, remaining, hState]
  busy {u} := by
    cases hState : u.stateR <;> simp [cost, handler, remaining, hState]
  bounded u := by
    cases hState : u.stateR <;> simp [cost, handler, remaining, hState]

end TLBWritebackHandler

namespace QEMUPageEvictHandler

open QEMUPageEvictState

variable (u : QEMUPageEvictHandler params) (i : Input params)

def remaining : Nat :=
  match u.stateR with
  | sIdle | sUpdatePT => 0
  | sLoadSet | sGetEntry => 9
  | sDeletePageReq => 8
  | sDeletePage => 7
  | sFlushEntry => 6

def hurries : Bool :=
  match u.stateR with
  | sDeletePageReq => i.pageDeleteReqReady
  | sDeletePage => i.pageDeleteDoneI
  | _ => true

theorem timed : Timed (handler params tlbs) remaining hurries where
  waits {u} i m := by
    cases hState : u.stateR <;> simp +contextual [handler, remaining, next, nextState, hState]
  moved {u} i m := by
    cases hState : u.stateR <;> simp +contextual [cost, handler, remaining, next, nextState, hState]
  keeps {u} i m := by
    cases hState : u.stateR with
    | sDeletePageReq =>
      cases hReady : i.pageDeleteReqReady <;> simp [cost, handler, remaining, next, nextState, hState, hReady]
    | sDeletePage => cases hDone : i.pageDeleteDoneI <;> simp [cost, handler, remaining, next, nextState, hState, hDone]
    | sFlushEntry => cases hReady : m.writeReady <;> simp [cost, handler, remaining, next, nextState, hState, hReady]
    | _ => simp [cost, handler, remaining, next, nextState, hState]
  closer {u i} m := by
    cases hState : u.stateR <;> simp +contextual [cost, handler, remaining, hurries, next, nextState, hState]
  idle {u} := by
    cases hState : u.stateR <;> simp [cost, handler, remaining, hState]
  busy {u} := by
    cases hState : u.stateR <;> simp [cost, handler, remaining, hState]
  bounded u := by
    cases hState : u.stateR <;> simp [cost, handler, remaining, hState]

end QEMUPageEvictHandler

namespace QEMUMissReplyHandler

open QEMUMissReplyState

variable (u : QEMUMissReplyHandler params) (i : Input params)

def remaining : Nat :=
  match u.stateR with
  | sIdle => 0
  | sLoadSet | sCheckHit => 11
  | sGetEvict => 10
  | sDeletePageReq => 9
  | sDeletePage => 8
  | sReplace => 7
  | sMoveback | sReplyToTLB => 1

def hurries : Bool :=
  match u.stateR with
  | sDeletePageReq => i.pageDeleteReqReady
  | sDeletePage => i.pageDeleteDoneI
  | sReplyToTLB => i.tlbBackendReplyReady
  | _ => true

theorem timed : Timed (handler params tlbs) remaining hurries where
  waits {u} i m := by
    cases hState : u.stateR <;> simp +contextual [handler, remaining, next, nextState, hState]
  moved {u} i m := by
    cases hState : u.stateR with
    | sMoveback =>
      cases hThid : u.requestR.thidV <;> simp +contextual [cost, handler, remaining, next, nextState, hState, hThid]
    | _ => simp +contextual [cost, handler, remaining, next, nextState, hState]
  keeps {u} i m := by
    cases hState : u.stateR with
    | sCheckHit =>
      cases hHit : u.pteHitRv <;> cases hThid : u.requestR.thidV <;>
        simp [cost, handler, remaining, next, nextState, hState, hHit, hThid]
    | sGetEvict =>
      cases hVictim : (lruElementO params m).lruV <;> simp [cost, handler, remaining, next, nextState, hState, hVictim]
    | sDeletePageReq =>
      cases hReady : i.pageDeleteReqReady <;> simp [cost, handler, remaining, next, nextState, hState, hReady]
    | sDeletePage => cases hDone : i.pageDeleteDoneI <;> simp [cost, handler, remaining, next, nextState, hState, hDone]
    | sReplace => cases hReady : m.writeReady <;> simp [cost, handler, remaining, next, nextState, hState, hReady]
    | sReplyToTLB =>
      cases hReady : i.tlbBackendReplyReady <;> simp [cost, handler, remaining, next, nextState, hState, hReady]
    | _ => simp [cost, handler, remaining, next, nextState, hState]
  closer {u i} m := by
    cases hState : u.stateR with
    | sCheckHit =>
      cases hHit : u.pteHitRv <;> cases hThid : u.requestR.thidV <;>
        simp [cost, handler, remaining, next, nextState, hState, hHit, hThid]
    | sGetEvict =>
      cases hVictim : (lruElementO params m).lruV <;> simp [cost, handler, remaining, next, nextState, hState, hVictim]
    | _ => simp +contextual [cost, handler, remaining, hurries, next, nextState, hState]
  idle {u} := by
    cases hState : u.stateR <;> simp [cost, handler, remaining, hState]
  busy {u} := by
    cases hState : u.stateR <;> simp [cost, handler, remaining, hState]
  bounded u := by
    cases hState : u.stateR <;> simp [cost, handler, remaining, hState]

end QEMUMissReplyHandler

def remaining : (k : MMUHandler) → (handlers params tlbs k).State → Nat
  | .pageWalker => PageWalker.remaining
  | .tlbWriteback => TLBWritebackHandler.remaining
  | .missReply => QEMUMissReplyHandler.remaining
  | .pageEvict => QEMUPageEvictHandler.remaining

def hurries : (k : MMUHandler) → (handlers params tlbs k).State → (handlers params tlbs k).Input → Bool
  | .pageWalker => PageWalker.hurries
  | .tlbWriteback => fun _ _ => true
  | .missReply => QEMUMissReplyHandler.hurries
  | .pageEvict => QEMUPageEvictHandler.hurries

theorem handlers_timed (k : MMUHandler) : Timed (handlers params tlbs k) (remaining k) (hurries k) := by
  cases k with
  | pageWalker => exact PageWalker.timed
  | tlbWriteback => exact TLBWritebackHandler.timed
  | missReply => exact QEMUMissReplyHandler.timed
  | pageEvict => exact QEMUPageEvictHandler.timed

instance : Fintype MMUHandler :=
  ⟨{.pageWalker, .tlbWriteback, .missReply, .pageEvict}, fun k => by cases k <;> decide⟩

end Handlers

namespace BufferedUnit

variable (g : BufferedUnit params tlbs) (i : Input params tlbs)

/-- The cycles that the operation which is served still needs. -/
def left : Nat := ∑ k, (g.client k).left (remaining k)

def moves : Bool := !(handlers params tlbs i.1).idle (g.client i.1).state && (g.client i.1).moves (hurries i.1) i.2

section Serial

variable {g i} {start : PageTable params} {ops : List (Operation params tlbs)} {sent : List (Event params tlbs)}

theorem left_of_resting {k : MMUHandler} (hResting : (g.client k).Resting) : (g.client k).left (remaining k) = 0 := by
  rw [Buffered.left_eq_cost hResting.reader hResting.writer]
  exact (handlers_timed k).idle hResting.idle

theorem left_eq_of_others {k : MMUHandler} (hOthers : ∀ k' ≠ k, (g.client k').Resting) :
    g.left = (g.client k).left (remaining k) :=
  Finset.sum_eq_single k (fun k' _ hk => left_of_resting (hOthers k' hk)) fun hk => absurd (Finset.mem_univ k) hk

theorem Serially.left_le (h : Serially start ops sent g) : g.left ≤ 16 := by
  cases h with
  | rest resting =>
    rw [left, Finset.sum_eq_zero fun k _ => left_of_resting (resting k)]
    exact Nat.zero_le 16
  | @busy k _ _ _ _ _ _ others =>
    rw [left_eq_of_others others]
    exact Buffered.left_bounded (handlers_timed k) (g.client k)

theorem Serially.left_pos (h : Serially start ops sent g) (hBusy : ¬ g.Idle) : 0 < g.left := by
  cases h with
  | rest resting => exact absurd (fun k => (resting k).idle) hBusy
  | @busy k x c _ _ _ _ others follows alone =>
    have hServed : (handlers params tlbs k).idle (g.client k).state = false := by
      rw [← follows.state]
      exact (handlers_serve k).busy alone.serving
    rw [left_eq_of_others others]
    exact Buffered.left_pos (handlers_timed k) hServed

/-- The operation that is served comes closer to its end, whoever is clocked in between. -/
theorem Serially.left_next (h : Serially start ops sent g) (hTurn : g.InTurn i) (hBusy : ¬ g.Idle) :
    (g.next i).left + (g.moves i).toNat ≤ g.left := by
  cases h with
  | rest resting => exact absurd (fun k => (resting k).idle) hBusy
  | @busy k x c table before _ _ others follows alone =>
    have hServed : (handlers params tlbs k).idle (g.client k).state = false := by
      rw [← follows.state]
      exact (handlers_serve k).busy alone.serving
    have hNone : g.accepted i = none :=
      Option.eq_none_iff_forall_not_mem.mpr fun op hOp => hBusy (hTurn op hOp).1
    have hRest (k' : MMUHandler) (hk' : k' ≠ k) : ((g.next i).client k').Resting := by
      rcases eq_or_ne k' i.1 with rfl | hOther
      · rw [client_next_self]
        exact ((others i.1 hk').next (handlers_serve i.1) (wiring i.1) g.memory i.2 hNone).1
      · rw [client_next k' hOther]
        exact others k' hk'
    rw [left_eq_of_others others, left_eq_of_others hRest, moves]
    rcases eq_or_ne k i.1 with rfl | hk
    · rw [client_next_self, hServed, Bool.not_false, Bool.true_and]
      exact follows.left_next (handlers_timed i.1) (wiring i.1) i.2 hServed
    · rw [client_next k hk, (others i.1 hk.symm).idle]
      exact le_rfl

theorem Serially.between_of_idle (h : Serially start ops sent g) (hIdle : g.Idle) :
    Between start ops sent (tableOf g.memory) := by
  cases h with
  | rest _ between => exact between
  | @busy k x c _ _ _ _ _ follows alone =>
    have hServed := (handlers_serve k).busy alone.serving
    rw [follows.state] at hServed
    exact absurd (hIdle k) (Bool.eq_false_iff.mp hServed)

end Serial

/-- In every run in which the handlers take turns the operation that is served comes to its end: within sixteen cycles in
which its handler is answered the handlers are idle, and then the memory is the page table after all the operations
that were accepted and all their messages are sent. -/
theorem operation_ends (memory : Dram) (reset : PageTableUnit.Reset params tlbs)
    (hUnique : ∀ t, (pageTable memory t : PageSet params).Unique) {is js : List (Input params tlbs)}
    (hTurns : (machine params tlbs).Along InTurn (init memory reset) (is ++ js))
    (hAnswered : 16 ≤ (machine params tlbs).total (fun g i => (g.moves i).toNat)
      ((machine params tlbs).run (init memory reset) is) js) :
    ∃ js', js' <+: js ∧
      let g := (machine params tlbs).run (init memory reset) (is ++ js')
      let effect := Operation.tableEffect params tlbs
      let ops := (machine params tlbs).emitted Prod.fst (init memory reset) (is ++ js')
      g.Idle ∧ pageTable g.memory = effect.serial (pageTable memory) ops ∧
      (machine params tlbs).emitted Prod.snd (init memory reset) (is ++ js') = effect.messages (pageTable memory) ops := by
  obtain ⟨hIs, hJs⟩ := (Machine.along_append ..).mp hTurns
  have hRun := (Serially.init reset hUnique).run hIs
  rw [List.nil_append, List.nil_append] at hRun
  obtain ⟨js', ⟨rest, rfl⟩, hIdle⟩ := hJs.reaches (fun g => ∃ ops sent, Serially (pageTable memory) ops sent g) left
    ⟨_, _, hRun⟩ (fun g i ⟨_, _, h⟩ hTurn => ⟨_, _, h.next hTurn⟩)
    (fun g i ⟨_, _, h⟩ hTurn hBusy => h.left_next hTurn hBusy) (fun g ⟨_, _, h⟩ hBusy => h.left_pos hBusy)
    (hRun.left_le.trans hAnswered)
  have hRun' := hRun.run ((Machine.along_append ..).mp hJs).1
  rw [← Machine.run_append, ← Machine.emitted_append, ← Machine.emitted_append] at hRun'
  rw [← Machine.run_append] at hIdle
  have hBetween := hRun'.between_of_idle hIdle
  exact ⟨js', List.prefix_append js' rest, hIdle, hBetween.table, hBetween.sent⟩

section Example

theorem operation_ends_insertion :
    let is := [missCycle (some insertion)]
    let effect := Operation.tableEffect smallTable 0
    ¬ ((machine smallTable 0).run (init noTable atReset) is).Idle ∧ ∃ js', js' <+: insertThenWalk.tail ∧
      let g := (machine smallTable 0).run (init noTable atReset) (is ++ js')
      let ops := (machine smallTable 0).emitted Prod.fst (init noTable atReset) (is ++ js')
      g.Idle ∧ pageTable g.memory = effect.serial (pageTable noTable) ops ∧
      (machine smallTable 0).emitted Prod.snd (init noTable atReset) (is ++ js') = effect.messages (pageTable noTable) ops :=
  ⟨by decide +kernel, operation_ends noTable atReset unique_noTable (by decide +kernel) (by decide +kernel)⟩

end Example

end BufferedUnit

end KnockoutKraken.Mmu
