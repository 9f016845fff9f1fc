import KnockoutKraken.Cache.SecondStage

/-!
# Consecutive requests

The word of a request is read while the request before it is still in the
second stage, so it misses that request's write. A watched bank remembers
the write of the previous cycle; what the word shows is then known, in
every run, up to the one place written in between.
-/

namespace KnockoutKraken.Cache

open Library Util

variable {p : DatabankParams} {core : LRUCore p.wayWidth} {update : UpdateFunction p}

def BankWriteRequest.applyTo (w : BankWriteRequest p) (mem : p.SetIndex → p.Way → CacheEntry p) :
    p.SetIndex → p.Way → CacheEntry p :=
  Function.update mem w.addr (Function.update (mem w.addr) w.which w.data)

section ApplyTo

variable {w : BankWriteRequest p} {mem : p.SetIndex → p.Way → CacheEntry p} {set : p.SetIndex} {way : p.Way}

@[simp] theorem applyTo_self : w.applyTo mem w.addr w.which = w.data := by
  rw [BankWriteRequest.applyTo, Function.update_self, Function.update_self]

theorem applyTo_row : w.applyTo mem w.addr = Function.update (mem w.addr) w.which w.data :=
  Function.update_self _ _ _

theorem applyTo_of_ne (h : set = w.addr → way ≠ w.which) : w.applyTo mem set way = mem set way := by
  by_cases hSet : set = w.addr
  · subst hSet
    rw [applyTo_row, Function.update_of_ne (h rfl)]
  · rw [BankWriteRequest.applyTo, Function.update_of_ne hSet]

end ApplyTo

namespace DataBank

variable {s : DataBank p core} {i : Input p}

@[simp] theorem secondStage_request (q : BankRequest p) : (s.secondStage q).request = q.packet := rfl

theorem s1_eq_some_iff (q : BankRequest p) : s.s1 = some q ↔ s.s1FrontendRequestR.head? = some q := by
  rw [s1]
  cases s.s1FrontendRequestR with
  | nil => simp [FlushQueue.deqBits_nil (q := s1Queue) rfl]
  | cons head tail => simp

theorem mem_next_of_none (h : s.bankRamWriteRequest update = none) :
    (s.next update i).bram.mem = s.bram.mem := by
  funext set way
  simp [next, BRAMTDP.next, h, writePort, BRAMTDP.writePort]

theorem mem_next_of_some {w : BankWriteRequest p} (h : s.bankRamWriteRequest update = some w) :
    (s.next update i).bram.mem = w.applyTo s.bram.mem := by
  funext set way
  simp only [next, BRAMTDP.next, h, writePort, writePort_read, BRAMTDP.writePort, BankWriteRequest.applyTo,
    Function.update_apply]
  by_cases hSet : set = w.addr
  · subst hSet
    by_cases hWay : way = w.which <;> simp [hWay]
  · simp [hSet]

@[simp] theorem ramDataA_next : (s.next update i).bram.ramDataA = s.bram.mem (setIndex i.request.packet.addr) := by
  simp [next, BRAMTDP.next]

theorem bankRamWriteRequest_eq_some {w : BankWriteRequest p} (h : s.bankRamWriteRequest update = some w) :
    ∃ q, s.s1 = some q ∧ (s.secondStage q).bankRamWriteRequestO update = some w :=
  Option.bind_eq_some_iff.mp h

theorem accepted_eq_some {q : BankRequest p} (h : s.accepted i = some q) :
    i.request = q ∧ i.valid = true ∧ s.pipelineStateReady0 i = true := by
  rw [accepted, Option.ite_none_right_eq_some, Bool.and_eq_true, Option.some.injEq] at h
  exact ⟨h.2, h.1⟩

variable (update) (s) (i) in
theorem missOut_conserves :
    (s.output update i).miss.toList ++ (s.next update i).s2MissRequestR = s.s2MissRequestR ++ (s.missN i).toList := by
  refine FlushQueue.next_conserves rfl fun hMiss => ?_
  rw [missN, s1Fire] at hMiss
  cases hReady : s.pipelineStateReady1 i with
  | false => simp [hReady] at hMiss
  | true =>
    simp only [pipelineStateReady1, Bool.and_eq_true] at hReady
    exact hReady.1.2

variable (update) (s) (i) in
theorem writebackOut_conserves :
    (s.output update i).writeback.toList ++ (s.next update i).s2WritebackRequestR =
      s.s2WritebackRequestR ++ (s.writebackN i).toList := by
  refine FlushQueue.next_conserves rfl fun hWriteback => ?_
  rw [writebackN, s1Fire] at hWriteback
  cases hReady : s.pipelineStateReady1 i with
  | false => simp [hReady] at hWriteback
  | true =>
    simp only [pipelineStateReady1, Bool.and_eq_true] at hReady
    exact hReady.2

/-- What every run keeps of the two queues in front of the second stage: each word is
taken in the cycle it arrives, and it arrives only for a request that is there. -/
structure Shape (s : DataBank p core) : Prop where
  s1_length : s.s1FrontendRequestR.length ≤ 1
  replyQ : s.bankRamReplyQ = []
  s1_of_valid : s.readReplyValid = true → s.s1FrontendRequestR ≠ []

theorem Shape.init : (init : DataBank p core).Shape := ⟨Nat.zero_le _, rfl, fun h => by cases h⟩

theorem Shape.s1_isSome (h : s.Shape) (hValid : s.readReplyValid = true) : s.s1.isSome = true := by
  have hSome := h.s1_of_valid hValid
  rw [s1]
  cases hList : s.s1FrontendRequestR with
  | nil => exact absurd hList hSome
  | cons => rfl

theorem Shape.bankRamReplyBits (h : s.Shape) : s.bankRamReplyBits = s.bram.ramDataA := by
  rw [DataBank.bankRamReplyBits, h.replyQ]
  rfl

theorem Shape.bankRamReply (h : s.Shape) : s.bankRamReply.isSome = s.readReplyValid := by
  rw [DataBank.bankRamReply, h.replyQ, DataBank.bankRamReplyData]
  cases s.readReplyValid <;> rfl

theorem Shape.s1_of_accepted (h : s.Shape) {q : BankRequest p} (hAccepted : s.accepted i = some q) :
    (s.next update i).s1FrontendRequestR = [q] :=
  FlushQueue.next_single rfl rfl h.s1_length hAccepted (accepted_eq_some hAccepted).2.2

theorem Shape.next (h : s.Shape) : (s.next update i).Shape where
  s1_length := FlushQueue.length_next_le Nat.one_pos h.s1_length _ _
  replyQ := by
    change replyQueue.next s.bankRamReplyQ _ _ = []
    rw [h.replyQ, bankRamReplyData]
    cases hValid : s.readReplyValid with
    | false =>
      rw [if_neg (by simp), FlushQueue.next_none]
      cases s.s1.isSome <;> rfl
    | true =>
      rw [h.s1_isSome hValid]
      rfl
  s1_of_valid hValid := by
    obtain ⟨q, hAccepted⟩ := Option.isSome_iff_exists.mp hValid
    rw [h.s1_of_accepted hAccepted]
    exact List.cons_ne_nil _ _

end DataBank

structure Watched (p : DatabankParams) (core : LRUCore p.wayWidth) where
  bank : DataBank p core
  lastWrite : Option (BankWriteRequest p)

def Shows (last : Option (BankWriteRequest p)) (word row : p.Way → CacheEntry p) (set : p.SetIndex) : Prop :=
  ∀ way, (∀ w, last = some w → w.addr = set → w.which ≠ way) → word way = row way

namespace Watched

variable (update) in
def next (m : Watched p core) (i : DataBank.Input p) : Watched p core where
  bank := m.bank.next update i
  lastWrite := m.bank.bankRamWriteRequest update

variable (update) in
def machine : Machine (Watched p core) (DataBank.Input p) (DataBank.Output p) where
  next := next update
  output m i := m.bank.output update i

def start (s : DataBank p core) : Watched p core := ⟨s, none⟩

variable (update) in
theorem run_bank (m : Watched p core) (is : List (DataBank.Input p)) :
    ((machine update).run m is).bank = (DataBank.machine update).run m.bank is := by
  induction is generalizing m with
  | nil => rfl
  | cons i is ih => exact ih (m.next update i)

variable {m : Watched p core} {i : DataBank.Input p}

/-- What every run keeps, whatever is offered and however long the queues are full. -/
structure Inv (m : Watched p core) : Prop extends m.bank.Shape where
  word : m.bank.readReplyValid = true → ∃ q, m.bank.s1FrontendRequestR = [q] ∧
    Shows m.lastWrite m.bank.bram.ramDataA (m.bank.bram.mem (setIndex q.packet.addr)) (setIndex q.packet.addr)
  written : ∀ w, m.lastWrite = some w → m.bank.bram.mem w.addr w.which = w.data
  context : ∀ w, m.lastWrite = some w → ∃ c, m.bank.s2BankWritingR = some c ∧ w.addr = setIndex c.addr ∧
    w.data.key = if c.flushV then none else some (getTagFromAddress c.addr)

theorem Inv.start {s : DataBank p core} (hShape : s.Shape) (hValid : s.readReplyValid = false) : Inv (start s) where
  toShape := hShape
  word h := by simp [Watched.start, hValid] at h
  written w h := by cases h
  context w h := by cases h

theorem Inv.shows (h : m.Inv) {q : BankRequest p} (hS1 : m.bank.s1 = some q)
    (hReply : m.bank.bankRamReply.isSome = true) :
    Shows m.lastWrite (m.bank.secondStage q).bankRamReply (m.bank.bram.mem (setIndex q.packet.addr))
      (setIndex q.packet.addr) := by
  rw [h.bankRamReply] at hReply
  obtain ⟨q', hList, hShows⟩ := h.word hReply
  rw [DataBank.s1_eq_some_iff, hList, List.head?_cons, Option.some.injEq] at hS1
  subst hS1
  rw [DataBank.secondStage, h.bankRamReplyBits]
  exact hShows

theorem Inv.next (h : m.Inv) : (m.next update i).Inv where
  toShape := h.toShape.next
  word hValid := by
    obtain ⟨q, hAccepted⟩ := Option.isSome_iff_exists.mp hValid
    refine ⟨q, h.toShape.s1_of_accepted hAccepted, ?_⟩
    intro way hOff
    simp only [Watched.next, DataBank.ramDataA_next, (DataBank.accepted_eq_some hAccepted).1] at hOff ⊢
    cases hWrite : m.bank.bankRamWriteRequest update with
    | none => rw [DataBank.mem_next_of_none hWrite]
    | some w =>
      rw [DataBank.mem_next_of_some hWrite, applyTo_of_ne]
      exact fun hSet => (hOff w hWrite hSet.symm).symm
  written w hWrite := by
    simp only [Watched.next, DataBank.mem_next_of_some hWrite, applyTo_self]
  context w hWrite := by
    obtain ⟨q, hS1, hStage⟩ := DataBank.bankRamWriteRequest_eq_some hWrite
    have hAlone : (m.bank.secondStage q).request.FlushAlone := q.flushAlone
    have hContext := SecondStage.s2BankWritingN_of_performs update
      (SecondStage.performs_of_bankWrite hStage)
    refine ⟨_, (congrArg (Option.bind · _) hS1).trans hContext, ?_, ?_⟩
    · exact SecondStage.bankWrite_addr hAlone hStage
    · exact SecondStage.bankWrite_key hAlone hStage

end Watched

end KnockoutKraken.Cache
