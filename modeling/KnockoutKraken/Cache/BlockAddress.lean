import KnockoutKraken.Cache.Writeback

/-!
# The address of a block

An address is split when a set is read, when an entry is matched and when
it is written, and put together again when a block is evicted. The owners
of the entries are followed beside the bank: a request that leaves the
second stage hits an entry of its own address, and a block is evicted to
the address it was filled for, unless the bank has exactly two sets.
-/

namespace KnockoutKraken.Cache

open Library Util

variable {p : DatabankParams} {core : LRUCore p.wayWidth} {update : UpdateFunction p}

/-- A bank with the address each entry was last written for, and with the owners of the
word in front of the second stage, read along with it. -/
structure Owned (p : DatabankParams) (core : LRUCore p.wayWidth) where
  bank : DataBank p core
  owner : p.SetIndex → p.Way → Option p.Addr
  wordOwner : p.Way → Option p.Addr

namespace Owned

def ownerNext (owner : p.SetIndex → p.Way → Option p.Addr) (addr : p.Addr) :
    Option (BankWriteRequest p) → p.SetIndex → p.Way → Option p.Addr
  | some w => Function.update owner w.addr (Function.update (owner w.addr) w.which (some addr))
  | none => owner

variable (update) in
def next (m : Owned p core) (i : DataBank.Input p) : Owned p core where
  bank := m.bank.next update i
  owner :=
    match m.bank.s1 with
    | some q => ownerNext m.owner q.packet.addr (m.bank.bankRamWriteRequest update)
    | none => m.owner
  wordOwner := m.owner (setIndex i.request.packet.addr)

variable (update) in
def machine : Machine (Owned p core) (DataBank.Input p) (DataBank.Output p) where
  next := next update
  output m i := m.bank.output update i

def start : Owned p core := ⟨.init, fun _ _ => none, fun _ => none⟩

/-- The owner of the entry a request hits, in the register of the last write or in the bank. -/
def hitOwner (m : Owned p core) (q : BankRequest p) : Option p.Addr :=
  match (m.bank.secondStage q).s2WritingMatched with
  | some context => some context.addr
  | none => m.wordOwner (m.bank.secondStage q).matchWhich

/-- A request that leaves the second stage hits what was written for its address, and the block
it evicts goes back to the address it was written for. -/
def Addressed (m : Owned p core) (i : DataBank.Input p) : Prop :=
  ∀ q ∈ m.bank.s1Fire i,
    ((m.bank.secondStage q).hitV = true → m.hitOwner q = some q.packet.addr) ∧
    ∀ writeback ∈ (m.bank.secondStage q).evictionWbReq,
      m.wordOwner (m.bank.secondStage q).lruWhichI = some writeback.addr

/-- Each valid entry of a row has the tag of its owner, whose set the row is; what is dirty is valid. -/
structure RowOwned (row : p.Way → CacheEntry p) (owner : p.Way → Option p.Addr) (set : p.SetIndex) : Prop where
  valid : ∀ way, (row way).v = true →
    ∃ a, owner way = some a ∧ setIndex a = set ∧ getTagFromAddress a = (row way).tag
  dirty : ∀ way, (row way).d = true → (row way).v = true

structure Inv (m : Owned p core) : Prop extends m.bank.Shape where
  rows : ∀ set, RowOwned (m.bank.bram.mem set) (m.owner set) set
  word : m.bank.readReplyValid = true → ∃ q, m.bank.s1FrontendRequestR = [q] ∧
    RowOwned m.bank.bram.ramDataA m.wordOwner (setIndex q.packet.addr)

theorem rowOwned_flushEntry (owner : p.Way → Option p.Addr) (set : p.SetIndex) :
    RowOwned (fun _ => SecondStage.flushEntry) owner set := ⟨nofun, nofun⟩

theorem Inv.start : (start : Owned p core).Inv where
  toShape := .init
  rows _ := rowOwned_flushEntry _ _
  word h := by cases h

end Owned

theorem SecondStage.bankWrite_tag {x : SecondStage p} (hAlone : x.request.FlushAlone) {w : BankWriteRequest p}
    (h : x.bankRamWriteRequestO update = some w) (hValid : w.data.v = true) : w.data.tag = x.tag := by
  have hKey := bankWrite_key hAlone h
  rw [CacheEntry.key, if_pos hValid] at hKey
  split at hKey
  · cases hKey
  · exact Option.some.inj hKey

theorem SecondStage.bankWrite_dirty {x : SecondStage p} (hAlone : x.request.FlushAlone) {w : BankWriteRequest p}
    (h : x.bankRamWriteRequestO update = some w) (hDirty : w.data.d = true) : w.data.v = true := by
  have hKey := bankWrite_key hAlone h
  rcases bankWrite_cases hAlone h with ⟨_, _, rfl⟩ | ⟨hFlush, _⟩ | ⟨hFlush, _⟩
  · cases hDirty
  · rw [hFlush, if_neg (by decide)] at hKey
    exact ((CacheEntry.key_eq_some_iff _ _).mp hKey).1
  · rw [hFlush, if_neg (by decide)] at hKey
    exact ((CacheEntry.key_eq_some_iff _ _).mp hKey).1

namespace Owned

variable {m : Owned p core} {i : DataBank.Input p}

theorem RowOwned.write {row : p.Way → CacheEntry p} {owner : p.Way → Option p.Addr} {addr : p.Addr}
    (h : RowOwned row owner (setIndex addr)) {way : p.Way} {entry : CacheEntry p}
    (hTag : entry.v = true → entry.tag = getTagFromAddress addr) (hDirty : entry.d = true → entry.v = true) :
    RowOwned (Function.update row way entry) (Function.update owner way (some addr)) (setIndex addr) where
  valid other hValid := by
    by_cases hWay : other = way
    · subst hWay
      simp only [Function.update_self] at hValid ⊢
      exact ⟨addr, rfl, rfl, (hTag hValid).symm⟩
    · rw [Function.update_of_ne hWay] at hValid ⊢
      rw [Function.update_of_ne hWay]
      exact h.valid other hValid
  dirty other hD := by
    by_cases hWay : other = way
    · subst hWay
      rw [Function.update_self] at hD ⊢
      exact hDirty hD
    · rw [Function.update_of_ne hWay] at hD ⊢
      exact h.dirty other hD

theorem Inv.rows_next (h : m.Inv) (set : p.SetIndex) :
    RowOwned ((m.next update i).bank.bram.mem set) ((m.next update i).owner set) set := by
  have hBank : (m.next update i).bank = m.bank.next update i := rfl
  cases hWrite : m.bank.bankRamWriteRequest update with
  | none =>
    have hOwner : (m.next update i).owner = m.owner := by
      simp only [Owned.next, hWrite]
      cases m.bank.s1 <;> rfl
    rw [hOwner, hBank, DataBank.mem_next_of_none hWrite]
    exact h.rows set
  | some w =>
    obtain ⟨q, hS1, hStage⟩ := DataBank.bankRamWriteRequest_eq_some hWrite
    have hOwner : (m.next update i).owner = ownerNext m.owner q.packet.addr (some w) := by
      simp only [Owned.next, hWrite, hS1]
    have hAddr : w.addr = setIndex q.packet.addr := SecondStage.bankWrite_addr q.flushAlone hStage
    rw [hOwner, hBank, DataBank.mem_next_of_some hWrite, ownerNext]
    by_cases hSet : set = w.addr
    · subst hSet
      rw [applyTo_row, Function.update_self, hAddr]
      exact (h.rows _).write (SecondStage.bankWrite_tag q.flushAlone hStage)
        (SecondStage.bankWrite_dirty q.flushAlone hStage)
    · have hRow : w.applyTo m.bank.bram.mem set = m.bank.bram.mem set := by
        funext way
        exact applyTo_of_ne fun hEq => absurd hEq hSet
      rw [Function.update_of_ne hSet, hRow]
      exact h.rows set

theorem Inv.next (h : m.Inv) : (m.next update i).Inv where
  toShape := h.toShape.next
  rows := h.rows_next
  word hValid := by
    obtain ⟨q, hAccepted⟩ := Option.isSome_iff_exists.mp hValid
    refine ⟨q, h.toShape.s1_of_accepted hAccepted, ?_⟩
    have hBank : (m.next update i).bank = m.bank.next update i := rfl
    have hOwner : (m.next update i).wordOwner = m.owner (setIndex i.request.packet.addr) := rfl
    rw [hOwner, hBank, DataBank.ramDataA_next, (DataBank.accepted_eq_some hAccepted).1]
    exact h.rows _

/-- A request leaves the second stage only in the cycle its word arrives. -/
theorem Inv.word_of_fire (h : m.Inv) {q : BankRequest p} (hFire : m.bank.s1Fire i = some q) :
    RowOwned (m.bank.secondStage q).bankRamReply m.wordOwner (setIndex q.packet.addr) := by
  rw [DataBank.s1Fire] at hFire
  split at hFire
  · next hReady =>
    simp only [DataBank.pipelineStateReady1, hFire, Bool.and_eq_true, beq_iff_eq, Option.isSome_some, h.bankRamReply] at hReady
    obtain ⟨q', hList, hOwned⟩ := h.word hReady.1.1
    rw [DataBank.s1_eq_some_iff, hList, List.head?_cons, Option.some.injEq] at hFire
    subst hFire
    rw [DataBank.secondStage, h.bankRamReplyBits]
    exact hOwned
  · cases hFire

theorem Inv.addressed (hSets : p.setWidth ≠ 1) (h : m.Inv) (i : DataBank.Input p) : m.Addressed i := by
  intro q hFire
  have hWord := h.word_of_fire hFire
  constructor
  · intro hHit
    rw [hitOwner]
    rcases SecondStage.hit_cases hHit with ⟨context, hFwd, _, _⟩ | ⟨hFwd, _, hHolds⟩
    · rw [hFwd]
      exact congrArg some ((SecondStage.s2WritingMatched_eq_some_iff context).mp hFwd).2
    · rw [hFwd]
      obtain ⟨hValid, hTag⟩ := (CacheEntry.key_eq_some_iff _ _).mp hHolds
      obtain ⟨a, hOwner, hSet, hOwnerTag⟩ := hWord.valid _ hValid
      have hAddr : a = q.packet.addr := (addr_eq_iff hSets _ _).mpr ⟨hOwnerTag.trans hTag, hSet⟩
      exact hOwner.trans (congrArg some hAddr)
  · intro writeback hEvict
    rw [Option.mem_def] at hEvict
    have hMiss : (m.bank.secondStage q).hitV = false := by
      cases hHit : (m.bank.secondStage q).hitV with
      | false => rfl
      | true =>
        rw [SecondStage.evictionWbReq_of_hit hHit] at hEvict
        cases hEvict
    have hRefill : (m.bank.secondStage q).request.refillV = true := by
      cases hRefill : (m.bank.secondStage q).request.refillV with
      | true => rfl
      | false =>
        rw [SecondStage.evictionWbReq_of_not_refill hRefill] at hEvict
        cases hEvict
    rw [SecondStage.evictionWbReq_of_refill hSets hMiss hRefill] at hEvict
    split at hEvict
    · next hDirty =>
      cases hEvict
      obtain ⟨a, hOwner, hSet, hTag⟩ := hWord.valid _ (hWord.dirty _ hDirty)
      rw [hOwner, ← tag_append_setIndex hSets a, hTag, hSet]
      rfl
    · cases hEvict

end Owned

section TwoSets

/-- The index bit of a bank of two sets is in no part of the address. -/
theorem exists_same_place (h : p.setWidth = 1) :
    ∃ a b : p.Addr, a ≠ b ∧ getTagFromAddress a = getTagFromAddress b ∧ setIndex a = setIndex b := by
  refine ⟨(0 : p.Tag) ++ (0 : p.SetIndex), (0 : p.Tag) ++ (1 : p.SetIndex), ?_, ?_, ?_⟩
  · intro hEq
    have hOne : 0 < p.setWidth := by omega
    have hBit : ((0 : p.Tag) ++ (0 : p.SetIndex)).getLsbD 0 = ((0 : p.Tag) ++ (1 : p.SetIndex)).getLsbD 0 := by rw [hEq]
    rw [BitVec.getLsbD_append, BitVec.getLsbD_append, if_pos hOne, if_pos hOne] at hBit
    simp [h] at hBit
  · rw [getTagFromAddress_append, getTagFromAddress_append]
  · simp [setIndex, h]

namespace Owned

def offer (q : BankRequest p) : DataBank.Input p := ⟨q, true, true, true⟩

def pause : DataBank.Input p := ⟨.flush 0 0, false, true, true⟩

def writeWhole (addr : p.Addr) : BankRequest p := .access addr 0 0 0 0 (BitVec.allOnes _)

def read (addr : p.Addr) : BankRequest p := .access addr 0 0 0 0 0

structure Holding (m : Owned p core) (a : p.Addr) (way : p.Way) : Prop where
  s1 : m.bank.s1FrontendRequestR = []
  replyQ : m.bank.bankRamReplyQ = []
  idle : m.bank.readReplyValid = false
  entry : (m.bank.bram.mem (setIndex a) way).v = true ∧ (m.bank.bram.mem (setIndex a) way).tag = getTagFromAddress a
  others : ∀ other, other ≠ way → (m.bank.bram.mem (setIndex a) other).v = false
  owner : m.owner (setIndex a) way = some a

variable (update) in
theorem holding_of_write (a : p.Addr) :
    ∃ way, ((machine update).run (start : Owned p core) [offer (writeWhole a), pause]).Holding a way := by
  let m := (machine update).run (start : Owned p core) [offer (writeWhole a)]
  let x : SecondStage p := m.bank.secondStage (writeWhole a)
  let w : BankWriteRequest p := ⟨setIndex a, x.lruWhichI, update.apply x.request x.refillNewEntry⟩
  have hHit : x.hitV = false := by
    have hNone : ∀ way, x.matchBits way = false := fun way => Bool.and_false _
    rw [SecondStage.hitV, show x.s2WritingMatched = none from rfl, beq_eq_false_iff_ne]
    intro hOne
    obtain ⟨way, hWay, _⟩ := (popCount_eq_one_iff _).mp hOne
    rw [hNone way] at hWay
    cases hWay
  have hFull : x.fullWritingV = true := by
    simp [SecondStage.fullWritingV, x, writeWhole, BankRequest.packet]
  have hWrite : m.bank.bankRamWriteRequest update = some w := by
    change x.bankRamWriteRequestO update = some w
    rw [SecondStage.bankRamWriteRequestO, SecondStage.fullWritingRequest, if_pos hFull, Option.some_or,
      SecondStage.refillEntry, if_neg (ne_true_of_eq_false hHit), if_neg (ne_true_of_eq_false hHit)]
    rfl
  have hBank : (machine update).run (start : Owned p core) [offer (writeWhole a), pause] = m.next update pause := rfl
  have hMem : (m.next update pause).bank.bram.mem = w.applyTo m.bank.bram.mem := DataBank.mem_next_of_some hWrite
  have hKey : w.data.key = some (getTagFromAddress a) := update.apply_key _ SecondStage.refillNewEntry_key
  have hRow : (m.next update pause).bank.bram.mem (setIndex a) = Function.update (m.bank.bram.mem (setIndex a)) w.which w.data := by
    rw [hMem]
    exact applyTo_row
  refine ⟨w.which, ?_⟩
  rw [hBank]
  constructor
  · rfl
  · rfl
  · rfl
  · rw [hRow, Function.update_self]
    exact (CacheEntry.key_eq_some_iff _ _).mp hKey
  · intro other hOther
    rw [hRow, Function.update_of_ne hOther]
    rfl
  · have hOwner : (m.next update pause).owner = ownerNext m.owner a (some w) := by
      simp only [Owned.next, hWrite]
      rfl
    rw [hOwner, ownerNext, Function.update_self, Function.update_self]

theorem Holding.hit {m : Owned p core} {a b : p.Addr} {way : p.Way} (h : m.Holding a way)
    (hTag : getTagFromAddress a = getTagFromAddress b) (hSet : setIndex a = setIndex b) (hNe : a ≠ b) :
    ¬ (m.next update (offer (read b))).Addressed pause := by
  let n := m.next update (offer (read b))
  let x : SecondStage p := n.bank.secondStage (read b)
  have hS1 : n.bank.s1FrontendRequestR = [read b] := by
    change DataBank.s1Queue.next m.bank.s1FrontendRequestR (m.bank.accepted (offer (read b))) _ = _
    rw [DataBank.accepted, DataBank.pipelineStateReady0, h.s1]
    rfl
  have hNone : m.bank.s1 = none := by
    rw [DataBank.s1, h.s1]
    rfl
  have hForward : x.s2WritingMatched = none := by
    have hRegister : n.bank.s2BankWritingR = none := by
      change m.bank.s1.bind _ = none
      rw [hNone]
      rfl
    rw [SecondStage.s2WritingMatched, show x.s2BankWritingR = n.bank.s2BankWritingR from rfl, hRegister]
    rfl
  have hAccepted : m.bank.accepted (offer (read b)) = some (read b) := by
    rw [DataBank.accepted, DataBank.pipelineStateReady0, h.s1]
    rfl
  have hReply : n.bank.readReplyValid = true := by
    change (m.bank.accepted (offer (read b))).isSome = true
    rw [hAccepted]
    rfl
  have hReplyQ : n.bank.bankRamReplyQ = [] := by
    change DataBank.replyQueue.next m.bank.bankRamReplyQ m.bank.bankRamReplyData m.bank.s1.isSome = []
    rw [h.replyQ, DataBank.bankRamReplyData, h.idle, if_neg (by decide), FlushQueue.next_nil_none]
  have hWord : x.bankRamReply = m.bank.bram.mem (setIndex a) := by
    change n.bank.bankRamReplyBits = _
    rw [DataBank.bankRamReplyBits, hReplyQ]
    change (m.bank.next update (offer (read b))).bram.ramDataA = _
    rw [DataBank.ramDataA_next, hSet]
    rfl
  have hFire : n.bank.s1Fire pause = some (read b) := by
    have hReady : n.bank.pipelineStateReady1 pause = true := by
      rw [DataBank.pipelineStateReady1, DataBank.bankRamReply, hReplyQ, DataBank.bankRamReplyData, hReply, DataBank.s1, hS1]
      simp [FlushQueue.enqReady, DataBank.s2Queue, pause, FlushQueue.deqBits, DataBank.replyQueue]
    rw [DataBank.s1Fire, if_pos hReady, DataBank.s1, hS1]
    rfl
  have hMatch : ∀ other, x.matchBits other = true ↔ other = way := by
    intro other
    rw [SecondStage.matchBits, CacheEntry.checkHit, hWord, Bool.and_eq_true, beq_iff_eq]
    constructor
    · rintro ⟨_, hValid⟩
      by_contra hOther
      rw [h.others other hOther] at hValid
      cases hValid
    · rintro rfl
      exact ⟨h.entry.2.trans hTag, h.entry.1⟩
  have hHit : x.hitV = true := by
    rw [SecondStage.hitV, hForward, beq_iff_eq]
    exact (popCount_eq_one_iff _).mpr ⟨way, (hMatch way).mpr rfl, fun other => (hMatch other).mp⟩
  have hWhich : x.matchWhich = way :=
    ohToUInt_of_atMostOne (fun i j hi hj => ((hMatch i).mp hi).trans ((hMatch j).mp hj).symm) ((hMatch way).mpr rfl)
  intro hAddressed
  have hOwner : n.hitOwner (read b) = some b := (hAddressed (read b) hFire).1 hHit
  have hWay : n.hitOwner (read b) = some a := by
    rw [hitOwner, show (n.bank.secondStage (read b)).s2WritingMatched = none from hForward]
    change m.owner (setIndex b) x.matchWhich = some a
    rw [hWhich, ← hSet, h.owner]
  rw [hWay, Option.some.injEq] at hOwner
  exact hNe hOwner

end Owned

/-- In every run, whatever is offered and however long the back end stalls, requests hit what was
written for their address and blocks go back where they came from, in every geometry but the one
with two sets. -/
theorem block_address_iff (update : UpdateFunction p) (core : LRUCore p.wayWidth) :
    (∀ is, (Owned.machine update).Along Owned.Addressed (Owned.start : Owned p core) is) ↔ p.setWidth ≠ 1 := by
  constructor
  · intro hAll hSets
    obtain ⟨a, b, hNe, hTag, hSet⟩ := exists_same_place hSets
    obtain ⟨way, hHolding⟩ : ∃ way, ((Owned.machine update).run (Owned.start : Owned p core)
        [Owned.offer (Owned.writeWhole a), Owned.pause]).Holding a way := Owned.holding_of_write update a
    have hRun := hAll [Owned.offer (Owned.writeWhole a), Owned.pause, Owned.offer (Owned.read b), Owned.pause]
    exact hHolding.hit hTag hSet hNe hRun.2.2.2.1
  · intro hSets is
    exact Machine.along_of_invariant Owned.Inv.start (fun _ _ h => h.next) (fun _ i h => h.addressed hSets i) is

/-- Two sets of two ways, blocks of eight bytes. -/
abbrev twoSets : DatabankParams := ⟨1, 1, 64, 4, 1, 1, by decide⟩

/-- A read of block 1 hits the block that was written as block 0. -/
theorem other_block_hit :
    ¬ (Owned.machine (cacheUpdateFunction twoSets)).Along Owned.Addressed
      (Owned.start : Owned twoSets (PseudoTreeLRUCore 1))
      [Owned.offer (Owned.writeWhole 0), Owned.pause, Owned.offer (Owned.read 1), Owned.pause] := by
  intro hAlong
  let m := (Owned.machine (cacheUpdateFunction twoSets)).run (Owned.start : Owned twoSets (PseudoTreeLRUCore 1))
    [Owned.offer (Owned.writeWhole 0), Owned.pause, Owned.offer (Owned.read 1)]
  have hFire : m.bank.s1Fire Owned.pause = some (Owned.read 1) := by decide +kernel
  have hHit : (m.bank.secondStage (Owned.read 1)).hitV = true := by decide +kernel
  have hOwner : m.hitOwner (Owned.read 1) ≠ some 1 := by decide +kernel
  exact hOwner ((hAlong.2.2.2.1 _ hFire).1 hHit)

end TwoSets

end KnockoutKraken.Cache
