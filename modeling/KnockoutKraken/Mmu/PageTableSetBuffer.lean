import KnockoutKraken.Library.Machine
import Mathlib.Data.Fin.VecNotation
import KnockoutKraken.Mmu.PageTable

/-!
# The buffer of a set

A handler of the page table loads a set into its buffer in three beats,
edits it there and moves it out in three beats. The circuit asserts that
a lookup never hits two slots. Between the beats of a load the buffer
holds the first words of the new set before the last words of the old
one, and the valid bits come with the first word.
-/

namespace KnockoutKraken.Mmu

open Library Armflex

inductive BufferState
  | sIdle | sMoveIn | sMoveOut
deriving DecidableEq

structure PageTableSetBuffer (params : PageTableParams) where
  bufferR : SetWords
  dmaCntR : Fin 3
  stateR : BufferState

namespace PageTableSetBuffer

variable {params : PageTableParams}

structure Input (params : PageTableParams) where
  dmaDataI : Option (BitVec 512)
  dmaDataOReady : Bool
  writeRequest : Option (PageSetBufferWriteRequestPacket params)
  lookupRequest : PTTagPacket params

structure Output (params : PageTableParams) where
  dmaDataI : Option (BitVec 512)
  dmaDataO : Option (BitVec 512)
  lruElement : LruElement params
  lookupReply : PageSetBufferLookupReplyPacket params

section Circuit

variable (b : PageTableSetBuffer params) (i : Input params)

def ptSet : PageTableSetPacket params := .ofWords b.bufferR

def writeFire : Option (PageSetBufferWriteRequestPacket params) := if b.stateR = .sIdle then i.writeRequest else none

def dmaDataIReady : Bool :=
  match b.stateR with
  | .sIdle => (b.writeFire i).isNone
  | .sMoveIn => true
  | .sMoveOut => false

def dmaDataIFire : Option (BitVec 512) := if b.dmaDataIReady i then i.dmaDataI else none

def dmaDataOValid : Bool := b.stateR == .sMoveOut || b.stateR == .sIdle

def dmaDataOFire : Option (BitVec 512) :=
  if b.dmaDataOValid && i.dmaDataOReady then some (b.bufferR b.dmaCntR) else none

def lastBeat : Bool := b.dmaCntR == 2

def nextBuffer : SetWords :=
  match b.dmaDataIFire i, b.writeFire i with
  | some word, _ => Function.update b.bufferR b.dmaCntR word
  | none, some request => (b.ptSet.write request).asWords
  | none, none => b.bufferR

def nextState : BufferState :=
  match b.stateR with
  | .sIdle =>
    if (b.dmaDataIFire i).isSome then .sMoveIn else if (b.dmaDataOFire i).isSome then .sMoveOut else .sIdle
  | .sMoveIn => if (b.dmaDataIFire i).isSome && b.lastBeat then .sIdle else .sMoveIn
  | .sMoveOut => if (b.dmaDataOFire i).isSome && b.lastBeat then .sIdle else .sMoveOut

def next : PageTableSetBuffer params where
  bufferR := b.nextBuffer i
  dmaCntR :=
    if (b.dmaDataIFire i).isSome || (b.dmaDataOFire i).isSome then (if b.lastBeat then 0 else b.dmaCntR + 1)
    else b.dmaCntR
  stateR := b.nextState i

/-- What the assertion of the circuit asks, of any tag that is looked up. -/
def multipleHit (tag : PTTagPacket params) : Bool :=
  popCount (b.ptSet.hitVector tag) == 1 || popCount (b.ptSet.hitVector tag) == 0

variable (params) in
def machine : Machine (PageTableSetBuffer params) (Input params) (Output params) where
  next := next
  output b i := ⟨b.dmaDataIFire i, b.dmaDataOFire i, b.ptSet.lruElement, b.ptSet.lookup i.lookupRequest⟩

/-- After reset. The buffer is a register without a reset value. -/
def atReset (words : SetWords) : PageTableSetBuffer params := ⟨words, 0, .sIdle⟩

end Circuit

end PageTableSetBuffer

section Layout

/-! ### The bits of a set -/

variable {params : PageTableParams} (words : SetWords)

def setBit (pos : Nat) : Bool := (packVec 3 words).getLsbD pos

def validPos (i : Slot) : Nat := 16 + i.val

variable (params) in
def tagPos (i : Slot) (k : Fin (PTTagPacket.width params)) : Nat :=
  16 * PTEntryPacket.width params + 32 + (i.val * PTTagPacket.width params + k.val)

theorem validPos_lt (i : Slot) : validPos i < 3 * 512 := by
  rw [validPos]
  omega

theorem tagPos_lt_width (i : Slot) (k : Fin (PTTagPacket.width params)) :
    tagPos params i k < PageTableSetPacket.width params := by
  have hSlot : (i.val + 1) * PTTagPacket.width params ≤ 16 * PTTagPacket.width params :=
    Nat.mul_le_mul_right _ i.isLt
  rw [Nat.succ_mul] at hSlot
  have hk := k.isLt
  rw [tagPos, PageTableSetPacket.width]
  omega

theorem tagPos_lt (i : Slot) (k : Fin (PTTagPacket.width params)) : tagPos params i k < 3 * 512 :=
  (tagPos_lt_width i k).trans_le (PageTableSetPacket.width_le params)

theorem setBit_update (beat : Fin 3) (word : BitVec 512) {pos : Nat} (hPos : pos < 3 * 512) :
    setBit (Function.update words beat word) pos = if pos / 512 = beat.val then word.getLsbD (pos % 512) else setBit words pos := by
  have hMod : pos % 512 < 512 := Nat.mod_lt _ (by decide)
  have hDiv : pos / 512 < 3 := Nat.div_lt_of_lt_mul (by rwa [Nat.mul_comm])
  have hBit (words : SetWords) : setBit words pos = (words ⟨pos / 512, hDiv⟩).getLsbD (pos % 512) := by
    rw [setBit, ← getLsbD_packVec words ⟨pos / 512, hDiv⟩ hMod, Nat.div_add_mod']
  rw [hBit, hBit]
  by_cases hBeat : pos / 512 = beat.val
  · rw [if_pos hBeat, show (⟨pos / 512, hDiv⟩ : Fin 3) = beat from Fin.ext hBeat, Function.update_self]
  · rw [if_neg hBeat, Function.update_of_ne fun hEq => hBeat (congrArg Fin.val hEq)]

theorem valids_ofWords (i : Slot) :
    (PageTableSetPacket.ofWords words : PageTableSetPacket params).valids.getLsbD i.val = setBit words (validPos i) := by
  have hLow : validPos i < PageTableSetPacket.width params := by
    rw [validPos, PageTableSetPacket.width]
    omega
  simp only [PageTableSetPacket.ofWords, PageTableSetPacket.ofUInt, BitVec.getLsbD_extractLsb', BitVec.getLsbD_setWidth,
    decide_eq_true i.isLt, Bool.true_and]
  rw [← validPos, decide_eq_true hLow, Bool.true_and, setBit]

theorem ofUInt_injective : Function.Injective (PTTagPacket.ofUInt : BitVec (PTTagPacket.width params) → PTTagPacket params) := by
  intro bits bits' hEq
  obtain ⟨hVpn, hAsid⟩ := PTTagPacket.ext_iff.mp hEq
  rw [← BitVec.extractLsb'_append_extractLsb' (x := bits), ← BitVec.extractLsb'_append_extractLsb' (x := bits')]
  exact congrArg₂ _ hVpn hAsid

theorem tags_ofWords_eq_iff (i j : Slot) :
    (PageTableSetPacket.ofWords words : PageTableSetPacket params).tags i = (PageTableSetPacket.ofWords words).tags j ↔
      ∀ k, setBit words (tagPos params i k) = setBit words (tagPos params j k) := by
  have hBit (i : Slot) (k : Fin (PTTagPacket.width params)) :
      (unpackVec (((packVec 3 words).setWidth (PageTableSetPacket.width params)).extractLsb'
        (16 * PTEntryPacket.width params + 32) (16 * PTTagPacket.width params)) i).getLsbD k.val = setBit words (tagPos params i k) := by
    have hWidth := tagPos_lt_width i k
    have hVec : i.val * PTTagPacket.width params + k.val < 16 * PTTagPacket.width params := by
      rw [tagPos, PageTableSetPacket.width] at hWidth
      omega
    rw [unpackVec, BitVec.getLsbD_extractLsb', BitVec.getLsbD_extractLsb', BitVec.getLsbD_setWidth, ← tagPos,
      decide_eq_true k.isLt, decide_eq_true hVec, decide_eq_true hWidth]
    simp only [Bool.true_and, setBit]
  rw [PageTableSetPacket.ofWords, PageTableSetPacket.ofUInt, ofUInt_injective.eq_iff, BitVec.eq_of_getLsbD_eq_iff]
  refine ⟨fun h k => ?_, fun h k hk => ?_⟩
  · rw [← hBit i k, ← hBit j k, h k.val k.isLt]
  · rw [hBit i ⟨k, hk⟩, hBit j ⟨k, hk⟩, h ⟨k, hk⟩]

/-- A set has no page twice when the tags of any two valid slots differ in a bit. -/
theorem unique_ofWords_iff : (PageTableSetPacket.ofWords words : PageTableSetPacket params).view.Unique ↔
    ∀ i j : Slot, i ≠ j → setBit words (validPos i) = true → setBit words (validPos j) = true →
      ∃ k, setBit words (tagPos params i k) ≠ setBit words (tagPos params j k) := by
  have hHit (tag : PTTagPacket params) (i : Slot) : Holds PageSet.page (PageTableSetPacket.ofWords words).view.slots tag i ↔
      (PageTableSetPacket.ofWords words).tags i = tag ∧ setBit words (validPos i) = true := by
    rw [PageTableSetPacket.holds_view_iff, PageTableSetPacket.hitVector_eq, Bool.and_eq_true, decide_eq_true_eq, valids_ofWords]
  constructor
  · intro hUnique i j hNe hi hj
    by_contra hSame
    refine hNe (hUnique _ i j ((hHit _ i).mpr ⟨rfl, hi⟩) ((hHit _ j).mpr ⟨?_, hj⟩))
    exact ((tags_ofWords_eq_iff words i j).mpr fun k => of_not_not fun hk => hSame ⟨k, hk⟩).symm
  · intro hApart tag i j hi hj
    obtain ⟨hTagI, hValidI⟩ := (hHit tag i).mp hi
    obtain ⟨hTagJ, hValidJ⟩ := (hHit tag j).mp hj
    by_contra hNe
    obtain ⟨k, hk⟩ := hApart i j hNe hValidI hValidJ
    exact hk ((tags_ofWords_eq_iff words i j).mp (hTagI.trans hTagJ.symm) k)

end Layout

namespace PageTableSetBuffer

variable {params : PageTableParams} (b : PageTableSetBuffer params) (i : Input params)

/-- A bit of the set once the arriving word is in its place. -/
def arriving (word : BitVec 512) (pos : Nat) : Bool :=
  if pos / 512 = b.dmaCntR.val then word.getLsbD (pos % 512) else setBit b.bufferR pos

/-- The tags of two slots that are valid once the word is in its place differ in a bit. What
lies in words that are still to come is that of the set before. -/
def NoStalePair (word : BitVec 512) : Prop :=
  ∀ i j : Slot, i ≠ j → b.arriving word (validPos i) = true → b.arriving word (validPos j) = true →
    ∃ k, b.arriving word (tagPos params i k) ≠ b.arriving word (tagPos params j k)

/-- An entry is not written beside one for its page, and a word before the last of its set
leaves no stale pair. -/
def Safe : Prop :=
  (∀ request ∈ b.writeFire i, request.flushV = true ∨
    ∀ j, b.ptSet.hitVector request.item.tag j = true → j = request.index) ∧
  ∀ word ∈ b.dmaDataIFire i, b.lastBeat = false → b.NoStalePair word

theorem multipleHit_iff : (∀ tag, b.multipleHit tag = true) ↔ b.ptSet.view.Unique := by
  have hOne (tag : PTTagPacket params) : b.multipleHit tag = true ↔ AtMostOne (b.ptSet.hitVector tag) := by
    rw [← popCount_le_one_iff, multipleHit, Bool.or_eq_true, beq_iff_eq, beq_iff_eq]
    omega
  simp only [hOne, AtMostOne, ← PageTableSetPacket.holds_view_iff]
  rfl

theorem noStalePair_iff (word : BitVec 512) : b.NoStalePair word ↔
    (PageTableSetPacket.ofWords (Function.update b.bufferR b.dmaCntR word) : PageTableSetPacket params).view.Unique := by
  have hValid (i : Slot) := setBit_update b.bufferR b.dmaCntR word (validPos_lt i)
  have hTag (i : Slot) (k : Fin (PTTagPacket.width params)) := setBit_update b.bufferR b.dmaCntR word (tagPos_lt i k)
  simp only [unique_ofWords_iff, hValid, hTag, NoStalePair, arriving]

theorem unique_write_iff {set : PageTableSetPacket params} (hUnique : set.view.Unique)
    (request : PageSetBufferWriteRequestPacket params) : (set.write request).view.Unique ↔
      request.flushV = true ∨ ∀ j, set.hitVector request.item.tag j = true → j = request.index := by
  obtain ⟨item, flushV, index⟩ := request
  cases flushV with
  | true =>
    rw [PageTableSetPacket.view_flush]
    exact iff_of_true (UniqueKeys.erase hUnique rfl) (Or.inl rfl)
  | false =>
    rw [PageTableSetPacket.view_write, or_iff_right Bool.false_ne_true]
    simp only [← PageTableSetPacket.holds_view_iff]
    constructor
    · intro hWritten j hHolds
      by_contra hNe
      exact hNe (hWritten item.tag j index ((holds_update_of_ne hNe).mpr hHolds) (holds_update_self.mpr rfl))
    · intro hFresh
      refine UniqueKeys.update hUnique fun tag j hKey hHolds => hFresh j ?_
      rwa [← Option.some.inj hKey] at hHolds

section Loads

def sets : List (BitVec 512) → List SetWords
  | first :: second :: third :: beats => ![first, second, third] :: sets beats
  | _ => []

def loaded (is : List (Input params)) : List (PageTableSetPacket params) :=
  (sets ((machine params).emitted Output.dmaDataI b is)).map .ofWords

/-- The words that have come of the set being loaded. -/
def come : List (BitVec 512) := if b.stateR = .sMoveOut then [] else ((List.finRange 3).take b.dmaCntR).map b.bufferR

/-- The counter is at zero when no burst is under way. -/
def Counted : Prop := b.stateR = .sIdle ↔ b.dmaCntR = 0

variable {b} {i}

/-- A word that comes in is put in its place. The last one ends the burst. -/
theorem Counted.next_of_fire (h : b.Counted) {word : BitVec 512} (hFire : b.dmaDataIFire i = some word) :
    b.stateR ≠ .sMoveOut ∧ b.next i =
      ⟨Function.update b.bufferR b.dmaCntR word, if b.lastBeat then 0 else b.dmaCntR + 1,
        if b.lastBeat then .sIdle else .sMoveIn⟩ := by
  rw [PageTableSetBuffer.next, nextBuffer, nextState, hFire, Option.isSome_some, Bool.true_or, if_pos rfl, if_pos rfl,
    Bool.true_and]
  cases hState : b.stateR with
  | sIdle =>
    have hLast : b.lastBeat = false := by rw [lastBeat, h.mp hState]; rfl
    simp only [hLast, Bool.false_eq_true, ite_false, ne_eq, reduceCtorEq, not_false_eq_true, true_and]
  | sMoveIn => exact ⟨BufferState.noConfusion, rfl⟩
  | sMoveOut =>
    rw [dmaDataIFire, dmaDataIReady, hState] at hFire
    exact absurd hFire (Option.some_ne_none word).symm

theorem count_succ : ∀ {cnt : Fin 3}, (cnt == 2) = false → cnt + 1 ≠ 0 := by decide

theorem Counted.next_of_none (h : b.Counted) (hFire : b.dmaDataIFire i = none) :
    (b.stateR = .sMoveIn ∧ b.next i = b) ∨
      (b.stateR ≠ .sMoveIn ∧ (b.next i).stateR ≠ .sMoveIn ∧ (b.next i).Counted) := by
  rw [Counted, PageTableSetBuffer.next, nextState, hFire, Option.isSome_none, Bool.false_or, Bool.false_and]
  cases hState : b.stateR with
  | sIdle =>
    have hCnt := h.mp hState
    refine Or.inr ⟨BufferState.noConfusion, ?_⟩
    cases hOut : b.dmaDataOFire i with
    | none => exact ⟨BufferState.noConfusion, iff_of_true rfl hCnt⟩
    | some word =>
      refine ⟨BufferState.noConfusion, iff_of_false BufferState.noConfusion ?_⟩
      rw [Option.isSome_some, if_pos rfl, lastBeat, hCnt]
      exact count_succ rfl
  | sMoveIn =>
    have hOut : b.dmaDataOFire i = none := by rw [dmaDataOFire, dmaDataOValid, hState]; rfl
    have hWrite : b.writeFire i = none := by rw [writeFire, hState]; rfl
    refine Or.inl ⟨rfl, ?_⟩
    rw [nextBuffer, hFire, hWrite, hOut]
    exact congrArg (mk b.bufferR b.dmaCntR) hState.symm
  | sMoveOut =>
    refine Or.inr ⟨BufferState.noConfusion, ?_⟩
    have hCnt : b.dmaCntR ≠ 0 := fun hZero => BufferState.noConfusion ((h.mpr hZero).symm.trans hState)
    cases hOut : b.dmaDataOFire i with
    | none => exact ⟨BufferState.noConfusion, iff_of_false BufferState.noConfusion hCnt⟩
    | some word =>
      rw [Option.isSome_some, if_pos rfl, Bool.true_and]
      cases hLast : b.lastBeat with
      | true => exact ⟨BufferState.noConfusion, iff_of_true rfl rfl⟩
      | false => exact ⟨BufferState.noConfusion, iff_of_false BufferState.noConfusion (count_succ hLast)⟩

theorem next_of_quiet (hIn : b.dmaDataIFire i = none) (hOut : b.dmaDataOFire i = none) :
    b.next i = { b with bufferR := ((b.writeFire i).map fun request => (b.ptSet.write request).asWords).getD b.bufferR } := by
  have hBuffer : b.nextBuffer i = ((b.writeFire i).map fun request => (b.ptSet.write request).asWords).getD b.bufferR := by
    rw [nextBuffer, hIn]
    cases b.writeFire i <;> rfl
  have hState : b.nextState i = b.stateR := by
    rw [nextState, hIn, hOut]
    cases b.stateR <;> rfl
  rw [PageTableSetBuffer.next, hBuffer, hState, hIn, hOut]
  rfl

/-- A word that goes out leaves the buffer as it is. The last one ends the burst. -/
theorem Counted.next_of_out (h : b.Counted) {word : BitVec 512} (hIn : b.dmaDataIFire i = none)
    (hOut : b.dmaDataOFire i = some word) (hRequest : i.writeRequest = none) : b.stateR ≠ .sMoveIn ∧ b.next i =
      ⟨b.bufferR, if b.lastBeat then 0 else b.dmaCntR + 1, if b.lastBeat then .sIdle else .sMoveOut⟩ := by
  have hBuffer : b.nextBuffer i = b.bufferR := by rw [nextBuffer, hIn, writeFire, hRequest, ite_self]
  rw [PageTableSetBuffer.next, hBuffer, nextState, hIn, hOut, Option.isSome_some, Bool.or_true, if_pos rfl, Bool.true_and]
  cases hState : b.stateR with
  | sIdle =>
    have hLast : b.lastBeat = false := by rw [lastBeat, h.mp hState]; rfl
    simp only [hLast, Option.isSome_none, Bool.false_eq_true, ite_false, ite_true, ne_eq, reduceCtorEq, not_false_eq_true,
      true_and]
  | sMoveIn =>
    rw [dmaDataOFire, dmaDataOValid, hState] at hOut
    exact absurd hOut (Option.some_ne_none word).symm
  | sMoveOut => exact ⟨BufferState.noConfusion, rfl⟩

theorem Counted.next (h : b.Counted) : (b.next i).Counted := by
  cases hFire : b.dmaDataIFire i with
  | none =>
    obtain ⟨-, hSame⟩ | ⟨-, -, hNext⟩ := h.next_of_none hFire
    · exact hSame.symm ▸ h
    · exact hNext
  | some word =>
    rw [Counted, (h.next_of_fire hFire).2]
    cases hLast : b.lastBeat with
    | true => exact iff_of_true rfl rfl
    | false => exact iff_of_false BufferState.noConfusion (count_succ hLast)

theorem Counted.come_eq_nil (h : b.Counted) (hState : b.stateR ≠ .sMoveIn) : b.come = [] := by
  rw [come]
  cases hAt : b.stateR with
  | sIdle => rw [if_neg BufferState.noConfusion, h.mp hAt]; rfl
  | sMoveIn => exact absurd hAt hState
  | sMoveOut => rfl

theorem Counted.come_of_none (h : b.Counted) (hFire : b.dmaDataIFire i = none) : (b.next i).come = b.come := by
  obtain ⟨-, hSame⟩ | ⟨hState, hNext, hCounted⟩ := h.next_of_none hFire
  · rw [hSame]
  · rw [h.come_eq_nil hState, hCounted.come_eq_nil hNext]

theorem Counted.come_of_fire (h : b.Counted) {word : BitVec 512} (hFire : b.dmaDataIFire i = some word)
    (hLast : b.lastBeat = false) : (b.next i).come = b.come ++ [word] := by
  obtain ⟨hState, hNext⟩ := h.next_of_fire hFire
  rw [hNext, hLast, come, come, if_neg hState, if_neg BufferState.noConfusion]
  obtain ⟨bufferR, dmaCntR, stateR⟩ := b
  match dmaCntR with
  | 0 => rfl
  | 1 => rfl
  | 2 => cases hLast

theorem Counted.come_of_last (h : b.Counted) {word : BitVec 512} (hFire : b.dmaDataIFire i = some word)
    (hLast : b.lastBeat = true) : b.come = [b.bufferR 0, b.bufferR 1] ∧ (b.next i).come = [] ∧
      Function.update b.bufferR b.dmaCntR word = ![b.bufferR 0, b.bufferR 1, word] := by
  obtain ⟨hState, hNext⟩ := h.next_of_fire hFire
  have hCnt : b.dmaCntR = 2 := beq_iff_eq.mp hLast
  rw [hNext, hLast, come, come, if_neg hState, hCnt]
  refine ⟨rfl, rfl, funext fun k => ?_⟩
  match k with
  | 0 => rfl
  | 1 => rfl
  | 2 => rfl

/-- The last word of a load completes a set that has no page twice. -/
def LoadsUnique (b : PageTableSetBuffer params) (i : Input params) : Prop :=
  ∀ word ∈ b.dmaDataIFire i, b.lastBeat = true →
    (PageTableSetPacket.ofWords (Function.update b.bufferR b.dmaCntR word) : PageTableSetPacket params).view.Unique

theorem Counted.along_loads (h : b.Counted) (is : List (Input params))
    (hSets : ∀ words ∈ sets (b.come ++ (machine params).emitted Output.dmaDataI b is),
      (PageTableSetPacket.ofWords words : PageTableSetPacket params).view.Unique) :
    (machine params).Along LoadsUnique b is := by
  induction is generalizing b with
  | nil => trivial
  | cons i is ih =>
    have hOut : ((machine params).output b i).dmaDataI = b.dmaDataIFire i := rfl
    rw [Machine.emitted_cons, hOut] at hSets
    cases hFire : b.dmaDataIFire i with
    | none =>
      rw [hFire, ← h.come_of_none hFire] at hSets
      refine ⟨fun word hWord => ?_, ih h.next hSets⟩
      rw [hFire] at hWord
      cases hWord
    | some word =>
      rw [hFire, Option.toList_some] at hSets
      cases hLast : b.lastBeat with
      | false =>
        rw [← List.append_assoc, ← h.come_of_fire hFire hLast] at hSets
        exact ⟨fun _ _ hEnd => absurd (hLast.symm.trans hEnd) Bool.false_ne_true, ih h.next hSets⟩
      | true =>
        obtain ⟨hCome, hNil, hComplete⟩ := h.come_of_last hFire hLast
        rw [hCome] at hSets
        obtain ⟨hFirst, hRest⟩ := List.forall_mem_cons.mp hSets
        refine ⟨fun word' hWord _ => ?_, ih h.next ?_⟩
        · rw [← Option.some.inj (hFire.symm.trans hWord), hComplete]
          exact hFirst
        · rw [show ((machine params).next b i).come = [] from hNil]
          exact hRest

end Loads

/-- In a cycle that ends no load with a page twice the set stays without one exactly when the
cycle is safe. -/
theorem next_unique_iff {b : PageTableSetBuffer params} {i : Input params} (h : b.ptSet.view.Unique) (hLoads : b.LoadsUnique i) :
    (b.next i).ptSet.view.Unique ↔ b.Safe i := by
  rw [ptSet, Safe, PageTableSetBuffer.next, nextBuffer]
  cases hFire : b.dmaDataIFire i with
  | some word =>
    have hWrite : b.writeFire i = none := by
      rw [dmaDataIFire, dmaDataIReady] at hFire
      cases hState : b.stateR with
      | sIdle =>
        cases hWrite : b.writeFire i with
        | none => rfl
        | some request =>
          rw [hState, hWrite] at hFire
          cases hFire
      | sMoveIn => rw [writeFire, hState]; rfl
      | sMoveOut => rw [writeFire, hState]; rfl
    simp only [hWrite, Option.mem_def, Option.some.injEq, forall_eq', reduceCtorEq, false_implies, implies_true, true_and]
    cases hLast : b.lastBeat with
    | false => exact (b.noStalePair_iff word).symm.trans ⟨fun hPair _ => hPair, fun hPair => hPair rfl⟩
    | true => exact iff_of_true (hLoads word hFire hLast) (fun hFalse => Bool.noConfusion hFalse)
  | none =>
    cases hWrite : b.writeFire i with
    | none =>
      simp only [Option.mem_def, reduceCtorEq, false_implies, implies_true, true_and]
      exact iff_of_true h trivial
    | some request =>
      simp only [Option.mem_def, Option.some.injEq, forall_eq', reduceCtorEq, false_implies, implies_true, and_true,
        PageTableSetPacket.ofWords_asWords]
      exact unique_write_iff h request

/-- When every set that is loaded has a page at most once, no lookup ever hits twice exactly
when the buffer starts with such a set and every cycle is safe. -/
theorem single_hit_iff (words : SetWords) (is : List (Input params))
    (hLoaded : ∀ set ∈ loaded (atReset words) is, set.view.Unique) :
    (∀ js, js <+: is → ∀ tag, ((machine params).run (atReset words) js).multipleHit tag = true) ↔
      (PageTableSetPacket.ofWords words : PageTableSetPacket params).view.Unique ∧
        (machine params).Along Safe (atReset words) is := by
  have hCounted : (atReset words : PageTableSetBuffer params).Counted := iff_of_true rfl rfl
  have hLoads : (machine params).Along LoadsUnique (atReset words) is := by
    refine hCounted.along_loads is fun set hSet => ?_
    exact hLoaded _ (List.mem_map_of_mem hSet)
  let unique : PageTableSetBuffer params → Prop := fun b => b.ptSet.view.Unique
  simp only [multipleHit_iff]
  refine (Machine.forall_prefix_iff (p := unique) _ is).trans (and_congr_right fun hStart => ?_)
  have hStart : unique (atReset words) := hStart
  refine hLoads.congr hStart (fun b i hUnique hLoads hSafe => ?_) fun b i => next_unique_iff
  exact (next_unique_iff hUnique hLoads).mpr hSafe

section Example

def beatOf (word : BitVec 512) : Input params := ⟨some word, false, none, ⟨0, 0⟩⟩

def loadOf (set : PageTableSetPacket params) : List (Input params) := (List.finRange 3).map fun k => beatOf (set.asWords k)

theorem loaded_loadOf (words : SetWords) (set : PageTableSetPacket params) : loaded (atReset words) (loadOf set) = [set] := by
  have hWords : ![set.asWords 0, set.asWords 1, set.asWords 2] = set.asWords := by
    refine funext fun k => ?_
    match k with
    | 0 => rfl
    | 1 => rfl
    | 2 => rfl
  have hSets : loaded (atReset words) (loadOf set) =
      [PageTableSetPacket.ofWords ![set.asWords 0, set.asWords 1, set.asWords 2]] := rfl
  rw [hSets, hWords, PageTableSetPacket.ofWords_asWords]

abbrev hierarchy : PageTableParams :=
  ⟨14, 50, 22, 15, 0, 5, 5, by decide, by decide, by decide, by decide, by decide⟩

def noPage : PageTableSetPacket hierarchy := ⟨fun _ => ⟨0, 0⟩, fun _ => ⟨0, 0, false⟩, 0, 0⟩

def onePageSet : PageTableSetPacket hierarchy := noPage.write ⟨⟨⟨5, 1⟩, ⟨0, 1, false⟩⟩, false, 5⟩

def twoPages : PageTableSetPacket hierarchy := onePageSet.write ⟨⟨⟨6, 1⟩, ⟨0, 1, false⟩⟩, false, 6⟩

theorem unique_noPage : noPage.view.Unique := by
  intro tag i j hi _
  rw [PageTableSetPacket.holds_view_iff, PageTableSetPacket.hitVector_eq, Bool.and_eq_true] at hi
  exact absurd hi.2 (by simp [noPage])

theorem unique_onePageSet : onePageSet.view.Unique := (unique_write_iff unique_noPage _).mpr (Or.inr (by decide))

theorem unique_twoPages : twoPages.view.Unique := (unique_write_iff unique_onePageSet _).mpr (Or.inr (by decide))

def beatsOf (words : SetWords) (set : PageTableSetPacket params) (n : Nat) : SetWords := fun k =>
  if k.val < n then set.asWords k else words k

/-- A set is loaded safely when the mixtures with the set before have no page twice. -/
theorem along_safe_loadOf {words : SetWords} {set : PageTableSetPacket params}
    (hFirst : (PageTableSetPacket.ofWords (beatsOf words set 1) : PageTableSetPacket params).view.Unique)
    (hSecond : (PageTableSetPacket.ofWords (beatsOf words set 2) : PageTableSetPacket params).view.Unique) :
    (machine params).Along Safe (atReset words) (loadOf set) := by
  have hBeat (b : PageTableSetBuffer params) (word : BitVec 512) (hStale : b.lastBeat = false → b.NoStalePair word) :
      b.Safe (beatOf word) := by
    refine ⟨fun request hRequest => ?_, fun word' hWord hLast => ?_⟩
    · rw [writeFire, beatOf, ite_self] at hRequest
      cases hRequest
    · rw [dmaDataIFire] at hWord
      split at hWord
      · exact Option.some.inj hWord ▸ hStale hLast
      · cases hWord
  refine ⟨hBeat _ _ fun _ => ?_, hBeat _ _ fun _ => ?_, hBeat _ _ fun hLast => ?_, trivial⟩
  · rw [noStalePair_iff]
    convert hFirst using 4
    funext k
    match k with
    | 0 => rfl
    | 1 => rfl
    | 2 => rfl
  · rw [noStalePair_iff]
    convert hSecond using 4
    funext k
    match k with
    | 0 => rfl
    | 1 => rfl
    | 2 => rfl
  · cases hLast

theorem unique_of_pair {set : PageTableSetPacket params} {m n : Slot} (hTags : set.tags m ≠ set.tags n)
    (hPair : ∀ i : Slot, set.valids.getLsbD i.val = true → i = m ∨ i = n) : set.view.Unique := by
  intro tag i j hi hj
  rw [PageTableSetPacket.holds_view_iff, PageTableSetPacket.hitVector_eq, Bool.and_eq_true, decide_eq_true_iff] at hi hj
  rcases hPair i hi.2 with rfl | rfl <;> rcases hPair j hj.2 with rfl | rfl
  · rfl
  · exact absurd (hi.1.trans hj.1.symm) hTags
  · exact absurd (hj.1.trans hi.1.symm) hTags
  · rfl

/-- The set after page 6 gave its slot to page 7. -/
def replacedPage : PageTableSetPacket hierarchy := twoPages.write ⟨⟨⟨7, 1⟩, ⟨0, 1, false⟩⟩, false, 6⟩

theorem unique_replacedPage : replacedPage.view.Unique := unique_of_pair (m := 5) (n := 6) (by decide) (by decide)

/-- Two pages are loaded over two. -/
theorem single_hit_twoPages : loaded (atReset twoPages.asWords) (loadOf replacedPage) = [replacedPage] ∧
    ∀ js, js <+: loadOf replacedPage →
      ∀ tag, ((machine hierarchy).run (atReset twoPages.asWords) js).multipleHit tag = true := by
  refine ⟨loaded_loadOf _ _, (single_hit_iff twoPages.asWords (loadOf replacedPage) ?_).mpr ⟨?_, along_safe_loadOf ?_ ?_⟩⟩
  · rw [loaded_loadOf]
    exact List.forall_mem_singleton.mpr unique_replacedPage
  · rw [PageTableSetPacket.ofWords_asWords]
    exact unique_twoPages
  · exact unique_of_pair (m := 5) (n := 6) (by decide +kernel) (by decide +kernel)
  · exact unique_of_pair (m := 5) (n := 6) (by decide +kernel) (by decide +kernel)

/-- The set after page 5 moved from slot 5 to slot 6. -/
def movedPage : PageTableSetPacket hierarchy :=
  (onePageSet.write ⟨⟨⟨5, 1⟩, ⟨0, 1, false⟩⟩, true, 5⟩).write ⟨⟨⟨5, 1⟩, ⟨0, 1, false⟩⟩, false, 6⟩

theorem unique_movedPage : movedPage.view.Unique :=
  (unique_write_iff ((unique_write_iff unique_onePageSet _).mpr (Or.inl rfl)) _).mpr (Or.inr (by decide))

/-- Page 6 comes into slot 5, by another handler. -/
def joinedPage : PageTableSetPacket hierarchy := movedPage.write ⟨⟨⟨6, 1⟩, ⟨0, 1, false⟩⟩, false, 5⟩

theorem unique_joinedPage : joinedPage.view.Unique := (unique_write_iff unique_movedPage _).mpr (Or.inr (by decide))

theorem stale_pair : ((machine hierarchy).run (atReset movedPage.asWords) ((loadOf joinedPage).take 1)).multipleHit ⟨5, 1⟩ = false := by
  decide +kernel

/-- The set is loaded again: with the first word both slots are valid, and the tags are still those of before. -/
theorem stale_pair_hit : movedPage.view.Unique ∧
    (∀ set ∈ loaded (atReset movedPage.asWords) (loadOf joinedPage), set.view.Unique) ∧
    ¬ ∀ js, js <+: loadOf joinedPage →
      ∀ tag, ((machine hierarchy).run (atReset movedPage.asWords) js).multipleHit tag = true := by
  refine ⟨unique_movedPage, ?_, fun hSingle => ?_⟩
  · rw [loaded_loadOf]
    exact List.forall_mem_singleton.mpr unique_joinedPage
  · exact Bool.false_ne_true (stale_pair.symm.trans (hSingle _ (List.take_prefix 1 _) ⟨5, 1⟩))

end Example

end PageTableSetBuffer

end KnockoutKraken.Mmu
