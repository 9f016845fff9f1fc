import KnockoutKraken.Cache.CacheEntry
import KnockoutKraken.Util.Bram

/-!
# Replacement state

A replacement core is combinational: from the encoding of a set it names
the way to replace, and from a touched way the encoding to store. The
`LRU` module keeps one encoding for each set in a block memory; it reads
the set of the request being accepted and writes back, one cycle later,
to the address it registered.
-/

namespace KnockoutKraken.Cache

open Util

structure LRUCore (wayWidth : Nat) where
  encodingWidth : Nat
  lruO : (Fin encodingWidth → Bool) → Fin (2 ^ wayWidth)
  encodingO : (Fin encodingWidth → Bool) → Fin (2 ^ wayWidth) → (Fin encodingWidth → Bool)

namespace PseudoTreeLRUCore

/-- The way a subtree over `2 ^ k` ways points to; the root bit of the subtree is
at `startIndex`, its left half follows and its right half starts `2 ^ (k - 1)` further. -/
def getLRU (encodingI : Nat → Bool) : (k startIndex : Nat) → Nat
  | 0, _ => 0
  | k + 1, startIndex =>
    let startBit := encodingI startIndex
    startBit.toNat * 2 ^ k + getLRU encodingI k (if startBit then startIndex + 2 ^ k else startIndex + 1)

theorem getLRU_lt (encodingI : Nat → Bool) (k startIndex : Nat) : getLRU encodingI k startIndex < 2 ^ k := by
  induction k generalizing startIndex with
  | zero => exact Nat.one_pos
  | succ k ih =>
    simp only [getLRU, Nat.pow_succ]
    have hSub := ih (if encodingI startIndex then startIndex + 2 ^ k else startIndex + 1)
    cases hBit : encodingI startIndex <;> simp only [hBit] at hSub ⊢ <;> simp at hSub ⊢ <;> omega

def updateEncoding (encodingI : Nat → Bool) (lruI : Nat) : (k startIndex : Nat) → (Nat → Bool)
  | 0, _ => encodingI
  | k + 1, startIndex =>
    let startBit := encodingI startIndex
    let judgeBit := lruI.testBit k
    Function.update
      (updateEncoding encodingI lruI k (if judgeBit then startIndex + 2 ^ k else startIndex + 1))
      startIndex (if startBit = judgeBit then !startBit else startBit)

end PseudoTreeLRUCore

def PseudoTreeLRUCore (wayWidth : Nat) : LRUCore wayWidth where
  encodingWidth := 2 ^ wayWidth - 1
  lruO encodingI :=
    ⟨PseudoTreeLRUCore.getLRU (fun i => if h : i < 2 ^ wayWidth - 1 then encodingI ⟨i, h⟩ else false) wayWidth 0,
      PseudoTreeLRUCore.getLRU_lt _ _ _⟩
  encodingO encodingI lruI i :=
    PseudoTreeLRUCore.updateEncoding
      (fun j => if h : j < 2 ^ wayWidth - 1 then encodingI ⟨j, h⟩ else false) lruI.val wayWidth 0 i.val

structure LRU (p : DatabankParams) (core : LRUCore p.wayWidth) where
  bram : BRAMTDP p.SetIndex (Fin 1) (Fin core.encodingWidth → Bool)
  addrS1R : p.SetIndex

namespace LRU

variable {p : DatabankParams} {core : LRUCore p.wayWidth} (u : LRU p core)

def lruO : p.Way := core.lruO (u.bram.ramDataA 0)

def next (addrI : p.SetIndex) (indexI : Option p.Way) : LRU p core where
  bram := u.bram.next (.read addrI fun _ _ => false)
    { en := indexI.isSome
      we := fun _ => indexI.isSome
      addr := u.addrS1R
      di := fun _ => core.encodingO (u.bram.ramDataA 0) (indexI.getD 0) }
  addrS1R := addrI

def init (addr : p.SetIndex) : LRU p core where
  bram := ⟨fun _ _ _ => false, fun _ _ => false, fun _ _ => false⟩
  addrS1R := addr

end LRU

end KnockoutKraken.Cache
