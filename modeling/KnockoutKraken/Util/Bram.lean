import KnockoutKraken.Library.Indices
import Mathlib.Data.Fintype.Defs
import Mathlib.Logic.Function.Basic

/-!
# True dual port block memory

A memory of rows cut into columns, with a write enable for each column.
An enabled port shows, from the next cycle on, the columns it wrote and
the contents before the clock edge of the others; in particular a port
that only reads shows the row as it was before the other port's write.
-/

namespace KnockoutKraken.Util

universe u v w

structure BRAMPort (ι : Type u) (κ : Type v) (α : Type w) where
  en : Bool
  we : κ → Bool
  addr : ι
  di : κ → α

structure BRAMTDP (ι : Type u) (κ : Type v) (α : Type w) where
  mem : ι → κ → α
  ramDataA : κ → α
  ramDataB : κ → α

namespace BRAMTDP

variable {ι : Type u} {κ : Type v} {α : Type w} [DecidableEq ι]

def writePort (mem : ι → κ → α) (port : BRAMPort ι κ α) : ι → κ → α :=
  fun row col => if port.en && port.we col && decide (row = port.addr) then port.di col else mem row col

def readPort (mem : ι → κ → α) (port : BRAMPort ι κ α) (held : κ → α) : κ → α :=
  fun col => if port.en then (if port.we col then port.di col else mem port.addr col) else held col

def next (b : BRAMTDP ι κ α) (portA portB : BRAMPort ι κ α) : BRAMTDP ι κ α where
  mem := writePort (writePort b.mem portA) portB
  ramDataA := readPort b.mem portA b.ramDataA
  ramDataB := readPort b.mem portB b.ramDataB

variable {mem : ι → κ → α} {port : BRAMPort ι κ α}

theorem writePort_of_ne {row : ι} (h : row ≠ port.addr) : writePort mem port row = mem row := by
  funext col
  simp [writePort, h]

theorem writePort_of_off (h : ∀ col, (port.en && port.we col) = false) : writePort mem port = mem := by
  funext row col
  rw [writePort, h col]
  rfl

theorem writePort_congr {mem' : ι → κ → α} {row : ι} (h : mem row = mem' row) :
    writePort mem port row = writePort mem' port row := by
  funext col
  rw [writePort, writePort, h]

theorem writePort_full (hEn : port.en = true) (hWe : ∀ col, port.we col = true) : writePort mem port port.addr = port.di := by
  funext col
  simp [writePort, hEn, hWe]

variable (mem) (port) in
omit [DecidableEq ι] in
theorem readPort_of_off (hEn : port.en = true) (hWe : ∀ col, port.we col = false) (held : κ → α) :
    readPort mem port held = mem port.addr := by
  funext col
  simp [readPort, hEn, hWe]

end BRAMTDP

def BRAMPort.Writes {ι : Type u} {κ : Type v} {α : Type w} (port : BRAMPort ι κ α) (row : ι) : Prop :=
  port.en = true ∧ port.addr = row ∧ ∃ col, port.we col = true

/-- A port that reads the row at `addr` in every cycle. -/
def BRAMPort.read {ι : Type u} {κ : Type v} {α : Type w} (addr : ι) (di : κ → α) : BRAMPort ι κ α where
  en := true
  we := fun _ => false
  addr := addr
  di := di

instance {ι : Type u} {κ : Type v} {α : Type w} [DecidableEq ι] [Fintype κ] (port : BRAMPort ι κ α) (row : ι) :
    Decidable (port.Writes row) := inferInstanceAs (Decidable (_ ∧ _ ∧ ∃ _, _))

theorem BRAMTDP.writePort_of_not_writes {ι : Type u} {κ : Type v} {α : Type w} [DecidableEq ι] {mem : ι → κ → α}
    {port : BRAMPort ι κ α} {row : ι} (h : ¬ port.Writes row) : writePort mem port row = mem row := by
  by_cases hRow : port.addr = row
  · funext col
    have hOff : (port.en && port.we col) = false := by
      rw [Bool.eq_false_iff]
      intro hOn
      rw [Bool.and_eq_true] at hOn
      exact h ⟨hOn.1, hRow, col, hOn.2⟩
    rw [writePort, hOff]
    rfl
  · exact writePort_of_ne fun hEq => hRow hEq.symm

section ReadPort

variable {ι : Type u} {κ : Type v} {α : Type w} [DecidableEq ι]

@[simp] theorem writePort_read (mem : ι → κ → α) (addr : ι) (di : κ → α) :
    BRAMTDP.writePort mem (.read addr di) = mem := by
  funext row col
  simp [BRAMTDP.writePort, BRAMPort.read]

omit [DecidableEq ι] in
@[simp] theorem readPort_read (mem : ι → κ → α) (addr : ι) (di held : κ → α) :
    BRAMTDP.readPort mem (.read addr di) held = mem addr := by
  funext col
  simp [BRAMTDP.readPort, BRAMPort.read]

end ReadPort

end KnockoutKraken.Util
