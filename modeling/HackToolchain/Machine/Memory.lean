import HackToolchain.Symbol

/-! # Memory

The memory has half as many cells as a word has values, so that half of the addresses point at no
cell. Reading outside the memory gives zero, and writing there changes nothing.
-/

namespace HackToolchain

/-- The number of cells of the memory. -/
def memorySize : Nat := 32768

/-- The cells of the machine. -/
structure Memory where
  cells : Vector Word memorySize

namespace Memory

/-- The memory of a machine that has not run. -/
def zeroed : Memory :=
  ⟨Vector.replicate memorySize 0⟩

/-- Whether an address points at a cell. -/
abbrev InRange (address : Word) : Prop :=
  address.toNat < memorySize

/-- The value of a cell. -/
def read (memory : Memory) (address : Word) : Word :=
  if inside : InRange address then memory.cells[address.toNat] else 0

/-- The memory after a value is stored in a cell. -/
def write (memory : Memory) (address value : Word) : Memory :=
  if inside : InRange address then ⟨memory.cells.set address.toNat value⟩ else memory

/-- Nothing is outside the memory but zeros. -/
theorem read_of_not_inRange {memory : Memory} {address : Word} (outside : ¬InRange address) :
    memory.read address = 0 := by
  rw [read, dif_neg outside]

theorem read_zeroed (address : Word) : zeroed.read address = 0 := by
  rw [read]
  split
  · exact Vector.getElem_replicate _
  · rfl

/-- Nothing is written outside the memory. -/
theorem write_of_not_inRange {memory : Memory} {address value : Word}
    (outside : ¬InRange address) : memory.write address value = memory := by
  rw [write, dif_neg outside]

/-- A cell has the value that was written to it. -/
theorem read_write_self {memory : Memory} {address value : Word} (inside : InRange address) :
    (memory.write address value).read address = value := by
  rw [write, dif_pos inside, read, dif_pos inside, Vector.getElem_set_self]

/-- A write changes one cell only. -/
theorem read_write_of_ne {memory : Memory} {written address value : Word}
    (different : written ≠ address) :
    (memory.write written value).read address = memory.read address := by
  have apart : written.toNat ≠ address.toNat := fun same => different (BitVec.eq_of_toNat_eq same)
  by_cases inside : InRange written
  · by_cases readable : InRange address
    · rw [write, dif_pos inside, read, dif_pos readable, read, dif_pos readable,
        Vector.getElem_set_ne _ _ apart]
    · rw [read_of_not_inRange readable, read_of_not_inRange readable]
  · rw [write_of_not_inRange inside]

/-- Two memories whose cells read the same are the same. -/
theorem ext_read {first second : Memory}
    (same : ∀ address, first.read address = second.read address) :
    first = second := by
  obtain ⟨cells⟩ := first
  obtain ⟨others⟩ := second
  congr 1
  apply Vector.ext
  intro index bound
  have represented : (BitVec.ofNat 16 index).toNat = index := by
    have limit : memorySize = 32768 := rfl
    simp only [BitVec.toNat_ofNat]
    omega
  have inside : InRange (BitVec.ofNat 16 index) := by
    rw [InRange, represented]
    exact bound
  have equal := same (BitVec.ofNat 16 index)
  rw [read, dif_pos inside, read, dif_pos inside] at equal
  simp only [represented] at equal
  exact equal

/-- The cells that are not zero, by address. -/
def nonzero (memory : Memory) : List (Nat × Word) :=
  (memory.cells.toList.zipIdx.filter fun (value, _) => value ≠ 0).map fun (value, address) =>
    (address, value)

end Memory

end HackToolchain
