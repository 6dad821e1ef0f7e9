import RegisterMachine.Memory.Basic
import RegisterMachine.Proofs.Word

/-!
# The layout of memory

A machine never changes how many cells a region has, and keeps words that fit its width.

* `Memory.LaidOut`: the segments are those of a profile.
* `Memory.Bounded`: every word is at most a given one. Only words are meant, not code.
-/

namespace RegisterMachine

/-- A segment is that of `region` and has `capacity` cells. -/
structure Segment.Spans {α : Type} (segment : Segment α) (region : Region) (capacity : ℕ) :
    Prop where
  region_eq : segment.region = region
  capacity_eq : segment.capacity = capacity

/-- Every word of a segment is at most `bound`. -/
def Segment.Bounded (segment : Segment Word) (bound : Word) : Prop :=
  ∀ word ∈ segment.cells.toList, word ≤ bound

namespace Memory

/-- The segments are those of a profile. -/
structure LaidOut (memory : Memory) (profile : Profile) : Prop where
  code : memory.code.Spans .code profile.codeCapacity
  data : memory.data.Spans .data profile.dataCapacity
  stack : memory.stack.Spans .stack profile.stackCapacity
  callStack : memory.callStack.Spans .callStack profile.callStackCapacity
  microcode : memory.microcode.Spans .microcode profile.microcodeCapacity

/-- Every word in memory is at most `bound`. -/
structure Bounded (memory : Memory) (bound : Word) : Prop where
  data : memory.data.Bounded bound
  stack : memory.stack.Bounded bound
  callStack : memory.callStack.Bounded bound
  microcode : memory.microcode.Bounded bound

theorem laidOut_zeroed (profile : Profile) : (zeroed profile).LaidOut profile := by
  constructor <;> exact ⟨rfl, by simp [zeroed, Segment.filled, Segment.capacity]⟩

theorem bounded_zeroed (profile : Profile) (bound : Word) : (zeroed profile).Bounded bound := by
  constructor <;> intro word h <;> simp [zeroed, Segment.filled] at h <;> simp [h.2]

end Memory

/-- A 16 bit machine with a few cells in every region. -/
def Profile.small : Profile :=
  { compact16 with
    codeCapacity := 4, dataCapacity := 4, stackCapacity := 2, callStackCapacity := 2,
    microcodeCapacity := 2 }

end RegisterMachine
