import RegisterMachine.Memory.Segment
import RegisterMachine.Profile

/-!
# Memory

The segments that a core owns, one per region. Device addresses are not here: they belong to
the device registry.
-/

namespace RegisterMachine

/-- The memory of a core. -/
structure Memory where
  code : Segment UInt32
  data : Segment Word
  stack : Segment Word
  callStack : Segment Word
  microcode : Segment Word
  deriving DecidableEq

namespace Memory

instance : Inhabited Memory := ⟨default, default, default, default, default⟩

/-- The memory of a machine that is switched on: all zeros. -/
def zeroed (profile : Profile) : Memory where
  code := .filled .code profile.codeCapacity 0
  data := .filled .data profile.dataCapacity 0
  stack := .filled .stack profile.stackCapacity 0
  callStack := .filled .callStack profile.callStackCapacity 0
  microcode := .filled .microcode profile.microcodeCapacity 0

end Memory

end RegisterMachine
