import RegisterMachine.Core.Basic
import RegisterMachine.Memory.Image

/-!
# Images of a core

The memory of a core can be written as an image and replaced by one. An image that is too short
changes nothing.
-/

namespace RegisterMachine.Core

variable {δ : Type}

/-- Replaces all memory by an image. -/
def loadImage (bytes : List UInt8) : Exec (Core δ) Unit := do
  let profile := (← get).profile
  let memory ← Memory.readImage profile bytes
  Exec.note .debug fun _ =>
    s!"loaded {profile.imageSize} byte {profile.generation.name} image"
  modify fun core => { core with memory }

/-- Writes an image of all memory to a sink. -/
def dumpImage (core : Core δ) (sink : Sink) : Except Fault Sink :=
  core.memory.writeImage core.profile sink

end RegisterMachine.Core
