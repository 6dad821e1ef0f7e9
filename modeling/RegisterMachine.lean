import RegisterMachine.Core.Image
import RegisterMachine.Core.Run
import RegisterMachine.Device.Peripheral
import RegisterMachine.Greeting
import RegisterMachine.Main
import RegisterMachine.Pipeline.Run
import RegisterMachine.Proofs.Image
import RegisterMachine.Proofs.Exec
import RegisterMachine.Proofs.RegisterFile
import RegisterMachine.Proofs.Core.Actions
import RegisterMachine.Proofs.Core.Frame
import RegisterMachine.Proofs.Core.Step
import RegisterMachine.Proofs.Core.Atomic
import RegisterMachine.Proofs.Stack
import RegisterMachine.Proofs.Core.Calls
import RegisterMachine.Proofs.Agree
import RegisterMachine.Proofs.Actor
import RegisterMachine.Proofs.Pipeline.Traffic
import RegisterMachine.Proofs.Pipeline.Mirror
import RegisterMachine.Proofs.Pipeline.Lockstep
import RegisterMachine.Proofs.Core.Width
import RegisterMachine.Proofs.Device.Registry
import RegisterMachine.Proofs.Device.DataSpace
import RegisterMachine.Proofs.Core.DataStack
import RegisterMachine.Proofs.Core.WriteSet
import RegisterMachine.Proofs.Core.Disassembly
import RegisterMachine.Proofs.FunctionalUnit.Loop
import RegisterMachine.Proofs.FunctionalUnit.Tandem
import RegisterMachine.Proofs.Coding
import RegisterMachine.Proofs.Utf8
import RegisterMachine.Proofs.Output
import RegisterMachine.Proofs.Pipeline.Pop
import RegisterMachine.Proofs.Core.Swap
import RegisterMachine.Proofs.Core.Arithmetic
import RegisterMachine.Proofs.Core.Pointer
import RegisterMachine.Proofs.Core.Jumps
import RegisterMachine.Proofs.Core.Detached
import RegisterMachine.Proofs.Core.Run
import RegisterMachine.Proofs.Device.Sweep
import RegisterMachine.Proofs.Core.Lifecycle
import RegisterMachine.Proofs.Core.Slices
import RegisterMachine.Proofs.Core.Install
import RegisterMachine.Proofs.Core.Chains
import RegisterMachine.Proofs.FunctionalUnit.Operands
import RegisterMachine.Proofs.Pipeline.Orderly
