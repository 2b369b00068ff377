import Dmg.Proofs.Cartridge.Images
import Dmg.Proofs.Cpu.View
import Dmg.Proofs.Video.Cycle
import Dmg.Machine.Run

/-!
# What a board keeps

When the power comes on again, a board is made of three things: the image in its
slot, its start-up image and the colours it shows.  Nothing that a program does
reaches any of them, so a program leaves no trace on what the board is after a
reset.
-/

namespace Dmg

namespace Board

/-- A reset reads nothing of a board but its images and its shades. -/
theorem reset_eq_of_kept {board next : Board} (shades : next.video.shades = board.video.shades)
    (cartridge : next.cartridge.reset = board.cartridge.reset)
    (bootImage : next.bootImage = board.bootImage) : next.reset = board.reset := by
  rw [reset_eq, reset_eq, shades, cartridge, bootImage]

theorem reset_writeLocation (board : Board) (location : Location) (byte : UInt8) :
    (board.writeLocation location byte).reset = board.reset := by
  cases location with
  | image address =>
      exact reset_eq_of_kept rfl (board.cartridge.reset_writeImage address byte) rfl
  | cartridgeMemory address =>
      exact reset_eq_of_kept rfl (board.cartridge.reset_writeMemory address byte) rfl
  | video register =>
      exact reset_eq_of_kept
        (congrArg Video.Store.shades (board.video.stored_writeRegister register byte)) rfl rfl
  | transfer =>
      rcases board.exists_transfer_eq byte with ⟨oam, same⟩
      rw [writeLocation, same]
      rfl
  | _ => rfl

@[simp] theorem reset_write (board : Board) (address : UInt16) (byte : UInt8) :
    (board.write address byte).reset = board.reset :=
  board.reset_writeLocation (.ofAddress address) byte

@[simp] theorem reset_advance (board : Board) (timing : Timing) :
    (board.advance timing).reset = board.reset :=
  reset_eq_of_kept (congrArg Video.Store.shades (board.video.stored_step timing.clocks)) rfl rfl

theorem reset_reset (board : Board) : board.reset.reset = board.reset :=
  reset_eq_of_kept rfl board.cartridge.reset_reset rfl

/-- What a board is after a reset outlasts whatever the processor does. -/
def resetInvariant (blank : Board) : BusInvariant Board where
  holds board := board.reset = blank
  read_holds _ _ kept := kept
  write_holds board address byte kept := (board.reset_write address byte).trans kept

end Board

namespace Wired

/-- What neither the processor nor the passing of time can end outlasts an
instruction and what follows from it. -/
theorem instruction_holds (invariant : BusInvariant Board)
    (advances : ∀ board timing, invariant.holds board -> invariant.holds (board.advance timing))
    {wired : Wired Board} (holds : invariant.holds wired.memory) :
    invariant.holds wired.instruction.2.memory := by
  have executed := invariant.step_holds holds
  rw [instruction]
  split
  · next same =>
    rw [same] at executed
    exact executed
  · next timing stepped same =>
    rw [same] at executed
    have ready : invariant.holds (stepped.advance timing).memory := advances _ timing executed
    have checked := invariant.serviceInterrupts_holds ready
    dsimp only
    rw [settleInterrupts]
    split
    · next same =>
      rw [same] at checked
      exact checked
    · next dispatch dispatched same =>
      rw [same] at checked
      exact advances _ dispatch checked

/-- An instruction and what follows from it leave no trace on what the board is
after a reset. -/
theorem reset_instruction (wired : Wired Board) :
    wired.instruction.2.memory.reset = wired.memory.reset :=
  instruction_holds (Board.resetInvariant wired.memory.reset)
    (fun board timing kept => (board.reset_advance timing).trans kept) rfl

end Wired

end Dmg
