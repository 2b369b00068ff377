import Dmg.Board.Basic
import Dmg.Proofs.Cpu.View
import Dmg.Proofs.Video.Timing

/-!
# Requests on the board

The request register is reached in two ways: the processor writes to its
address, and the devices put their requests in.  The devices only add, and
nothing that the processor writes to another address takes a request back.

A step that does not write to the register therefore loses no request, whatever
else it does.
-/

namespace Dmg

open Interrupt

namespace Video

/-! ## What the devices ask for -/

theorem fromDevices_requestIf (video : Video) (switch : UInt8) :
    FromDevices (video.requestIf switch) := by
  intro source raised
  rcases raisedIn_requestIf.mp raised with ⟨rfl, -⟩
  exact ⟨nofun, nofun⟩

theorem fromDevices_compareRequest (video : Video) : FromDevices video.compareRequest := by
  intro source raised
  rcases (raisedIn_compareRequest (SameSettings.refl video)).mp raised with ⟨rfl, -⟩
  exact ⟨nofun, nofun⟩

theorem fromDevices_thenCompare {changed : Video × UInt8} (devices : FromDevices changed.2) :
    FromDevices (thenCompare changed).2 := by
  rw [thenCompare_eq]
  exact devices.or (fromDevices_compareRequest _)

theorem fromDevices_finishMode (video : Video) : FromDevices video.finishMode.2 := by
  rcases finishMode_cases video with
    ⟨-, after⟩ | ⟨-, sheet, map, after⟩ | ⟨-, -, after⟩ | ⟨-, -, after⟩ | ⟨-, -, after⟩ |
    ⟨-, -, after⟩
  · rw [after]
    exact fromDevices_zero
  · rw [after]
    exact fromDevices_requestIf video hblankSwitch
  · rw [after]
    have picture : FromDevices Interrupt.vblank.mask := fromDevices_mask ⟨nofun, nofun⟩
    exact fromDevices_thenCompare (picture.or (fromDevices_requestIf video vblankSwitch))
  · rw [after]
    exact fromDevices_thenCompare (fromDevices_requestIf _ oamSwitch)
  · rw [after]
    exact fromDevices_thenCompare fromDevices_zero
  · rw [after]
    exact fromDevices_thenCompare (fromDevices_requestIf _ oamSwitch)

theorem fromDevices_expireAll (video : Video) : FromDevices video.expireAll.2 := by
  induction video using expireAll.induct with
  | case1 video due inductionHypothesis =>
      rw [expireAll_of_le due, expire_eq]
      rw [expire_eq] at inductionHypothesis
      exact (fromDevices_finishMode video).or inductionHypothesis
  | case2 video within =>
      rw [expireAll_of_lt (Nat.not_le.mp within)]
      exact fromDevices_zero

theorem fromDevices_step (video : Video) (cycles : Nat) : FromDevices (video.step cycles).2 := by
  cases on : video.control.isOn with
  | true =>
      rw [step_of_on on]
      refine FromDevices.or ?_ (fromDevices_expireAll _)
      rw [elapse, compareLine_eq]
      exact fromDevices_compareRequest video
  | false =>
      rw [step_of_off on]
      exact fromDevices_zero

theorem fromDevices_writeRegister (video : Video) (register : VideoRegister) (byte : UInt8) :
    FromDevices (video.writeRegister register byte).2 := by
  cases register with
  | stat =>
      rw [writeRegister, compareLine_eq]
      exact fromDevices_compareRequest _
  | lyc =>
      rw [writeRegister, compareLine_eq]
      exact fromDevices_compareRequest _
  | _ => exact fromDevices_zero

end Video

theorem Timer.fromDevices_step (timer : Timer) (cycles : Nat) :
    FromDevices (timer.step cycles).2 := by
  rw [step]
  split
  · dsimp only
    split
    · exact fromDevices_mask ⟨nofun, nofun⟩
    · exact fromDevices_zero
  · exact fromDevices_zero

/-! ## The address of the register -/

namespace Location

theorem ofLastPage_eq_interruptRequests {low : UInt8} (same : ofLastPage low = interruptRequests) :
    low = 0x0F := by
  unfold ofLastPage at same
  split at same <;> first | rfl | cases same

/-- No other address leads to the request register. -/
theorem ofAddress_eq_interruptRequests {address : UInt16}
    (same : ofAddress address = interruptRequests) : address = requestAddress := by
  unfold ofAddress at same
  dsimp only at same
  split at same
  · cases same
  split at same
  · cases same
  split at same
  · cases same
  split at same
  · cases same
  split at same
  · cases same
  split at same
  · cases same
  next beyond =>
  split at same
  · next below =>
    have low := congrArg UInt8.toNat (ofLastPage_eq_interruptRequests same)
    rw [Word.toNat_low] at low
    change address.toNat % 256 = 15 at low
    apply UInt16.toNat.inj
    change address.toNat = 0xFF0F
    omega
  split at same
  · cases same
  · cases same

end Location

namespace Board

/-! ## Writes and the passing of time -/

theorem interrupts_transfer (board : Board) (page : UInt8) :
    (board.transfer page).interrupts = board.interrupts := by
  rcases board.exists_transfer_eq page with ⟨oam, same⟩
  rw [same]

theorem onlyAdds_writeLocation (board : Board) {location : Location} (byte : UInt8)
    (elsewhere : location ≠ .interruptRequests) :
    OnlyAdds board.interrupts.requests (board.writeLocation location byte).interrupts.requests := by
  cases location with
  | interruptRequests => exact False.elim (elsewhere rfl)
  | video register =>
      exact (Video.fromDevices_writeRegister board.video register byte).onlyAdds _
  | transfer =>
      rw [writeLocation, interrupts_transfer]
      exact OnlyAdds.refl _
  | _ => exact OnlyAdds.refl _

theorem onlyAdds_write (board : Board) {address : UInt16} (byte : UInt8)
    (elsewhere : address ≠ requestAddress) :
    OnlyAdds board.interrupts.requests (board.write address byte).interrupts.requests :=
  board.onlyAdds_writeLocation byte
    (fun same => elsewhere (Location.ofAddress_eq_interruptRequests same))

theorem onlyAdds_advance (board : Board) (timing : Timing) :
    OnlyAdds board.interrupts.requests (board.advance timing).interrupts.requests :=
  ((board.video.fromDevices_step timing.clocks).or
    (board.timer.fromDevices_step timing.machine)).onlyAdds _

theorem raisedIn_read_requestAddress {source : Interrupt} {board : Board} :
    source.RaisedIn (board.read requestAddress) ↔ source.RaisedIn board.interrupts.requests := by
  change source.RaisedIn (0xE0 ||| board.interrupts.requests) ↔ _
  rw [raisedIn_or]
  refine or_iff_right ?_
  cases source <;> decide

end Board

/-! ## Steps of the processor -/

/-- As long as the record has no write to the register, requests are only
added. -/
def requestsKept (requests : UInt8) : BusInvariant (Recorded Board) where
  holds recorded :=
    (∃ byte, Access.write requestAddress byte ∈ recorded.accesses) ∨
      OnlyAdds requests recorded.memory.interrupts.requests
  read_holds := by
    rintro recorded address (⟨byte, member⟩ | kept)
    · exact Or.inl ⟨byte, List.mem_cons_of_mem _ member⟩
    · exact Or.inr kept
  write_holds := by
    rintro recorded address byte (⟨earlier, member⟩ | kept)
    · exact Or.inl ⟨earlier, List.mem_cons_of_mem _ member⟩
    · by_cases register : address = requestAddress
      · subst register
        exact Or.inl ⟨byte, List.mem_cons_self⟩
      · exact Or.inr (kept.trans (recorded.memory.onlyAdds_write byte register))

theorem Wired.onlyAdds_step {wired : Wired Board}
    (unwritten : ∀ write ∈ wired.stepWrites, write.1 ≠ requestAddress) :
    OnlyAdds wired.memory.interrupts.requests wired.step.2.memory.interrupts.requests := by
  have kept := (requestsKept wired.memory.interrupts.requests).step_holds
    (show (requestsKept _).holds wired.recorded.memory from Or.inr (OnlyAdds.refl _))
  rcases kept with ⟨byte, member⟩ | kept
  · exact False.elim (unwritten (requestAddress, byte) (Recorded.mem_writes_of_mem member) rfl)
  · rw [step_recorded]
    exact kept

end Dmg
