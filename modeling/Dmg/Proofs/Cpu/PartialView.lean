import Dmg.Cpu.Step

/-!
# Seeing one memory as another for a while

Some memories can be seen as others only as long as the processor keeps to certain
addresses.  Up to there it makes no difference on which side it reads and writes.

Whether it has kept to them is known when it is done.  What it did on the way was part
of what it has done in the end, so the end being in order makes every access in order
that led to it.
-/

namespace Dmg

/-- A way to see one memory as another while all is in order.  What is out of order
stays so. -/
structure PartialView (First Second : Type) [Bus First] [Bus Second] where
  see : First -> Second
  valid : First -> Prop
  valid_of_read : forall memory address, valid (Bus.read memory address).2 -> valid memory
  valid_of_write : forall memory address byte, valid (Bus.write memory address byte) ->
    valid memory
  read_see : forall memory address, valid (Bus.read memory address).2 ->
    Bus.read (see memory) address =
      ((Bus.read memory address).1, see (Bus.read memory address).2)
  write_see : forall memory address byte, valid (Bus.write memory address byte) ->
    Bus.write (see memory) address byte = see (Bus.write memory address byte)

namespace PartialView

section View

variable {First Second : Type} [Bus First] [Bus Second] (view : PartialView First Second)

/-- The same processor on the memory that is seen. -/
def wired (wired : Wired First) : Wired Second :=
  ⟨wired.cpu, view.see wired.memory⟩

/-- Whether all is in order with the memory of a processor. -/
def Valid (wired : Wired First) : Prop :=
  view.valid wired.memory

end View

variable {First Second : Type} [Bus First] [Bus Second] {view : PartialView First Second}
  {wired : Wired First}

/-! ## Actions -/

theorem wired_cpu : (view.wired wired).cpu = wired.cpu := rfl

theorem wired_registers : (view.wired wired).registers = wired.registers := rfl

theorem mapRegisters_wired (change : Registers -> Registers) :
    (view.wired wired).mapRegisters change = view.wired (wired.mapRegisters change) := rfl

theorem valid_mapRegisters {change : Registers -> Registers} :
    view.Valid (wired.mapRegisters change) ↔ view.Valid wired :=
  Iff.rfl

theorem jump_wired (address : UInt16) :
    (view.wired wired).jump address = view.wired (wired.jump address) := rfl

theorem readByte_wired {address : UInt16} (valid : view.Valid (wired.readByte address).2) :
    (view.wired wired).readByte address =
      ((wired.readByte address).1, view.wired (wired.readByte address).2) := by
  simp only [Wired.readByte, PartialView.wired, view.read_see _ _ valid]

theorem valid_of_readByte {address : UInt16} (valid : view.Valid (wired.readByte address).2) :
    view.Valid wired :=
  view.valid_of_read _ _ valid

theorem writeByte_wired {address : UInt16} {byte : UInt8}
    (valid : view.Valid (wired.writeByte address byte)) :
    (view.wired wired).writeByte address byte = view.wired (wired.writeByte address byte) := by
  simp only [Wired.writeByte, PartialView.wired, view.write_see _ _ _ valid]

theorem valid_of_writeByte {address : UInt16} {byte : UInt8}
    (valid : view.Valid (wired.writeByte address byte)) : view.Valid wired :=
  view.valid_of_write _ _ _ valid

theorem fetchByte_wired (valid : view.Valid wired.fetchByte.2) :
    (view.wired wired).fetchByte = (wired.fetchByte.1, view.wired wired.fetchByte.2) := by
  have found : view.Valid (wired.readByte wired.registers.pc).2 := valid
  simp only [Wired.fetchByte, wired_registers, readByte_wired found, mapRegisters_wired]

theorem valid_of_fetchByte (valid : view.Valid wired.fetchByte.2) : view.Valid wired :=
  valid_of_readByte valid

theorem fetchWord_wired (valid : view.Valid wired.fetchWord.2) :
    (view.wired wired).fetchWord = (wired.fetchWord.1, view.wired wired.fetchWord.2) := by
  have high : view.Valid wired.fetchByte.2.fetchByte.2 := valid
  simp only [Wired.fetchWord, fetchByte_wired (valid_of_fetchByte high), fetchByte_wired high]

theorem push_wired {word : UInt16} (valid : view.Valid (wired.push word)) :
    (view.wired wired).push word = view.wired (wired.push word) := by
  have low : view.Valid ((wired.writeByte (wired.registers.sp - 1) (Word.high word)).writeByte
      (wired.registers.sp - 2) (Word.low word)) := valid
  simp only [Wired.push, wired_registers, writeByte_wired (valid_of_writeByte low),
    writeByte_wired low, mapRegisters_wired]

theorem valid_of_push {word : UInt16} (valid : view.Valid (wired.push word)) :
    view.Valid wired :=
  valid_of_writeByte (valid_of_writeByte valid)

theorem pop_wired (valid : view.Valid wired.pop.2) :
    (view.wired wired).pop = (wired.pop.1, view.wired wired.pop.2) := by
  have high : view.Valid
      ((wired.readByte wired.registers.sp).2.readByte (wired.registers.sp + 1)).2 := valid
  simp only [Wired.pop, wired_registers, readByte_wired (valid_of_readByte high),
    readByte_wired high, mapRegisters_wired]

theorem loadA_wired {address : UInt16} (valid : view.Valid (wired.loadA address)) :
    (view.wired wired).loadA address = view.wired (wired.loadA address) := by
  have found : view.Valid (wired.readByte address).2 := valid
  simp only [Wired.loadA, readByte_wired found, mapRegisters_wired]

theorem valid_of_loadA {address : UInt16} (valid : view.Valid (wired.loadA address)) :
    view.Valid wired :=
  valid_of_readByte valid

theorem call_wired {address : UInt16} (valid : view.Valid (wired.call address)) :
    (view.wired wired).call address = view.wired (wired.call address) := by
  have pushed : view.Valid (wired.push wired.registers.pc) := valid
  simp only [Wired.call, wired_registers, push_wired pushed, jump_wired]

theorem valid_of_call {address : UInt16} (valid : view.Valid (wired.call address)) :
    view.Valid wired :=
  valid_of_push valid

theorem ret_wired (valid : view.Valid wired.ret) :
    (view.wired wired).ret = view.wired wired.ret := by
  have popped : view.Valid wired.pop.2 := valid
  simp only [Wired.ret, pop_wired popped, jump_wired]

theorem readOperand_wired {source : Operand} (valid : view.Valid (wired.readOperand source).2) :
    (view.wired wired).readOperand source =
      ((wired.readOperand source).1, view.wired (wired.readOperand source).2) := by
  cases source with
  | memory => exact readByte_wired valid
  | _ => rfl

theorem writeOperand_wired {target : Operand} {byte : UInt8}
    (valid : view.Valid (wired.writeOperand target byte)) :
    (view.wired wired).writeOperand target byte = view.wired (wired.writeOperand target byte) := by
  cases target with
  | memory => exact writeByte_wired valid
  | _ => rfl

theorem valid_of_writeOperand {target : Operand} {byte : UInt8}
    (valid : view.Valid (wired.writeOperand target byte)) : view.Valid wired := by
  cases target with
  | memory => exact valid_of_writeByte valid
  | _ => exact valid

/-! ## Operations and steps -/

/-- The stack pointer is stored low byte first. -/
theorem execute_storeStackPointer {Memory : Type} [Bus Memory] (wired : Wired Memory) :
    wired.execute .storeStackPointer =
      (wired.fetchWord.2.writeByte wired.fetchWord.1
        (Word.low wired.fetchWord.2.registers.sp)).writeByte (wired.fetchWord.1 + 1)
          (Word.high wired.fetchWord.2.registers.sp) :=
  rfl

/-- A jump does not touch the memory, whether or not it is taken. -/
theorem valid_of_jumpIf {taken : Prop} [Decidable taken] {address : UInt16}
    (valid : view.Valid (if taken then wired.jump address else wired)) : view.Valid wired := by
  split at valid
  · exact valid
  · exact valid

/-- An operation that leaves all in order has the same effect on either side.  That each of
its actions does so is traced back from the last one. -/
theorem execute_wired {operation : Operation} (valid : view.Valid (wired.execute operation)) :
    (view.wired wired).execute operation = view.wired (wired.execute operation) := by
  cases operation with
  | nop | halt | disableInterrupts | enableInterrupts => rfl
  | stop =>
      have fetched : view.Valid wired.fetchByte.2 := valid
      simp only [Wired.execute, fetchByte_wired fetched]
      rfl
  | load target source =>
      simp only [Wired.execute] at valid ⊢
      have found := valid_of_writeOperand valid
      simp only [readOperand_wired found, writeOperand_wired valid]
  | loadByte target =>
      simp only [Wired.execute] at valid ⊢
      have fetched := valid_of_writeOperand valid
      simp only [fetchByte_wired fetched, writeOperand_wired valid]
  | loadWord target =>
      have fetched : view.Valid wired.fetchWord.2 := valid
      simp only [Wired.execute, fetchWord_wired fetched, mapRegisters_wired]
  | storeThrough pointer =>
      have stored : view.Valid
          (wired.writeByte (wired.registers.pointer pointer) wired.registers.a) := valid
      simp only [Wired.execute, wired_registers, writeByte_wired stored, mapRegisters_wired]
  | loadThrough pointer =>
      have found : view.Valid (wired.readByte (wired.registers.pointer pointer)).2 := valid
      simp only [Wired.execute, wired_registers, readByte_wired found, mapRegisters_wired]
  | storeHigh =>
      simp only [Wired.execute] at valid ⊢
      have fetched := valid_of_writeByte valid
      simp only [fetchByte_wired fetched, wired_registers, writeByte_wired valid]
  | loadHigh =>
      simp only [Wired.execute] at valid ⊢
      have fetched := valid_of_loadA valid
      simp only [fetchByte_wired fetched, loadA_wired valid]
  | storeHighC =>
      simp only [Wired.execute] at valid ⊢
      simp only [wired_registers, writeByte_wired valid]
  | loadHighC =>
      simp only [Wired.execute] at valid ⊢
      simp only [wired_registers, loadA_wired valid]
  | storeAbsolute =>
      simp only [Wired.execute] at valid ⊢
      have fetched := valid_of_writeByte valid
      simp only [fetchWord_wired fetched, wired_registers, writeByte_wired valid]
  | loadAbsolute =>
      simp only [Wired.execute] at valid ⊢
      have fetched := valid_of_loadA valid
      simp only [fetchWord_wired fetched, loadA_wired valid]
  | storeStackPointer =>
      rw [execute_storeStackPointer] at valid ⊢
      have low := valid_of_writeByte valid
      have fetched := valid_of_writeByte low
      simp only [execute_storeStackPointer, fetchWord_wired fetched, wired_registers,
        writeByte_wired low, writeByte_wired valid]
  | loadStackOffset | addStackOffset =>
      have fetched : view.Valid wired.fetchByte.2 := valid
      simp only [Wired.execute, fetchByte_wired fetched, mapRegisters_wired]
  | push source =>
      simp only [Wired.execute] at valid ⊢
      simp only [wired_registers, push_wired valid]
  | pop target =>
      have popped : view.Valid wired.pop.2 := valid
      simp only [Wired.execute, pop_wired popped, mapRegisters_wired]
  | increment target | decrement target =>
      simp only [Wired.execute] at valid ⊢
      have found := valid_mapRegisters.mp (valid_of_writeOperand valid)
      simp only [readOperand_wired found, mapRegisters_wired, writeOperand_wired valid]
  | shift movement target =>
      simp only [Wired.execute] at valid ⊢
      have found := valid_mapRegisters.mp (valid_of_writeOperand valid)
      simp only [readOperand_wired found, wired_registers, mapRegisters_wired,
        writeOperand_wired valid]
  | resetBit index target | setBit index target =>
      simp only [Wired.execute] at valid ⊢
      have found := valid_of_writeOperand valid
      simp only [readOperand_wired found, writeOperand_wired valid]
  | arithmetic arithmetic source =>
      have found : view.Valid (wired.readOperand source).2 := valid
      simp only [Wired.execute, readOperand_wired found, mapRegisters_wired]
  | testBit index source =>
      have found : view.Valid (wired.readOperand source).2 := valid
      simp only [Wired.execute, readOperand_wired found, mapRegisters_wired]
  | arithmeticByte arithmetic =>
      have fetched : view.Valid wired.fetchByte.2 := valid
      simp only [Wired.execute, fetchByte_wired fetched, mapRegisters_wired]
  | jumpRelative condition =>
      have fetched : view.Valid wired.fetchByte.2 := valid_of_jumpIf valid
      simp only [Wired.execute, fetchByte_wired fetched, wired_registers, jump_wired]
      split <;> rfl
  | jump condition =>
      have fetched : view.Valid wired.fetchWord.2 := valid_of_jumpIf valid
      simp only [Wired.execute, fetchWord_wired fetched, wired_registers, jump_wired]
      split <;> rfl
  | call condition =>
      simp only [Wired.execute] at valid ⊢
      by_cases met : condition.isMet wired.fetchWord.2.registers = true
      · rw [if_pos met] at valid ⊢
        simp only [fetchWord_wired (valid_of_call valid), wired_registers, call_wired valid]
        exact if_pos met
      · rw [if_neg met] at valid ⊢
        simp only [fetchWord_wired valid, wired_registers]
        exact if_neg met
  | ret condition =>
      simp only [Wired.execute] at valid ⊢
      by_cases met : condition.isMet wired.registers = true
      · rw [if_pos met] at valid ⊢
        rw [← ret_wired valid]
        exact if_pos met
      · rw [if_neg met]
        exact if_neg met
  | reti =>
      have returned : view.Valid wired.ret := valid
      simp only [Wired.execute, ret_wired returned]
      rfl
  | restart index =>
      simp only [Wired.execute] at valid ⊢
      exact call_wired valid
  | _ => rfl

theorem perform_wired {operation : Operation} (valid : view.Valid (wired.perform operation)) :
    (view.wired wired).perform operation = view.wired (wired.perform operation) := by
  have unarmed : view.Valid
      (Wired.execute { wired with cpu := { wired.cpu with enablePending := false } } operation) :=
    valid
  have executed := execute_wired unarmed
  simp only [PartialView.wired] at executed
  simp only [Wired.perform, PartialView.wired, executed]
  rfl

theorem dispatch_wired {source : Interrupt} {vector : UInt16}
    (valid : view.Valid (wired.dispatch source vector)) :
    (view.wired wired).dispatch source vector = view.wired (wired.dispatch source vector) := by
  let requests := wired.readByte Interrupt.requestAddress
  let taken := requests.2.writeByte Interrupt.requestAddress (requests.1 &&& ~~~source.mask)
  let calling : Wired First := { taken with
    cpu := { taken.cpu with ime := false, halted := false, timing := Wired.dispatchTiming } }
  have called : view.Valid (calling.call vector) := valid
  have ready : view.Valid calling := valid_of_call called
  have written : view.Valid taken := ready
  have asked : (view.wired wired).readByte Interrupt.requestAddress =
      (requests.1, view.wired requests.2) := readByte_wired (valid_of_writeByte written)
  have cleared : (view.wired requests.2).writeByte Interrupt.requestAddress
      (requests.1 &&& ~~~source.mask) = view.wired taken := writeByte_wired written
  simp only [Wired.dispatch, asked, cleared]
  exact call_wired called

theorem valid_of_dispatch {source : Interrupt} {vector : UInt16}
    (valid : view.Valid (wired.dispatch source vector)) : view.Valid wired :=
  valid_of_readByte (valid_of_writeByte (valid_of_push valid))

/-- The look for requests is the same on either side if it leaves all in order. -/
theorem serviceInterrupts_wired (valid : view.Valid wired.serviceInterrupts.2) :
    (view.wired wired).serviceInterrupts =
      (wired.serviceInterrupts.1, view.wired wired.serviceInterrupts.2) := by
  have checked : view.Valid ((wired.readByte Interrupt.permissionAddress).2.readByte
      Interrupt.requestAddress).2 := by
    simp only [Wired.serviceInterrupts] at valid
    split at valid
    · exact valid
    · split at valid
      · exact valid_of_dispatch valid
      · exact valid
  simp only [Wired.serviceInterrupts, readByte_wired (valid_of_readByte checked),
    readByte_wired checked, wired_cpu] at valid ⊢
  split
  case isTrue => rfl
  case isFalse pending =>
    rw [if_neg pending] at valid
    split
    next source vector on chosen =>
      simp only [on, chosen] at valid
      rw [dispatch_wired valid]
    next => rfl

end PartialView

end Dmg
