import Dmg.Proofs.Board.Storage

/-!
# What is sent over the serial link

The link sends the byte in its data register whenever the byte that starts a transfer is
written to its control register.  Nothing else sends, and nothing takes back what was sent.
So what a board has sent can be read off the list of the writes to it: for every write that
starts a transfer, the byte that was last written to the data register before.

A board tells the two registers by their addresses alone.
-/

namespace Dmg

namespace Serial

/-- The byte in the data register behind some writes. -/
def dataBehind (data : UInt8) (writes : List (UInt16 × UInt8)) : UInt8 :=
  ((writes.filter fun write => write.1 == 0xFF01).getLast?.map Prod.snd).getD data

/-- What some writes send: for every write that starts a transfer, the byte in the data register
behind the writes before it. -/
def sentBy (data : UInt8) (writes : List (UInt16 × UInt8)) : List UInt8 :=
  (List.range writes.length).filterMap fun index =>
    if writes[index]? = some (0xFF02, 0x81) then some (dataBehind data (writes.take index))
    else none

section Lists

variable (data : UInt8) (first second : List (UInt16 × UInt8))

theorem dataBehind_append :
    dataBehind data (first ++ second) = dataBehind (dataBehind data first) second := by
  rw [dataBehind, dataBehind, List.filter_append, List.getLast?_append]
  cases (second.filter _).getLast? <;> rfl

/-- Writes that follow others send what they would send behind them. -/
theorem sentBy_append :
    sentBy data (first ++ second) =
      sentBy data first ++ sentBy (dataBehind data first) second := by
  rw [sentBy, List.length_append, List.range_add, List.filterMap_append, List.filterMap_map]
  congr 1
  · apply List.filterMap_congr
    intro index member
    have inside := List.mem_range.mp member
    rw [List.getElem?_append_left inside, List.take_append_of_le_length (Nat.le_of_lt inside)]
  · apply List.filterMap_congr
    intro index _
    rw [Function.comp_apply, List.getElem?_append_right (Nat.le_add_right _ _),
      Nat.add_sub_cancel_left, List.take_length_add_append, dataBehind_append]

theorem dataBehind_singleton (write : UInt16 × UInt8) :
    dataBehind data [write] = if write.1 = 0xFF01 then write.2 else data := by
  rw [dataBehind, List.filter_singleton]
  by_cases same : write.1 = 0xFF01
  · rw [beq_iff_eq.mpr same, if_pos same]
    rfl
  · rw [beq_false_of_ne same, if_neg same]
    rfl

theorem sentBy_singleton (write : UInt16 × UInt8) :
    sentBy data [write] = if write = (0xFF02, 0x81) then [data] else [] := by
  change (List.filterMap _ [0]) = _
  by_cases starts : write = (0xFF02, 0x81)
  · subst starts
    rfl
  · rw [if_neg starts, List.filterMap_cons_none, List.filterMap_nil]
    exact if_neg fun same => starts (Option.some.inj same)

end Lists

/-- Some writes lead from one state of the link to another. -/
structure Sends (first last : Serial) (writes : List (UInt16 × UInt8)) : Prop where
  data : last.data = dataBehind first.data writes
  sent : last.sent.toList = first.sent.toList ++ sentBy first.data writes

namespace Sends

theorem nil (serial : Serial) : serial.Sends serial [] :=
  ⟨rfl, (List.append_nil _).symm⟩

theorem append {first middle last : Serial} {early late : List (UInt16 × UInt8)}
    (before : first.Sends middle early) (after : middle.Sends last late) :
    first.Sends last (early ++ late) where
  data := by rw [after.data, before.data, dataBehind_append]
  sent := by rw [after.sent, before.sent, before.data, sentBy_append, List.append_assoc]

end Sends

def address : SerialRegister -> UInt16
  | .data => 0xFF01
  | .control => 0xFF02

theorem sends_write (serial : Serial) (register : SerialRegister) (byte : UInt8) :
    serial.Sends (serial.write register byte) [(address register, byte)] := by
  constructor
  · rw [dataBehind_singleton]
    cases register <;> rfl
  · rw [sentBy_singleton]
    cases register with
    | data => exact (List.append_nil _).symm
    | control =>
        by_cases starts : byte = 0x81
        · subst starts
          exact Array.toList_push
        · have other : (address .control, byte) ≠ (0xFF02, 0x81) :=
            fun same => starts (Prod.mk.inj same).2
          rw [if_neg other, List.append_nil, write]
          exact congrArg Array.toList (if_neg starts)

end Serial

namespace Location

theorem address_of_ofLastPage {low : UInt8} {register : SerialRegister}
    (leads : ofLastPage low = serial register) :
    0xFF00 + low.toNat = (Serial.address register).toNat := by
  rw [ofLastPage.eq_def] at leads
  split at leads <;> cases leads <;> rfl

/-- An address leads to a register of the link exactly if it is the address of it. -/
theorem ofAddress_eq_serial_iff {address : UInt16} {register : SerialRegister} :
    ofAddress address = serial register ↔ address = Serial.address register := by
  constructor
  · intro leads
    have led := leads_ofAddress address
    rw [leads] at led
    generalize same : serial register = place at led
    cases led with
    | lastPage low place =>
        rw [← UInt16.toNat_inj, place]
        exact address_of_ofLastPage same.symm
    | _ => cases same
  · rintro rfl
    cases register <;> decide

end Location

namespace Board

theorem serial_writeLocation_of_ne {board : Board} {place : Location} {byte : UInt8}
    (other : ∀ register, place ≠ .serial register) :
    (board.writeLocation place byte).serial = board.serial := by
  cases place with
  | serial register => exact absurd rfl (other register)
  | transfer =>
      rcases board.exists_transfer_eq byte with ⟨oam, same⟩
      exact (congrArg Board.serial same :)
  | _ => rfl

/-- What a write to a board sends. -/
theorem sends_write (board : Board) (address : UInt16) (byte : UInt8) :
    board.serial.Sends (board.write address byte).serial [(address, byte)] := by
  by_cases led : ∃ register, Location.ofAddress address = .serial register
  · rcases led with ⟨register, leads⟩
    rw [write, leads, Location.ofAddress_eq_serial_iff.mp leads]
    exact board.serial.sends_write register byte
  · have other : ∀ register, Location.ofAddress address ≠ .serial register :=
      fun register leads => led ⟨register, leads⟩
    rw [write, serial_writeLocation_of_ne other]
    have notData : address ≠ 0xFF01 := fun same => other .data (by rw [same]; decide)
    have notControl : address ≠ 0xFF02 := fun same => other .control (by rw [same]; decide)
    refine ⟨?_, ?_⟩
    · rw [Serial.dataBehind_singleton, if_neg notData]
    · rw [Serial.sentBy_singleton, if_neg fun same => notControl (congrArg Prod.fst same),
        List.append_nil]

end Board

end Dmg
