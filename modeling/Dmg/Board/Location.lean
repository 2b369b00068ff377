import Dmg.Joypad
import Dmg.Serial
import Dmg.Timer
import Dmg.Video.Register

/-!
# The memory map

An address leads to one place: a byte of some memory, or a register.  Reads and
writes go by the same map.  Addresses that lead nowhere read as raised bits and
take no writes.
-/

namespace Dmg

/-- What an address leads to. -/
inductive Location where
  /-- The image of the cartridge, or what lies over it. -/
  | image (address : UInt16)
  | videoMemory (offset : VideoOffset)
  | cartridgeMemory (address : UInt16)
  /-- Work memory.  Most of it is seen a second time in the addresses that
  follow it. -/
  | workMemory (offset : Fin 0x2000)
  | spriteMemory (offset : SpriteOffset)
  | joypad
  | serial (register : SerialRegister)
  | timer (register : TimerRegister)
  | interruptRequests
  | video (register : VideoRegister)
  /-- Starts a transfer to sprite memory. -/
  | transfer
  /-- Takes the start-up image away. -/
  | bootSwitch
  | highMemory (offset : Fin 127)
  | interruptPermissions
  | nowhere
  deriving DecidableEq, Repr

namespace Location

/-- The places of the last page below high memory, by their low byte. -/
def ofLastPage (low : UInt8) : Location :=
  match low with
  | 0x00 => joypad
  | 0x01 => serial .data
  | 0x02 => serial .control
  | 0x04 => timer .div
  | 0x05 => timer .tima
  | 0x06 => timer .tma
  | 0x07 => timer .tac
  | 0x0F => interruptRequests
  | 0x40 => video .lcdc
  | 0x41 => video .stat
  | 0x42 => video .scy
  | 0x43 => video .scx
  | 0x44 => video .ly
  | 0x45 => video .lyc
  | 0x46 => transfer
  | 0x47 => video .bgp
  | 0x48 => video .obp0
  | 0x49 => video .obp1
  | 0x4A => video .wy
  | 0x4B => video .wx
  | 0x50 => bootSwitch
  | _ => nowhere

@[inline] def ofAddress (address : UInt16) : Location :=
  have bound := address.toNat_lt
  if address.toNat < 0x8000 then image address
  else if address.toNat < 0xA000 then
    videoMemory ⟨address.toNat % 0x2000, Nat.mod_lt _ (by decide)⟩
  else if address.toNat < 0xC000 then cartridgeMemory address
  else if address.toNat < 0xFE00 then
    workMemory ⟨address.toNat % 0x2000, Nat.mod_lt _ (by decide)⟩
  else if sprites : address.toNat < 0xFEA0 then
    spriteMemory ⟨address.toNat - 0xFE00, by omega⟩
  else if address.toNat < 0xFF00 then nowhere
  else if address.toNat < 0xFF80 then ofLastPage (Word.low address)
  else if high : address.toNat < 0xFFFF then
    highMemory ⟨address.toNat - 0xFF80, by omega⟩
  else interruptPermissions

end Location

end Dmg
