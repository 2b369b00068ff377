import Dmg.Proofs.Safety.Scanline
import Dmg.Proofs.Video.Place

/-!
# The checked video unit

The line goes up by one, the clock takes up what the processor took and gives it back
in durations of modes, and a line is drawn when its mode is over.  That all of this
has an answer rests on where the unit can be: between two lines that are drawn the
line is on the screen, and between two pictures it is one of the ten lines below it.
-/

namespace Dmg

namespace Video

/-! ## Memory -/

/-- Decode the row that begins at an offset, pixel by pixel. -/
def decodeRow? (vram : VideoMemory) (rows : TileRows) (offset : Nat) : Option TileRows := do
  let low <- vram[offset]?
  let high <- vram[offset + 1]?
  (List.range 8).foldlM (fun rows column => do
    let bit <- Checked.sub 7 column
    Checked.storeFlat rows (64 * (offset / 16) + 8 * (offset / 2 % 8) + column)
      (TileRow.indexOfBits (low.toNat.testBit bit) (high.toNat.testBit bit))) rows

def refreshTileRow? (vram : VideoMemory) (rows : TileRows) (offset : Nat) : Option TileRows :=
  if offset < 0x1800 then decodeRow? vram rows (2 * (offset / 2)) else some rows

def writeVram? (video : Video) (offset : Nat) (byte : UInt8) : Option Video := do
  let vram <- Checked.store video.vram (offset % 0x2000) byte
  let rows <- refreshTileRow? vram video.tileRows (offset % 0x2000)
  some { video with vram := vram, tileRows := rows }

def writeOam? (video : Video) (offset : Nat) (byte : UInt8) : Option Video := do
  let oam <- Checked.store video.oam offset byte
  some { video with oam := oam }

theorem refreshTileRow?_eq (vram : VideoMemory) (rows : TileRows) (offset : VideoOffset) :
    refreshTileRow? vram rows offset.val = some (refreshTileRow vram rows offset) := by
  rw [refreshTileRow?, refreshTileRow]
  split
  · next inTiles =>
    have row : offset.val / 2 < 3072 := by omega
    have low : 2 * (offset.val / 2) < 0x2000 := by omega
    have high : 2 * (offset.val / 2) + 1 < 0x2000 := by omega
    rw [decodeRow?, getElem?_pos vram _ low, getElem?_pos vram _ high,
      Checked.set_eq_setIfInBounds row]
    dsimp only [Option.bind_eq_bind, Option.bind_some]
    conv => lhs; rw [← Checked.setIfInBounds_self row rows]
    refine Checked.foldlM_range_eq_some
      (fun line => Vector.setIfInBounds rows (offset.val / 2) line) _ (fun column line => ?_) _
    have place : 64 * (2 * (offset.val / 2) / 16) + 8 * (2 * (offset.val / 2) / 2 % 8) =
        8 * (offset.val / 2) := by
      omega
    rw [Checked.sub_eq (Nat.le_of_lt_succ column.isLt), place]
    exact Checked.storeFlat_eq row column.isLt rows line _
  · rfl

theorem writeVram?_eq (video : Video) (offset : VideoOffset) (byte : UInt8) :
    video.writeVram? offset.val byte = some (video.writeVram offset byte) := by
  rw [writeVram?, Nat.mod_eq_of_lt offset.isLt, Checked.store_eq_set offset.isLt]
  simp only [Option.bind_eq_bind, Option.bind_some, refreshTileRow?_eq]
  rfl

theorem writeOam?_eq (video : Video) (offset : SpriteOffset) (byte : UInt8) :
    video.writeOam? offset.val byte = some (video.writeOam offset byte) := by
  rw [writeOam?, Checked.store_eq_set offset.isLt]
  rfl

/-! ## Registers -/

/-- The unit when a cartridge takes over.  Its palettes are looked up at once. -/
def initial? (shades : Shades) : Option Video := do
  let _ <- shades.under? 0xFC
  let _ <- shades.under? 0
  some (initial shades)

/-- Give every field the value that it has when a cartridge takes over.  The
palettes are looked up again. -/
def reset? (video : Video) : Option Video := do
  let _ <- video.shades.under? 0xFC
  let _ <- video.shades.under? 0
  some video.reset

/-- Store into a register.  A palette is looked up at once. -/
def writeRegister? (video : Video) (register : VideoRegister) (byte : UInt8) :
    Option (Video × UInt8) :=
  match register with
  | .bgp | .obp0 | .obp1 => do
      let _ <- video.shades.under? byte
      some (video.writeRegister register byte)
  | _ => some (video.writeRegister register byte)

theorem initial?_eq (shades : Shades) : initial? shades = some (initial shades) := by
  rw [initial?, Shades.under?_eq, Shades.under?_eq]
  rfl

theorem reset?_eq (video : Video) : video.reset? = some video.reset := by
  rw [reset?, Shades.under?_eq, Shades.under?_eq]
  rfl

theorem writeRegister?_eq (video : Video) (register : VideoRegister) (byte : UInt8) :
    video.writeRegister? register byte = some (video.writeRegister register byte) := by
  cases register with
  | bgp | obp0 | obp1 =>
      rw [writeRegister?, Shades.under?_eq]
      rfl
  | _ => rfl

/-! ## Time -/

def finishMode? (video : Video) : Option (Video × UInt8) :=
  match video.mode with
  | .oamScan => some (video.setMode .drawing, 0)
  | .drawing => do
      let line <- video.drawLine? (Vector.replicate 160 0)
      let drawn := { video with back := line.2 }.setMode .hblank
      let request := video.requestIf hblankSwitch
      if video.ly = 143 then
        let viewed <- drawn.refreshViews?
        some (viewed, request)
      else some (drawn, request)
  | .hblank => do
      let next <- Checked.add 8 video.ly.toNat 1
      let moved := { video with ly := UInt8.ofNat next }
      some (thenCompare (if moved.ly = vblankLine then moved.enterVblank else moved.enterOamScan))
  | .vblank => do
      let next <- Checked.add 8 video.ly.toNat 1
      let moved := { video with ly := UInt8.ofNat next }
      some (thenCompare
        (if lastLine < moved.ly then { moved with ly := 0 }.enterOamScan else (moved, 0)))

/-- Go through the modes until the clock falls within one. -/
def runClock? (video : Video) (clock : Nat) (requests : UInt8) : Option (Video × UInt8) :=
  if video.mode.duration <= clock then
    match taken : Checked.sub clock video.mode.duration with
    | none => none
    | some rest =>
        have := Checked.lt_of_sub_eq_some video.mode.duration_pos taken
        match video.finishMode? with
        | none => none
        | some finished => runClock? finished.1 rest (requests ||| finished.2)
  else some ({ video with clock := clock }, requests)
termination_by clock

def step? (video : Video) (cycles : Nat) : Option (Video × UInt8) :=
  if video.control.isOn then do
    let clock <- Checked.add 32 video.clock cycles
    let compared := video.compareLine
    compared.1.runClock? clock compared.2
  else some (video, 0)

/-- The end of a mode has an answer wherever the unit can be. -/
theorem finishMode?_eq {video : Video} (online : video.OnLine) :
    video.finishMode? = some video.finishMode := by
  have bound := online.ly_le
  have moved : UInt8.ofNat (video.ly.toNat + 1) = video.ly + 1 := by
    rw [UInt8.ofNat_add, UInt8.ofNat_toNat]
    rfl
  rw [finishMode?, finishMode]
  cases mode : video.mode with
  | oamScan => rfl
  | drawing =>
      have onScreen := online.drawn mode (by decide)
      have last : video.ly = 143 ↔ video.ly + 1 = vblankLine := by
        rw [next_eq_vblankLine_iff online, ← UInt8.toNat_inj]
        change video.ly.toNat = 143 ↔ _
        omega
      dsimp only
      rw [drawLine?_eq onScreen, finishDrawing]
      simp only [Option.bind_eq_bind, Option.bind_some, refreshViews?_eq, last]
      change _ = some (if video.ly + 1 = vblankLine then _ else _, _)
      split <;> rfl
  | hblank =>
      dsimp only
      rw [Checked.add_eq (show video.ly.toNat + 1 < 2 ^ 8 by omega)]
      simp only [Option.bind_eq_bind, Option.bind_some, moved]
      rfl
  | vblank =>
      have last : lastLine < video.ly + 1 ↔ ¬ video.ly < lastLine := by
        rw [UInt8.lt_iff_toNat_lt, UInt8.lt_iff_toNat_lt, toNat_ly_add_one online]
        change 153 < video.ly.toNat + 1 ↔ ¬ video.ly.toNat < 153
        omega
      dsimp only
      rw [Checked.add_eq (show video.ly.toNat + 1 < 2 ^ 8 by omega), finishVblank]
      simp only [Option.bind_eq_bind, Option.bind_some, moved, last, ite_not]
      split
      · rw [mode]
      · rfl

/-- Running out a clock has an answer, whatever the clock has come to. -/
theorem runClock?_eq {video : Video} (online : video.OnLine) (clock : Nat) (requests : UInt8) :
    video.runClock? clock requests = some (video.runClock clock requests) := by
  fun_induction runClock video clock requests with
  | case1 video clock requests due finished inductionHypothesis =>
      rw [← inductionHypothesis online.finishMode.1, runClock?, if_pos due]
      split
      · next none =>
        rw [Checked.sub_eq due] at none
        cases none
      · next rest taken =>
        rw [Checked.sub_eq due] at taken
        cases taken
        rw [finishMode?_eq online]
  | case2 video clock requests within => rw [runClock?, if_neg within]

/-- A clock that has not run out leaves room for half a double word. -/
theorem step?_eq {video : Video} (settled : video.Settled) {cycles : Nat} (few : cycles < 2 ^ 31) :
    video.step? cycles = some (video.step cycles) := by
  have within := settled.clock_lt
  have longest : video.mode.duration <= 456 := by
    cases video.mode <;> decide
  have compared : video.compareLine.1.OnLine := by
    rw [compareLine_eq]
    exact ⟨settled.online.ly_le, settled.online.vblank_iff⟩
  rw [step?, step]
  split
  · rw [Checked.add_eq (show video.clock + cycles < 2 ^ 32 by omega)]
    exact runClock?_eq compared _ _
  · rfl

end Video

end Dmg
