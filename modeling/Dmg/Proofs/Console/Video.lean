import Dmg.Proofs.Video.Cycle

/-!
# The video unit with what it keeps for itself

A palette register is decoded when it is written, and pictures are composed with the
colours that were found then.  The indices of a line are kept while its sprites are
painted, and stay behind until the next line is drawn.  No register shows any of
this.

The decoded colours are always those of the registers, so pictures come out as if
nothing had been kept.
-/

namespace Dmg

/-- A video unit with its decoded palettes and the indices of a line. -/
@[ext] structure VideoUnit where
  video : Video
  /-- The indices of the line that was drawn last, below its sprites. -/
  indices : IndexLine
  bgpColors : Vector Color 4
  obp0Colors : Vector Color 4
  obp1Colors : Vector Color 4

namespace VideoUnit

/-- A unit that has been built and not been reset yet.  It has no picture, not even a
white one. -/
def unstarted (shades : Shades) : VideoUnit where
  video :=
    { vram := Vector.replicate 0x2000 0
      oam := Vector.replicate 160 0
      tileRows := TileRows.blank
      mode := .oamScan
      clock := 0
      ly := 0
      lyc := 0
      stat := 0
      control := ⟨0⟩
      scy := 0
      scx := 0
      wy := 0
      wx := 0
      bgp := 0
      obp0 := 0
      obp1 := 0
      shades := shades
      back := Raster.filled 160 144 ⟨0, 0, 0, 0⟩
      front := Raster.filled 160 144 ⟨0, 0, 0, 0⟩
      tileSheet := Raster.filled 128 192 ⟨0, 0, 0, 0⟩
      backgroundMap := Raster.filled 256 256 ⟨0, 0, 0, 0⟩ }
  indices := Vector.replicate 160 0
  bgpColors := shades.under 0
  obp0Colors := shades.under 0
  obp1Colors := shades.under 0

/-- Reset the unit, decode the palettes that this stores and clear the indices. -/
def reset (unit : VideoUnit) : VideoUnit :=
  { unit with
    video := unit.video.reset
    indices := Vector.replicate 160 0
    bgpColors := unit.video.shades.under 0xFC
    obp0Colors := unit.video.shades.under 0
    obp1Colors := unit.video.shades.under 0 }

def new (shades : Shades) : VideoUnit :=
  (unstarted shades).reset

/-- Change what can be seen. -/
def mapVideo (unit : VideoUnit) (change : Video -> Video) : VideoUnit :=
  { unit with video := change unit.video }

/-- Store into a register, and decode it if it is a palette. -/
def writeRegister (unit : VideoUnit) (register : VideoRegister) (byte : UInt8) :
    VideoUnit × UInt8 :=
  let written := unit.video.writeRegister register byte
  let colors := unit.video.shades.under byte
  match register with
  | .bgp => ({ unit with video := written.1, bgpColors := colors }, written.2)
  | .obp0 => ({ unit with video := written.1, obp0Colors := colors }, written.2)
  | .obp1 => ({ unit with video := written.1, obp1Colors := colors }, written.2)
  | _ => ({ unit with video := written.1 }, written.2)

/-! ## Pictures -/

/-- Paint a sprite over a line in the decoded colours of its palette. -/
def paintSprite (unit : VideoUnit) (indices : IndexLine) (sprite : Sprite) (line : ColorLine) :
    ColorLine :=
  if sprite.covers unit.video.control.spriteHeight unit.video.ly.toNat then
    let palette := if sprite.secondPalette then unit.obp1Colors else unit.obp0Colors
    (List.finRange 8).foldl (unit.video.paintColumn indices palette sprite) line
  else line

/-- Put the line that is drawn into the picture that is composed, and keep its
indices. -/
def drawLine (unit : VideoUnit) : VideoUnit :=
  let indices := unit.video.indexLine
  let layers : ColorLine := indices.map unit.bgpColors.get
  let line :=
    if unit.video.control.spritesShown then
      unit.video.sprites.foldr (unit.paintSprite indices) layers
    else layers
  { unit with
    video := { unit.video with back := unit.video.back.setIfInBounds unit.video.ly.toNat line }
    indices := indices }

theorem sheetTile_lt (y : Fin 192) (x : Fin 128) : y.val / 8 * 16 + x.val / 8 < 384 := by
  omega

/-- A video unit with both views of its memory painted in some colours. -/
def paintViews (colors : Vector Color 4) (video : Video) : Video :=
  { video with
    tileSheet :=
      Vector.ofFn fun (y : Fin 192) => Vector.ofFn fun (x : Fin 128) =>
        colors.get (video.tileRows.pixel ⟨y.val / 8 * 16 + x.val / 8, sheetTile_lt y x⟩
          (Fin.ofNat 8 y.val) (Fin.ofNat 8 x.val))
    backgroundMap :=
      Vector.ofFn fun (y : Fin 256) => Vector.ofFn fun (x : Fin 256) =>
        colors.get (video.mapPixel video.control.backgroundUpperMap (UInt8.ofNat x.val)
          (UInt8.ofNat y.val)) }

def refreshViews (unit : VideoUnit) : VideoUnit :=
  unit.mapVideo (paintViews unit.bgpColors)

/-! ## Time -/

/-- Draw a line and go on to the pause behind it. -/
def finishDrawing (unit : VideoUnit) : VideoUnit × UInt8 :=
  let request := unit.video.requestIf Video.hblankSwitch
  let drawn := unit.drawLine.mapVideo fun video => video.setMode .hblank
  (if drawn.video.ly + 1 = Video.vblankLine then drawn.refreshViews else drawn, request)

/-- Go on to the mode that follows.  Only the end of a drawn line composes
anything. -/
def finishMode (unit : VideoUnit) : VideoUnit × UInt8 :=
  if unit.video.mode = .drawing then unit.finishDrawing
  else ({ unit with video := unit.video.finishMode.1 }, unit.video.finishMode.2)

/-- Go through the modes until the given clock falls within one. -/
def runClock (unit : VideoUnit) (clock : Nat) (requests : UInt8) : VideoUnit × UInt8 :=
  if unit.video.mode.duration <= clock then
    let finished := unit.finishMode
    runClock finished.1 (clock - unit.video.mode.duration) (requests ||| finished.2)
  else (unit.mapVideo fun video => { video with clock := clock }, requests)
termination_by clock
decreasing_by
  have positive := unit.video.mode.duration_pos
  omega

def step (unit : VideoUnit) (cycles : Nat) : VideoUnit × UInt8 :=
  if unit.video.control.isOn then
    let clock := unit.video.clock + cycles
    let compared := unit.video.compareLine
    runClock { unit with video := compared.1 } clock compared.2
  else (unit, 0)

/-! ## Decoded palettes -/

/-- The unit that shows this, with the palettes of its registers. -/
def ofVideo (video : Video) (indices : IndexLine) : VideoUnit where
  video := video
  indices := indices
  bgpColors := video.shades.under video.bgp
  obp0Colors := video.shades.under video.obp0
  obp1Colors := video.shades.under video.obp1

@[simp] theorem video_ofVideo (video : Video) (indices : IndexLine) :
    (ofVideo video indices).video = video :=
  rfl

theorem reset_eq (unit : VideoUnit) :
    unit.reset = ofVideo unit.video.reset (Vector.replicate 160 0) :=
  rfl

theorem new_eq (shades : Shades) :
    new shades = ofVideo (Video.initial shades) (Vector.replicate 160 0) :=
  congrArg (ofVideo · _) (Video.reset_eq _)

/-- A comparison of lines leaves the palettes alone. -/
theorem compareLine_ofVideo (video : Video) (indices : IndexLine) :
    { ofVideo video indices with video := video.compareLine.1 } =
      ofVideo video.compareLine.1 indices := by
  rw [Video.compareLine_eq]
  rfl

theorem writeRegister_ofVideo (video : Video) (indices : IndexLine) (register : VideoRegister)
    (byte : UInt8) :
    (ofVideo video indices).writeRegister register byte =
      (ofVideo (video.writeRegister register byte).1 indices,
        (video.writeRegister register byte).2) := by
  cases register with
  | lcdc =>
      have kept : { ofVideo video indices with video := video.writeControl byte } =
          ofVideo (video.writeControl byte) indices := by
        rw [Video.writeControl]
        split <;> rfl
      exact congrArg (·, 0) kept
  | stat =>
      let stored := { video with stat := (byte &&& 0x78) ||| (video.stat &&& 0x07) }
      exact congrArg (·, stored.compareLine.2) (compareLine_ofVideo stored indices)
  | lyc =>
      let stored := { video with lyc := byte }
      exact congrArg (·, stored.compareLine.2) (compareLine_ofVideo stored indices)
  | _ => rfl

section Pictures

variable (video : Video) (indices : IndexLine)

theorem paintSprite_ofVideo : (ofVideo video indices).paintSprite = video.paintSprite := by
  funext layers sprite line
  rw [paintSprite, Video.paintSprite]
  cases sprite.secondPalette <;> rfl

theorem drawLine_ofVideo :
    (ofVideo video indices).drawLine = ofVideo video.drawLine video.indexLine := by
  rw [drawLine, paintSprite_ofVideo]
  rfl

theorem finishDrawing_ofVideo :
    (ofVideo video indices).finishDrawing =
      (ofVideo video.finishDrawing.1 video.indexLine, video.finishDrawing.2) := by
  rw [finishDrawing, drawLine_ofVideo, Video.finishDrawing]
  change (if (video.drawLine.setMode .hblank).ly + 1 = Video.vblankLine then _ else _, _) = _
  dsimp only
  split <;> rfl

/-- A mode ends as if nothing had been kept, but for the indices of a line that was
drawn. -/
theorem exists_finishMode_ofVideo :
    ∃ last, (ofVideo video indices).finishMode =
      (ofVideo video.finishMode.1 last, video.finishMode.2) := by
  by_cases drawing : video.mode = .drawing
  · refine ⟨video.indexLine, ?_⟩
    rw [finishMode, video_ofVideo, if_pos drawing, finishDrawing_ofVideo, Video.finishMode, drawing]
  · refine ⟨indices, ?_⟩
    rcases video.exists_finishMode_eq with ⟨mode, ly, stat, back, front, sheet, map, after⟩
    have kept : { ofVideo video indices with video := video.finishMode.1 } =
        ofVideo video.finishMode.1 indices := by
      rw [after]
      rfl
    rw [finishMode, video_ofVideo, if_neg drawing]
    exact congrArg (·, video.finishMode.2) kept

theorem exists_runClock_ofVideo (clock : Nat) (requests : UInt8) :
    ∃ last, (ofVideo video indices).runClock clock requests =
      (ofVideo (video.runClock clock requests).1 last, (video.runClock clock requests).2) := by
  fun_induction Video.runClock video clock requests generalizing indices with
  | case1 video clock requests due finished inductionHypothesis =>
      rcases exists_finishMode_ofVideo video indices with ⟨between, ended⟩
      rw [runClock, video_ofVideo, if_pos due, ended]
      exact inductionHypothesis between
  | case2 video clock requests within =>
      rw [runClock, video_ofVideo, if_neg within]
      exact ⟨indices, rfl⟩

/-- Time passes as if nothing had been kept. -/
theorem exists_step_ofVideo (cycles : Nat) :
    ∃ last, (ofVideo video indices).step cycles =
      (ofVideo (video.step cycles).1 last, (video.step cycles).2) := by
  rw [step, Video.step, video_ofVideo]
  split
  · dsimp only
    rw [compareLine_ofVideo]
    exact exists_runClock_ofVideo video.compareLine.1 indices _ _
  · exact ⟨indices, rfl⟩

end Pictures

end VideoUnit

end Dmg
