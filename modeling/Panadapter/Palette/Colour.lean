import Panadapter.Palette.Basic

/-! # Colours of magnitudes

A magnitude is divided by a reference and cut to the unit interval; each palette is then a piecewise straight path
through the unit cube of red, green and blue, in single precision. A channel is the integer part of 255 times its
value.
-/

namespace Panadapter

/-- A colour of three 8-bit channels. -/
structure Rgb where
  red : UInt8
  green : UInt8
  blue : UInt8
  deriving DecidableEq, Repr, Inhabited

/-- A number cut to the unit interval; what is no number stays so. -/
def clampUnit (x : Float32) : Float32 := if x < 0 then 0 else if 1 < x then 1 else x

/-- The integer part of 255 times a channel value. -/
def channel (x : Float32) : UInt8 := (255 * clampUnit x).toUInt8

/-- The colour at a point of the unit cube. -/
def Rgb.ofUnit (red green blue : Float32) : Rgb := ⟨channel red, channel green, channel blue⟩

/-- The point at `f` on the way from `a` to `b`. -/
def between (a b f : Float32) : Float32 := a + (b - a) * f

/-- The magnitude as a fraction of the reference. Without a usable quotient or a positive reference it is zero. -/
def unitOf (value reference : Float32) : Float32 :=
  let t := value / reference
  clampUnit (if t.isNaN || reference ≤ 0 then 0 else t)

namespace Palette

/-- The colour at a point of the unit interval. -/
def atUnit (p : Palette) (t : Float32) : Rgb :=
  match p with
  | grayscale => .ofUnit t t t
  | rainbow =>
    if t < 0.25 then .ofUnit 0 0 (t / 0.25)
    else if t < 0.5 then
      let f := (t - 0.25) / 0.25
      .ofUnit f 0 (1 - f)
    else if t < 0.75 then .ofUnit 1 ((t - 0.5) / 0.25) 0
    else .ofUnit 1 1 ((t - 0.75) / 0.25)
  | viridis =>
    if t < 0.5 then
      let f := t * 2
      .ofUnit 0 (between 0.1 0.7 f) (between 0.2 0.3 f)
    else
      let f := (t - 0.5) * 2
      .ofUnit (between 0 0.9 f) (between 0.7 0.9 f) (between 0.3 0 f)
  | plasma =>
    if t < 0.5 then
      let f := t * 2
      .ofUnit (between 0.2 1 f) 0 (between 0.3 0 f)
    else .ofUnit 1 ((t - 0.5) * 2) 0
  | magma =>
    if t < 0.3 then
      let f := t / 0.3
      .ofUnit (0.3 * f) 0 (0.1 * f)
    else if t < 0.6 then
      let f := (t - 0.3) / 0.3
      .ofUnit (between 0.3 1 f) (0.4 * f) (between 0.1 0 f)
    else
      let f := (t - 0.6) / 0.4
      .ofUnit 1 (between 0.4 1 f) f

/-- The colour of a magnitude under a reference. -/
def colour (p : Palette) (reference value : Float32) : Rgb := p.atUnit (unitOf value reference)

/-- The colours of a row of magnitudes. -/
def colourRow (p : Palette) (reference : Float32) (row : Array Float32) : Array Rgb := row.map (p.colour reference)

/-- The colours of a row in place of what `out` holds. -/
def colourRowInto (p : Palette) (out : Array Rgb) (reference : Float32) (row : Array Float32) : Array Rgb :=
  out.shrink 0 ++ p.colourRow reference row

end Palette

end Panadapter
