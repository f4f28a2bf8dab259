import Panadapter.Decimal.Binary
import Panadapter.DeviceError
import Panadapter.Transport.Config
import Panadapter.Transport.Pacer

/-! # A synthetic tone

The tone is a point that turns around a circle by the same angle from sample to sample. A buffer holds as many groups of
`stride` words as fit; every pair of words in a group carries the same sample, and an odd word is zero.

* `Circle`: where the point is at an angle.
* `wrapTurn`: an angle within one turn.
* `Tone.open?`, `Tone.start`, `Tone.poll`, `Tone.stop`: a generator.
-/

namespace Panadapter

/-- The ratio of a circle's circumference to its diameter. -/
def pi : Float := 3.14159265358979323846

/-- One turn. -/
def turn : Float := 2 * pi

/-- What is left of `x` after as many whole times `y` as fit, with the sign of `x`. Both are whole multiples of the last
place of `y` when `x` is not the smaller one, so nothing is lost. -/
def remainder (x y : Float) : Float :=
  if x.abs < y then x
  else
    match Decimal.Reading.ofFloat x, Decimal.Reading.ofFloat y with
    | .finite negative m e _, .finite false n f _ =>
      (Decimal.Reading.finite negative (m <<< (e - f).toNat % n) f false).toFloat
    | _, _ => 0.0 / 0.0

/-- An angle within one turn, from zero on. -/
def wrapTurn (x : Float) : Float :=
  let rest := remainder x turn
  if rest < 0 then rest + turn else rest

/-- The two coordinates of a point on the unit circle, each computed from the angle. -/
structure Circle where
  cos : Float → Float
  sin : Float → Float

/-- The circle as the machine computes it. -/
def Circle.usual : Circle := ⟨Float.cos, Float.sin⟩

/-- The largest value of a 12-bit sample. -/
def toneFullScale : Float := 2047

/-- A generator: where it stands on its circle, and whether it delivers. -/
structure Tone where
  device : String
  stride : Nat
  amplitude : Float
  step : Float
  phase : Float
  armed : Bool
  pacer : Pacer

namespace Tone

/-- A number cut to the unit interval; what is no number stays so. -/
def clampUnit (x : Float) : Float := if x < 0 then 0 else if 1 < x then 1 else x

/-- A generator for a configuration, at the rate of its samples if it is paced. A group needs two words, and a rate has
to be finite and one sample a second at least. -/
def open? (c : ToneConfig) (paced : Bool) : Except DeviceError Tone :=
  if c.stride < 2 then
    .error (.invalidConfig ("tone stride must be at least 2 (got " ++ toString c.stride ++ ")"))
  else if !(c.sampleRate.isFinite && c.sampleRate ≥ 1) then
    .error (.invalidConfig
      ("tone sample rate must be at least 1 S/s (got " ++ Decimal.textOfFloat c.sampleRate ++ ")"))
  else
    .ok {
      device := "tone:" ++ Decimal.textOfFloat c.frequency ++ "Hz"
      stride := c.stride
      amplitude := clampUnit c.amplitude
      step := turn * c.frequency / c.sampleRate
      phase := 0
      armed := false
      pacer := if paced then .ofRate (dmaBufferWords / c.stride) c.sampleRate else .unpaced }

/-- The generator from the beginning of its tone. -/
def start (t : Tone) (now : Nat) : Tone := { t with phase := 0, armed := true, pacer := t.pacer.restart now }

/-- The generator at rest. -/
def stop (t : Tone) : Tone := { t with armed := false }

/-- A coordinate of the point as a word: scaled, without its fraction, zero if it is no number. -/
def word (t : Tone) (coordinate : Float) : Int16 :=
  Int16.ofInt ((Decimal.Reading.ofFloat (coordinate * t.amplitude * toneFullScale)).truncate (-32768) 32767)

/-- The words of one group. -/
def group (circle : Circle) (t : Tone) (phase : Float) : List Int16 :=
  let pair := [t.word (circle.cos phase), t.word (circle.sin phase)]
  (List.replicate (t.stride / 2) pair).flatten ++ List.replicate (t.stride % 2) 0

/-- The words of so many groups from a phase on, and the phase after them. -/
def groups (circle : Circle) (t : Tone) : Nat → Float → List Int16 × Float
  | 0, phase => ([], phase)
  | n + 1, phase =>
    let (words, last) := groups circle t n (wrapTurn (phase + t.step))
    (t.group circle phase ++ words, last)

/-- The next buffer on a circle, if one is due. -/
def pollOn (circle : Circle) (t : Tone) (now : Nat) : Option (Array Int16) × Tone :=
  if !t.armed then (none, t)
  else
    match t.pacer.release now with
    | (false, pacer) => (none, { t with pacer })
    | (true, pacer) =>
      let (words, phase) := t.groups circle (dmaBufferWords / t.stride) t.phase
      (some words.toArray, { t with pacer, phase })

/-- The next buffer, if one is due. -/
def poll (t : Tone) (now : Nat) : Option (Array Int16) × Tone := t.pollOn .usual now

end Tone

end Panadapter
