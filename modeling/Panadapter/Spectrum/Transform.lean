import Panadapter.Spectrum.FftLength

/-! # The forward transform

Bin `k` of a signal of `n` points is the sum of its points times the powers of a root of unity. The transform splits a
signal into its points at even and at odd places, and joins the two half spectra with one root for each bin. It is
computed in double precision; the roots are tabulated once for a length.

* `rootsOfUnity`: the table.
* `transformBy`: the transform.
-/

namespace Panadapter

/-- A complex signal, real and imaginary parts apart. -/
structure Signal where
  re : FloatArray
  im : FloatArray

namespace Signal

/-- A number of an array, or zero outside. -/
@[inline] def numberAt (a : FloatArray) (k : Nat) : Float := if h : k < a.size then a.get k h else 0

/-- The signal of `n` points given one by one. -/
def tabulate (n : Nat) (re im : Nat → Float) : Signal :=
  let fill (f : Nat → Float) : FloatArray :=
    n.fold (fun k _ (a : FloatArray) => a.push (f k)) (FloatArray.emptyWithCapacity n)
  ⟨fill re, fill im⟩

/-- Every second of `2 * n` points, from the first or the second on. -/
def everySecond (s : Signal) (n first : Nat) : Signal :=
  tabulate n (fun k => numberAt s.re (2 * k + first)) (fun k => numberAt s.im (2 * k + first))

end Signal

/-- A circle of `2 ^ log` roots of unity, clockwise from one: root `k` is the exponential of `-2 π i k / 2 ^ log`. -/
def rootsOfUnity (log : Nat) : Signal :=
  let n := 1 <<< log
  let angle (k : Nat) : Float := -2 * 3.14159265358979323846 * Float.ofNat k / Float.ofNat n
  Signal.tabulate n (fun k => (angle k).cos) (fun k => (angle k).sin)

/-- The spectra of the even and the odd points joined to `2 * half` bins. Root `k` of the whole circle is root
`stride * k` of the table. -/
def joinHalves (roots : Signal) (stride half : Nat) (even odd : Signal) : Signal :=
  let turnedRe (k : Nat) : Float :=
    Signal.numberAt roots.re (stride * k) * Signal.numberAt odd.re k
      - Signal.numberAt roots.im (stride * k) * Signal.numberAt odd.im k
  let turnedIm (k : Nat) : Float :=
    Signal.numberAt roots.re (stride * k) * Signal.numberAt odd.im k
      + Signal.numberAt roots.im (stride * k) * Signal.numberAt odd.re k
  Signal.tabulate (2 * half)
    (fun k => if k < half then Signal.numberAt even.re k + turnedRe k
      else Signal.numberAt even.re (k - half) - turnedRe (k - half))
    (fun k => if k < half then Signal.numberAt even.im k + turnedIm k
      else Signal.numberAt even.im (k - half) - turnedIm (k - half))

/-- The bins of a signal of `2 ^ log` points. -/
def transformBy (roots : Signal) (stride : Nat) : Nat → Signal → Signal
  | 0, s => s
  | log + 1, s =>
    joinHalves roots stride (1 <<< log)
      (transformBy roots (2 * stride) log (s.everySecond (1 <<< log) 0))
      (transformBy roots (2 * stride) log (s.everySecond (1 <<< log) 1))

end Panadapter
