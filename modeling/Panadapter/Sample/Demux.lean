import Panadapter.Sample.Queue

/-! # Samples out of words

A buffer of words is cut into groups of `stride` words. The first two words of a group are the two parts of a sample,
divided by a scale; the other words belong to other channels. Words that do not make a whole group are left out.
-/

namespace Panadapter

/-- How samples are laid out in a buffer. -/
structure Demux where
  stride : Nat
  scale : Float32
  two_le : 2 ≤ stride

namespace Demux

/-- A layout with groups of two words at least. -/
def ofStride (stride : Nat) (scale : Float32) : Demux := ⟨max stride 2, scale, by omega⟩

/-- A part of a sample. -/
def part (d : Demux) (word : Int16) : Float32 := Float32.ofInt word.toInt / d.scale

/-- The count of samples in so many words. -/
def count (d : Demux) (words : Nat) : Nat := words / d.stride

/-- Sample `k` of a buffer. -/
def sampleAt (d : Demux) (words : Array Int16) (k : Nat) : Sample :=
  ⟨d.part (words.getD (d.stride * k) 0), d.part (words.getD (d.stride * k + 1) 0)⟩

/-- The samples of a buffer. -/
def samples (d : Demux) (words : Array Int16) : List Sample := (List.range (d.count words.size)).map (d.sampleAt words)

/-- The words of a buffer parted into the two channels. -/
def channels (d : Demux) (words : Array Int16) : Channels :=
  let groups := Array.range (d.count words.size)
  ⟨groups.map fun k => d.part (words.getD (d.stride * k) 0),
    groups.map fun k => d.part (words.getD (d.stride * k + 1) 0)⟩

/-- Both channels get a number from every group. -/
theorem size_eq_channels (d : Demux) (words : Array Int16) :
    (d.channels words).i.size = (d.channels words).q.size := by
  simp [channels]

/-- The numbers of one group stand side by side in the channels. -/
@[simp] theorem toList_channels (d : Demux) (words : Array Int16) : (d.channels words).toList = d.samples words := by
  simp [channels, samples, Channels.toList, sampleAt, List.zipWith_map]

@[simp] theorem length_samples (d : Demux) (words : Array Int16) :
    (d.samples words).length = words.size / d.stride := by
  simp [samples, count]

/-- Both words of every sample are in the buffer. -/
theorem stride_mul_add_one_lt (d : Demux) {words k : Nat} (h : k < d.count words) : d.stride * k + 1 < words := by
  have two := d.two_le
  have : d.stride * (k + 1) ≤ words :=
    Nat.le_trans (Nat.mul_le_mul_left _ h) (Nat.mul_div_le words d.stride)
  rw [Nat.mul_add] at this
  omega

end Demux

end Panadapter
