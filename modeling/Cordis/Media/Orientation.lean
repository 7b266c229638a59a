import Mathlib.Data.List.Nodup
import Mathlib.Data.List.ProdSigma
import Mathlib.Data.Set.Function
import Mathlib.Tactic.IntervalCases

/-! # Orientation and size of the blurhash image

An image is turned by reading, for every point of the new image, the point of the source that the
orientation puts there. The turns from the fifth on swap the sides. Large images are scaled down first.
-/

namespace Cordis.Media

open Set

structure Rectangle where
  minX : ℤ
  minY : ℤ
  maxX : ℤ
  maxY : ℤ

namespace Rectangle

def Contains (bounds : Rectangle) (p : ℤ × ℤ) : Prop :=
  bounds.minX ≤ p.1 ∧ p.1 < bounds.maxX ∧ bounds.minY ≤ p.2 ∧ p.2 < bounds.maxY
deriving Decidable

end Rectangle

structure Image (Color : Type*) where
  bounds : Rectangle
  color : ℤ × ℤ → Color

def Image.set {Color : Type*} (image : Image Color) (p : ℤ × ℤ) (color : Color) : Image Color :=
  if image.bounds.Contains p then { image with color := Function.update image.color p color } else image

section Copy

variable {Color : Type*} (convert : Color → Color) (blank : Color) (src : Image Color) (orientation : ℤ)

end Copy

section Copy

variable {Color : Type*}

end Copy

end Cordis.Media
