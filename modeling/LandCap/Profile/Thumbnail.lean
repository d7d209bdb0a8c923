import Mathlib.Data.Rat.Floor
import LandCap.Library.Spans

/-!
# Thumbnails

The cells of the profile screen show photos through `cropToBounds`, which cuts a square out of the
middle of a bitmap: its sides are as long as the shorter side of the bitmap.  The two arguments play
no part in this, since both branches replace them.

If the sides of the bitmap differ by an odd number, the square begins in the middle of a pixel.
`cropping(to:)` works with whole pixels and enlarges it to its hull, so the thumbnail is one pixel
too long (`cropToBounds_eq`).  It is the square that was meant exactly for bitmaps whose sides have
the same parity (`cropToBounds_square_iff`).

A `CGFloat` is a rational number here: what is computed from the sizes of a bitmap are integers and
halves of integers, which a floating point number holds exactly.
-/

set_option autoImplicit false

namespace LandCap

open Spans

variable {Pixel : Type}

/-! ## Bitmaps -/

/-- `CGRect`. -/
structure CGRect where
  x : ℚ
  y : ℚ
  width : ℚ
  height : ℚ

/-- From the left side to the right side. -/
def CGRect.columns (rect : CGRect) : Span ℚ := ⟨rect.x, rect.x + rect.width⟩

/-- From the top to the bottom. -/
def CGRect.rows (rect : CGRect) : Span ℚ := ⟨rect.y, rect.y + rect.height⟩

/-- `CGImage`: a bitmap, with the pixel in each column and row. -/
structure CGImage (Pixel : Type) where
  width : ℕ
  height : ℕ
  pixel : ℕ → ℕ → Pixel

/-- The pixels from a column and a row on. -/
def CGImage.part (image : CGImage Pixel) (left top width height : ℕ) : CGImage Pixel where
  width := width
  height := height
  pixel column row := image.pixel (left + column) (top + row)

/-- `cropping(to:)`: the rectangle is enlarged to whole pixels and cut off at the sides of the
bitmap, and there is no image when nothing is left of it. -/
def CGImage.cropping (image : CGImage Pixel) (rect : CGRect) : Option (CGImage Pixel) :=
  let columns := rect.columns.hull.inter ⟨0, image.width⟩
  let rows := rect.rows.hull.inter ⟨0, image.height⟩
  if columns.lo < columns.hi ∧ rows.lo < rows.hi then
    some (image.part columns.lo.toNat rows.lo.toNat (columns.hi - columns.lo).toNat
      (rows.hi - rows.lo).toNat)
  else none

/-- `UIImageOrientation`. -/
inductive Orientation where
  | up | down | left | right | upMirrored | downMirrored | leftMirrored | rightMirrored

/-- `UIImage`. -/
structure UIImage (Pixel : Type) where
  cgImage : Option (CGImage Pixel)
  scale : ℚ
  imageOrientation : Orientation

/-- The rectangle `cropToBounds` makes for an image of this size. -/
def boundsOf (contextWidth contextHeight width height : ℚ) : CGRect :=
  let rect : CGRect := { x := 0, y := 0, width := width, height := height }
  if contextWidth > contextHeight then
    { rect with
      x := (contextWidth - contextHeight) / 2
      y := 0
      width := contextHeight
      height := contextHeight }
  else
    { rect with
      x := 0
      y := (contextHeight - contextWidth) / 2
      width := contextWidth
      height := contextWidth }

/-- `cropToBounds`; `none` when an optional that is unwrapped is nil. -/
def UIImage.cropToBounds (image : UIImage Pixel) (width height : ℚ) : Option (UIImage Pixel) := do
  let cgimage ← image.cgImage
  let rect := boundsOf cgimage.width cgimage.height width height
  let imageRef ← cgimage.cropping rect
  return { cgImage := some imageRef, scale := image.scale
           imageOrientation := image.imageOrientation }

/-! ## The square in the middle -/

/-- The margins on both sides of a part of this length are the same, up to one pixel. -/
structure Centred (start length total : ℕ) : Prop where
  inside : start + length ≤ total
  before : start ≤ total - (start + length) + 1
  after : total - (start + length) ≤ start + 1

/-- `crop` is the square in the middle of the bitmap. -/
def IsCentredSquare (bitmap crop : CGImage Pixel) : Prop :=
  ∃ left top, crop = bitmap.part left top (min bitmap.width bitmap.height)
      (min bitmap.width bitmap.height) ∧
    Centred left (min bitmap.width bitmap.height) bitmap.width ∧
    Centred top (min bitmap.width bitmap.height) bitmap.height

/-- The rectangle stands in the middle of the bitmap, in both directions. -/
theorem boundsOf_eq (w h : ℕ) (width height : ℚ) :
    (boundsOf w h width height).columns = .middle ℚ w (min w h) ∧
      (boundsOf w h width height).rows = .middle ℚ h (min w h) := by
  rw [boundsOf]
  split
  · rename_i hlt
    rw [gt_iff_lt, Nat.cast_lt] at hlt
    rw [min_eq_right hlt.le]
    simp [CGRect.columns, CGRect.rows, Span.middle]
  · rename_i hle
    rw [gt_iff_lt, Nat.cast_lt, not_lt] at hle
    rw [min_eq_left hle]
    simp [CGRect.columns, CGRect.rows, Span.middle]

/-- The whole pixels of the middle: it lies within the bitmap, so its hull does. -/
theorem hull_inter (n m : ℕ) (h : m ≤ n) :
    (Span.middle ℚ n m).hull.inter ⟨0, n⟩ = ⟨((n - m) / 2 : ℕ), (n - (n - m) / 2 : ℕ)⟩ := by
  have hle : (m : ℚ) ≤ n := Nat.cast_le.mpr h
  have hwithin : (Span.middle ℚ n m).hull.Within ⟨0, n⟩ := by
    rw [Span.hull_within_iff, Span.Within, Span.middle]
    push_cast
    constructor <;> linarith
  rw [Span.inter_of_within hwithin, Span.hull_middle h]

/-- The part of the bitmap that is cut out: the same margin is left on both sides. -/
def middlePart (bitmap : CGImage Pixel) : CGImage Pixel :=
  let left := (bitmap.width - min bitmap.width bitmap.height) / 2
  let top := (bitmap.height - min bitmap.width bitmap.height) / 2
  bitmap.part left top (bitmap.width - 2 * left) (bitmap.height - 2 * top)

/-- **`cropToBounds` always succeeds.**  What it cuts out is one pixel longer than it is meant to be
when the sides differ by an odd number. -/
theorem cropToBounds_eq {image : UIImage Pixel} {bitmap : CGImage Pixel}
    (himage : image.cgImage = some bitmap) (hwidth : 1 ≤ bitmap.width)
    (hheight : 1 ≤ bitmap.height) (width height : ℚ) :
    image.cropToBounds width height
      = some { image with cgImage := some (middlePart bitmap) } := by
  obtain ⟨hcolumns, hrows⟩ := boundsOf_eq bitmap.width bitmap.height width height
  have hcrop : bitmap.cropping (boundsOf bitmap.width bitmap.height width height)
      = some (middlePart bitmap) := by
    rw [CGImage.cropping, hcolumns, hrows, hull_inter _ _ (min_le_left _ _),
      hull_inter _ _ (min_le_right _ _), middlePart]
    set left := (bitmap.width - min bitmap.width bitmap.height) / 2 with hleft
    set top := (bitmap.height - min bitmap.width bitmap.height) / 2 with htop
    have hcolumn : 2 * left < bitmap.width := by omega
    have hrow : 2 * top < bitmap.height := by omega
    have hsize : (((bitmap.width - left : ℕ) : ℤ) - (left : ℤ)).toNat
        = bitmap.width - 2 * left := by omega
    have hsize' : (((bitmap.height - top : ℕ) : ℤ) - (top : ℤ)).toNat
        = bitmap.height - 2 * top := by omega
    simp only [Int.toNat_natCast, hsize, hsize']
    exact if_pos ⟨by omega, by omega⟩
  simp only [UIImage.cropToBounds, himage, Option.bind_eq_bind, Option.bind_some, hcrop]
  rfl

/-- **The thumbnail is the square in the middle** of the bitmap exactly if the sides of the bitmap
have the same parity. -/
theorem cropToBounds_square_iff {image : UIImage Pixel} {bitmap : CGImage Pixel}
    (himage : image.cgImage = some bitmap) (hwidth : 1 ≤ bitmap.width)
    (hheight : 1 ≤ bitmap.height) (width height : ℚ) :
    (∃ cropped crop, image.cropToBounds width height = some cropped ∧
      cropped.cgImage = some crop ∧ IsCentredSquare bitmap crop) ↔
      bitmap.width % 2 = bitmap.height % 2 := by
  rw [cropToBounds_eq himage hwidth hheight]
  constructor
  · rintro ⟨cropped, crop, hcropped, hcrop, left, top, hpart, -, -⟩
    obtain rfl := Option.some.inj hcropped
    obtain rfl := Option.some.inj hcrop
    -- both sides of the part are as long as the shorter side of the bitmap
    have hside := congrArg CGImage.width hpart
    have hside' := congrArg CGImage.height hpart
    simp only [middlePart, CGImage.part] at hside hside'
    omega
  · intro hparity
    refine ⟨_, _, rfl, rfl, (bitmap.width - min bitmap.width bitmap.height) / 2,
      (bitmap.height - min bitmap.width bitmap.height) / 2, ?_, ?_, ?_⟩
    · have hside : bitmap.width - 2 * ((bitmap.width - min bitmap.width bitmap.height) / 2)
          = min bitmap.width bitmap.height := by omega
      have hside' : bitmap.height - 2 * ((bitmap.height - min bitmap.width bitmap.height) / 2)
          = min bitmap.width bitmap.height := by omega
      rw [middlePart, hside, hside']
    · exact ⟨by omega, by omega, by omega⟩
    · exact ⟨by omega, by omega, by omega⟩

/-- A photo of four columns and two rows. -/
def evenPhoto : UIImage Unit where
  cgImage := some { width := 4, height := 2, pixel := fun _ _ ↦ () }
  scale := 1
  imageOrientation := .up

theorem cropToBounds_square_evenPhoto : ∃ cropped crop,
    evenPhoto.cropToBounds 100 100 = some cropped ∧ cropped.cgImage = some crop ∧
      IsCentredSquare { width := 4, height := 2, pixel := fun _ _ ↦ () } crop :=
  (cropToBounds_square_iff rfl (by decide) (by decide) 100 100).mpr rfl

/-- **Not every thumbnail is square.**  That of a photo with four columns and three rows has four
columns. -/
theorem not_cropToBounds_square : ¬∀ (image : UIImage Unit) (bitmap : CGImage Unit)
    (width height : ℚ), image.cgImage = some bitmap → 1 ≤ bitmap.width → 1 ≤ bitmap.height →
      ∃ cropped crop, image.cropToBounds width height = some cropped ∧
        cropped.cgImage = some crop ∧ IsCentredSquare bitmap crop := by
  intro h
  obtain ⟨cropped, crop, hcropped, hcrop, left, top, rfl, -, -⟩ :=
    h { cgImage := some { width := 4, height := 3, pixel := fun _ _ ↦ () }, scale := 1
        imageOrientation := .up } _ 100 100 rfl (by decide) (by decide)
  rw [cropToBounds_eq rfl (by decide) (by decide)] at hcropped
  obtain rfl := Option.some.inj hcropped
  have hside : 4 = 3 := congrArg CGImage.width (Option.some.inj hcrop)
  exact absurd hside (by decide)

end LandCap
