import BtClock.Coding.BitString
import Mathlib.Algebra.Order.Group.Int
import Mathlib.Data.Set.Function

/-!
# The pixels of a rotated panel

A pixel is given in the coordinates of the rotated picture.  The rotation takes it to a pixel of
the panel, and the row and the column of that one say which bit of the framebuffer it is.
-/

namespace BtClock

namespace Fonts

inductive Rotation
  | k0
  | k90Cw
  | k180
  | k90Ccw
  deriving DecidableEq, Repr

/-- A framebuffer which holds the rows of the panel. -/
structure LandscapeFb where
  nativeFb : List UInt8
  nativeStride : ℤ
  nativeWidth : ℤ
  nativeHeight : ℤ
  rotation : Rotation := .k180
  width_pos : 1 ≤ nativeWidth
  height_pos : 1 ≤ nativeHeight
  covers : nativeWidth ≤ nativeStride * 8
  holds : nativeStride * nativeHeight ≤ nativeFb.length

/-- A column and a row. -/
abbrev Pixel := ℤ × ℤ

def rotateLogicalToNative (p : Pixel) (nw nh : ℤ) : Rotation → Pixel
  | .k0 => (p.1, p.2)
  | .k90Cw => (nw - 1 - p.2, p.1)
  | .k180 => (nw - 1 - p.1, nh - 1 - p.2)
  | .k90Ccw => (p.2, nh - 1 - p.1)

namespace LandscapeFb

def logicalWidth (fb : LandscapeFb) : ℤ :=
  if fb.rotation = .k0 ∨ fb.rotation = .k180 then fb.nativeWidth else fb.nativeHeight

def logicalHeight (fb : LandscapeFb) : ℤ :=
  if fb.rotation = .k0 ∨ fb.rotation = .k180 then fb.nativeHeight else fb.nativeWidth

/-- The pixel of the panel. -/
def native (fb : LandscapeFb) (p : Pixel) : Pixel :=
  rotateLogicalToNative p fb.nativeWidth fb.nativeHeight fb.rotation

/-- `ny * native_stride + (nx >> 3)` -/
def byteIdx (fb : LandscapeFb) (p : Pixel) : ℤ :=
  (fb.native p).2 * fb.nativeStride + (fb.native p).1 / 8

/-- `nx & 7` -/
def bitIdx (fb : LandscapeFb) (p : Pixel) : ℕ :=
  ((fb.native p).1 % 8).toNat

def setPixelLandscape (fb : LandscapeFb) (p : Pixel) (white : Bool) : LandscapeFb :=
  if p.1 < 0 ∨ fb.logicalWidth ≤ p.1 then fb
  else if p.2 < 0 ∨ fb.logicalHeight ≤ p.2 then fb
  else
    { fb with
      nativeFb := BitString.set fb.nativeFb (fb.byteIdx p).toNat (fb.bitIdx p) white
      holds := by rw [BitString.length_set]; exact fb.holds }

/-- The pixels of the rotated picture. -/
def logicalPixels (fb : LandscapeFb) : Set Pixel :=
  { p | 0 ≤ p.1 ∧ p.1 < fb.logicalWidth ∧ 0 ≤ p.2 ∧ p.2 < fb.logicalHeight }

/-- The pixels of the panel. -/
def nativePixels (fb : LandscapeFb) : Set Pixel :=
  { p | 0 ≤ p.1 ∧ p.1 < fb.nativeWidth ∧ 0 ≤ p.2 ∧ p.2 < fb.nativeHeight }

/-- The bit of the framebuffer which is written for a pixel. -/
def bitOf (fb : LandscapeFb) (p : Pixel) : ℤ × ℕ :=
  (fb.byteIdx p, fb.bitIdx p)

end LandscapeFb

theorem rotate_k90Ccw_k90Cw (p : Pixel) (nw nh : ℤ) :
    rotateLogicalToNative (rotateLogicalToNative p nw nh .k90Cw) nh nw .k90Ccw = p := by
  obtain ⟨x, y⟩ := p
  simp [rotateLogicalToNative]

theorem rotate_k90Cw_k90Ccw (p : Pixel) (nw nh : ℤ) :
    rotateLogicalToNative (rotateLogicalToNative p nh nw .k90Ccw) nw nh .k90Cw = p := by
  obtain ⟨x, y⟩ := p
  simp [rotateLogicalToNative]

namespace LandscapeFb

variable (fb : LandscapeFb)

/-- The pixel of the rotated picture for a pixel of the panel. -/
def logical (p : Pixel) : Pixel :=
  match fb.rotation with
  | .k0 => p
  | .k90Cw => (p.2, fb.nativeWidth - 1 - p.1)
  | .k180 => (fb.nativeWidth - 1 - p.1, fb.nativeHeight - 1 - p.2)
  | .k90Ccw => (fb.nativeHeight - 1 - p.2, p.1)

theorem native_logical (p : Pixel) : fb.native (fb.logical p) = p := by
  obtain ⟨x, y⟩ := p
  rw [native, logical]
  cases fb.rotation <;> simp [rotateLogicalToNative]

theorem logical_native (p : Pixel) : fb.logical (fb.native p) = p := by
  obtain ⟨x, y⟩ := p
  rw [native, logical]
  cases fb.rotation <;> simp [rotateLogicalToNative]

theorem native_mem_iff (p : Pixel) : fb.native p ∈ fb.nativePixels ↔ p ∈ fb.logicalPixels := by
  obtain ⟨x, y⟩ := p
  simp only [nativePixels, logicalPixels, Set.mem_ofPred_eq, native, logicalWidth, logicalHeight]
  cases fb.rotation <;> simp only [rotateLogicalToNative] <;> simp <;> omega

/-- Every pixel of the panel is the image of exactly one pixel of the picture. -/
theorem bijOn_native : Set.BijOn fb.native fb.logicalPixels fb.nativePixels := by
  have hinverse : Set.InvOn fb.logical fb.native fb.logicalPixels fb.nativePixels :=
    ⟨fun p _ => fb.logical_native p, fun p _ => fb.native_logical p⟩
  refine hinverse.bijOn (fun p hp => (fb.native_mem_iff p).mpr hp) fun p hp => ?_
  rw [← fb.native_mem_iff, fb.native_logical]
  exact hp

theorem stride_pos : 0 < fb.nativeStride := by
  have hwidth := fb.width_pos
  have hcovers := fb.covers
  omega

variable {fb} {p q : Pixel}

/-- The byte is one of the rows of the panel. -/
theorem byteIdx_bounds (hp : p ∈ fb.logicalPixels) :
    0 ≤ fb.byteIdx p ∧ fb.byteIdx p < fb.nativeStride * fb.nativeHeight := by
  obtain ⟨hx, hxlt, hy, hylt⟩ := (fb.native_mem_iff p).mpr hp
  have hstride := fb.stride_pos
  have hcovers := fb.covers
  have hcolumn : (fb.native p).1 / 8 < fb.nativeStride := by omega
  have hrow : (fb.native p).2 * fb.nativeStride ≤ (fb.nativeHeight - 1) * fb.nativeStride :=
    Int.mul_le_mul_of_nonneg_right (by omega) hstride.le
  have hlast : (fb.nativeHeight - 1) * fb.nativeStride =
      fb.nativeStride * fb.nativeHeight - fb.nativeStride := by
    rw [Int.sub_mul, Int.one_mul, Int.mul_comm]
  have hrowNonneg : 0 ≤ (fb.native p).2 * fb.nativeStride := Int.mul_nonneg hy hstride.le
  rw [byteIdx]
  omega

theorem bitIdx_lt (fb : LandscapeFb) (p : Pixel) : fb.bitIdx p < 8 := by
  rw [bitIdx]
  omega

/-- Distinct pixels are distinct bits. -/
theorem injOn_bitOf : Set.InjOn fb.bitOf fb.logicalPixels := by
  intro p hp q hq heq
  obtain ⟨hx, hxlt, hy, hylt⟩ := (fb.native_mem_iff p).mpr hp
  obtain ⟨hx', hxlt', hy', hylt'⟩ := (fb.native_mem_iff q).mpr hq
  have hstride := fb.stride_pos
  have hcovers := fb.covers
  have hbyte : fb.byteIdx p = fb.byteIdx q := congrArg Prod.fst heq
  have hbit : fb.bitIdx p = fb.bitIdx q := congrArg Prod.snd heq
  have hrow : ∀ r, 0 ≤ (fb.native r).1 → (fb.native r).1 < fb.nativeWidth →
      fb.byteIdx r / fb.nativeStride = (fb.native r).2 := by
    intro r hr hrlt
    rw [byteIdx, Int.add_comm, Int.add_mul_ediv_right _ _ hstride.ne',
      Int.ediv_eq_zero_of_lt (by omega) (by omega), Int.zero_add]
  have hsecond : (fb.native p).2 = (fb.native q).2 := by
    rw [← hrow p hx hxlt, hbyte, hrow q hx' hxlt']
  have hcolumn : (fb.native p).1 / 8 = (fb.native q).1 / 8 := by
    rw [byteIdx, byteIdx, hsecond] at hbyte
    omega
  have hfirst : (fb.native p).1 = (fb.native q).1 := by
    rw [bitIdx, bitIdx] at hbit
    omega
  exact fb.bijOn_native.injOn hp hq (Prod.ext hfirst hsecond)

theorem setPixel_of_mem (hp : p ∈ fb.logicalPixels) (white : Bool) :
    (fb.setPixelLandscape p white).nativeFb =
      BitString.set fb.nativeFb (fb.byteIdx p).toNat (fb.bitIdx p) white := by
  obtain ⟨hx, hxlt, hy, hylt⟩ := hp
  rw [setPixelLandscape, if_neg (by omega), if_neg (by omega)]

theorem setPixel_of_notMem (hp : p ∉ fb.logicalPixels) (white : Bool) :
    fb.setPixelLandscape p white = fb := by
  rw [setPixelLandscape]
  split_ifs with hx hy
  · rfl
  · rfl
  · refine absurd ⟨?_, ?_, ?_, ?_⟩ hp <;> omega

/-- The pixels of the picture are the pixels of the panel, each of them is a bit of its own, and
to set one is to set its bit. -/
theorem setPixelLandscape_bijection (fb : LandscapeFb) :
    Set.BijOn fb.native fb.logicalPixels fb.nativePixels ∧
      Set.InjOn fb.bitOf fb.logicalPixels ∧
      (∀ p ∈ fb.logicalPixels, 0 ≤ fb.byteIdx p ∧
        fb.byteIdx p < fb.nativeStride * fb.nativeHeight ∧ fb.bitIdx p < 8) ∧
      (∀ p ∈ fb.logicalPixels, ∀ white,
        (fb.setPixelLandscape p white).nativeFb.length = fb.nativeFb.length ∧
          BitString.get (fb.setPixelLandscape p white).nativeFb (fb.byteIdx p).toNat
            (fb.bitIdx p) = white ∧
          ∀ i j, j < 8 → (i, j) ≠ ((fb.byteIdx p).toNat, fb.bitIdx p) →
            BitString.get (fb.setPixelLandscape p white).nativeFb i j =
              BitString.get fb.nativeFb i j) ∧
      (∀ p ∉ fb.logicalPixels, ∀ white, fb.setPixelLandscape p white = fb) ∧
      ∀ p nw nh,
        rotateLogicalToNative (rotateLogicalToNative p nw nh .k90Cw) nh nw .k90Ccw = p ∧
          rotateLogicalToNative (rotateLogicalToNative p nh nw .k90Ccw) nw nh .k90Cw = p := by
  refine ⟨fb.bijOn_native, injOn_bitOf, fun p hp => ?_, fun p hp white => ?_,
    fun p hp white => setPixel_of_notMem hp white,
    fun p nw nh => ⟨rotate_k90Ccw_k90Cw p nw nh, rotate_k90Cw_k90Ccw p nw nh⟩⟩
  · obtain ⟨hge, hlt⟩ := byteIdx_bounds hp
    exact ⟨hge, hlt, bitIdx_lt fb p⟩
  · obtain ⟨hge, hlt⟩ := byteIdx_bounds hp
    have hholds := fb.holds
    have hinside : (fb.byteIdx p).toNat < fb.nativeFb.length := by omega
    have hbit := bitIdx_lt fb p
    rw [setPixel_of_mem hp]
    exact ⟨BitString.length_set _ _ _ _, BitString.get_set_self hinside hbit white,
      fun i j hj hne => BitString.get_set_of_ne hinside hbit hj hne white⟩

end LandscapeFb

end Fonts

end BtClock
