import CloudPing.Bitmap.Heatmap

/-!
# The geometry of the heatmap

`BitmapPlot` puts the datum at an index in row-major order (`pixel_bitmapPlot`), and
`RGBAImgIntgScaleUpTo` turns every pixel into a square block.  Its four loops are one list of
writes (`scaleInto_eq`), in which all writes to a pixel have the color of the pixel it comes
from and every pixel is written (`mem_writes`).  So what the new image held before does not
matter.

`image.NewRGBA` panics if the bytes of the image are more than an `int` can count, or than `make`
has room for.
-/

namespace CloudPing.Bitmap

/-! ## The source -/

/-- The pixel in column `x` of row `y`. -/
def pixel (img : Image) (x y : Nat) : Option RGBA := img[y]?.bind fun row => row[x]?

/-- `SetRGBA`, which ignores what is outside. -/
def setRGBA (img : Image) (x y : Nat) (c : RGBA) : Image := img.modify y fun row => row.set x c

/-- `image.NewRGBA`, `none` for its panic or that of `make`, which gives a slice of as many bytes
as the runtime has room for. -/
def newRGBA (hasRoom : Nat → Bool) (w h : Nat) : Option Image :=
  if 4 * w * h < 2 ^ 63 ∧ hasRoom (4 * w * h) = true then
    some (List.replicate h (List.replicate w ⟨0, 0, 0, 0⟩))
  else none

/-- `Rect.Dx`. -/
def dx (img : Image) : Nat := (img.head?.getD []).length

/-- `Rect.Dy`. -/
def dy (img : Image) : Nat := img.length

/-- The loops of `RGBAImgIntgScaleUpTo`. -/
def scaleInto (scaled img : Image) (factor : Nat) : Image :=
  (List.range (dy img)).foldl (fun scaled y =>
    (List.range (dx img)).foldl (fun scaled x =>
      (List.range factor).foldl (fun scaled dy =>
        (List.range factor).foldl (fun scaled dx =>
          setRGBA scaled (x * factor + dx) (y * factor + dy)
            ((pixel img x y).getD ⟨0, 0, 0, 0⟩)) scaled) scaled) scaled) scaled

/-- The factor for a maximal length.  The longer side is a power of two, so the division of
`float64` is exact. -/
def scaleFactor (maxL : Nat) (img : Image) : Nat := max 1 (maxL / max (dx img) (dy img))

/-- `RGBAImgIntgScaleUpTo`, `none` for the panic of `image.NewRGBA`. -/
def rgbaImgIntgScaleUpTo (hasRoom : Nat → Bool) (maxL : Nat) (img : Image) : Option Image :=
  let factor := scaleFactor maxL img
  (newRGBA hasRoom (dx img * factor) (dy img * factor)).map fun scaled => scaleInto scaled img factor

/-! ## Images of a size -/

/-- An image of `h` rows with `w` pixels each. -/
structure Sized (img : Image) (w h : Nat) : Prop where
  rows : img.length = h
  cols : ∀ row ∈ img, row.length = w

section Pixels

variable {img : Image} {w h x y X Y : Nat} {c : RGBA}

theorem Sized.dx_eq (hs : Sized img w h) (hh : 0 < h) : dx img = w := by
  cases img with
  | nil =>
    rw [← hs.rows] at hh
    cases hh
  | cons row img => exact hs.cols row List.mem_cons_self

theorem Sized.dy_eq (hs : Sized img w h) : dy img = h := hs.rows

/-- A pixel inside is there. -/
theorem Sized.exists_pixel (hs : Sized img w h) (hx : x < w) (hy : y < h) :
    ∃ c, pixel img x y = some c := by
  obtain ⟨row, hrow⟩ : ∃ row, img[y]? = some row :=
    ⟨_, List.getElem?_eq_getElem (hs.rows.symm ▸ hy)⟩
  have hlen := hs.cols _ (List.mem_of_getElem? hrow)
  rw [pixel, hrow, Option.bind_some, List.getElem?_eq_getElem (hlen ▸ hx)]
  exact ⟨_, rfl⟩

theorem Sized.setRGBA (hs : Sized img w h) (x y : Nat) (c : RGBA) :
    Sized (setRGBA img x y c) w h where
  rows := (List.length_modify _ _ _).trans hs.rows
  cols row hrow := by
    obtain ⟨k, hk⟩ := List.mem_iff_getElem?.1 hrow
    rw [Bitmap.setRGBA, List.getElem?_modify] at hk
    obtain ⟨old, hold, rfl⟩ := Option.map_eq_some_iff.1 hk
    split
    next => rw [List.length_set, hs.cols old (List.mem_of_getElem? hold)]
    next => exact hs.cols old (List.mem_of_getElem? hold)

/-- A write sets its pixel and leaves the others. -/
theorem pixel_setRGBA (img : Image) (x y X Y : Nat) (c : RGBA) :
    pixel (setRGBA img x y c) X Y =
      if x = X ∧ y = Y then (pixel img X Y).map fun _ => c else pixel img X Y := by
  rw [pixel, setRGBA, List.getElem?_modify, pixel]
  cases img[Y]? with
  | none =>
    simp only [Option.map_none, Option.bind_none, ite_self]
    rfl
  | some row =>
    rw [Option.map_eq_map, Option.map_some, Option.bind_some, Option.bind_some]
    by_cases hy : y = Y
    · rw [if_pos hy, List.getElem?_set']
      by_cases hx : x = X
      · rw [if_pos hx, if_pos ⟨hx, hy⟩]
        rfl
      · rw [if_neg hx, if_neg fun hxy => hx hxy.1]
    · rw [if_neg hy, if_neg fun hxy => hy hxy.2]

theorem sized_newRGBA {hasRoom : Nat → Bool} (hn : newRGBA hasRoom w h = some img) : Sized img w h := by
  rw [newRGBA] at hn
  split at hn
  next =>
    cases hn
    refine ⟨List.length_replicate, fun row hrow => ?_⟩
    rw [List.eq_of_mem_replicate hrow, List.length_replicate]
  next => cases hn

end Pixels

/-! ## The writes of the loops -/

/-- The writes of the loops: the place and the color of each. -/
def writes (img : Image) (factor : Nat) : List (Nat × Nat × RGBA) :=
  (List.range (dy img)).flatMap fun y =>
    (List.range (dx img)).flatMap fun x =>
      (List.range factor).flatMap fun dy =>
        (List.range factor).map fun dx =>
          (x * factor + dx, y * factor + dy, (pixel img x y).getD ⟨0, 0, 0, 0⟩)

theorem scaleInto_eq (scaled img : Image) (factor : Nat) :
    scaleInto scaled img factor =
      (writes img factor).foldl (fun scaled wr => setRGBA scaled wr.1 wr.2.1 wr.2.2) scaled := by
  simp only [scaleInto, writes, List.foldl_flatMap, List.foldl_map]

/-- What is written at a place has the color of the pixel it comes from. -/
theorem color_of_mem_writes {img : Image} {factor : Nat} {wr : Nat × Nat × RGBA}
    (hwr : wr ∈ writes img factor) :
    wr.2.2 = (pixel img (wr.1 / factor) (wr.2.1 / factor)).getD ⟨0, 0, 0, 0⟩ := by
  obtain ⟨y, _, hwr⟩ := List.mem_flatMap.1 hwr
  obtain ⟨x, _, hwr⟩ := List.mem_flatMap.1 hwr
  obtain ⟨dy, hdy, hwr⟩ := List.mem_flatMap.1 hwr
  obtain ⟨dx, hdx, rfl⟩ := List.mem_map.1 hwr
  rw [Grid.div_position (List.mem_range.1 hdx), Grid.div_position (List.mem_range.1 hdy)]

/-- Every place inside is written. -/
theorem mem_writes {img : Image} {w h factor X Y : Nat} (hs : Sized img w h)
    (hX : X < w * factor) (hY : Y < h * factor) :
    ∃ c, (X, Y, c) ∈ writes img factor := by
  have hpos : 0 < factor := Nat.pos_of_mul_pos_left (Nat.zero_lt_of_lt hX)
  have hy : Y / factor < h := (Nat.div_lt_iff_lt_mul hpos).2 hY
  have hx : X / factor < w := (Nat.div_lt_iff_lt_mul hpos).2 hX
  have hdx := hs.dx_eq (Nat.zero_lt_of_lt hy)
  refine ⟨(pixel img (X / factor) (Y / factor)).getD ⟨0, 0, 0, 0⟩, ?_⟩
  refine List.mem_flatMap.2 ⟨Y / factor, List.mem_range.2 (hs.dy_eq ▸ hy), ?_⟩
  refine List.mem_flatMap.2 ⟨X / factor, List.mem_range.2 (hdx ▸ hx), ?_⟩
  refine List.mem_flatMap.2 ⟨Y % factor, List.mem_range.2 (Nat.mod_lt _ hpos), ?_⟩
  refine List.mem_map.2 ⟨X % factor, List.mem_range.2 (Nat.mod_lt _ hpos), ?_⟩
  rw [Nat.div_add_mod', Nat.div_add_mod']

/-- A list of writes in which each place has one color gives a place that is written its
color. -/
theorem pixel_foldl (target : Nat → Nat → RGBA) {ws : List (Nat × Nat × RGBA)}
    (hcolor : ∀ wr ∈ ws, wr.2.2 = target wr.1 wr.2.1) {scaled : Image} {w h X Y : Nat}
    (hs : Sized scaled w h) (hX : X < w) (hY : Y < h)
    (hwritten : (∃ c, (X, Y, c) ∈ ws) ∨ pixel scaled X Y = some (target X Y)) :
    pixel (ws.foldl (fun scaled wr => setRGBA scaled wr.1 wr.2.1 wr.2.2) scaled) X Y =
      some (target X Y) := by
  induction ws generalizing scaled with
  | nil =>
    rcases hwritten with ⟨c, hc⟩ | hdone
    · exact absurd hc List.not_mem_nil
    · exact hdone
  | cons wr ws ih =>
    rw [List.foldl_cons]
    refine ih (fun wr' hwr' => hcolor wr' (List.mem_cons_of_mem wr hwr')) (hs.setRGBA _ _ _) ?_
    have hwr := hcolor wr List.mem_cons_self
    obtain ⟨old, hold⟩ := hs.exists_pixel hX hY
    rw [pixel_setRGBA]
    by_cases hplace : wr.1 = X ∧ wr.2.1 = Y
    · right
      rw [if_pos hplace, hold, Option.map_some, hwr, hplace.1, hplace.2]
    · rw [if_neg hplace]
      refine hwritten.imp_left fun ⟨c, hc⟩ => ⟨c, (List.mem_cons.1 hc).resolve_left fun he => ?_⟩
      exact hplace ⟨congrArg Prod.fst he.symm, congrArg (·.2.1) he.symm⟩

theorem sized_foldl {ws : List (Nat × Nat × RGBA)} {scaled : Image} {w h : Nat}
    (hs : Sized scaled w h) :
    Sized (ws.foldl (fun scaled wr => setRGBA scaled wr.1 wr.2.1 wr.2.2) scaled) w h := by
  induction ws generalizing scaled with
  | nil => exact hs
  | cons wr ws ih => exact ih (hs.setRGBA _ _ _)

/-- Whatever the new image holds, each of its pixels becomes the one it comes from. -/
theorem pixel_scaleInto {img scaled : Image} {w h factor X Y : Nat} (hi : Sized img w h)
    (hs : Sized scaled (w * factor) (h * factor)) (hX : X < w * factor) (hY : Y < h * factor) :
    pixel (scaleInto scaled img factor) X Y = pixel img (X / factor) (Y / factor) := by
  have hpos : 0 < factor := Nat.pos_of_mul_pos_left (Nat.zero_lt_of_lt hX)
  obtain ⟨c, hc⟩ := hi.exists_pixel ((Nat.div_lt_iff_lt_mul hpos).2 hX)
    ((Nat.div_lt_iff_lt_mul hpos).2 hY)
  rw [scaleInto_eq, pixel_foldl
    (fun X Y => (pixel img (X / factor) (Y / factor)).getD ⟨0, 0, 0, 0⟩)
    (fun wr hwr => color_of_mem_writes hwr) hs hX hY
    (Or.inl (mem_writes hi hX hY)), hc]
  rfl

/-! ## What is plotted -/

/-- The color of a datum. -/
def datum (data : List UInt8) (i : Nat) : Option RGBA := do
  let r ← data[4 * i]?
  let g ← data[4 * i + 1]?
  let b ← data[4 * i + 2]?
  let a ← data[4 * i + 3]?
  some ⟨r, g, b, a⟩

section Plot

variable {data : List UInt8} {bitSize : Nat} {img : Image}

/-- The words of a datum do not overflow where the sizes are small. -/
theorem pixelAt_eq_datum {i : Nat} (hi : 4 * i + 3 < 2 ^ 32) : pixelAt data i = datum data i := by
  simp only [pixelAt, datum, Nat.mod_eq_of_lt (show 4 * i < 2 ^ 32 by omega),
    Nat.mod_eq_of_lt (show 4 * i + 1 < 2 ^ 32 by omega),
    Nat.mod_eq_of_lt (show 4 * i + 2 < 2 ^ 32 by omega), Nat.mod_eq_of_lt hi]

theorem exists_datum {i n : Nat} (hl : data.length = 4 * n) (hi : i < n) :
    ∃ c, datum data i = some c := by
  have hbyte : ∀ j, j < 4 → data[4 * i + j]? = some (data.getD (4 * i + j) 0) := by
    intro j hj
    have hlt : 4 * i + j < data.length := by omega
    rw [List.getD_eq_getElem?_getD, List.getElem?_eq_getElem hlt]
    rfl
  have h0 := hbyte 0 (by decide)
  rw [Nat.add_zero] at h0
  rw [datum, h0, hbyte 1 (by decide), hbyte 2 (by decide), hbyte 3 (by decide)]
  exact ⟨_, rfl⟩

theorem sized_bitmapPlot (h : bitmapPlot data bitSize = some img) :
    Sized img (getDimentionFromBitsize bitSize).1 (getDimentionFromBitsize bitSize).2 := by
  have hplot : ((List.range (getDimentionFromBitsize bitSize).2).mapM fun y =>
      (List.range (getDimentionFromBitsize bitSize).1).mapM fun x =>
        pixelAt data ((y * (getDimentionFromBitsize bitSize).1 + x) % 2 ^ 32)) = some img := h
  refine ⟨(getElem?_of_mapM hplot 0).2.trans List.length_range, fun row hrow => ?_⟩
  obtain ⟨y, hy⟩ := List.mem_iff_getElem?.1 hrow
  obtain ⟨_, _, hcols⟩ := Option.bind_eq_some_iff.1 ((getElem?_of_mapM hplot y).1.symm.trans hy)
  exact (getElem?_of_mapM hcols 0).2.trans List.length_range

theorem cell_eq_pixel (img : Image) (bitSize i : Nat) :
    cell img bitSize i = pixel img (i % (getDimentionFromBitsize bitSize).1)
      (i / (getDimentionFromBitsize bitSize).1) := by
  rw [cell, pixel]
  cases img[i / (getDimentionFromBitsize bitSize).1]? with
  | none => rfl
  | some row => rfl

/-- With up to 29 bits no index is out of range. -/
theorem exists_bitmapPlot (hb : bitSize ≤ 29) (hl : data.length = 4 * 2 ^ bitSize) :
    ∃ img, bitmapPlot data bitSize = some img := by
  have hpow : 2 ^ bitSize ≤ 2 ^ 29 := Nat.pow_le_pow_right (by decide) hb
  refine exists_plot hb fun i hi => ?_
  rw [pixelAt_eq_datum (by omega)]
  exact exists_datum hl hi

/-- The datum at an index is in its place. -/
theorem pixel_bitmapPlot (hb : bitSize ≤ 29) (h : bitmapPlot data bitSize = some img) {i : Nat}
    (hi : i < 2 ^ bitSize) :
    pixel img (i % (getDimentionFromBitsize bitSize).1)
      (i / (getDimentionFromBitsize bitSize).1) = datum data i := by
  have hpow : 2 ^ bitSize ≤ 2 ^ 29 := Nat.pow_le_pow_right (by decide) hb
  rw [← cell_eq_pixel, cell_of_bitmapPlot h, if_pos (grid_index (by omega) hi),
    Nat.mod_eq_of_lt (by omega), pixelAt_eq_datum (by omega)]

end Plot

/-- The geometry of the data of `2 ^ bitSize` pixels. -/
structure Plotted (data : List UInt8) (bitSize w h : Nat) (img : Image) : Prop where
  plot : bitmapPlot data bitSize = some img
  sized : Sized img w h
  pixel : ∀ i, i < 2 ^ bitSize →
    (∃ c, datum data i = some c) ∧ Bitmap.pixel img (i % w) (i / w) = datum data i

/-- The image scaled by a factor. -/
structure ScaledBy (data : List UInt8) (w h factor : Nat) (img scaled : Image) : Prop where
  sized : Sized scaled (w * factor) (h * factor)
  pixel : ∀ X Y, X < w * factor → Y < h * factor →
    Bitmap.pixel scaled X Y = datum data (Y / factor * w + X / factor)
  /-- Nothing is left of what the new image held before the loops. -/
  written : ∀ fresh, Sized fresh (w * factor) (h * factor) → ∀ X Y, X < w * factor →
    Y < h * factor → Bitmap.pixel (scaleInto fresh img factor) X Y = Bitmap.pixel scaled X Y

/-- The datum of a pixel of the plotted image. -/
theorem pixel_eq_datum {data : List UInt8} {n w h x y : Nat} {img : Image} (hn : w * h = n)
    (hpix : ∀ i, i < n → pixel img (i % w) (i / w) = datum data i) (hx : x < w) (hy : y < h) :
    pixel img x y = datum data (y * w + x) := by
  have hlt : y * w + x < n := by
    rw [← hn, Nat.mul_comm w h]
    exact Grid.position_lt hy hx
  rw [← hpix _ hlt, Grid.div_position hx, Grid.mod_position hx]

/-- Width, height, places and scaled places of the data for up to 29 bits.  The image is scaled if
`image.NewRGBA` makes the new one. -/
theorem heatmap_geometry (hasRoom : Nat → Bool) (bitSize maxL : Nat) (data : List UInt8)
    (hb : bitSize ≤ 29) (hl : data.length = 4 * 2 ^ bitSize) :
    ∃ w h img factor, getDimentionFromBitsize bitSize = (w, h) ∧ w * h = 2 ^ bitSize ∧
      (w = h ∨ w = 2 * h) ∧ Plotted data bitSize w h img ∧ factor = max 1 (maxL / max w h) ∧
      ∀ fresh, newRGBA hasRoom (w * factor) (h * factor) = some fresh →
        ∃ scaled, rgbaImgIntgScaleUpTo hasRoom maxL img = some scaled ∧
          ScaledBy data w h factor img scaled := by
  obtain ⟨img, himg⟩ := exists_bitmapPlot hb hl
  have hdim := dimention_eq (show bitSize ≤ 60 by omega)
  have hsized := sized_bitmapPlot himg
  have hpix := fun i (hi : i < 2 ^ bitSize) => pixel_bitmapPlot hb himg hi
  have hprod : 2 ^ ((bitSize + 1) / 2) * 2 ^ (bitSize / 2) = 2 ^ bitSize := by
    rw [← Nat.pow_add]
    congr 1
    omega
  have hshape : 2 ^ ((bitSize + 1) / 2) = 2 ^ (bitSize / 2) ∨
      2 ^ ((bitSize + 1) / 2) = 2 * 2 ^ (bitSize / 2) := by
    rcases Nat.even_or_odd' bitSize with ⟨k, rfl | rfl⟩
    · left
      congr 1
      omega
    · right
      rw [← Nat.pow_succ']
      congr 1
      omega
  rw [hdim] at hsized hpix
  generalize 2 ^ ((bitSize + 1) / 2) = w at *
  generalize 2 ^ (bitSize / 2) = h at *
  have hpos : 0 < h := Nat.pos_of_mul_pos_left (hprod ▸ Nat.two_pow_pos bitSize)
  obtain ⟨factor, hfactor⟩ : ∃ factor, factor = max 1 (maxL / max w h) := ⟨_, rfl⟩
  have hone : 0 < factor := hfactor ▸ Nat.lt_of_lt_of_le Nat.one_pos (Nat.le_max_left _ _)
  have hscale : rgbaImgIntgScaleUpTo hasRoom maxL img =
      (newRGBA hasRoom (w * factor) (h * factor)).map fun scaled =>
        scaleInto scaled img factor := by
    rw [rgbaImgIntgScaleUpTo, scaleFactor, hsized.dx_eq hpos, hsized.dy_eq, hfactor]
  refine ⟨w, h, img, factor, hdim, hprod, hshape,
    ⟨himg, hsized, fun i hi => ⟨exists_datum hl hi, hpix i hi⟩⟩, hfactor, fun fresh hfresh => ?_⟩
  have hnew := sized_newRGBA hfresh
  refine ⟨scaleInto fresh img factor, by rw [hscale, hfresh, Option.map_some], ?_,
    fun X Y hX hY => ?_, fun other hother X Y hX hY => ?_⟩
  · rw [scaleInto_eq]
    exact sized_foldl hnew
  · rw [pixel_scaleInto hsized hnew hX hY]
    exact pixel_eq_datum hprod hpix ((Nat.div_lt_iff_lt_mul hone).2 hX)
      ((Nat.div_lt_iff_lt_mul hone).2 hY)
  · rw [pixel_scaleInto hsized hnew hX hY, pixel_scaleInto hsized hother hX hY]

/-- Two pixels in a row. -/
def twoPixels : List UInt8 := [0, 127, 0, 255, 127, 127, 127, 255]

/-- The two pixels are scaled by 3 where there is room for a megabyte. -/
theorem heatmap_geometry_two :
    ∃ img scaled, bitmapPlot twoPixels 1 = some img ∧
      rgbaImgIntgScaleUpTo (fun n => decide (n ≤ 2 ^ 20)) 7 img = some scaled ∧
      ScaledBy twoPixels 2 1 3 img scaled := by
  obtain ⟨w, h, img, factor, hdim, -, -, hplot, rfl, hscaled⟩ :=
    heatmap_geometry (fun n => decide (n ≤ 2 ^ 20)) 1 7 twoPixels (by decide) rfl
  obtain ⟨rfl, rfl⟩ : 2 = w ∧ 1 = h := Prod.mk.inj hdim
  obtain ⟨scaled, hscale, hby⟩ := hscaled _ rfl
  exact ⟨img, scaled, hplot.plot, hscale, hby⟩

end CloudPing.Bitmap
