import CloudPing.Grid.Position
import CloudPing.Utils.IPNet
import Mathlib.Data.List.Basic
import Mathlib.Data.Nat.ModEq

/-!
# The heatmap of `pkg/bitmap`

`RenderProbeHeatmap` gives every address of a subnet a pixel.  The pixel of an address is
white if its index is not below the number of probed addresses, and else gray for a negative
latency and green for another.  `BitmapPlot` lays the pixels out in rows.

The sizes are words of 32 bits.  Up to 29 host bits the pixel of each address is in its place
(`cell_of_render`), and from 30 on no image has a pixel for any address (`cell_of_large`).
The font, the texts beside the grid and the scaling of its pixels are left out.
-/

namespace CloudPing.Bitmap

open CloudPing.Utils

structure RGBA where
  r : UInt8
  g : UInt8
  b : UInt8
  a : UInt8
  deriving DecidableEq, Repr

def white : RGBA := ⟨255, 255, 255, 255⟩

def gray : RGBA := ⟨127, 127, 127, 255⟩

def green : RGBA := ⟨0, 127, 0, 255⟩

/-- The color of the pixel with this index and latency. -/
def pixelColor (probed pixelIdx : Nat) (rttMS : Int) : RGBA :=
  if probed ≤ pixelIdx then white
  else if rttMS < 0 then gray
  else green

def RGBA.bytes (c : RGBA) : List UInt8 := [c.r, c.g, c.b, c.a]

/-- Why there is no image. -/
inductive RenderFailure where
  | error (msg : String)
  /-- An index out of range. -/
  | panic
  deriving DecidableEq, Repr

/-- The bytes of all pixels.  The number of them is computed in 32 bits, and where it comes to
zero the first write is out of range. -/
def pixelRawData (rttMS : List Int) (probed : Nat) : Option (List UInt8) :=
  if rttMS ≠ [] ∧ 4 * rttMS.length % 2 ^ 32 = 0 then none
  else some (rttMS.zipIdx.flatMap fun (rtt, pixelIdx) => (pixelColor probed pixelIdx rtt).bytes)

/-- The width and the height, whose product is the number of addresses. -/
def getDimentionFromBitsize (bitSize : Nat) : Nat × Nat :=
  (List.range bitSize).foldl (fun (w, h) i =>
    if i % 2 > 0 then (w, (h <<< 1) % 2 ^ 32) else ((w <<< 1) % 2 ^ 32, h)) (1, 1)

/-- The rows of an image. -/
abbrev Image := List (List RGBA)

/-- The pixel at an index of the data, `none` out of range. -/
def pixelAt (data : List UInt8) (idx : Nat) : Option RGBA := do
  let r ← data[4 * idx % 2 ^ 32]?
  let g ← data[(4 * idx + 1) % 2 ^ 32]?
  let b ← data[(4 * idx + 2) % 2 ^ 32]?
  let a ← data[(4 * idx + 3) % 2 ^ 32]?
  some ⟨r, g, b, a⟩

/-- `BitmapPlot` of data that is not nil. -/
def bitmapPlot (data : List UInt8) (bitSize : Nat) : Option Image :=
  let (w, h) := getDimentionFromBitsize bitSize
  (List.range h).mapM fun i => (List.range w).mapM fun j => pixelAt data ((i * w + j) % 2 ^ 32)

/-- The number of host bits of a network. -/
def hostBits (n : IPNet) : Nat := (maskSize n.mask).2 - (maskSize n.mask).1

/-- The pixels of `RenderProbeHeatmap`. -/
def renderProbeHeatmap (rttMS : List Int) (probed : Nat) (cidrObj : IPNet) :
    Except RenderFailure Image :=
  let bitSize := hostBits cidrObj
  if rttMS.length % 2 ^ 32 ≠ (1 <<< bitSize) % 2 ^ 32 then
    .error (.error ("the size of rttMS []int should be exactly 2^bitSize, where bitSize is " ++
      "the number of host bits of the CIDR representation."))
  else
    match pixelRawData rttMS probed with
    | none => .error .panic
    | some data =>
      match bitmapPlot data bitSize with
      | none => .error .panic
      | some img => .ok img

/-- The pixel of the address at a place of the subnet. -/
def cell (img : Image) (bitSize i : Nat) : Option RGBA :=
  let w := (getDimentionFromBitsize bitSize).1
  (img[i / w]?.getD [])[i % w]?

/-! ## Where the pixels are -/

theorem getElem?_of_mapM {α β : Type} {f : α → Option β} {l : List α} {ys : List β}
    (h : l.mapM f = some ys) (i : Nat) : ys[i]? = l[i]?.bind f ∧ ys.length = l.length := by
  induction l generalizing ys i with
  | nil =>
    cases h
    exact ⟨rfl, rfl⟩
  | cons x xs ih =>
    rw [List.mapM_cons] at h
    obtain ⟨y, hy, h⟩ := Option.bind_eq_some_iff.1 h
    obtain ⟨ys', hys, h⟩ := Option.bind_eq_some_iff.1 h
    cases h
    cases i with
    | zero => exact ⟨hy.symm, congrArg (· + 1) (ih hys 0).2⟩
    | succ i => exact ⟨(ih hys i).1, congrArg (· + 1) (ih hys i).2⟩

theorem exists_mapM {α β : Type} {f : α → Option β} {l : List α}
    (h : ∀ x ∈ l, ∃ y, f x = some y) : ∃ ys, l.mapM f = some ys := by
  induction l with
  | nil => exact ⟨[], rfl⟩
  | cons x xs ih =>
    obtain ⟨y, hy⟩ := h x List.mem_cons_self
    obtain ⟨ys, hys⟩ := ih fun x' hx' => h x' (List.mem_cons_of_mem x hx')
    exact ⟨y :: ys, by rw [List.mapM_cons, hy, hys]; rfl⟩

/-- Where every block has `k` elements, the `j`-th of block `i` is at `k * i + j`. -/
theorem getElem?_flatMap {α β : Type} {f : α → List β} {k : Nat} (hf : ∀ a, (f a).length = k)
    (l : List α) (i : Nat) {j : Nat} (hj : j < k) :
    (l.flatMap f)[k * i + j]? = l[i]?.bind fun a => (f a)[j]? := by
  induction l generalizing i with
  | nil => simp
  | cons x xs ih =>
    rw [List.flatMap_cons]
    cases i with
    | zero =>
      rw [List.getElem?_append_left (by rw [hf]; omega), Nat.mul_zero, Nat.zero_add]
      rfl
    | succ i =>
      have hlen : k * (i + 1) + j - (f x).length = k * i + j := by
        rw [hf, Nat.mul_succ]
        omega
      rw [List.getElem?_append_right (by rw [hf, Nat.mul_succ]; omega), hlen, ih]
      rfl

/-- Width and height share the bits of the size. -/
theorem dimention_eq {bitSize : Nat} (h : bitSize ≤ 60) :
    getDimentionFromBitsize bitSize = (2 ^ ((bitSize + 1) / 2), 2 ^ (bitSize / 2)) := by
  induction bitSize with
  | zero => rfl
  | succ b ih =>
    have hshift : ∀ k, k ≤ 30 → (2 ^ k) <<< 1 % 2 ^ 32 = 2 ^ (k + 1) := by
      intro k hk
      rw [Nat.shiftLeft_eq, ← Nat.pow_succ]
      exact Nat.mod_eq_of_lt (Nat.pow_lt_pow_right (by decide) (by omega))
    rw [getDimentionFromBitsize, List.range_succ, List.foldl_concat, ← getDimentionFromBitsize,
      ih (by omega)]
    by_cases hb : b % 2 > 0
    · have hw : (b + 1 + 1) / 2 = (b + 1) / 2 := by omega
      have hh : (b + 1) / 2 = b / 2 + 1 := by omega
      simp only [hb, if_true, hshift _ (show b / 2 ≤ 30 by omega), hw, hh]
    · have hw : (b + 1 + 1) / 2 = (b + 1) / 2 + 1 := by omega
      have hh : (b + 1) / 2 = b / 2 := by omega
      simp only [hb, if_false, hshift _ (show (b + 1) / 2 ≤ 30 by omega), hw]
      rw [hh]

/-- The place of a pixel in a grid of rows and columns. -/
theorem grid_index {bitSize i : Nat} (hb : bitSize ≤ 60) (hi : i < 2 ^ bitSize) :
    i / (getDimentionFromBitsize bitSize).1 < (getDimentionFromBitsize bitSize).2 ∧
      i % (getDimentionFromBitsize bitSize).1 < (getDimentionFromBitsize bitSize).1 := by
  rw [dimention_eq hb]
  have hsum : (bitSize + 1) / 2 + bitSize / 2 = bitSize := by omega
  have hpos := Nat.two_pow_pos ((bitSize + 1) / 2)
  refine ⟨?_, Nat.mod_lt _ hpos⟩
  rw [Nat.div_lt_iff_lt_mul hpos, ← Nat.pow_add, Nat.add_comm, hsum]
  exact hi

/-- In an image that is plotted, the pixel of an address is the one at its index, where the
grid has the place. -/
theorem cell_of_bitmapPlot {data : List UInt8} {bitSize i : Nat} {img : Image}
    (h : bitmapPlot data bitSize = some img) :
    cell img bitSize i =
      if i / (getDimentionFromBitsize bitSize).1 < (getDimentionFromBitsize bitSize).2 ∧
          i % (getDimentionFromBitsize bitSize).1 < (getDimentionFromBitsize bitSize).1 then
        pixelAt data (i % 2 ^ 32)
      else none := by
  have hplot : ((List.range (getDimentionFromBitsize bitSize).2).mapM fun y =>
      (List.range (getDimentionFromBitsize bitSize).1).mapM fun x =>
        pixelAt data ((y * (getDimentionFromBitsize bitSize).1 + x) % 2 ^ 32)) = some img := h
  obtain ⟨hrow, hlen⟩ := getElem?_of_mapM hplot (i / (getDimentionFromBitsize bitSize).1)
  have hidx : i / (getDimentionFromBitsize bitSize).1 * (getDimentionFromBitsize bitSize).1 +
      i % (getDimentionFromBitsize bitSize).1 = i := Nat.div_add_mod' _ _
  rw [List.length_range] at hlen
  rw [cell]
  by_cases hy : i / (getDimentionFromBitsize bitSize).1 < (getDimentionFromBitsize bitSize).2
  · rw [List.getElem?_range hy, Option.bind_some] at hrow
    obtain ⟨row, himg⟩ : ∃ row, img[i / (getDimentionFromBitsize bitSize).1]? = some row :=
      ⟨_, List.getElem?_eq_getElem (hlen ▸ hy)⟩
    rw [himg] at hrow
    have hcol := (getElem?_of_mapM hrow.symm (i % (getDimentionFromBitsize bitSize).1)).1
    rw [himg, Option.getD_some, hcol]
    by_cases hx : i % (getDimentionFromBitsize bitSize).1 < (getDimentionFromBitsize bitSize).1
    · rw [List.getElem?_range hx, if_pos ⟨hy, hx⟩, Option.bind_some, hidx]
    · rw [List.getElem?_eq_none (by rw [List.length_range]; omega), if_neg fun hxy => hx hxy.2]
      rfl
  · have hnone : img[i / (getDimentionFromBitsize bitSize).1]? = none :=
      List.getElem?_eq_none (by omega)
    rw [hnone, if_neg fun hxy => hy hxy.1]
    rfl

theorem length_bytes (c : RGBA) : c.bytes.length = 4 := rfl

/-- The pixel of an index that no word overflows for. -/
theorem pixelAt_rawData {rttMS : List Int} {probed : Nat} {data : List UInt8}
    (h : pixelRawData rttMS probed = some data) {i : Nat} (hi : 4 * i + 3 < 2 ^ 32) :
    pixelAt data i = rttMS[i]?.map (pixelColor probed i) := by
  rw [pixelRawData] at h
  split at h
  next => cases h
  next =>
    have hbyte : ∀ j, j < 4 → data[4 * i + j]? =
        rttMS[i]?.bind fun rtt => (pixelColor probed i rtt).bytes[j]? := by
      intro j hj
      rw [← Option.some.inj h, getElem?_flatMap (fun _ => length_bytes _) _ _ hj,
        List.getElem?_zipIdx]
      cases rttMS[i]? with
      | none => rfl
      | some rtt => simp
    have h0 := hbyte 0 (by decide)
    rw [Nat.add_zero] at h0
    simp only [pixelAt, Nat.mod_eq_of_lt (show 4 * i < 2 ^ 32 by omega),
      Nat.mod_eq_of_lt (show 4 * i + 1 < 2 ^ 32 by omega),
      Nat.mod_eq_of_lt (show 4 * i + 2 < 2 ^ 32 by omega), Nat.mod_eq_of_lt hi, h0,
      hbyte 1 (by decide), hbyte 2 (by decide), hbyte 3 (by decide)]
    cases rttMS[i]? with
    | none => rfl
    | some rtt => rfl

/-! ## What is rendered -/

variable {cidrObj : IPNet} {rttMS : List Int}

/-- An image is plotted if there is a color for each of its pixels. -/
theorem exists_plot {bitSize : Nat} {data : List UInt8} (hb : bitSize ≤ 29)
    (h : ∀ i, i < 2 ^ bitSize → ∃ c, pixelAt data i = some c) :
    ∃ img, bitmapPlot data bitSize = some img := by
  have hpow : 2 ^ bitSize ≤ 2 ^ 29 := Nat.pow_le_pow_right (by decide) hb
  have hprod : 2 ^ (bitSize / 2) * 2 ^ ((bitSize + 1) / 2) = 2 ^ bitSize := by
    rw [← Nat.pow_add]
    congr 1
    omega
  rw [bitmapPlot, dimention_eq (show bitSize ≤ 60 by omega)]
  refine exists_mapM fun y hy => exists_mapM fun x hx => ?_
  have hlt := Grid.position_lt (List.mem_range.1 hy) (List.mem_range.1 hx)
  rw [hprod] at hlt
  rw [Nat.mod_eq_of_lt (by omega)]
  exact h _ hlt

/-- With up to 29 host bits every address has its pixel. -/
theorem cell_of_render (probed : Nat) (hb : hostBits cidrObj ≤ 29)
    (hl : rttMS.length = 2 ^ hostBits cidrObj) :
    ∃ img, renderProbeHeatmap rttMS probed cidrObj = .ok img ∧
      ∀ i, i < 2 ^ hostBits cidrObj →
        cell img (hostBits cidrObj) i = rttMS[i]?.map (pixelColor probed i) := by
  have hpow : 2 ^ hostBits cidrObj ≤ 2 ^ 29 := Nat.pow_le_pow_right (by decide) hb
  have hpos := Nat.two_pow_pos (hostBits cidrObj)
  have hraw : ∃ data, pixelRawData rttMS probed = some data := by
    rw [pixelRawData, if_neg fun hwrap => ?_]
    · exact ⟨_, rfl⟩
    · rw [hl, Nat.mod_eq_of_lt (by omega)] at hwrap
      omega
  obtain ⟨data, hdata⟩ := hraw
  have hplot : ∃ img, bitmapPlot data (hostBits cidrObj) = some img := by
    refine exists_plot hb fun i hi => ?_
    rw [pixelAt_rawData hdata (by omega), List.getElem?_eq_getElem (by rw [hl]; exact hi)]
    exact ⟨_, rfl⟩
  obtain ⟨img, himg⟩ := hplot
  refine ⟨img, ?_, fun i hi => ?_⟩
  · have hsize : ¬rttMS.length % 2 ^ 32 ≠ (1 <<< hostBits cidrObj) % 2 ^ 32 := by
      rw [hl, Nat.shiftLeft_eq, Nat.one_mul]
      exact not_not_intro rfl
    simp only [renderProbeHeatmap, if_neg hsize, hdata, himg]
  · rw [cell_of_bitmapPlot himg, if_pos (grid_index (by omega) hi), Nat.mod_eq_of_lt (by omega),
      pixelAt_rawData hdata (by omega)]

/-- From 30 host bits on no image has a pixel. -/
theorem cell_of_large (hb : 30 ≤ hostBits cidrObj)
    (hl : rttMS.length = 2 ^ hostBits cidrObj % 2 ^ 32) {img : Image}
    (h : renderProbeHeatmap rttMS probed cidrObj = .ok img) (i : Nat) :
    cell img (hostBits cidrObj) i = none := by
  have hdata : ∃ data, pixelRawData rttMS probed = some data ∧
      bitmapPlot data (hostBits cidrObj) = some img := by
    simp only [renderProbeHeatmap] at h
    split at h
    next => cases h
    next =>
      split at h
      next => cases h
      next data hdata =>
        split at h
        next => cases h
        next hplot =>
          cases h
          exact ⟨data, hdata, hplot⟩
  obtain ⟨data, hdata, hplot⟩ := hdata
  have hnil : rttMS = [] := by
    by_contra hne
    have hwrap : 4 * rttMS.length % 2 ^ 32 = 0 := by
      have hdvd : 2 ^ 30 ∣ 2 ^ hostBits cidrObj := Nat.pow_dvd_pow 2 hb
      have hdvd' : 2 ^ 30 ∣ rttMS.length := by
        rw [hl]
        exact (Nat.dvd_mod_iff (by decide)).2 hdvd
      omega
    rw [pixelRawData, if_pos ⟨hne, hwrap⟩] at hdata
    cases hdata
  have hempty : data = [] := by
    rw [pixelRawData, hnil, if_neg (by simp)] at hdata
    exact (Option.some.inj hdata).symm
  rw [cell_of_bitmapPlot hplot, hempty, pixelAt]
  split <;> rfl

end CloudPing.Bitmap
