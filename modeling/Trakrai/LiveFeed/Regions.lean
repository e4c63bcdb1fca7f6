import Mathlib.Data.List.Nodup
import Trakrai.Lib.Rectangle
import Trakrai.Lib.Rounding
import Trakrai.Lib.Text

namespace Trakrai.LiveFeed
open List hiding length count
open Lib

inductive LiveLayoutMode where
  | single
  | grid4
  | grid9
  | focus8
  | grid16
deriving DecidableEq

inductive LiveFrameSource where
  | raw
  | processed
deriving DecidableEq

structure LiveLayoutPlan where
  cameraNames : List String
  frameSource : LiveFrameSource
  mode : LiveLayoutMode

def normalizeLiveLayoutMode (mode : String) : LiveLayoutMode :=
  let mode := goTrimSpace mode
  if mode = "grid-4" then .grid4
  else if mode = "grid-9" then .grid9
  else if mode = "focus-8" then .focus8
  else if mode = "grid-16" then .grid16
  else .single

def normalizeLiveFrameSource (frameSource : String) : LiveFrameSource :=
  if goTrimSpace frameSource = "processed" then .processed else .raw

def LiveLayoutMode.capacity : LiveLayoutMode → Nat
  | .grid4 => 4
  | .grid9 => 9
  | .focus8 => 8
  | .grid16 => 16
  | .single => 1

def appendCameraName (names : List String) (candidate : String) : List String :=
  let candidate := goTrimSpace candidate
  if candidate = "" ∨ candidate ∈ names then names else names ++ [candidate]

/-- No mode has a capacity of zero, so the error of an unsupported mode cannot occur. -/
def normalizeLiveLayoutPlan (mode cameraName : String) (cameraNames : List String) (frameSource : String) :
    Except String LiveLayoutPlan :=
  let names := (cameraName :: cameraNames).foldl appendCameraName []
  if names = [] then .error "at least one camera is required"
  else .ok {
    cameraNames := names.take (normalizeLiveLayoutMode mode).capacity
    frameSource := normalizeLiveFrameSource frameSource
    mode := normalizeLiveLayoutMode mode }

structure CompositeRegion where
  bounds : Rectangle
  cameraName : String
  primary : Bool
deriving DecidableEq

section
variable (width height padding : Int)

def singleRegion : List String → List CompositeRegion
  | [] => []
  | cameraName :: _ => [⟨.rect padding padding (width - padding) (height - padding), cameraName, true⟩]

def cellSide (length count : Int) : Int := max 1 (length - padding * (count + 1)) / count

/-- The body of the loop of `gridRegions`. -/
def gridRegion (cols rows index : Int) (cameraName : String) : CompositeRegion :=
  let cellWidth := cellSide padding width cols
  let cellHeight := cellSide padding height rows
  let row := index / cols
  let col := index % cols
  let left := padding + col * (cellWidth + padding)
  let top := padding + row * (cellHeight + padding)
  let right := if col = cols - 1 then width - padding else left + cellWidth
  let bottom := if row = rows - 1 then height - padding else top + cellHeight
  ⟨.rect left top right bottom, cameraName, index == 0⟩

def gridRegions (cols rows : Int) (cameraNames : List String) : List CompositeRegion :=
  if cols ≤ 0 ∨ rows ≤ 0 then []
  else (cameraNames.take (cols * rows).toNat).mapIdx fun index => gridRegion width height padding cols rows index

/-- The main region of the focus layout ends here. Of a negative width Go takes another third, which does not
count either. -/
def mainWidth : Int := max 1 (width - padding * 3 - max 160 ((width - padding * 3) / 3))

def thumbLeft : Int := padding + mainWidth width padding + padding

def thumbCellWidth : Int := max 1 (max 1 (width - thumbLeft width padding - padding) - padding) / 2

/-- The body of the loop of `focusRegions`. -/
def thumbRegion (index : Int) (cameraName : String) : CompositeRegion :=
  let thumbHeight := cellSide padding height 4
  let row := index / 2
  let col := index % 2
  let left := thumbLeft width padding + col * (thumbCellWidth width padding + padding)
  let top := padding + row * (thumbHeight + padding)
  let right := if col = 1 then width - padding else left + thumbCellWidth width padding
  let bottom := if row = 3 then height - padding else top + thumbHeight
  ⟨.rect left top right bottom, cameraName, false⟩

def focusRegions : List String → List CompositeRegion
  | [] => []
  | [cameraName] => singleRegion width height padding [cameraName]
  | cameraName :: cameraNames =>
    ⟨.rect padding padding (padding + mainWidth width padding) (height - padding), cameraName, true⟩ ::
      (cameraNames.take 7).mapIdx fun index => thumbRegion width height padding index

def compositeRegions (plan : LiveLayoutPlan) : List CompositeRegion :=
  match plan.mode with
  | .grid4 => gridRegions width height padding 2 2 plan.cameraNames
  | .grid9 => gridRegions width height padding 3 3 plan.cameraNames
  | .grid16 => gridRegions width height padding 4 4 plan.cameraNames
  | .focus8 => focusRegions width height padding plan.cameraNames
  | .single => singleRegion width height padding plan.cameraNames

end

/-- `float64` is exact here. -/
def fitRect (srcWidth srcHeight : Int) (bounds : Rectangle) : Rectangle :=
  if srcWidth ≤ 0 ∨ srcHeight ≤ 0 ∨ bounds.empty then bounds
  else
    let destWidth := bounds.dx
    let destHeight := bounds.dy
    if destWidth ≤ 0 ∨ destHeight ≤ 0 then bounds
    else
      let scale : Rat := min (destWidth / srcWidth) (destHeight / srcHeight)
      if scale ≤ 0 then bounds
      else
        let scaledWidth := max 1 (goRound (srcWidth * scale))
        let scaledHeight := max 1 (goRound (srcHeight * scale))
        let offsetX := bounds.minX + (destWidth - scaledWidth) / 2
        let offsetY := bounds.minY + (destHeight - scaledHeight) / 2
        .rect offsetX offsetY (offsetX + scaledWidth) (offsetY + scaledHeight)

/-- Where `drawRegion` draws a frame of that size. -/
def targetRect (tile : Rectangle) (frameWidth frameHeight : Int) : Rectangle :=
  fitRect frameWidth frameHeight (tile.inset 2)

/-- The regions of the cameras, in their order, each with pixels, apart from each other and inside the area. -/
structure Tiled (area : Rectangle) (cameraNames : List String) (regions : List CompositeRegion) : Prop where
  cameras : regions.map (·.cameraName) = cameraNames
  nonempty : ∀ region ∈ regions, region.bounds.empty = false
  apart : regions.Pairwise fun a b => a.bounds.Apart b.bounds
  inside : ∀ region ∈ regions, region.bounds.Inside area

/-- The canvas without the padding at its four sides. -/
def padded (width height padding : Int) : Rectangle := ⟨padding, padding, width - padding, height - padding⟩

section
variable {width height padding cols rows : Int} {cameraNames : List String}

theorem tiled_mapIdx {region : Int → String → CompositeRegion} (across down : Track) (hcount : 0 < across.count)
    (hbounds : ∀ index name, (region index name).bounds = across.cell down index)
    (hname : ∀ index name, (region index name).cameraName = name)
    (hlength : (cameraNames.length : Int) ≤ across.count * down.count) :
    Tiled ⟨across.start, down.start, across.stop, down.stop⟩ cameraNames
      (cameraNames.mapIdx fun index => region index) := by
  have hcell {r : CompositeRegion} (hr : r ∈ cameraNames.mapIdx fun index => region index) :
      ∃ index : Int, 0 ≤ index ∧ index < across.count * down.count ∧ r.bounds = across.cell down index := by
    obtain ⟨i, hi, rfl⟩ := mem_mapIdx.1 hr
    exact ⟨i, by omega, by omega, hbounds _ _⟩
  refine ⟨?_, ?_, ?_, ?_⟩
  · apply List.ext_getElem?
    intro i
    rw [List.getElem?_map, List.getElem?_mapIdx, Option.map_map]
    simp only [Function.comp_def, hname, Option.map_id']
  · intro r hr
    obtain ⟨i, hi, hlt, hr⟩ := hcell hr
    rw [hr]
    exact Track.cell_nonempty hcount hi hlt
  · rw [pairwise_iff_getElem]
    intro i j hi hj hij
    rw [length_mapIdx] at hi hj
    rw [getElem_mapIdx, getElem_mapIdx, hbounds, hbounds]
    exact Track.cell_apart hcount (by omega) (by omega) (by omega)
  · intro r hr
    obtain ⟨i, hi, hlt, hr⟩ := hcell hr
    rw [hr]
    exact Track.cell_inside hcount hi hlt

theorem cellSide_fits (hcount : 1 ≤ count) (h : padding * (count + 1) + count ≤ length) :
    0 < cellSide padding length count ∧
      count * cellSide padding length count + (count - 1) * padding ≤ length - padding - padding := by
  have hcontent : max 1 (length - padding * (count + 1)) = length - padding * (count + 1) :=
    max_eq_right (by linarith)
  rw [cellSide, hcontent]
  constructor
  · apply Int.le_ediv_of_mul_le (by omega)
    linarith
  · have hmul := Int.ediv_mul_le (length - padding * (count + 1)) (b := count) (by omega)
    linarith

def sideTrack (padding length count : Int) (hpadding : 0 ≤ padding) (hcount : 1 ≤ count)
    (h : padding * (count + 1) + count ≤ length) : Track where
  start := padding
  stop := length - padding
  gap := padding
  size := cellSide padding length count
  count := count
  gap_nonneg := hpadding
  size_pos := (cellSide_fits hcount h).1
  fits := (cellSide_fits hcount h).2

theorem gridRegions_tiled (hpadding : 0 ≤ padding) (hcols : 1 ≤ cols) (hrows : 1 ≤ rows)
    (hwidth : padding * (cols + 1) + cols ≤ width) (hheight : padding * (rows + 1) + rows ≤ height)
    (cameraNames : List String) :
    Tiled (padded width height padding) (cameraNames.take (cols * rows).toNat)
      (gridRegions width height padding cols rows cameraNames) := by
  have hne : ¬ (cols ≤ 0 ∨ rows ≤ 0) := by omega
  have hcells : 0 ≤ cols * rows := mul_nonneg (by omega) (by omega)
  have hlength := length_take_le (cols * rows).toNat cameraNames
  rw [gridRegions, if_neg hne]
  exact tiled_mapIdx (sideTrack padding width cols hpadding hcols hwidth)
    (sideTrack padding height rows hpadding hrows hheight) (lt_of_lt_of_le one_pos hcols)
    (fun index name => rfl) (fun index name => rfl) (by change (_ : Int) ≤ cols * rows; omega)

theorem singleRegion_tiled (hwidth : padding * 2 + 1 ≤ width) (hheight : padding * 2 + 1 ≤ height)
    (cameraNames : List String) :
    Tiled (padded width height padding) (cameraNames.take 1) (singleRegion width height padding cameraNames) := by
  cases cameraNames with
  | nil => exact ⟨rfl, nofun, .nil, nofun⟩
  | cons cameraName cameraNames =>
    have hbounds : Rectangle.rect padding padding (width - padding) (height - padding) =
        padded width height padding := Rectangle.rect_of_le (by omega) (by omega)
    refine ⟨rfl, ?_, pairwise_singleton _ _, ?_⟩
    · intro region hregion
      rw [mem_singleton.1 hregion, hbounds, Rectangle.empty_eq_false_iff]
      exact ⟨by simp only [padded]; omega, by simp only [padded]; omega⟩
    · intro region hregion
      rw [mem_singleton.1 hregion, hbounds]
      exact fun x y h => h

theorem thumb_fits (hnonneg : 0 ≤ padding) (hpadding : padding ≤ 158) (hwidth : 4 * padding + 3 ≤ width) :
    0 < thumbCellWidth width padding ∧
      2 * thumbCellWidth width padding + (2 - 1) * padding ≤ width - padding - thumbLeft width padding := by
  unfold thumbCellWidth thumbLeft mainWidth
  omega

def railTrack (width padding : Int) (hnonneg : 0 ≤ padding) (hpadding : padding ≤ 158)
    (hwidth : 4 * padding + 3 ≤ width) : Track where
  start := thumbLeft width padding
  stop := width - padding
  gap := padding
  size := thumbCellWidth width padding
  count := 2
  gap_nonneg := hnonneg
  size_pos := (thumb_fits hnonneg hpadding hwidth).1
  fits := (thumb_fits hnonneg hpadding hwidth).2

theorem focusRegions_tiled (hnonneg : 0 ≤ padding) (hpadding : padding ≤ 158) (hwidth : 4 * padding + 3 ≤ width)
    (hheight : 5 * padding + 4 ≤ height) (cameraNames : List String) :
    Tiled (padded width height padding) (cameraNames.take 8) (focusRegions width height padding cameraNames) := by
  cases cameraNames with
  | nil => exact ⟨rfl, nofun, .nil, nofun⟩
  | cons cameraName cameraNames =>
    cases cameraNames with
    | nil => exact singleRegion_tiled (by omega) (by omega) [cameraName]
    | cons second cameraNames =>
      have hrest : Tiled ⟨thumbLeft width padding, padding, width - padding, height - padding⟩
          ((second :: cameraNames).take 7)
          (((second :: cameraNames).take 7).mapIdx fun index => thumbRegion width height padding index) := by
        have hlength := length_take_le 7 (second :: cameraNames)
        exact tiled_mapIdx (railTrack width padding hnonneg hpadding hwidth)
          (sideTrack padding height 4 hnonneg (by omega) (by omega)) two_pos
          (fun index name => rfl) (fun index name => rfl) (by change (_ : Int) ≤ 2 * 4; omega)
      have hmain : Rectangle.rect padding padding (padding + mainWidth width padding) (height - padding) =
          ⟨padding, padding, padding + mainWidth width padding, height - padding⟩ :=
        Rectangle.rect_of_le (by unfold mainWidth; omega) (by omega)
      have hrail : padding + mainWidth width padding ≤ thumbLeft width padding := by
        unfold thumbLeft
        omega
      have hstop : thumbLeft width padding ≤ width - padding := by
        have := thumb_fits hnonneg hpadding hwidth
        omega
      have hmainEmpty : (Rectangle.mk padding padding (padding + mainWidth width padding) (height - padding)).empty =
          false := by
        rw [Rectangle.empty_eq_false_iff]
        exact ⟨by change padding < padding + mainWidth width padding; unfold mainWidth; omega, by
          change padding < height - padding; omega⟩
      refine ⟨?_, ?_, ?_, ?_⟩
      · exact congrArg (cameraName :: ·) hrest.cameras
      · refine forall_mem_cons.2 ⟨?_, hrest.nonempty⟩
        rw [hmain]
        exact hmainEmpty
      · refine pairwise_cons.2 ⟨?_, hrest.apart⟩
        intro region hregion x y hmainHas hhas
        rw [hmain] at hmainHas
        have hin := hrest.inside region hregion x y hhas
        exact Rectangle.apart_of_beside hrail x y hmainHas hin
      · refine forall_mem_cons.2 ⟨?_, ?_⟩
        · rw [hmain, Rectangle.inside_iff hmainEmpty]
          exact ⟨⟨le_refl _, hrail.trans hstop⟩, le_refl _, le_refl _⟩
        · intro region hregion x y hhas
          obtain ⟨⟨hleft, hright⟩, hrows⟩ := hrest.inside region hregion x y hhas
          refine ⟨⟨?_, hright⟩, hrows⟩
          have hpos : padding ≤ thumbLeft width padding := by
            unfold thumbLeft mainWidth
            omega
          exact hpos.trans hleft

/-- The canvas has a pixel for each place of the mode. -/
def Roomy (width height padding : Int) : LiveLayoutMode → Prop
  | .single => padding * (1 + 1) + 1 ≤ width ∧ padding * (1 + 1) + 1 ≤ height
  | .grid4 => padding * (2 + 1) + 2 ≤ width ∧ padding * (2 + 1) + 2 ≤ height
  | .grid9 => padding * (3 + 1) + 3 ≤ width ∧ padding * (3 + 1) + 3 ≤ height
  | .grid16 => padding * (4 + 1) + 4 ≤ width ∧ padding * (4 + 1) + 4 ≤ height
  | .focus8 => padding ≤ 158 ∧ 4 * padding + 3 ≤ width ∧ 5 * padding + 4 ≤ height

theorem compositeRegions_tiled (hpadding : 0 ≤ padding) (h : Roomy width height padding plan.mode):
    Tiled (padded width height padding) (plan.cameraNames.take plan.mode.capacity)
      (compositeRegions width height padding plan) := by
  rw [compositeRegions]
  cases hmode : plan.mode with
  | single =>
    rw [hmode] at h
    exact singleRegion_tiled (by linarith [h.1]) (by linarith [h.2]) _
  | grid4 | grid9 | grid16 =>
    rw [hmode] at h
    exact gridRegions_tiled hpadding (by omega) (by omega) h.1 h.2 _
  | focus8 =>
    rw [hmode] at h
    exact focusRegions_tiled hpadding h.1 h.2.1 h.2.2 _

end

section
variable {src other dest destOther : Int}

/-- A side of the frame at the scale at which both sides fit. -/
def scaledSide (src other dest destOther : Int) : Rat := src * min (dest / src : Rat) (destOther / other)

theorem scaledSide_eq (hsrc : 0 < src) : scaledSide src other dest destOther = min (dest : Rat) (src * (destOther / other)) := by
  have hpos : (0 : Rat) < src := by exact_mod_cast hsrc
  rw [scaledSide, mul_min_of_nonneg _ _ hpos.le, mul_div_cancel₀ _ hpos.ne']

theorem scaledSide_nonneg (hsrc : 0 < src) (hother : 0 < other) (hdest : 0 < dest) (hdestOther : 0 < destOther) :
    0 ≤ scaledSide src other dest destOther := by
  rw [scaledSide_eq hsrc]
  exact le_min (by exact_mod_cast hdest.le) (by positivity)

def pixels (src other dest destOther : Int) : Int := max 1 (goRound (scaledSide src other dest destOther))

theorem pixels_le (hsrc : 0 < src) (hother : 0 < other) (hdest : 0 < dest) (hdestOther : 0 < destOther) :
    pixels src other dest destOther ≤ dest := by
  refine max_le hdest (goRound_le (scaledSide_nonneg hsrc hother hdest hdestOther) ?_)
  rw [scaledSide_eq hsrc]
  exact min_le_left _ _

theorem pixels_three_eq_one_iff (hsrc : 0 < src) (hother : 0 < other) (hdestOther : 0 < destOther) :
    pixels src other 3 destOther = 1 ↔ 2 * src * destOther < 3 * other := by
  have hpos : (0 : Rat) < other := by exact_mod_cast hother
  have hround : pixels src other 3 destOther = 1 ↔ goRound (scaledSide src other 3 destOther) < (2 : Int) := by
    rw [pixels]
    omega
  have hthree : ¬ ((3 : Int) : Rat) + 1 / 2 < ((2 : Int) : Rat) := by norm_num
  rw [hround, goRound_lt_iff (scaledSide_nonneg hsrc hother (by omega) hdestOther), scaledSide_eq hsrc,
    ← min_add_add_right, min_lt_iff, or_iff_right hthree, ← Int.cast_lt (R := Rat), ← mul_div_assoc]
  push_cast
  constructor
  · intro h
    have hdiv : (src * destOther : Rat) / other < 3 / 2 := by linarith
    rw [div_lt_iff₀ hpos] at hdiv
    linarith
  · intro h
    have hdiv : (src * destOther : Rat) / other < 3 / 2 := by
      rw [div_lt_iff₀ hpos]
      linarith
    linarith

end

section
variable {srcWidth srcHeight : Int} {bounds tile : Rectangle}

theorem fitRect_eq (hwidth : 0 < srcWidth) (hheight : 0 < srcHeight) (hbounds : bounds.empty = false) :
    let scaledWidth := pixels srcWidth srcHeight bounds.dx bounds.dy
    let scaledHeight := pixels srcHeight srcWidth bounds.dy bounds.dx
    let offsetX := bounds.minX + (bounds.dx - scaledWidth) / 2
    let offsetY := bounds.minY + (bounds.dy - scaledHeight) / 2
    fitRect srcWidth srcHeight bounds = ⟨offsetX, offsetY, offsetX + scaledWidth, offsetY + scaledHeight⟩ := by
  obtain ⟨hx, hy⟩ := Rectangle.empty_eq_false_iff.1 hbounds
  have hdx : 0 < bounds.dx := by rw [Rectangle.dx]; omega
  have hdy : 0 < bounds.dy := by rw [Rectangle.dy]; omega
  have hscale : ¬ min (bounds.dx / srcWidth : Rat) (bounds.dy / srcHeight) ≤ 0 := by
    rw [not_le, lt_min_iff]
    exact ⟨by positivity, by positivity⟩
  have hswap : (srcHeight : Rat) * min (bounds.dx / srcWidth : Rat) (bounds.dy / srcHeight) =
      scaledSide srcHeight srcWidth bounds.dy bounds.dx := by
    rw [min_comm, scaledSide]
  have hguard : ¬ (srcWidth ≤ 0 ∨ srcHeight ≤ 0 ∨ bounds.empty = true) := by
    rw [hbounds]
    simp only [Bool.false_eq_true, or_false]
    omega
  simp only
  rw [fitRect, if_neg hguard]
  simp only
  rw [if_neg (by omega), if_neg hscale, hswap, ← scaledSide, ← pixels, ← pixels]
  exact Rectangle.rect_of_le (by unfold pixels; omega) (by unfold pixels; omega)

theorem fitRect_inside (srcWidth srcHeight : Int) (bounds : Rectangle) :
    (fitRect srcWidth srcHeight bounds).Inside bounds := by
  by_cases hguard : srcWidth ≤ 0 ∨ srcHeight ≤ 0 ∨ bounds.empty = true
  · rw [fitRect, if_pos hguard]
    exact fun x y h => h
  · have hbounds : bounds.empty = false := by simpa using fun h => hguard (.inr (.inr h))
    have hwidth : 0 < srcWidth := by omega
    have hheight : 0 < srcHeight := by omega
    obtain ⟨hx, hy⟩ := Rectangle.empty_eq_false_iff.1 hbounds
    have hdx : 0 < bounds.dx := by rw [Rectangle.dx]; omega
    have hdy : 0 < bounds.dy := by rw [Rectangle.dy]; omega
    have hacross := pixels_le hwidth hheight hdx hdy
    have hdown := pixels_le hheight hwidth hdy hdx
    rw [fitRect_eq hwidth hheight hbounds]
    rintro x y ⟨hhasX, hhasY⟩
    simp only [Rectangle.dx, Rectangle.dy, Rectangle.Has] at *
    omega

/-- A side of the tile has more than one pixel, or the frame takes no more than one there. -/
def Kept (side other frameSide frameOther : Int) : Prop :=
  side ≠ 1 ∨ other = 4 ∨ 0 < frameSide ∧ 0 < frameOther ∧ 2 * frameSide * |other - 4| < 3 * frameOther

theorem insetSide_inside_iff {low high taken : Int} (hside : low < high) (htaken : 1 ≤ taken)
    (hle : taken ≤ max (low + 2) (high - 2) - min (low + 2) (high - 2)) :
    let offset := min (low + 2) (high - 2) + (max (low + 2) (high - 2) - min (low + 2) (high - 2) - taken) / 2
    (low ≤ offset ∧ offset + taken ≤ high) ↔ high - low ≠ 1 ∨ taken = 1 := by
  omega

theorem inset_side {low high : Int} : max (low + 2) (high - 2) - min (low + 2) (high - 2) = |high - low - 4| := by
  rw [abs_eq_max_neg]
  omega

theorem kept_iff {side other frameSide frameOther : Int} (hframe : 0 < frameSide) (hframe' : 0 < frameOther)
    (hother : 0 < |other - 4|) : Kept side other frameSide frameOther ↔
      side ≠ 1 ∨ pixels frameSide frameOther |side - 4| |other - 4| = 1 := by
  have hne : other ≠ 4 := by
    rintro rfl
    exact absurd hother (by decide)
  by_cases hside : side = 1
  · have hthree : |side - 4| = 3 := by
      rw [hside]
      rfl
    rw [Kept, hthree, pixels_three_eq_one_iff hframe hframe' hother]
    simp only [hside, ne_eq, not_true_eq_false, false_or, hne, hframe, hframe', true_and]
  · simp only [Kept, ne_eq, hside, not_false_eq_true, true_or]

/-- The picture of a frame lies in its tile unless the tile has a side of one pixel that the frame is too wide for. -/
theorem targetRect_inside_iff (htile : tile.empty = false) (frameWidth frameHeight : Int) :
    (targetRect tile frameWidth frameHeight).Inside tile ↔
      Kept tile.dx tile.dy frameWidth frameHeight ∧ Kept tile.dy tile.dx frameHeight frameWidth := by
  obtain ⟨hx, hy⟩ := Rectangle.empty_eq_false_iff.1 htile
  have hdx : (tile.inset 2).dx = |tile.dx - 4| := inset_side
  have hdy : (tile.inset 2).dy = |tile.dy - 4| := inset_side
  cases hinset : (tile.inset 2).empty with
  | true =>
    have hfit : targetRect tile frameWidth frameHeight = tile.inset 2 := by
      rw [targetRect, fitRect, if_pos (.inr (.inr hinset))]
    have hfour : tile.dx = 4 ∨ tile.dy = 4 := by
      simp only [Rectangle.empty, Rectangle.inset, Rectangle.rect, Bool.or_eq_true, decide_eq_true_iff, ge_iff_le] at hinset
      simp only [Rectangle.dx, Rectangle.dy]
      omega
    rw [hfit]
    refine iff_of_true (Rectangle.inside_of_empty hinset) ?_
    rcases hfour with h | h
    · exact ⟨.inl (by omega), .inr (.inl h)⟩
    · exact ⟨.inr (.inl h), .inl (by omega)⟩
  | false =>
    obtain ⟨hwide, hhigh⟩ := Rectangle.empty_eq_false_iff.1 hinset
    have hposX : 0 < |tile.dx - 4| := by
      rw [← hdx, Rectangle.dx]
      omega
    have hposY : 0 < |tile.dy - 4| := by
      rw [← hdy, Rectangle.dy]
      omega
    by_cases hframe : 0 < frameWidth ∧ 0 < frameHeight
    · obtain ⟨hwidth, hheight⟩ := hframe
      have hfit := fitRect_eq hwidth hheight hinset
      have hacross := pixels_le hwidth hheight hposX hposY
      have hdown := pixels_le hheight hwidth hposY hposX
      simp only [hdx, hdy] at hfit
      have hempty : (targetRect tile frameWidth frameHeight).empty = false := by
        rw [targetRect, hfit, Rectangle.empty_eq_false_iff]
        exact ⟨by simp only [pixels]; omega, by simp only [pixels]; omega⟩
      rw [Rectangle.inside_iff hempty, kept_iff hwidth hheight hposY, kept_iff hheight hwidth hposX, targetRect, hfit]
      refine and_congr ?_ ?_
      · rw [← hdx] at hacross ⊢
        exact insetSide_inside_iff hx (le_max_left _ _) hacross
      · rw [← hdy] at hdown ⊢
        exact insetSide_inside_iff hy (le_max_left _ _) hdown
    · have hfit : targetRect tile frameWidth frameHeight = tile.inset 2 := by
        rw [targetRect, fitRect, if_pos (by omega)]
      have hne : tile.dx ≠ 4 ∧ tile.dy ≠ 4 := by
        constructor
        · intro h
          rw [h] at hposX
          exact absurd hposX (by decide)
        · intro h
          rw [h] at hposY
          exact absurd hposY (by decide)
      have hkept {side other frameSide frameOther : Int} (hother : other ≠ 4)
          (hno : ¬ (0 < frameSide ∧ 0 < frameOther)) : Kept side other frameSide frameOther ↔ side ≠ 1 := by
        rw [Kept, or_iff_left]
        rintro (h | ⟨h, h', -⟩)
        · exact hother h
        · exact hno ⟨h, h'⟩
      rw [hfit, Rectangle.inside_iff hinset, hkept hne.2 hframe, hkept hne.1 (by omega)]
      simp only [Rectangle.inset, Rectangle.rect, Rectangle.dx, Rectangle.dy] at hwide hhigh ⊢
      omega

end

theorem foldl_appendCameraName_nodup (h : names.Nodup) (candidates : List String) :
    (candidates.foldl appendCameraName names).Nodup := by
  induction candidates generalizing names with
  | nil => exact h
  | cons candidate candidates ih =>
    apply ih
    rw [appendCameraName]
    split
    · exact h
    · rename_i hnew
      rw [not_or] at hnew
      apply List.Nodup.append h (by simp)
      intro name hname hlast
      rw [mem_singleton.1 hlast] at hname
      exact hnew.2 hname

theorem normalizeLiveLayoutPlan_regions
    (h : normalizeLiveLayoutPlan mode cameraName cameraNames frameSource = .ok plan) (hpadding : 0 ≤ padding)
    (hroomy : Roomy width height padding plan.mode) :
    plan.cameraNames.Nodup ∧ (compositeRegions width height padding plan).map (·.cameraName) = plan.cameraNames := by
  have htiled := compositeRegions_tiled hpadding hroomy
  rw [normalizeLiveLayoutPlan] at h
  split at h
  · cases h
  · cases h
    have hnodup := foldl_appendCameraName_nodup nodup_nil (cameraName :: cameraNames)
    apply And.intro
    · exact hnodup.sublist (take_sublist _ _)
    · rw [htiled.cameras]
      simp only [take_take, min_self]

/-- Each camera's picture lies in the camera's tile. -/
def Drawn (frame : String → Int × Int) (regions : List CompositeRegion) : Prop :=
  ∀ region ∈ regions, (targetRect region.bounds (frame region.cameraName).1 (frame region.cameraName).2).Inside
    region.bounds

/-- No tile has a side of one pixel that its camera's frame is too wide for. -/
def FramesKept (frame : String → Int × Int) (regions : List CompositeRegion) : Prop :=
  ∀ region ∈ regions,
    Kept region.bounds.dx region.bounds.dy (frame region.cameraName).1 (frame region.cameraName).2 ∧
    Kept region.bounds.dy region.bounds.dx (frame region.cameraName).2 (frame region.cameraName).1

theorem Tiled.drawn_iff (h : Tiled area cameraNames regions) (frame : String → Int × Int):
    (Tiled area cameraNames regions ∧ Drawn frame regions) ↔ FramesKept frame regions := by
  rw [and_iff_right h]
  apply forall_congr'
  intro region
  apply forall_congr'
  intro hregion
  exact targetRect_inside_iff (h.nonempty region hregion) _ _

/-- The regions of every layout are laid out as they should be, and a picture never leaves the rectangle that it is
fitted to. It lies in its tile exactly when no side of the tile is a single pixel that the frame is too wide for. -/
theorem layout_iff {width height padding : Int} (hpadding : 0 ≤ padding) :
    (∀ (cols rows : Int) (cameraNames : List String) (frame : String → Int × Int), 1 ≤ cols → 1 ≤ rows →
      padding * (cols + 1) + cols ≤ width → padding * (rows + 1) + rows ≤ height →
      ((Tiled (padded width height padding) (cameraNames.take (cols * rows).toNat)
          (gridRegions width height padding cols rows cameraNames) ∧
        Drawn frame (gridRegions width height padding cols rows cameraNames)) ↔
      FramesKept frame (gridRegions width height padding cols rows cameraNames))) ∧
    (∀ (plan : LiveLayoutPlan) (frame : String → Int × Int), Roomy width height padding plan.mode →
      ((Tiled (padded width height padding) (plan.cameraNames.take plan.mode.capacity)
          (compositeRegions width height padding plan) ∧
        Drawn frame (compositeRegions width height padding plan)) ↔
      FramesKept frame (compositeRegions width height padding plan))) ∧
    ∀ srcWidth srcHeight bounds, (fitRect srcWidth srcHeight bounds).Inside bounds := by
  refine ⟨?_, ?_, fitRect_inside⟩
  · intro cols rows cameraNames frame hcols hrows hwidth hheight
    exact (gridRegions_tiled hpadding hcols hrows hwidth hheight cameraNames).drawn_iff frame
  · intro plan frame hroomy
    exact (compositeRegions_tiled hpadding hroomy).drawn_iff frame

def twoCameras : LiveLayoutPlan := ⟨["gate", "yard"], .processed, .grid4⟩

theorem normalizeLiveLayoutPlan_regions_twoCameras : ∃ plan,
    normalizeLiveLayoutPlan "grid-4" "gate" ["yard", "gate"] "processed" = .ok plan ∧
      (compositeRegions 1280 720 8 plan).map (·.cameraName) = ["gate", "yard"] := by
  have hplan : normalizeLiveLayoutPlan "grid-4" "gate" ["yard", "gate"] "processed" = .ok twoCameras := by
    rfl
  have hroomy : Roomy 1280 720 8 twoCameras.mode := by
    change 8 * (2 + 1) + 2 ≤ 1280 ∧ 8 * (2 + 1) + 2 ≤ 720
    omega
  exact ⟨twoCameras, hplan, (normalizeLiveLayoutPlan_regions hplan (by decide) hroomy).2⟩

theorem layout_iff_twoCameras :
    Tiled (padded 1280 720 8) ["gate", "yard"] (compositeRegions 1280 720 8 twoCameras) ∧
      Drawn (fun _ => (1920, 1080)) (compositeRegions 1280 720 8 twoCameras) := by
  have hroomy : Roomy 1280 720 8 twoCameras.mode := by
    change 8 * (2 + 1) + 2 ≤ 1280 ∧ 8 * (2 + 1) + 2 ≤ 720
    omega
  have hregions : compositeRegions 1280 720 8 twoCameras =
      [⟨⟨8, 8, 636, 356⟩, "gate", true⟩, ⟨⟨644, 8, 1272, 356⟩, "yard", false⟩] := by
    decide
  have hkept : FramesKept (fun _ => (1920, 1080)) (compositeRegions 1280 720 8 twoCameras) := by
    rw [hregions]
    intro region hregion
    rcases mem_pair.1 hregion with rfl | rfl
    · exact ⟨.inl (by decide), .inl (by decide)⟩
    · exact ⟨.inl (by decide), .inl (by decide)⟩
  exact ((layout_iff (by omega : (0 : Int) ≤ 8)).2.1 twoCameras (fun _ => (1920, 1080)) hroomy).2 hkept

/-- On a canvas of two by two pixels the picture of the one camera covers the row above its tile. -/
theorem one_pixel_tile_left : Roomy 2 2 0 .grid4 ∧
    ¬ Drawn (fun _ => (640, 480)) (compositeRegions 2 2 0 ⟨["gate"], .raw, .grid4⟩) := by
  have hregions : compositeRegions 2 2 0 ⟨["gate"], .raw, .grid4⟩ = [⟨⟨0, 0, 1, 1⟩, "gate", true⟩] := by
    decide
  have htarget : targetRect ⟨0, 0, 1, 1⟩ 640 480 = ⟨-1, -1, 2, 1⟩ := by
    decide +kernel
  refine ⟨⟨by omega, by omega⟩, ?_⟩
  rw [hregions]
  intro h
  have hin := h _ (mem_singleton_self _) (-1) (-1)
  rw [htarget] at hin
  have hpixel := (hin ⟨⟨by decide, by decide⟩, by decide, by decide⟩).2.1
  exact absurd hpixel (by decide)

end Trakrai.LiveFeed
