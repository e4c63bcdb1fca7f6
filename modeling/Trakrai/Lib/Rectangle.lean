import Mathlib.Algebra.Order.Ring.Int
import Mathlib.Tactic.Linarith

namespace Trakrai.Lib

/-- `image.Rectangle` of Go: the pixels from its least corner to before its greatest. -/
structure Rectangle where
  minX : Int
  minY : Int
  maxX : Int
  maxY : Int
deriving DecidableEq

namespace Rectangle

/-- `image.Rect`. The corners may be given in any order. -/
def rect (x0 y0 x1 y1 : Int) : Rectangle := ⟨min x0 x1, min y0 y1, max x0 x1, max y0 y1⟩

section
variable (r : Rectangle)

def dx : Int := r.maxX - r.minX

def dy : Int := r.maxY - r.minY

def empty : Bool := r.minX ≥ r.maxX || r.minY ≥ r.maxY

def Has (x y : Int) : Prop := (r.minX ≤ x ∧ x < r.maxX) ∧ r.minY ≤ y ∧ y < r.maxY

def Inside (r s : Rectangle) : Prop := ∀ x y, r.Has x y → s.Has x y

def Apart (r s : Rectangle) : Prop := ∀ x y, r.Has x y → ¬ s.Has x y

def inset (margin : Int) : Rectangle :=
  rect (r.minX + margin) (r.minY + margin) (r.maxX - margin) (r.maxY - margin)

end

theorem rect_of_le (hx : x0 ≤ x1) (hy : y0 ≤ y1) : rect x0 y0 x1 y1 = ⟨x0, y0, x1, y1⟩ := by
  rw [rect, min_eq_left hx, min_eq_left hy, max_eq_right hx, max_eq_right hy]

section
variable {r s t : Rectangle}

theorem empty_eq_false_iff : r.empty = false ↔ r.minX < r.maxX ∧ r.minY < r.maxY := by
  simp [empty]

theorem inside_of_empty (h : r.empty = true) : r.Inside s := by
  rintro x y ⟨⟨hx, hx'⟩, hy, hy'⟩
  simp only [empty, Bool.or_eq_true, decide_eq_true_eq] at h
  omega

theorem inside_iff (h : r.empty = false) :
    r.Inside s ↔ (s.minX ≤ r.minX ∧ r.maxX ≤ s.maxX) ∧ s.minY ≤ r.minY ∧ r.maxY ≤ s.maxY := by
  obtain ⟨hx, hy⟩ := empty_eq_false_iff.1 h
  constructor
  · intro hin
    obtain ⟨⟨hleft, -⟩, htop, -⟩ := hin r.minX r.minY ⟨⟨le_refl _, hx⟩, le_refl _, hy⟩
    obtain ⟨⟨-, hright⟩, -, hbottom⟩ := hin (r.maxX - 1) (r.maxY - 1) ⟨by omega, by omega⟩
    omega
  · rintro ⟨hxs, hys⟩ x y ⟨hx, hy⟩
    exact ⟨by omega, by omega⟩

theorem apart_of_beside (h : r.maxX ≤ s.minX) : r.Apart s := by
  rintro x y ⟨hr, -⟩ ⟨hs, -⟩
  omega

theorem apart_of_above (h : r.maxY ≤ s.minY) : r.Apart s := by
  rintro x y ⟨-, hr⟩ ⟨-, hs⟩
  omega

end

end Rectangle

/-- Places of one size along a line, with a gap between them; the last one takes what is left. -/
structure Track where
  start : Int
  stop : Int
  gap : Int
  size : Int
  count : Int
  gap_nonneg : 0 ≤ gap
  size_pos : 0 < size
  fits : count * size + (count - 1) * gap ≤ stop - start

namespace Track
variable (track : Track)

def low (i : Int) : Int := track.start + i * (track.size + track.gap)

def high (i : Int) : Int := if i = track.count - 1 then track.stop else track.low i + track.size

variable {track}

theorem low_add_size_le (hij : i < j) : track.low i + track.size + track.gap ≤ track.low j := by
  have hpos : 0 ≤ track.size + track.gap := by linarith [track.size_pos, track.gap_nonneg]
  have hstep : (i + 1) * (track.size + track.gap) ≤ j * (track.size + track.gap) :=
    mul_le_mul_of_nonneg_right hij hpos
  rw [low, low]
  linarith

theorem start_le_low (hi : 0 ≤ i) : track.start ≤ track.low i := by
  have hpos : 0 ≤ track.size + track.gap := by linarith [track.size_pos, track.gap_nonneg]
  have hmul : 0 ≤ i * (track.size + track.gap) := mul_nonneg hi hpos
  rw [low]
  linarith

theorem low_add_size_le_stop (hi : i < track.count) : track.low i + track.size ≤ track.stop := by
  have hlast : track.low (track.count - 1) + track.size ≤ track.stop := by
    have hfits := track.fits
    rw [low]
    linarith
  rcases Int.lt_or_eq_of_le (Int.le_sub_one_of_lt hi) with hlt | rfl
  · have hnext : track.low i + track.size + track.gap ≤ track.low (track.count - 1) := low_add_size_le hlt
    linarith [track.gap_nonneg, track.size_pos]
  · exact hlast

theorem low_lt_high (hi : i < track.count) : track.low i < track.high i := by
  have hsize := track.size_pos
  rw [high]
  split
  · linarith [low_add_size_le_stop hi]
  · linarith

theorem high_le_stop (hi : i < track.count) : track.high i ≤ track.stop := by
  rw [high]
  split
  · exact le_refl _
  · exact low_add_size_le_stop hi

theorem high_le_low (hij : i < j) (hj : j < track.count) : track.high i ≤ track.low j := by
  rw [high, if_neg (by omega)]
  have hnext : track.low i + track.size + track.gap ≤ track.low j := low_add_size_le hij
  linarith [track.gap_nonneg]

/-- The places of two lines that cross, row by row. -/
def cell (cols rows : Track) (index : Int) : Rectangle :=
  .rect (cols.low (index % cols.count)) (rows.low (index / cols.count))
    (cols.high (index % cols.count)) (rows.high (index / cols.count))

section
variable {cols rows : Track}

theorem place (hcols : 0 < cols.count) (hi : 0 ≤ i) (hlt : i < cols.count * rows.count) :
    (0 ≤ i % cols.count ∧ i % cols.count < cols.count) ∧ 0 ≤ i / cols.count ∧ i / cols.count < rows.count := by
  refine ⟨⟨Int.emod_nonneg _ hcols.ne', Int.emod_lt_of_pos _ hcols⟩, Int.ediv_nonneg hi hcols.le, ?_⟩
  exact Int.ediv_lt_of_lt_mul hcols (by rwa [mul_comm])

theorem cell_eq (hcols : 0 < cols.count) (hi : 0 ≤ i) (hlt : i < cols.count * rows.count) :
    cols.cell rows i = ⟨cols.low (i % cols.count), rows.low (i / cols.count), cols.high (i % cols.count),
      rows.high (i / cols.count)⟩ := by
  obtain ⟨⟨-, hcol⟩, -, hrow⟩ := place hcols hi hlt
  exact Rectangle.rect_of_le (low_lt_high hcol).le (low_lt_high hrow).le

theorem cell_nonempty (hcols : 0 < cols.count) (hi : 0 ≤ i) (hlt : i < cols.count * rows.count) :
    (cols.cell rows i).empty = false := by
  obtain ⟨⟨-, hcol⟩, -, hrow⟩ := place hcols hi hlt
  rw [cell_eq hcols hi hlt, Rectangle.empty_eq_false_iff]
  exact ⟨low_lt_high hcol, low_lt_high hrow⟩

theorem cell_inside (hcols : 0 < cols.count) (hi : 0 ≤ i) (hlt : i < cols.count * rows.count) :
    (cols.cell rows i).Inside ⟨cols.start, rows.start, cols.stop, rows.stop⟩ := by
  obtain ⟨⟨hcol, hcol'⟩, hrow, hrow'⟩ := place hcols hi hlt
  rw [Rectangle.inside_iff (cell_nonempty hcols hi hlt), cell_eq hcols hi hlt]
  exact ⟨⟨start_le_low hcol, high_le_stop hcol'⟩, start_le_low hrow, high_le_stop hrow'⟩

theorem cell_apart (hcols : 0 < cols.count) (hi : 0 ≤ i) (hij : i < j) (hlt : j < cols.count * rows.count) :
    (cols.cell rows i).Apart (cols.cell rows j) := by
  have hj : 0 ≤ j := by omega
  obtain ⟨⟨-, hcol⟩, -, hrow⟩ := place hcols hj hlt
  rw [cell_eq hcols hi (hij.trans hlt), cell_eq hcols hj hlt]
  rcases Int.lt_or_eq_of_le (Int.ediv_le_ediv hcols hij.le) with hrows | hrows
  · exact Rectangle.apart_of_above (high_le_low hrows hrow)
  · have hmod : i % cols.count < j % cols.count := by
      have hdi := Int.mul_ediv_add_emod i cols.count
      have hdj := Int.mul_ediv_add_emod j cols.count
      rw [hrows] at hdi
      omega
    exact Rectangle.apart_of_beside (high_le_low hmod hcol)

end

end Track

end Trakrai.Lib
