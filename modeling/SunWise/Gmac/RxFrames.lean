import SunWise.Gmac.RxRing
import SunWise.Library.Runs

/-!
# Frames in completed descriptors

What the DMA completes is a list of descriptors.  A descriptor whose status has the
last-segment bit ends a frame, and the frames are the concatenations of the bytes up to
these ends.
-/

namespace SunWise.Gmac

open Library

/-- The bytes of the frame under way, after one more descriptor. -/
def underWay (frame : List UInt8) (fill : Fill) : List UInt8 :=
  if fill.last then [] else frame ++ fill.bytes

/-- The frames that descriptors complete if these bytes are under way before them. -/
def framesFrom (frame : List UInt8) : List Fill → List (List UInt8)
  | [] => []
  | fill :: fills =>
      if fill.last then (frame ++ fill.bytes) :: framesFrom [] fills
      else framesFrom (frame ++ fill.bytes) fills

/-- The bytes of some descriptors. -/
def frameBytes (fills : List Fill) : List UInt8 :=
  (fills.map Fill.bytes).flatten

/-- A well-formed descriptor after these bytes of its frame: it is marked first exactly
if there are none, it is not empty, and the frame does not grow beyond 65535 bytes. -/
structure Continues (frame : List UInt8) (fill : Fill) : Prop where
  first : fill.first = frame.isEmpty
  nonempty : 0 < fill.bytes.length
  total : frame.length + fill.bytes.length ≤ 65535

/-- No descriptor ends a frame. -/
def Unfinished (fills : List Fill) : Prop :=
  framesFrom [] fills = []

/-- The descriptors of one frame. -/
structure Whole (fills : List Fill) : Prop where
  frame : framesFrom [] fills = [frameBytes fills]
  ended : fills.foldl underWay [] = []

@[simp] theorem frameBytes_nil : frameBytes [] = [] := rfl

@[simp] theorem frameBytes_cons (fill : Fill) (fills : List Fill) :
    frameBytes (fill :: fills) = fill.bytes ++ frameBytes fills := rfl

@[simp] theorem frameBytes_append (front back : List Fill) :
    frameBytes (front ++ back) = frameBytes front ++ frameBytes back := by
  simp [frameBytes]

theorem framesFrom_append (frame : List UInt8) (front back : List Fill) :
    framesFrom frame (front ++ back) =
      framesFrom frame front ++ framesFrom (front.foldl underWay frame) back := by
  induction front generalizing frame with
  | nil => rfl
  | cons fill front ih =>
      simp only [List.cons_append, framesFrom, List.foldl_cons, underWay, ih]
      split <;> rfl

theorem foldl_underWay (frame : List UInt8) {fills : List Fill}
    (unfinished : framesFrom frame fills = []) :
    fills.foldl underWay frame = frame ++ frameBytes fills := by
  induction fills generalizing frame with
  | nil => simp
  | cons fill fills ih =>
      simp only [framesFrom] at unfinished
      split at unfinished
      next => cases unfinished
      next notLast =>
        simp only [List.foldl_cons, underWay, notLast, Bool.false_eq_true, if_false]
        rw [ih _ unfinished, frameBytes_cons, List.append_assoc]

section Unfinished

variable {fills : List Fill} {fill : Fill}

theorem Unfinished.underWay (unfinished : Unfinished fills) :
    fills.foldl underWay [] = frameBytes fills :=
  foldl_underWay [] unfinished

/-- A descriptor that is not the last one leaves the frame unfinished. -/
theorem Unfinished.snoc (unfinished : Unfinished fills) (notLast : fill.last = false) :
    Unfinished (fills ++ [fill]) := by
  unfold Unfinished at unfinished ⊢
  simp [framesFrom_append, unfinished, framesFrom, notLast]

theorem Unfinished.whole (unfinished : Unfinished fills) (last : fill.last = true) :
    Whole (fills ++ [fill]) := by
  have underWay := unfinished.underWay
  unfold Unfinished at unfinished
  constructor
  · simp [framesFrom_append, unfinished, framesFrom, underWay, last]
  · simp [Gmac.underWay, last]

/-- What comes before the end of an unfinished frame is unfinished. -/
theorem Unfinished.of_append {back : List Fill} (unfinished : Unfinished (fills ++ back)) :
    Unfinished fills := by
  unfold Unfinished at unfinished ⊢
  rw [framesFrom_append] at unfinished
  exact (List.append_eq_nil_iff.mp unfinished).1

theorem Unfinished.notLast {back : List Fill}
    (unfinished : Unfinished (fills ++ fill :: back)) : fill.last = false := by
  have front := unfinished.of_append.underWay
  unfold Unfinished at unfinished
  rw [framesFrom_append, framesFrom] at unfinished
  by_contra isLast
  rw [Bool.not_eq_false] at isLast
  simp [isLast] at unfinished

end Unfinished

theorem Whole.ne_nil {fills : List Fill} (whole : Whole fills) : fills ≠ [] := by
  rintro rfl
  cases whole.frame

section Accepted

variable {fills : List Fill}

/-- The descriptors of well-formed frames are not empty. -/
theorem nonempty_of_accepts {frame : List UInt8}
    (accepts : Accepts underWay Continues frame fills) :
    ∀ fill ∈ fills, 0 < fill.bytes.length := by
  rw [accepts_iff] at accepts
  intro fill isFill
  rcases List.append_of_mem isFill with ⟨before, after, isSplit⟩
  exact (accepts before fill after isSplit).nonempty

/-- A well-formed frame begins with a descriptor that is marked first, and no other is. -/
theorem continues_of_accepts {fill : Fill} {back : List Fill}
    (accepts : Accepts underWay Continues [] (fills ++ fill :: back))
    (unfinished : Unfinished fills) : Continues (frameBytes fills) fill := by
  rw [accepts_append, accepts_cons, unfinished.underWay] at accepts
  exact accepts.2.1

theorem frameBytes_pos (nonempty : ∀ fill ∈ fills, 0 < fill.bytes.length)
    (some_fill : fills ≠ []) : 0 < (frameBytes fills).length := by
  cases fills with
  | nil => exact absurd rfl some_fill
  | cons fill fills =>
      rw [frameBytes_cons, List.length_append]
      exact Nat.add_pos_left (nonempty fill List.mem_cons_self) _

theorem frameBytes_isEmpty (nonempty : ∀ fill ∈ fills, 0 < fill.bytes.length) :
    (frameBytes fills).isEmpty = fills.isEmpty := by
  cases fills with
  | nil => rfl
  | cons fill fills =>
      have positive := frameBytes_pos nonempty (List.cons_ne_nil fill fills)
      rw [List.isEmpty_cons, List.isEmpty_eq_false_iff]
      exact List.ne_nil_of_length_pos positive

end Accepted

end SunWise.Gmac
