import Mathlib.Algebra.BigOperators.Group.List.Basic
import Mathlib.Algebra.Ring.Nat
import Mathlib.Data.List.Basic

/-!
# Spans of addresses

A region is held as a list of spans in ascending order with gaps between them.  Giving a
span back joins it with its neighbours.  Such a list is a normal form: two of them that
cover the same addresses are equal.
-/

namespace SunWise.Library

/-- Consecutive addresses. -/
structure Span where
  start : Nat
  size : Nat
  deriving DecidableEq, Repr

namespace Span

variable (span other : Span)

/-- The address behind a span. -/
def stop : Nat :=
  span.start + span.size

def Covers (address : Nat) : Prop :=
  span.start ≤ address ∧ address < span.stop

/-- Two spans have no address in common. -/
def Apart : Prop :=
  span.stop ≤ other.start ∨ other.stop ≤ span.start

@[simp] theorem covers_iff (address : Nat) :
    span.Covers address ↔ span.start ≤ address ∧ address < span.start + span.size := Iff.rfl

variable {span other}

theorem Apart.symm (apart : span.Apart other) : other.Apart span :=
  Or.symm apart

end Span

/-- One of the spans covers the address. -/
def Covered (spans : List Span) (address : Nat) : Prop :=
  ∃ span ∈ spans, span.Covers address

/-- How many addresses are covered. -/
def totalSize (spans : List Span) : Nat :=
  (spans.map Span.size).sum

@[simp] theorem covered_nil (address : Nat) : ¬ Covered [] address := by
  rintro ⟨span, isIn, -⟩
  exact absurd isIn List.not_mem_nil

@[simp] theorem covered_cons (span : Span) (spans : List Span) (address : Nat) :
    Covered (span :: spans) address ↔ span.Covers address ∨ Covered spans address := by
  simp only [Covered, List.mem_cons, or_and_right, exists_or, exists_eq_left]

@[simp] theorem covered_append (front back : List Span) (address : Nat) :
    Covered (front ++ back) address ↔ Covered front address ∨ Covered back address := by
  simp only [Covered, List.mem_append, or_and_right, exists_or]

@[simp] theorem totalSize_nil : totalSize [] = 0 := rfl

@[simp] theorem totalSize_cons (span : Span) (spans : List Span) :
    totalSize (span :: spans) = span.size + totalSize spans := rfl

@[simp] theorem totalSize_append (front back : List Span) :
    totalSize (front ++ back) = totalSize front + totalSize back := by
  rw [totalSize, List.map_append, List.sum_append]
  rfl

/-- The spans are in ascending order, with gaps between them. -/
structure Separated (spans : List Span) : Prop where
  positive : ∀ span ∈ spans, 0 < span.size
  gaps : spans.Pairwise fun front back => front.stop < back.start

theorem separated_nil : Separated [] :=
  ⟨List.forall_mem_nil _, List.Pairwise.nil⟩

theorem separated_cons {span : Span} {spans : List Span} :
    Separated (span :: spans) ↔
      (0 < span.size ∧ ∀ other ∈ spans, span.stop < other.start) ∧ Separated spans := by
  constructor
  · rintro ⟨positive, gaps⟩
    rw [List.forall_mem_cons] at positive
    rw [List.pairwise_cons] at gaps
    exact ⟨⟨positive.1, gaps.1⟩, positive.2, gaps.2⟩
  · rintro ⟨⟨positive, gap⟩, rest⟩
    exact ⟨List.forall_mem_cons.mpr ⟨positive, rest.positive⟩,
      List.pairwise_cons.mpr ⟨gap, rest.gaps⟩⟩

theorem Separated.sublist {spans others : List Span} (separated : Separated spans)
    (isSublist : others.Sublist spans) : Separated others :=
  ⟨fun span isIn => separated.positive span (isSublist.subset isIn),
    separated.gaps.sublist isSublist⟩

theorem Separated.totalSize_le {spans : List Span} {first last : Nat}
    (separated : Separated spans)
    (inside : ∀ span ∈ spans, first ≤ span.start ∧ span.stop ≤ last) :
    totalSize spans ≤ last - first := by
  induction spans generalizing first with
  | nil => exact Nat.zero_le _
  | cons span spans ih =>
      rcases separated_cons.mp separated with ⟨⟨-, gap⟩, later⟩
      rw [List.forall_mem_cons] at inside
      have rest := ih later fun other isIn => ⟨(gap other isIn).le, (inside.2 other isIn).2⟩
      have bounds := inside.1
      rw [Span.stop] at bounds rest
      rw [totalSize_cons]
      omega

theorem Separated.length_le {spans : List Span} {first last : Nat}
    (separated : Separated spans)
    (inside : ∀ span ∈ spans, first ≤ span.start ∧ span.stop ≤ last) :
    spans.length ≤ last - first := by
  refine Nat.le_trans ?_ (separated.totalSize_le inside)
  have positive := separated.positive
  clear separated inside
  induction spans with
  | nil => exact Nat.zero_le _
  | cons span spans ih =>
      rw [List.forall_mem_cons] at positive
      rw [List.length_cons, totalSize_cons, Nat.add_comm]
      exact Nat.add_le_add positive.1 (ih positive.2)

/-- A span in front of the others, joined with the first one if it reaches it. -/
def joinNext (span : Span) : List Span → List Span
  | [] => [span]
  | next :: rest =>
      if span.stop = next.start then ⟨span.start, span.size + next.size⟩ :: rest
      else span :: next :: rest

/-- A span at its place between the others, joined with those that it touches. -/
def insertSpan (span : Span) : List Span → List Span
  | [] => [span]
  | first :: rest =>
      if span.start ≤ first.start then joinNext span (first :: rest)
      else if first.stop = span.start then joinNext ⟨first.start, first.size + span.size⟩ rest
      else first :: insertSpan span rest

section Insert

variable {span : Span} {spans : List Span}

theorem covered_joinNext (span : Span) (spans : List Span) (address : Nat) :
    Covered (joinNext span spans) address ↔ span.Covers address ∨ Covered spans address := by
  cases spans with
  | nil => simp [joinNext]
  | cons next rest =>
      rw [joinNext]
      split
      next touches =>
        simp only [covered_cons, Span.covers_iff, ← or_assoc, Span.stop] at touches ⊢
        refine or_congr_left ?_
        omega
      next => exact covered_cons ..

theorem covered_insertSpan (span : Span) (spans : List Span) (address : Nat) :
    Covered (insertSpan span spans) address ↔ span.Covers address ∨ Covered spans address := by
  induction spans with
  | nil => simp [insertSpan]
  | cons first rest ih =>
      rw [insertSpan]
      split
      next => exact covered_joinNext ..
      next =>
        split
        next touches =>
          simp only [covered_joinNext, covered_cons, Span.covers_iff, ← or_assoc,
            Span.stop] at touches ⊢
          refine or_congr_left ?_
          omega
        next =>
          rw [covered_cons, ih, covered_cons]
          exact or_left_comm

theorem totalSize_joinNext (span : Span) (spans : List Span) :
    totalSize (joinNext span spans) = span.size + totalSize spans := by
  cases spans with
  | nil => rfl
  | cons next rest =>
      rw [joinNext]
      split
      next => exact Nat.add_assoc ..
      next => rfl

theorem totalSize_insertSpan (span : Span) (spans : List Span) :
    totalSize (insertSpan span spans) = span.size + totalSize spans := by
  induction spans with
  | nil => rfl
  | cons first rest ih =>
      rw [insertSpan]
      split
      next => exact totalSize_joinNext ..
      next =>
        split
        next =>
          rw [totalSize_joinNext, totalSize_cons]
          dsimp only
          omega
        next =>
          rw [totalSize_cons, ih, totalSize_cons]
          omega

/-- Spans behind a new one that they are apart from. -/
theorem Separated.joinNext (separated : Separated spans) (positive : 0 < span.size)
    (behind : ∀ other ∈ spans, span.stop ≤ other.start) : Separated (joinNext span spans) := by
  cases spans with
  | nil => exact separated_cons.mpr ⟨⟨positive, List.forall_mem_nil _⟩, separated_nil⟩
  | cons next rest =>
      rcases separated_cons.mp separated with ⟨⟨nextPositive, gap⟩, later⟩
      rw [Library.joinNext]
      split
      next touches =>
        refine separated_cons.mpr ⟨⟨Nat.add_pos_left positive _, fun other isIn => ?_⟩, later⟩
        have further := gap other isIn
        simp only [Span.stop] at touches further ⊢
        omega
      next apart =>
        refine separated_cons.mpr ⟨⟨positive, fun other isIn => ?_⟩, separated⟩
        have nearest := behind next List.mem_cons_self
        rcases List.mem_cons.mp isIn with rfl | isIn
        · exact Nat.lt_of_le_of_ne nearest apart
        · have further := gap other isIn
          simp only [Span.stop] at nearest further ⊢
          omega

/-- A new span keeps the order and the gaps. -/
theorem Separated.insertSpan (separated : Separated spans) (positive : 0 < span.size)
    (apart : ∀ other ∈ spans, span.Apart other) : Separated (insertSpan span spans) := by
  induction spans with
  | nil => exact separated_cons.mpr ⟨⟨positive, List.forall_mem_nil _⟩, separated_nil⟩
  | cons first rest ih =>
      rcases separated_cons.mp separated with ⟨⟨firstPositive, gap⟩, later⟩
      have beside := apart first List.mem_cons_self
      have others := fun other isIn => apart other (List.mem_cons_of_mem first isIn)
      simp only [Span.Apart, Span.stop] at beside others gap
      rw [Library.insertSpan]
      split
      next before =>
        refine separated.joinNext positive fun other isIn => ?_
        rw [Span.stop]
        rcases List.mem_cons.mp isIn with rfl | isIn
        · omega
        · have further := gap other isIn
          omega
      next after =>
        split
        next touches =>
          rw [Span.stop] at touches
          refine later.joinNext (Nat.add_pos_left firstPositive _) fun other isIn => ?_
          have further := gap other isIn
          have aside := others other isIn
          rw [Span.stop]
          dsimp only
          omega
        next gapped =>
          have inserted := ih later others
          refine separated_cons.mpr ⟨⟨firstPositive, fun other isIn => ?_⟩, inserted⟩
          -- the start of a span of the result is covered by one of the old ones
          have covered : Covered (Library.insertSpan span rest) other.start :=
            ⟨other, isIn, Nat.le_refl _, Nat.lt_add_of_pos_right (inserted.positive other isIn)⟩
          rw [Span.stop] at gapped
          rw [Span.stop]
          rcases (covered_insertSpan ..).mp covered with ⟨start, -⟩ | ⟨old, isOld, start, -⟩
          · omega
          · have further := gap old isOld
            omega

theorem Separated.inside_insertSpan {first last : Nat}
    (separated : Separated (Library.insertSpan span spans))
    (inside : ∀ other ∈ spans, first ≤ other.start ∧ other.stop ≤ last)
    (spanInside : first ≤ span.start ∧ span.stop ≤ last) :
    ∀ other ∈ Library.insertSpan span spans, first ≤ other.start ∧ other.stop ≤ last := by
  have bounds : ∀ address, Covered (Library.insertSpan span spans) address →
      first ≤ address ∧ address < last := by
    intro address covered
    rcases (covered_insertSpan ..).mp covered with covers | ⟨other, isIn, covers⟩
    · exact ⟨spanInside.1.trans covers.1, covers.2.trans_le spanInside.2⟩
    · exact ⟨(inside other isIn).1.trans covers.1, covers.2.trans_le (inside other isIn).2⟩
  intro other isIn
  have positive := separated.positive other isIn
  have firstBound := bounds other.start ⟨other, isIn, Nat.le_refl _,
    Nat.lt_add_of_pos_right positive⟩
  have lastBound := bounds (other.stop - 1) ⟨other, isIn, by rw [Span.stop]; omega,
    Nat.sub_lt (Nat.lt_of_lt_of_le positive (Nat.le_add_left _ _)) Nat.one_pos⟩
  exact ⟨firstBound.1, by omega⟩

/-- A span behind some that it does not touch, and in front of the others. -/
theorem insertSpan_append {front back : List Span}
    (before : ∀ other ∈ front, other.stop < span.start)
    (after : ∀ other ∈ back, span.start ≤ other.start) :
    insertSpan span (front ++ back) = front ++ joinNext span back := by
  induction front with
  | nil =>
      cases back with
      | nil => rfl
      | cons next rest =>
          rw [List.nil_append, Library.insertSpan, if_pos (after next List.mem_cons_self)]
          rfl
  | cons first rest ih =>
      rw [List.forall_mem_cons] at before
      have gap := before.1
      rw [Span.stop] at gap
      rw [List.cons_append, Library.insertSpan, if_neg (by omega),
        if_neg (Nat.ne_of_lt before.1), ih before.2, List.cons_append]

/-- A span that touches the one in front of it. -/
theorem insertSpan_append_cons {front back : List Span} {previous : Span}
    (before : ∀ other ∈ front, other.stop < span.start) (positive : 0 < previous.size)
    (touches : previous.stop = span.start) :
    insertSpan span (front ++ previous :: back) =
      front ++ joinNext ⟨previous.start, previous.size + span.size⟩ back := by
  induction front with
  | nil =>
      have behind : ¬ span.start ≤ previous.start := by
        rw [Span.stop] at touches
        omega
      rw [List.nil_append, Library.insertSpan, if_neg behind, if_pos touches]
      rfl
  | cons first rest ih =>
      rw [List.forall_mem_cons] at before
      have gap := before.1
      rw [Span.stop] at gap
      rw [List.cons_append, Library.insertSpan, if_neg (by omega),
        if_neg (Nat.ne_of_lt before.1), ih before.2, List.cons_append]

/-- A span that the others are apart from has its place between them. -/
theorem Separated.exists_place (separated : Separated spans)
    (apart : ∀ other ∈ spans, span.Apart other) :
    ∃ front back, spans = front ++ back ∧ (∀ other ∈ front, other.stop ≤ span.start) ∧
      ∀ other ∈ back, span.stop ≤ other.start := by
  induction spans with
  | nil => exact ⟨[], [], rfl, List.forall_mem_nil _, List.forall_mem_nil _⟩
  | cons first rest ih =>
      rcases separated_cons.mp separated with ⟨⟨firstPositive, gap⟩, later⟩
      rcases apart first List.mem_cons_self with before | after
      · refine ⟨[], first :: rest, rfl, List.forall_mem_nil _, ?_⟩
        refine List.forall_mem_cons.mpr ⟨before, fun other isIn => ?_⟩
        have further := gap other isIn
        rw [Span.stop] at further
        omega
      · rcases ih later fun other isIn => apart other (List.mem_cons_of_mem first isIn) with
          ⟨front, back, rfl, isFront, isBack⟩
        exact ⟨first :: front, back, rfl, List.forall_mem_cons.mpr ⟨after, isFront⟩, isBack⟩

end Insert

/-! ## A normal form -/

theorem Separated.le_of_covered {span : Span} {spans : List Span}
    (separated : Separated (span :: spans)) {address : Nat}
    (covered : Covered (span :: spans) address) : span.start ≤ address := by
  rcases (covered_cons ..).mp covered with covers | ⟨other, isIn, covers⟩
  · exact covers.1
  · have gap := (separated_cons.mp separated).1.2 other isIn
    exact (Nat.le_add_right _ _).trans (gap.le.trans covers.1)

/-- A first span reaches no further than the other list allows. -/
theorem Separated.stop_le {span other : Span} {others : List Span}
    (right : Separated (other :: others)) (same : span.start = other.start)
    (covered : ∀ address, span.Covers address → Covered (other :: others) address) :
    span.stop ≤ other.stop := by
  by_contra beyond
  rcases separated_cons.mp right with ⟨⟨positive, gap⟩, later⟩
  have inside : span.Covers other.stop := by
    rw [Span.covers_iff]
    simp only [Span.stop] at beyond ⊢
    omega
  rcases (covered_cons ..).mp (covered _ inside) with covers | ⟨next, isIn, covers⟩
  · exact Nat.lt_irrefl _ covers.2
  · exact absurd covers.1 (Nat.not_le.mpr (gap next isIn))

/-- Separated spans that cover the same addresses are the same. -/
theorem Separated.ext {left right : List Span} (isLeft : Separated left)
    (isRight : Separated right) (same : ∀ address, Covered left address ↔ Covered right address) :
    left = right := by
  induction left generalizing right with
  | nil =>
      cases right with
      | nil => rfl
      | cons span spans =>
          have covered : Covered (span :: spans) span.start := (covered_cons ..).mpr <| Or.inl
            ⟨Nat.le_refl _, Nat.lt_add_of_pos_right (isRight.positive _ List.mem_cons_self)⟩
          exact absurd ((same _).mpr covered) (covered_nil _)
  | cons span spans ih =>
      have spanPositive := isLeft.positive _ List.mem_cons_self
      have covered : Covered (span :: spans) span.start := (covered_cons ..).mpr <| Or.inl
        ⟨Nat.le_refl _, Nat.lt_add_of_pos_right spanPositive⟩
      cases right with
      | nil => exact absurd ((same _).mp covered) (covered_nil _)
      | cons other others =>
          have otherPositive := isRight.positive _ List.mem_cons_self
          have coveredToo : Covered (other :: others) other.start := (covered_cons ..).mpr <| Or.inl
            ⟨Nat.le_refl _, Nat.lt_add_of_pos_right otherPositive⟩
          have start : span.start = other.start := Nat.le_antisymm
            (isLeft.le_of_covered ((same _).mpr coveredToo))
            (isRight.le_of_covered ((same _).mp covered))
          have stop : span.stop = other.stop := by
            apply Nat.le_antisymm
            · exact isRight.stop_le start fun address covers =>
                (same _).mp ((covered_cons ..).mpr (Or.inl covers))
            · exact isLeft.stop_le start.symm fun address covers =>
                (same _).mpr ((covered_cons ..).mpr (Or.inl covers))
          have isSpan : span = other := by
            cases span
            cases other
            simp only [Span.stop] at start stop
            rw [Span.mk.injEq]
            exact ⟨start, by omega⟩
          subst isSpan
          rcases separated_cons.mp isLeft with ⟨⟨-, leftGap⟩, leftLater⟩
          rcases separated_cons.mp isRight with ⟨⟨-, rightGap⟩, rightLater⟩
          refine congrArg _ (ih leftLater rightLater fun address => ?_)
          have both := same address
          rw [covered_cons, covered_cons] at both
          have notLeft : Covered spans address → ¬ span.Covers address := by
            rintro ⟨later, isIn, covers⟩ first
            exact Nat.lt_irrefl _ ((first.2.trans (leftGap later isIn)).trans_le covers.1)
          have notRight : Covered others address → ¬ span.Covers address := by
            rintro ⟨later, isIn, covers⟩ first
            exact Nat.lt_irrefl _ ((first.2.trans (rightGap later isIn)).trans_le covers.1)
          constructor
          · intro isCovered
            exact (both.mp (Or.inr isCovered)).resolve_left (notLeft isCovered)
          · intro isCovered
            exact (both.mpr (Or.inr isCovered)).resolve_left (notRight isCovered)

end SunWise.Library
