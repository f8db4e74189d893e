import SunWise.Library.Spans

/-!
# Allocation from a region

A region is divided into free spans, which are separated, and spans that are held.  A span
is taken from the first free one that is large enough, and given back to the free ones.
Once nothing is held, a single free span is left.
-/

namespace SunWise.Library

/-- The first span that is large enough is taken, or its front part if what is left behind it
is larger than `least`. -/
def takeSpan (wanted least : Nat) : List Span → Option (Span × List Span)
  | [] => none
  | first :: rest =>
      if first.size < wanted then
        (takeSpan wanted least rest).map fun taken => (taken.1, first :: taken.2)
      else if least < first.size - wanted then
        some (⟨first.start, wanted⟩, ⟨first.start + wanted, first.size - wanted⟩ :: rest)
      else some (first, rest)

section Take

variable {wanted least : Nat} {spans left : List Span} {taken : Span}

theorem takeSpan_cons_of_lt {first : Span} (small : first.size < wanted) :
    takeSpan wanted least (first :: spans) =
      (takeSpan wanted least spans).map fun taken => (taken.1, first :: taken.2) := by
  rw [takeSpan, if_pos small]

theorem takeSpan_eq_none_iff :
    takeSpan wanted least spans = none ↔ ∀ span ∈ spans, span.size < wanted := by
  induction spans with
  | nil => simp [takeSpan]
  | cons first rest ih =>
      rw [List.forall_mem_cons]
      by_cases small : first.size < wanted
      · rw [takeSpan_cons_of_lt small, Option.map_eq_none_iff, ih]
        exact ⟨fun others => ⟨small, others⟩, And.right⟩
      · rw [takeSpan, if_neg small]
        split <;> simp [small]

/-- The span that is taken lies at the front of the first one that is large enough. -/
theorem exists_of_takeSpan (takes : takeSpan wanted least spans = some (taken, left)) :
    ∃ front whole back, spans = front ++ whole :: back ∧
      (∀ other ∈ front, other.size < wanted) ∧ wanted ≤ whole.size ∧
      (least < whole.size - wanted ∧ taken = ⟨whole.start, wanted⟩ ∧
          left = front ++ ⟨whole.start + wanted, whole.size - wanted⟩ :: back ∨
        whole.size - wanted ≤ least ∧ taken = whole ∧ left = front ++ back) := by
  induction spans generalizing left with
  | nil => cases takes
  | cons first rest ih =>
      by_cases small : first.size < wanted
      · rw [takeSpan_cons_of_lt small, Option.map_eq_some_iff] at takes
        obtain ⟨⟨span, others⟩, takes, isBoth⟩ := takes
        cases isBoth
        obtain ⟨front, whole, back, rfl, tooSmall, enough, cut⟩ := ih takes
        refine ⟨first :: front, whole, back, rfl,
          List.forall_mem_cons.mpr ⟨small, tooSmall⟩, enough, ?_⟩
        rcases cut with ⟨larger, rfl, rfl⟩ | ⟨notLarger, rfl, rfl⟩
        · exact Or.inl ⟨larger, rfl, rfl⟩
        · exact Or.inr ⟨notLarger, rfl, rfl⟩
      · refine ⟨[], first, rest, rfl, List.forall_mem_nil _, Nat.not_lt.mp small, ?_⟩
        rw [takeSpan, if_neg small] at takes
        split at takes
        next larger =>
          cases takes
          exact Or.inl ⟨larger, rfl, rfl⟩
        next notLarger =>
          cases takes
          exact Or.inr ⟨Nat.not_lt.mp notLarger, rfl, rfl⟩

theorem le_size_of_takeSpan (takes : takeSpan wanted least spans = some (taken, left)) :
    wanted ≤ taken.size := by
  obtain ⟨front, whole, back, -, -, enough, cut⟩ := exists_of_takeSpan takes
  rcases cut with ⟨-, rfl, -⟩ | ⟨-, rfl, -⟩
  · exact Nat.le_refl _
  · exact enough

theorem size_le_of_takeSpan (takes : takeSpan wanted least spans = some (taken, left)) :
    taken.size ≤ wanted + least := by
  obtain ⟨front, whole, back, -, -, enough, cut⟩ := exists_of_takeSpan takes
  rcases cut with ⟨-, rfl, -⟩ | ⟨notLarger, rfl, -⟩
  · exact Nat.le_add_right _ _
  · omega

theorem totalSize_takeSpan (takes : takeSpan wanted least spans = some (taken, left)) :
    taken.size + totalSize left = totalSize spans := by
  obtain ⟨front, whole, back, rfl, -, enough, cut⟩ := exists_of_takeSpan takes
  rcases cut with ⟨-, rfl, rfl⟩ | ⟨-, rfl, rfl⟩
  · simp only [totalSize_append, totalSize_cons]
    omega
  · simp only [totalSize_append, totalSize_cons]
    omega

theorem covered_takeSpan (takes : takeSpan wanted least spans = some (taken, left))
    (address : Nat) :
    Covered spans address ↔ taken.Covers address ∨ Covered left address := by
  obtain ⟨front, whole, back, rfl, -, enough, cut⟩ := exists_of_takeSpan takes
  rcases cut with ⟨-, rfl, rfl⟩ | ⟨-, rfl, rfl⟩
  · have parts : whole.Covers address ↔ Span.Covers ⟨whole.start, wanted⟩ address ∨
        Span.Covers ⟨whole.start + wanted, whole.size - wanted⟩ address := by
      simp only [Span.covers_iff]
      omega
    simp only [covered_append, covered_cons, parts]
    tauto
  · simp only [covered_append, covered_cons]
    tauto

/-- Taking keeps the order and the gaps, and what is taken is apart from the rest. -/
theorem Separated.takeSpan (separated : Separated spans)
    (takes : takeSpan wanted least spans = some (taken, left)) :
    Separated left ∧ ∀ other ∈ left, taken.Apart other := by
  obtain ⟨front, whole, back, rfl, -, enough, cut⟩ := exists_of_takeSpan takes
  have gaps := List.pairwise_append.mp separated.gaps
  have backGaps := List.pairwise_cons.mp gaps.2.1
  rcases cut with ⟨larger, rfl, rfl⟩ | ⟨-, rfl, rfl⟩
  · -- the rest of the first span that is large enough stays at its place
    have rest : whole.start + wanted + (whole.size - wanted) = whole.stop := by
      rw [Span.stop]
      omega
    refine ⟨⟨?_, List.pairwise_append.mpr ⟨gaps.1, List.pairwise_cons.mpr ⟨?_, backGaps.2⟩, ?_⟩⟩,
      List.forall_mem_append.mpr ⟨?_, List.forall_mem_cons.mpr ⟨?_, ?_⟩⟩⟩
    · have positive := separated.positive
      rw [List.forall_mem_append, List.forall_mem_cons] at positive ⊢
      exact ⟨positive.1, Nat.lt_of_le_of_lt (Nat.zero_le _) larger, positive.2.2⟩
    · intro other isOther
      rw [Span.stop, rest]
      exact backGaps.1 other isOther
    · intro other isFront
      refine List.forall_mem_cons.mpr ⟨?_, fun behind isBehind =>
        gaps.2.2 other isFront behind (List.mem_cons_of_mem _ isBehind)⟩
      exact Nat.lt_add_right wanted (gaps.2.2 other isFront whole List.mem_cons_self)
    · intro other isFront
      exact Or.inr (gaps.2.2 other isFront whole List.mem_cons_self).le
    · exact Or.inl (Nat.le_refl _)
    · intro other isBack
      have gap := backGaps.1 other isBack
      rw [Span.stop] at gap
      exact Or.inl (by rw [Span.stop]; dsimp only; omega)
  · refine ⟨separated.sublist ?_, List.forall_mem_append.mpr ⟨?_, ?_⟩⟩
    · exact List.Sublist.append_left (List.sublist_cons_self ..) front
    · intro other isFront
      exact Or.inr (gaps.2.2 other isFront _ List.mem_cons_self).le
    · intro other isBack
      exact Or.inl (backGaps.1 other isBack).le

end Take

/-! ## The division of a region -/

/-- Two spans that are not empty are apart if they cover no address both. -/
theorem Span.apart_iff {span other : Span} (positive : 0 < span.size)
    (otherPositive : 0 < other.size) :
    span.Apart other ↔ ∀ address, span.Covers address → ¬ other.Covers address := by
  simp only [Span.Apart, Span.covers_iff, Span.stop]
  constructor
  · intro apart address covers
    omega
  · intro never
    have first := never span.start
    have second := never other.start
    omega

/-- A span is made of whole units. -/
def Span.Aligned (unit : Nat) (span : Span) : Prop :=
  unit ∣ span.start ∧ unit ∣ span.size

/-- The addresses from `first` to `last` are free or held. -/
structure Partition (unit first last : Nat) (free held : List Span) : Prop where
  separated : Separated free
  positive : ∀ span ∈ held, 0 < span.size
  apart : held.Pairwise Span.Apart
  notFree : ∀ span ∈ held, ∀ other ∈ free, span.Apart other
  covered : ∀ address, Covered free address ∨ Covered held address ↔
    first ≤ address ∧ address < last
  sizes : totalSize free + totalSize held = last - first
  aligned : ∀ span ∈ free ++ held, span.Aligned unit

namespace Partition

variable {unit first last wanted least : Nat} {free held left : List Span} {span taken : Span}

theorem apart_of_covered {spans : List Span} (positive : 0 < span.size)
    (allPositive : ∀ other ∈ spans, 0 < other.size) :
    (∀ other ∈ spans, span.Apart other) ↔
      ∀ address, span.Covers address → ¬ Covered spans address := by
  constructor
  · rintro apart address covers ⟨other, isIn, coversToo⟩
    exact (Span.apart_iff positive (allPositive other isIn)).mp (apart other isIn) address
      covers coversToo
  · intro never other isIn
    rw [Span.apart_iff positive (allPositive other isIn)]
    exact fun address covers coversToo => never address covers ⟨other, isIn, coversToo⟩

theorem start (nonempty : first < last) (isFirst : unit ∣ first) (isLast : unit ∣ last) :
    Partition unit first last [⟨first, last - first⟩] [] where
  separated := separated_cons.mpr
    ⟨⟨Nat.sub_pos_of_lt nonempty, List.forall_mem_nil _⟩, separated_nil⟩
  positive := List.forall_mem_nil _
  apart := List.Pairwise.nil
  notFree := List.forall_mem_nil _
  covered address := by
    simp only [covered_cons, covered_nil, or_false, Span.covers_iff]
    omega
  sizes := rfl
  aligned := List.forall_mem_singleton.mpr ⟨isFirst, Nat.dvd_sub isLast isFirst⟩

theorem perm {others : List Span} (partition : Partition unit first last free held)
    (same : held.Perm others) : Partition unit first last free others where
  separated := partition.separated
  positive span isIn := partition.positive span (same.mem_iff.mpr isIn)
  apart := (same.pairwise_iff fun apart => Span.Apart.symm apart).mp partition.apart
  notFree span isIn := partition.notFree span (same.mem_iff.mpr isIn)
  covered address := by
    rw [← partition.covered]
    simp only [Covered, same.mem_iff]
  sizes := by
    rw [← partition.sizes, totalSize, totalSize, totalSize, (same.map Span.size).sum_eq]
  aligned span isIn := by
    refine partition.aligned span ?_
    rwa [List.mem_append, same.mem_iff, ← List.mem_append]

theorem take (partition : Partition unit first last free held) (positive : 0 < wanted)
    (whole : unit ∣ wanted) (takes : takeSpan wanted least free = some (taken, left)) :
    Partition unit first last left (taken :: held) := by
  have split := partition.separated.takeSpan takes
  have takenPositive := positive.trans_le (le_size_of_takeSpan takes)
  have freeCovered := covered_takeSpan takes
  constructor
  case separated => exact split.1
  case positive => exact List.forall_mem_cons.mpr ⟨takenPositive, partition.positive⟩
  case apart =>
    refine List.pairwise_cons.mpr ⟨?_, partition.apart⟩
    rw [apart_of_covered takenPositive partition.positive]
    rintro address covers ⟨other, isHeld, coversToo⟩
    refine (apart_of_covered (partition.positive other isHeld) partition.separated.positive).mp
      (partition.notFree other isHeld) address coversToo ?_
    exact (freeCovered address).mpr (Or.inl covers)
  case notFree =>
    refine List.forall_mem_cons.mpr ⟨split.2, fun other isHeld => ?_⟩
    rw [apart_of_covered (partition.positive other isHeld) split.1.positive]
    intro address covers isLeft
    refine (apart_of_covered (partition.positive other isHeld) partition.separated.positive).mp
      (partition.notFree other isHeld) address covers ?_
    exact (freeCovered address).mpr (Or.inr isLeft)
  case covered =>
    intro address
    rw [← partition.covered, freeCovered, covered_cons]
    tauto
  case sizes =>
    have total := totalSize_takeSpan takes
    have sizes := partition.sizes
    rw [totalSize_cons]
    omega
  case aligned =>
    have aligned := partition.aligned
    obtain ⟨front, span, back, rfl, -, enough, cut⟩ := exists_of_takeSpan takes
    simp only [List.forall_mem_append, List.forall_mem_cons] at aligned ⊢
    obtain ⟨⟨isFront, isSpan, isBack⟩, isHeld⟩ := aligned
    rcases cut with ⟨-, rfl, rfl⟩ | ⟨-, rfl, rfl⟩
    · rw [List.forall_mem_append, List.forall_mem_cons]
      refine ⟨⟨isFront, ⟨?_, ?_⟩, isBack⟩, ⟨isSpan.1, whole⟩, isHeld⟩
      · exact Nat.dvd_add isSpan.1 whole
      · exact Nat.dvd_sub isSpan.2 whole
    · rw [List.forall_mem_append]
      exact ⟨⟨isFront, isBack⟩, isSpan, isHeld⟩

theorem aligned_joinNext (isSpan : span.Aligned unit)
    (others : ∀ other ∈ free, other.Aligned unit) :
    ∀ other ∈ joinNext span free, other.Aligned unit := by
  cases free with
  | nil => exact List.forall_mem_singleton.mpr isSpan
  | cons next rest =>
      rw [List.forall_mem_cons] at others
      rw [joinNext]
      split
      next => exact List.forall_mem_cons.mpr ⟨⟨isSpan.1, Nat.dvd_add isSpan.2 others.1.2⟩, others.2⟩
      next =>
        exact List.forall_mem_cons.mpr ⟨isSpan, List.forall_mem_cons.mpr others⟩

theorem aligned_insertSpan (isSpan : span.Aligned unit)
    (others : ∀ other ∈ free, other.Aligned unit) :
    ∀ other ∈ insertSpan span free, other.Aligned unit := by
  induction free with
  | nil => exact List.forall_mem_singleton.mpr isSpan
  | cons next rest ih =>
      rw [insertSpan]
      have later := (List.forall_mem_cons.mp others).2
      have isNext := (List.forall_mem_cons.mp others).1
      split
      next => exact aligned_joinNext isSpan others
      next =>
        split
        next => exact aligned_joinNext ⟨isNext.1, Nat.dvd_add isNext.2 isSpan.2⟩ later
        next => exact List.forall_mem_cons.mpr ⟨isNext, ih later⟩

theorem give (partition : Partition unit first last free (span :: held)) :
    Partition unit first last (insertSpan span free) held := by
  have positive := List.forall_mem_cons.mp partition.positive
  have apart := List.pairwise_cons.mp partition.apart
  have notFree := List.forall_mem_cons.mp partition.notFree
  have separated := partition.separated.insertSpan positive.1 notFree.1
  constructor
  case separated => exact separated
  case positive => exact positive.2
  case apart => exact apart.2
  case notFree =>
    intro other isHeld
    have otherPositive := positive.2 other isHeld
    rw [apart_of_covered otherPositive separated.positive]
    intro address covers isFree
    rcases (covered_insertSpan ..).mp isFree with coversToo | isFree
    · exact (Span.apart_iff positive.1 otherPositive).mp (apart.1 other isHeld) address
        coversToo covers
    · exact (apart_of_covered otherPositive partition.separated.positive).mp
        (notFree.2 other isHeld) address covers isFree
  case covered =>
    intro address
    rw [← partition.covered, covered_insertSpan, covered_cons]
    tauto
  case sizes =>
    rw [← partition.sizes, totalSize_insertSpan, totalSize_cons]
    omega
  case aligned =>
    have aligned := partition.aligned
    simp only [List.forall_mem_append, List.forall_mem_cons] at aligned ⊢
    exact ⟨aligned_insertSpan aligned.2.1 aligned.1, aligned.2.2⟩

theorem inside_held (partition : Partition unit first last free held) (isHeld : span ∈ held) :
    first ≤ span.start ∧ span.stop ≤ last := by
  have positive := partition.positive span isHeld
  have start := (partition.covered span.start).mp
    (Or.inr ⟨span, isHeld, Nat.le_refl _, Nat.lt_add_of_pos_right positive⟩)
  have stop := (partition.covered (span.stop - 1)).mp
    (Or.inr ⟨span, isHeld, by rw [Span.stop]; omega, by rw [Span.stop]; omega⟩)
  exact ⟨start.1, by omega⟩

theorem inside_free (partition : Partition unit first last free held) (isFree : span ∈ free) :
    first ≤ span.start ∧ span.stop ≤ last := by
  have positive := partition.separated.positive span isFree
  have start := (partition.covered span.start).mp
    (Or.inl ⟨span, isFree, Nat.le_refl _, Nat.lt_add_of_pos_right positive⟩)
  have stop := (partition.covered (span.stop - 1)).mp
    (Or.inl ⟨span, isFree, by rw [Span.stop]; omega, by rw [Span.stop]; omega⟩)
  exact ⟨start.1, by omega⟩

theorem not_free_stop (separated : Separated free) (isFree : span ∈ free) :
    ¬ Covered free span.stop := by
  rintro ⟨other, isOther, covers⟩
  obtain ⟨front, back, rfl⟩ := List.append_of_mem isFree
  have gaps := List.pairwise_append.mp separated.gaps
  rcases List.mem_append.mp isOther with isFront | isBack
  · have gap := gaps.2.2 other isFront span List.mem_cons_self
    exact Nat.lt_asymm (gap.trans_le (Nat.le_add_right _ _)) covers.2
  · rcases List.mem_cons.mp isBack with rfl | isBack
    · exact Nat.lt_irrefl _ covers.2
    · exact Nat.not_le.mpr ((List.pairwise_cons.mp gaps.2.1).1 other isBack) covers.1

/-- A free span is followed by the end of the region, or by a span that is held and follows
no other. -/
theorem length_le (partition : Partition unit first last free held) :
    free.length ≤ held.length + 1 := by
  have follower : ∀ span, span ∈ free → ∃ behind ∈ none :: held.map some,
      (behind = none → span.stop = last) ∧
        ∀ other, behind = some other → other.Covers span.stop := by
    intro span isFree
    by_cases isLast : span.stop = last
    · exact ⟨none, List.mem_cons_self, fun _ => isLast,
        fun other isSome => absurd isSome.symm (Option.some_ne_none other)⟩
    · have inside := partition.inside_free isFree
      have before : span.stop < last := Nat.lt_of_le_of_ne inside.2 isLast
      have after : first ≤ span.stop := inside.1.trans (Nat.le_add_right _ _)
      rcases (partition.covered _).mpr ⟨after, before⟩ with isFreeToo | ⟨other, isHeld, covers⟩
      · exact absurd isFreeToo (not_free_stop partition.separated isFree)
      · refine ⟨some other, List.mem_cons_of_mem _ (List.mem_map_of_mem isHeld), ⟨?_, ?_⟩⟩
        · exact fun isNone => absurd isNone (Option.some_ne_none _)
        rintro _ ⟨⟩
        exact covers
  choose! behind isIn atEnd covers using follower
  have distinct : (free.map behind).Nodup := by
    refine List.pairwise_map.mpr (partition.separated.gaps.imp_of_mem ?_)
    intro span other isFree isFreeToo gap same
    have positive := partition.separated.positive other isFreeToo
    cases isBehind : behind span with
    | none =>
        have one := atEnd span isFree isBehind
        have two := atEnd other isFreeToo (same ▸ isBehind)
        rw [Span.stop] at two
        omega
    | some holder =>
        -- one span behind both would lie over the second one
        have one := covers span isFree holder isBehind
        have two := covers other isFreeToo holder (same ▸ isBehind)
        have isHolder : holder ∈ held := by
          rcases List.mem_cons.mp (isIn span isFree) with isNone | isSome
          · rw [isBehind] at isNone
            cases isNone
          · rw [isBehind] at isSome
            rcases List.mem_map.mp isSome with ⟨_, isHeld, ⟨⟩⟩
            exact isHeld
        have apart := partition.notFree holder isHolder other isFreeToo
        simp only [Span.Apart, Span.covers_iff, Span.stop] at apart one two gap
        omega
  have subset : free.map behind ⊆ none :: held.map some := by
    intro behind isBehind
    rcases List.mem_map.mp isBehind with ⟨span, isFree, rfl⟩
    exact isIn span isFree
  have length := (List.subperm_of_subset distinct subset).length_le
  rw [List.length_map, List.length_cons, List.length_map] at length
  exact length

/-- Once nothing is held, all is free again, in one piece. -/
theorem restored (partition : Partition unit first last free []) (nonempty : first < last) :
    free = [⟨first, last - first⟩] := by
  refine partition.separated.ext (separated_cons.mpr
    ⟨⟨Nat.sub_pos_of_lt nonempty, List.forall_mem_nil _⟩, separated_nil⟩) fun address => ?_
  have covered := partition.covered address
  simp only [covered_nil, or_false] at covered
  rw [covered]
  simp only [covered_cons, covered_nil, or_false, Span.covers_iff]
  omega

end Partition

end SunWise.Library
