import SunWise.Shell.Split

/-!
# Where the tokens are

What each loop of `Shell_SplitCommand` reads, writes and skips in a buffer that ends with a
NUL, and from it where the arguments of a whole call start and end.
-/

namespace SunWise.Shell

open Library

/-- An access to a buffer of `length` bytes and its NUL. -/
def SplitAccess.Within (pszData : Nat → UInt8) (length : Nat) : SplitAccess → Prop
  | .read index => index ≤ length
  | .write index => index < length
  | .string start => ∃ last, start ≤ last ∧ last ≤ length ∧ pszData last = 0

namespace Split

/-- All accesses so far are within the buffer. -/
def Traced (length : Nat) (split : Split) : Prop :=
  ∀ access ∈ split.trace, access.Within split.pszData length

/-- A NUL ends the string at `start` before `limit`. -/
def Ends (split : Split) (start limit : Nat) : Prop :=
  ∃ last, start ≤ last ∧ last < limit ∧ split.pszData last = 0

/-- What any part of a loop does: it moves forward inside the buffer and writes NULs, and
it leaves the arguments alone. -/
structure Moved (length : Nat) (before after : Split) : Prop where
  arguments : SameArguments before after
  forward : before.ui32Position ≤ after.ui32Position
  inside : before.ui32Position ≤ length → after.ui32Position ≤ length
  zeros : ∀ index, before.pszData index = 0 → after.pszData index = 0
  traced : before.Traced length → after.Traced length

variable {length : Nat} {split : Split}

@[simp] theorem advance_position (split : Split) (count : Nat) :
    (split.advance count).ui32Position = split.ui32Position + count := rfl

@[simp] theorem advance_pszData (split : Split) (count : Nat) :
    (split.advance count).pszData = split.pszData := rfl

@[simp] theorem readByte_position (split : Split) :
    split.readByte.ui32Position = split.ui32Position := rfl

@[simp] theorem readByte_pszData (split : Split) :
    split.readByte.pszData = split.pszData := rfl

@[simp] theorem clearByte_position (split : Split) :
    split.clearByte.ui32Position = split.ui32Position := rfl

@[simp] theorem clearByte_pszData (split : Split) :
    split.clearByte.pszData = Function.update split.pszData split.ui32Position 0 := rfl

@[simp] theorem readEscape_position (split : Split) :
    split.readEscape.ui32Position = split.ui32Position := by
  unfold readEscape
  split <;> rfl

@[simp] theorem readEscape_pszData (split : Split) :
    split.readEscape.pszData = split.pszData := by
  unfold readEscape
  split <;> rfl

theorem Moved.trans {first second third : Split} (left : Moved length first second)
    (right : Moved length second third) : Moved length first third where
  arguments := left.arguments.trans right.arguments
  forward := left.forward.trans right.forward
  inside := fun bound => right.inside (left.inside bound)
  zeros := fun index isNul => right.zeros index (left.zeros index isNul)
  traced := fun traced => right.traced (left.traced traced)

theorem moved_read {index : Nat} (bound : index ≤ length) :
    Moved length split (split.read index) where
  arguments := ⟨rfl, rfl⟩
  forward := Nat.le_refl _
  inside := id
  zeros := fun _ isNul => isNul
  traced := by
    intro traced access isAccess
    rcases List.mem_append.mp isAccess with old | new
    · exact traced access old
    · rw [List.mem_singleton.mp new]
      exact bound

theorem moved_advance {count : Nat} (bound : split.ui32Position + count ≤ length) :
    Moved length split (split.advance count) where
  arguments := ⟨rfl, rfl⟩
  forward := Nat.le_add_right _ _
  inside := fun _ => bound
  zeros := fun _ isNul => isNul
  traced := id

/-- More NULs keep an access within the buffer. -/
theorem within_mono {old new : Nat → UInt8} (zeros : ∀ index, old index = 0 → new index = 0)
    {access : SplitAccess} (within : access.Within old length) : access.Within new length := by
  cases access with
  | read index => exact within
  | write index => exact within
  | string start =>
      rcases within with ⟨last, after, inside, isNul⟩
      exact ⟨last, after, inside, zeros last isNul⟩

theorem moved_clearByte (bound : split.ui32Position < length) :
    Moved length split split.clearByte := by
  have zeros (index : Nat) (isNul : split.pszData index = 0) :
      split.clearByte.pszData index = 0 := by
    rw [clearByte_pszData, Function.update_apply]
    split
    · rfl
    · exact isNul
  refine ⟨⟨rfl, rfl⟩, Nat.le_refl _, id, zeros, ?_⟩
  intro traced access isAccess
  rcases List.mem_append.mp isAccess with old | new
  · exact within_mono zeros (traced access old)
  · rw [List.mem_singleton.mp new]
    exact bound

theorem moved_readEscape (bound : split.ui32Position < length) :
    Moved length split split.readEscape := by
  have first : Moved length split split.readByte := moved_read bound.le
  unfold readEscape
  split
  · exact first.trans (moved_read bound)
  · exact first

theorem moved_stripBlanks {remaining : Nat}
    (bound : split.ui32Position + remaining = length) :
    Moved length split (stripBlanks remaining split) := by
  induction remaining generalizing split with
  | zero => exact moved_read bound.le
  | succ remaining ih =>
      have inside : split.ui32Position < length := by omega
      rw [stripBlanks]
      split
      · have read : Moved length split split.readByte := moved_read inside.le
        have cleared : Moved length split.readByte split.readByte.clearByte :=
          moved_clearByte inside
        have advanced : Moved length split.readByte.clearByte
            (split.readByte.clearByte.advance 1) := moved_advance inside
        have later := @ih (split.readByte.clearByte.advance 1) (by simp; omega)
        exact ((read.trans cleared).trans advanced).trans later
      · exact moved_read inside.le

theorem moved_skipWord {remaining : Nat} (bound : split.ui32Position + remaining = length) :
    Moved length split (skipWord remaining split) := by
  induction remaining generalizing split with
  | zero => exact moved_read bound.le
  | succ remaining ih =>
      have inside : split.ui32Position < length := by omega
      rw [skipWord]
      split
      · exact moved_read inside.le
      · have read : Moved length split split.readByte := moved_read inside.le
        have advanced : Moved length split.readByte (split.readByte.advance 1) :=
          moved_advance inside
        have later := @ih (split.readByte.advance 1) (by simp; omega)
        exact (read.trans advanced).trans later

theorem isEscape_iff : split.isEscape = true ↔
    split.byte = 0x5c ∧ split.pszData (split.ui32Position + 1) = 0x22 := by
  simp [isEscape]

theorem moved_skipString {remaining : Nat} (bound : split.ui32Position + remaining = length)
    (isNul : split.pszData length = 0) :
    Moved length split (skipString remaining split) := by
  have step {split : Split} {count : Nat} (inside : split.ui32Position < length)
      (fits : split.ui32Position + count ≤ length) :
      Moved length split (split.readEscape.advance count) :=
    (moved_readEscape inside).trans (moved_advance (by simpa using fits))
  induction remaining, split using skipString.induct with
  | case1 split => exact moved_read (Nat.le_of_eq bound)
  | case2 split isQuote =>
      rw [skipString, if_pos isQuote]
      exact moved_read (by omega)
  | case3 split isByte escape ih =>
      -- the quote behind the backslash would be the NUL
      have quote := (isEscape_iff.mp escape).2
      rw [bound, isNul] at quote
      exact absurd quote (by decide)
  | case4 split isByte plain ih =>
      rw [skipString, if_neg isByte, if_neg plain]
      exact (step (by omega) (by omega)).trans (ih (by simp; omega) (by simpa using isNul))
  | case5 remaining split isQuote =>
      rw [skipString, if_pos isQuote]
      exact moved_read (by omega)
  | case6 remaining split isByte escape ih =>
      rw [skipString, if_neg isByte, if_pos escape]
      exact (step (by omega) (by omega)).trans (ih (by simp; omega) (by simpa using isNul))
  | case7 remaining split isByte plain ih =>
      rw [skipString, if_neg isByte, if_neg plain]
      exact (step (by omega) (by omega)).trans (ih (by simp; omega) (by simpa using isNul))

/-- The bytes skipped in front are cleared, and no other. -/
theorem stripBlanks_pszData (remaining : Nat) (split : Split) (index : Nat) :
    (stripBlanks remaining split).pszData index =
      if split.ui32Position ≤ index ∧
          index < (stripBlanks remaining split).ui32Position then 0
      else split.pszData index := by
  induction remaining generalizing split with
  | zero =>
      have outside : ¬ (split.ui32Position ≤ index ∧ index < split.ui32Position) := by omega
      exact (if_neg outside).symm
  | succ remaining ih =>
      rw [stripBlanks]
      split
      next blank =>
        have later := ih (split.readByte.clearByte.advance 1)
        obtain ⟨count, position, _⟩ :=
          stripBlanks_position remaining (split.readByte.clearByte.advance 1)
        simp only [advance_position, clearByte_position, readByte_position, advance_pszData,
          clearByte_pszData, readByte_pszData, Function.update_apply] at later position
        rw [later]
        grind
      next other =>
        have outside : ¬ (split.ui32Position ≤ index ∧ index < split.ui32Position) := by omega
        exact (if_neg outside).symm

section Blank

variable {remaining : Nat} (left : 0 < remaining) (blank : IsBlank split.byte)
include left blank

theorem stripBlanks_forward :
    split.ui32Position < (stripBlanks remaining split).ui32Position := by
  obtain ⟨count, position, fits, blanks, stops⟩ := stripBlanks_position remaining split
  cases count with
  | zero => exact absurd blank (stops left)
  | succ count =>
      rw [position]
      exact Nat.lt_add_of_pos_right (Nat.succ_pos count)

theorem stripBlanks_clears : (stripBlanks remaining split).pszData split.ui32Position = 0 := by
  rw [stripBlanks_pszData, if_pos ⟨Nat.le_refl _, stripBlanks_forward left blank⟩]

end Blank

theorem skipWord_pszData (remaining : Nat) (split : Split) :
    (skipWord remaining split).pszData = split.pszData := by
  induction remaining generalizing split with
  | zero => rfl
  | succ remaining ih =>
      rw [skipWord]
      split
      · rfl
      · exact ih _

theorem skipWord_position (remaining : Nat) (split : Split) :
    ∃ count, (skipWord remaining split).ui32Position = split.ui32Position + count ∧
      count ≤ remaining ∧
      (∀ offset < count, ¬ IsBlank (split.pszData (split.ui32Position + offset))) ∧
      (count < remaining → IsBlank (split.pszData (split.ui32Position + count))) := by
  induction remaining generalizing split with
  | zero => exact ⟨0, rfl, Nat.le_refl _, by simp, by simp⟩
  | succ remaining ih =>
      rw [skipWord]
      split
      next blank => exact ⟨0, rfl, Nat.zero_le _, by simp, fun _ => blank⟩
      next other =>
        obtain ⟨count, position, fits, word, stops⟩ := ih (split.readByte.advance 1)
        have later (offset : Nat) : split.ui32Position + 1 + offset =
            split.ui32Position + (offset + 1) := by omega
        simp only [advance_position, advance_pszData, readByte_position, readByte_pszData,
          later] at position word stops
        refine ⟨count + 1, position, Nat.succ_le_succ fits, ?_, ?_⟩
        · intro offset inside
          cases offset with
          | zero => exact other
          | succ offset => exact word offset (Nat.lt_of_succ_lt_succ inside)
        · intro inside
          exact stops (Nat.lt_of_succ_lt_succ inside)

theorem skipString_pszData (remaining : Nat) (split : Split) :
    (skipString remaining split).pszData = split.pszData := by
  apply @skipString_relates fun split result => result.pszData = split.pszData
  · exact readByte_pszData
  · intro split count result later
    rw [later, advance_pszData, readEscape_pszData]

/-! ## The arguments -/

/-- The arguments found so far start at `starts`, each behind the NUL of the one before. -/
structure Tokens (length : Nat) (starts : List Nat) (split : Split) : Prop where
  argc : split.ui8Argc = starts.length
  argv : ∀ index, split.apszArgv index = starts[index]?
  before : ∀ start ∈ starts, start ≤ split.ui32Position
  ordered : starts.Pairwise split.Ends
  inside : split.ui32Position ≤ length
  isNul : split.pszData length = 0
  traced : split.Traced length

variable {starts : List Nat} {before after : Split}

theorem Ends.mono {start limit farther : Nat} (ends : before.Ends start limit)
    (zeros : ∀ index, before.pszData index = 0 → after.pszData index = 0)
    (forward : limit ≤ farther) : after.Ends start farther := by
  rcases ends with ⟨last, behind, inside, isNul⟩
  exact ⟨last, behind, inside.trans_le forward, zeros last isNul⟩

theorem Moved.tokens (moved : Moved length before after)
    (tokens : Tokens length starts before) : Tokens length starts after where
  argc := moved.arguments.argc.trans tokens.argc
  argv := fun index => (congrFun moved.arguments.argv index).trans (tokens.argv index)
  before := fun start isStart => (tokens.before start isStart).trans moved.forward
  ordered := tokens.ordered.imp fun ends => ends.mono moved.zeros (Nat.le_refl _)
  inside := moved.inside tokens.inside
  isNul := moved.zeros length tokens.isNul
  traced := moved.traced tokens.traced

/-- All arguments have their NULs by here. -/
def Closed (starts : List Nat) (split : Split) : Prop :=
  ∀ start ∈ starts, split.Ends start split.ui32Position

theorem Closed.moved (closed : Closed starts before) (moved : Moved length before after) :
    Closed starts after :=
  fun start isStart => (closed start isStart).mono moved.zeros moved.forward

/-- The last argument still lacks its NUL, which is the blank behind it. -/
def Pending (length : Nat) (starts : List Nat) (split : Split) : Prop :=
  Closed starts split ∨ split.ui32Position = length ∨ IsBlank split.byte

theorem tokens_storeArgument (tokens : Tokens length starts split)
    (closed : Closed starts split) :
    Tokens length (starts ++ [split.ui32Position]) split.storeArgument where
  argc := by simp [storeArgument, tokens.argc]
  argv := by
    intro index
    by_cases isNew : index = starts.length
    · simp [storeArgument, tokens.argc, isNew]
    · have old : (starts ++ [split.ui32Position])[index]? = starts[index]? := by
        grind
      simp [storeArgument, tokens.argc, isNew, old, tokens.argv index]
  before := by
    intro start isStart
    rcases List.mem_append.mp isStart with old | new
    · exact tokens.before start old
    · exact (List.mem_singleton.mp new).le
  ordered := by
    rw [List.pairwise_append]
    refine ⟨tokens.ordered, List.pairwise_singleton _ _, ?_⟩
    intro start isStart new isNew
    rw [List.mem_singleton.mp isNew]
    exact closed start isStart
  inside := tokens.inside
  isNul := tokens.isNul
  traced := tokens.traced

theorem tokens_stripBlanks (tokens : Tokens length starts split)
    (pending : Pending length starts split) :
    let stripped := stripBlanks (length - split.ui32Position) split
    Tokens length starts stripped ∧ (stripped.ui32Position < length → Closed starts stripped) := by
  intro stripped
  have inside := tokens.inside
  have moved : Moved length split stripped := moved_stripBlanks (by omega)
  refine ⟨moved.tokens tokens, ?_⟩
  intro before
  rcases pending with closed | atEnd | blank
  · exact closed.moved moved
  · have forward := moved.forward
    omega
  · have left : 0 < length - split.ui32Position :=
      Nat.sub_pos_of_lt (moved.forward.trans_lt before)
    intro start isStart
    exact ⟨split.ui32Position, tokens.before start isStart, stripBlanks_forward left blank,
      stripBlanks_clears left blank⟩

/-- An argument in quotes starts behind the first of them. -/
theorem tokens_quoted (tokens : Tokens length starts split) (closed : Closed starts split)
    (inside : split.ui32Position < length) (isQuote : split.byte = 0x22) :
    Tokens length (starts ++ [split.ui32Position + 1]) (split.splitArgument length) ∧
      Pending length (starts ++ [split.ui32Position + 1]) (split.splitArgument length) := by
  have opened : Moved length split (split.readByte.advance 1) :=
    (moved_read inside.le).trans (moved_advance inside)
  have stored := tokens_storeArgument (opened.tokens tokens) (closed.moved opened)
  unfold splitArgument
  rw [if_pos isQuote]
  extract_lets argument skipped
  have skips : Moved length argument skipped :=
    moved_skipString (Nat.add_sub_of_le stored.inside) stored.isNul
  split
  next atEnd =>
    have tokens := skips.tokens stored
    exact ⟨tokens, Or.inr (Or.inl (tokens.inside.antisymm atEnd))⟩
  next found =>
    have clears : Moved length skipped (skipped.clearByte.advance 1) :=
      (moved_clearByte (by omega)).trans (moved_advance (by simp; omega))
    have moved := skips.trans clears
    refine ⟨moved.tokens stored, Or.inl ?_⟩
    intro start isStart
    refine ⟨skipped.ui32Position, (skips.tokens stored).before start isStart, ?_, ?_⟩
    · exact Nat.lt_succ_self _
    · exact Function.update_self _ _ _

/-- A bare argument starts at its first byte. -/
theorem tokens_bare (tokens : Tokens length starts split) (closed : Closed starts split)
    (isByte : split.byte ≠ 0x22) :
    Tokens length (starts ++ [split.ui32Position]) (split.splitArgument length) ∧
      Pending length (starts ++ [split.ui32Position]) (split.splitArgument length) := by
  have inside := tokens.inside
  have read : Moved length split split.readByte := moved_read inside
  have stored := tokens_storeArgument (read.tokens tokens) (closed.moved read)
  unfold splitArgument
  rw [if_neg isByte]
  have bound : split.readByte.storeArgument.ui32Position + (length - split.ui32Position) =
      length := Nat.add_sub_of_le inside
  refine ⟨(moved_skipWord bound).tokens stored, Or.inr ?_⟩
  obtain ⟨count, position, fits, -, stops⟩ :=
    skipWord_position (length - split.ui32Position) split.readByte.storeArgument
  rw [byte, skipWord_pszData, position]
  rcases fits.lt_or_eq with found | all
  · exact Or.inr (stops found)
  · exact Or.inl (all ▸ bound)

theorem mapM_range_getElem? (starts : List Nat) :
    (List.range starts.length).mapM (fun index => starts[index]?) = some starts := by
  induction starts with
  | nil => rfl
  | cons start starts ih =>
      have later : (fun index => (start :: starts)[index]?) ∘ Nat.succ =
          fun index => starts[index]? := funext fun _ => rfl
      rw [List.length_cons, List.range_succ_eq_map, List.mapM_cons, List.mapM_map, later, ih]
      rfl

/-- The texts printed by the branch for too many arguments end with the buffer. -/
theorem tokens_tooManyArgs (tokens : Tokens length starts split) :
    ∃ result, split.tooManyArgs length = some result ∧ Tokens length starts result ∧
      result.pszData = split.pszData := by
  refine ⟨split.listArguments length starts, ?_, ?_, rfl⟩
  · rw [tooManyArgs, tokens.argc, funext tokens.argv, mapM_range_getElem?, Option.map_some]
  · refine { tokens with traced := ?_ }
    intro access isAccess
    rcases List.mem_append.mp isAccess with old | listed
    · exact tokens.traced access old
    · rcases List.mem_map.mp listed with ⟨start, isStart, isListed⟩
      rw [← isListed]
      exact ⟨length, (tokens.before start isStart).trans tokens.inside, Nat.le_refl _,
        tokens.isNul⟩

theorem tokens_start {pszData : Nat → UInt8} (isNul : pszData length = 0) :
    Tokens length [] (.start pszData) where
  argc := rfl
  argv := fun _ => rfl
  before := fun _ isStart => absurd isStart List.not_mem_nil
  ordered := List.Pairwise.nil
  inside := Nat.zero_le _
  isNul := isNul
  traced := fun _ isAccess => absurd isAccess List.not_mem_nil

theorem pending_start {pszData : Nat → UInt8} : Pending length [] (.start pszData) :=
  Or.inl fun _ isStart => absurd isStart List.not_mem_nil

/-- The outer loop adds an argument for each place it uses. -/
theorem splitLoop_tokens (free : Nat) (tokens : Tokens length starts split)
    (pending : Pending length starts split) :
    ∃ result more, splitLoop length free split = some result ∧ more.length ≤ free ∧
      Tokens length (starts ++ more) result := by
  induction free generalizing starts split with
  | zero =>
      rw [splitLoop]
      split
      · obtain ⟨result, returns, listed, -⟩ :=
          tokens_tooManyArgs (tokens_stripBlanks tokens pending).1
        exact ⟨result, [], returns, Nat.le_refl _, by simpa using listed⟩
      · exact ⟨split, [], rfl, Nat.le_refl _, by simpa using tokens⟩
  | succ free ih =>
      rw [splitLoop]
      split
      · extract_lets stripped
        obtain ⟨found, closed⟩ := tokens_stripBlanks tokens pending
        split
        · exact ⟨stripped, [], rfl, Nat.zero_le _, by simpa using found⟩
        next within =>
          have inside : stripped.ui32Position < length := by omega
          obtain ⟨start, later, laterPending⟩ : ∃ start,
              Tokens length (starts ++ [start]) (stripped.splitArgument length) ∧
              Pending length (starts ++ [start]) (stripped.splitArgument length) := by
            by_cases isQuote : stripped.byte = 0x22
            · exact ⟨_, tokens_quoted found (closed inside) inside isQuote⟩
            · exact ⟨_, tokens_bare found (closed inside) isQuote⟩
          obtain ⟨result, more, returns, fits, final⟩ := ih later laterPending
          exact ⟨result, start :: more, returns, Nat.succ_le_succ fits, by simpa using final⟩
      · exact ⟨split, [], rfl, Nat.zero_le _, by simpa using tokens⟩

end Split

/-- `Shell_SplitCommand` stays in a buffer that ends with a NUL. The arguments it returns
start in order in the buffer, and each has its NUL before the next. -/
theorem shellSplitCommand_safe {pszData : Nat → UInt8} {ui32Length : Nat}
    (isNul : pszData ui32Length = 0) :
    ∃ (result : Split) (starts : List Nat),
      shellSplitCommand pszData ui32Length = some result ∧
      (∀ access ∈ result.trace, access.Within result.pszData ui32Length) ∧
      result.ui8Argc ≤ shellArgMax ∧ result.ui8Argc = starts.length ∧
      (∀ index, result.apszArgv index = starts[index]?) ∧
      (∀ start ∈ starts, start ≤ ui32Length) ∧
      starts.Pairwise fun first second =>
        first < second ∧
          ∃ last, first ≤ last ∧ last < second ∧ result.pszData last = 0 := by
  obtain ⟨result, starts, returns, fits, final⟩ :=
    Split.splitLoop_tokens shellArgMax (Split.tokens_start isNul) Split.pending_start
  rw [List.nil_append] at final
  refine ⟨result, starts, returns, final.traced, final.argc.trans_le fits, final.argc,
    final.argv, fun start isStart => (final.before start isStart).trans final.inside, ?_⟩
  refine final.ordered.imp ?_
  rintro first second ⟨last, behind, inside, lastIsNul⟩
  exact ⟨behind.trans_lt inside, last, behind, inside, lastIsNul⟩

/-- Two arguments, the second in quotes and longer than its escape. -/
theorem shellSplitCommand_safe_two :
    let line := fun index => (ascii "ab \"c\\\"d\"").getD index 0
    line 9 = 0 ∧ ∃ (result : Split) (starts : List Nat),
      shellSplitCommand line 9 = some result ∧
      (∀ access ∈ result.trace, access.Within result.pszData 9) ∧
      result.ui8Argc ≤ shellArgMax ∧ result.ui8Argc = starts.length ∧
      (∀ index, result.apszArgv index = starts[index]?) ∧
      (∀ start ∈ starts, start ≤ 9) ∧
      starts.Pairwise fun first second =>
        first < second ∧
          ∃ last, first ≤ last ∧ last < second ∧ result.pszData last = 0 :=
  ⟨by decide, shellSplitCommand_safe (by decide)⟩

end SunWise.Shell
