import SunWise.Shell.Dispatch
import SunWise.Shell.Tokens

/-!
# Splitting what was written

The ways to write arguments on a command line, and `Shell_SplitCommand` as the reading that
finds them again.
-/

namespace SunWise.Shell

open Library

/-- The text of an argument that is written as it is. -/
structure Bare (text : List UInt8) : Prop where
  nonempty : text ≠ []
  noBlank : ∀ byte ∈ text, ¬ IsBlank byte
  noQuote : text.head? ≠ some 0x22

/-- The text of an argument that is written between quotes. -/
structure Quotable (text : List UInt8) : Prop where
  escaped : ∀ index : Nat, text[index]? = some 0x22 → 0 < index ∧ text[index - 1]? = some 0x5c
  last : text.getLast? ≠ some 0x5c

instance (text : List UInt8) : Decidable (Bare text) :=
  decidable_of_iff (text ≠ [] ∧ text.all (fun byte => decide (¬ IsBlank byte)) = true ∧
      text.head? ≠ some 0x22)
    ⟨fun bare => ⟨bare.1, forall_of_all bare.2.1, bare.2.2⟩,
      fun bare => ⟨bare.nonempty, List.all_eq_true.mpr fun byte isByte =>
        decide_eq_true (bare.noBlank byte isByte), bare.noQuote⟩⟩

/-- Only the bytes of a text need to be looked at. -/
theorem quotable_iff (text : List UInt8) : Quotable text ↔
    (∀ index < text.length, text[index]? = some 0x22 →
      0 < index ∧ text[index - 1]? = some 0x5c) ∧ text.getLast? ≠ some 0x5c := by
  constructor
  · exact fun quotable => ⟨fun index _ => quotable.escaped index, quotable.last⟩
  · rintro ⟨escaped, last⟩
    refine ⟨fun index quote => escaped index ?_ quote, last⟩
    exact (List.getElem?_eq_some_iff.mp quote).1

instance (text : List UInt8) : Decidable (Quotable text) :=
  decidable_of_iff _ (quotable_iff text).symm

/-- An argument of a command line and how it is written. -/
structure Argument where
  text : List UInt8
  quoted : Bool
  nulFree : 0 ∉ text
  form : if quoted then Quotable text else Bare text

def Argument.written (argument : Argument) : List UInt8 :=
  if argument.quoted then 0x22 :: argument.text ++ [0x22] else argument.text

/-- A line with these arguments. There may be blanks in front of each and behind the last,
and there are some between two of them. -/
inductive Writes : List Argument → List UInt8 → Prop where
  | blanks {gap : List UInt8} (isGap : ∀ byte ∈ gap, IsBlank byte) : Writes [] gap
  | argument {gap rest : List UInt8} {arguments : List Argument} (argument : Argument)
      (isGap : ∀ byte ∈ gap, IsBlank byte) (writes : Writes arguments rest)
      (apart : ∀ byte ∈ rest.head?, IsBlank byte) :
      Writes (argument :: arguments) (gap ++ argument.written ++ rest)

namespace Split

/-- The rest of a line, and the NUL behind it. -/
structure Rest (length : Nat) (line : List UInt8) (split : Split) : Prop where
  bytes : load split.pszData split.ui32Position line.length = line
  ends : split.ui32Position + line.length = length
  isNul : split.pszData length = 0

variable {length start : Nat} {line gap text front rest : List UInt8} {split after : Split}

theorem Rest.byte_eq {text : List UInt8} (holds : Rest length text split) (offset : Nat)
    (inside : offset < text.length) :
    split.pszData (split.ui32Position + offset) = text[offset] := by
  have loaded := load_getElem? split.pszData split.ui32Position inside
  rw [holds.bytes, List.getElem?_eq_getElem inside] at loaded
  exact (Option.some.inj loaded).symm

theorem Rest.drop (holds : Rest length (front ++ rest) split)
    (position : after.ui32Position = split.ui32Position + front.length)
    (same : ∀ index, after.ui32Position ≤ index → after.pszData index = split.pszData index) :
    Rest length rest after where
  bytes := by
    have bytes := holds.bytes
    rw [List.length_append, load_add] at bytes
    have agree : load after.pszData after.ui32Position rest.length =
        load split.pszData (split.ui32Position + front.length) rest.length := by
      rw [load_eq_load_iff, ← position]
      exact fun offset _ => same _ (Nat.le_add_right _ _)
    exact agree.trans (List.append_inj_right bytes (load_length _ _ _))
  ends := by
    have ends := holds.ends
    rw [List.length_append, ← Nat.add_assoc] at ends
    rw [position, ends]
  isNul := by
    have ends := holds.ends
    rw [List.length_append] at ends
    rw [same length (by omega), holds.isNul]

/-- Two runs that go on as long as they can are equally long. -/
theorem run_unique {left right limit : Nat} {property : Nat → Prop} (leftFits : left ≤ limit)
    (leftRun : ∀ offset < left, property offset) (leftStops : left < limit → ¬ property left)
    (rightFits : right ≤ limit) (rightRun : ∀ offset < right, property offset)
    (rightStops : right < limit → ¬ property right) : left = right := by
  rcases Nat.lt_trichotomy left right with less | same | more
  · exact absurd (rightRun left less) (leftStops (less.trans_le rightFits))
  · exact same
  · exact absurd (leftRun right more) (rightStops (more.trans_le leftFits))

/-- The blanks in front of something else are the ones skipped. -/
theorem stripBlanks_gap (holds : Rest length (gap ++ rest) split)
    (isGap : ∀ byte ∈ gap, IsBlank byte) (apart : ∀ byte ∈ rest.head?, ¬ IsBlank byte) :
    (stripBlanks (length - split.ui32Position) split).ui32Position =
      split.ui32Position + gap.length := by
  obtain ⟨count, position, fits, blanks, stops⟩ :=
    stripBlanks_position (length - split.ui32Position) split
  have ends := holds.ends
  rw [List.length_append] at ends
  have same : count = gap.length := by
    apply run_unique fits blanks stops (by omega)
    · intro offset inside
      rw [holds.byte_eq _ (by rw [List.length_append]; omega), List.getElem_append_left inside]
      exact isGap _ (List.getElem_mem inside)
    · intro inside
      cases rest with
      | nil =>
          rw [List.length_nil] at ends
          omega
      | cons byte rest =>
          rw [holds.byte_eq _ (by simp), List.getElem_append_right (Nat.le_refl _)]
          simpa using apart byte rfl
  rw [position, same]

theorem Rest.byte_head {first : UInt8} (holds : Rest length (first :: rest) split) :
    split.byte = first :=
  holds.byte_eq 0 (Nat.succ_pos _)

/-- A blank or the end of the line becomes a NUL. -/
theorem stripBlanks_ends (holds : Rest length rest split)
    (apart : ∀ byte ∈ rest.head?, IsBlank byte) :
    (stripBlanks (length - split.ui32Position) split).pszData split.ui32Position = 0 := by
  have ends := holds.ends
  cases rest with
  | nil =>
      rw [List.length_nil, Nat.add_zero] at ends
      rw [← ends, Nat.sub_self]
      exact ends ▸ holds.isNul
  | cons byte rest =>
      rw [List.length_cons] at ends
      have blank : IsBlank split.byte := holds.byte_head ▸ apart byte rfl
      exact stripBlanks_clears (by omega) blank

theorem stripBlanks_front {remaining index : Nat} (inFront : index < split.ui32Position) :
    (stripBlanks remaining split).pszData index = split.pszData index := by
  rw [stripBlanks_pszData, if_neg fun skipped => Nat.not_le_of_lt inFront skipped.1]

/-- Reading an argument stops behind it and leaves its text in place. -/
structure Finds (length start : Nat) (text rest : List UInt8) (before after : Split) :
    Prop where
  behind : Rest length rest after
  loaded : load after.pszData start text.length = text
  ends : after.pszData (start + text.length) = 0 ∧ start + text.length < after.ui32Position ∨
    start + text.length = after.ui32Position
  forward : before.ui32Position ≤ after.ui32Position
  kept : ∀ index < before.ui32Position, after.pszData index = before.pszData index

/-- The blank behind a bare argument ends its text. -/
theorem Finds.holdsString {before : Split} (finds : Finds length start text rest before after)
    (apart : ∀ byte ∈ rest.head?, IsBlank byte) (nulFree : 0 ∉ text) :
    HoldsString (stripBlanks (length - after.ui32Position) after).pszData start text where
  load := by
    have inFront : start + text.length ≤ after.ui32Position := by
      rcases finds.ends with ⟨-, inside⟩ | ends
      · exact inside.le
      · exact ends.le
    have same : load (stripBlanks (length - after.ui32Position) after).pszData start
        text.length = load after.pszData start text.length := by
      rw [load_eq_load_iff]
      intro offset inside
      exact stripBlanks_front (by omega)
    exact same.trans finds.loaded
  nul := by
    rcases finds.ends with ⟨isNul, inside⟩ | ends
    · rw [stripBlanks_front inside, isNul]
    · rw [ends]
      exact stripBlanks_ends finds.behind apart
  nonzero := nulFree

theorem byte_ne_of_bare (bare : Bare text)
    (holds : Rest length (text ++ rest) split) : split.byte ≠ 0x22 := by
  cases text with
  | nil => exact absurd rfl bare.nonempty
  | cons first text =>
      intro isQuote
      rw [List.cons_append] at holds
      exact bare.noQuote (congrArg some (holds.byte_head.symm.trans isQuote))

theorem Finds.map_cString {starts : List Nat} {before : Split}
    (finds : Finds length start text rest before after) (closed : Closed starts before)
    (inside : before.ui32Position ≤ length) (apart : ∀ byte ∈ rest.head?, IsBlank byte)
    (nulFree : 0 ∉ text) :
    (starts ++ [start]).map (cString
        (stripBlanks (length - after.ui32Position) after).pszData (length + 1)) =
      starts.map (cString before.pszData (length + 1)) ++ [text] := by
  have ends := finds.behind.ends
  have fits : start + text.length < length + 1 := by
    rcases finds.ends with ⟨-, inside⟩ | last <;> omega
  rw [List.map_append, List.map_singleton,
    (finds.holdsString apart nulFree).cString_eq fits]
  congr 1
  refine List.map_congr_left fun old isOld => ?_
  have terminated := terminated_iff.mpr (closed old isOld)
  refine cString_congr terminated (inside.trans (Nat.le_succ _)) fun index inFront => ?_
  rw [stripBlanks_front (inFront.trans_le finds.forward), finds.kept index inFront]

theorem splitArgument_bare (bare : Bare text) (holds : Rest length (text ++ rest) split)
    (apart : ∀ byte ∈ rest.head?, IsBlank byte) :
    Finds length split.ui32Position text rest split (split.splitArgument length) := by
  have ends := holds.ends
  rw [List.length_append] at ends
  obtain ⟨count, position, fits, word, stops⟩ :=
    skipWord_position (length - split.ui32Position) split.readByte.storeArgument
  have same : count = text.length := by
    apply run_unique fits word (fun found => not_not_intro (stops found)) (by omega)
    · intro offset inside
      have byte := holds.byte_eq offset (by rw [List.length_append]; omega)
      rw [List.getElem_append_left inside] at byte
      exact byte ▸ bare.noBlank _ (List.getElem_mem inside)
    · intro inside
      cases rest with
      | nil =>
          rw [List.length_nil] at ends
          omega
      | cons byte rest =>
          have blank := holds.byte_eq text.length (by simp)
          rw [List.getElem_append_right (Nat.le_refl _)] at blank
          simp only [Nat.sub_self, List.getElem_cons_zero] at blank
          exact not_not_intro (blank ▸ apart byte rfl)
  have bytes := holds.bytes
  rw [List.length_append, load_add] at bytes
  unfold splitArgument
  rw [if_neg (byte_ne_of_bare bare holds)]
  have data := skipWord_pszData (length - split.ui32Position) split.readByte.storeArgument
  rw [same] at position
  exact
    { behind := holds.drop position fun index _ => congrFun data index
      loaded := by
        rw [data]
        exact List.append_inj_left bytes (load_length _ _ _)
      ends := Or.inr position.symm
      forward := position ▸ Nat.le_add_right _ _
      kept := fun index _ => congrFun data index }

/-- Quotes up to `close` have backslashes in front, and the one at `close` has none. A quoted
string is then read up to `close`, as no step stops in front of it or goes past it. -/
theorem skipString_position {remaining close : Nat}
    (bound : split.ui32Position + remaining = length) (inside : split.ui32Position ≤ close)
    (fits : close < length) (isQuote : split.pszData close = 0x22)
    (here : split.ui32Position < close → split.byte ≠ 0x22)
    (escaped : ∀ index, split.ui32Position ≤ index → index + 1 < close →
      split.pszData (index + 1) = 0x22 → split.pszData index = 0x5c)
    (last : ∀ index, split.ui32Position ≤ index → index + 1 = close →
      split.pszData index ≠ 0x5c) :
    (skipString remaining split).ui32Position = close := by
  have atClose (split : Split) (inside : split.ui32Position ≤ close) (byte : split.byte = 0x22)
      (here : split.ui32Position < close → split.byte ≠ 0x22) : split.ui32Position = close := by
    rcases inside.lt_or_eq with before | same
    · exact absurd byte (here before)
    · exact same
  have before (split : Split) (inside : split.ui32Position ≤ close)
      (isQuote : split.pszData close = 0x22) (isByte : ¬ split.byte = 0x22) :
      split.ui32Position < close := by
    refine inside.lt_of_ne fun same => isByte ?_
    rw [byte, same, isQuote]
  induction remaining, split using skipString.induct with
  | case1 split => omega
  | case2 split byte =>
      rw [skipString, if_pos byte]
      exact atClose split inside byte here
  | case3 split isByte escape ih =>
      have := before split inside isQuote isByte
      omega
  | case4 split isByte plain ih =>
      have := before split inside isQuote isByte
      omega
  | case5 remaining split byte =>
      rw [skipString, if_pos byte]
      exact atClose split inside byte here
  | case6 remaining split isByte escape ih =>
      rw [skipString, if_neg isByte, if_pos escape]
      rcases isEscape_iff.mp escape with ⟨backslash, quote⟩
      have inFront := before split inside isQuote isByte
      have apart : split.ui32Position + 1 ≠ close :=
        fun same => last _ (Nat.le_refl _) same backslash
      simp only [advance_position, readEscape_position, advance_pszData, readEscape_pszData,
        byte] at ih
      refine ih (by omega) (by omega) isQuote ?_ ?_ ?_
      · -- the quote just skipped is no backslash
        intro found another
        have backslash := escaped _ (Nat.le_succ _) found another
        rw [quote] at backslash
        exact absurd backslash (by decide)
      · exact fun index after => escaped index (by omega)
      · exact fun index after => last index (by omega)
  | case7 remaining split isByte plain ih =>
      rw [skipString, if_neg isByte, if_neg plain]
      have inFront := before split inside isQuote isByte
      simp only [advance_position, readEscape_position, advance_pszData, readEscape_pszData,
        byte] at ih
      refine ih (by omega) (by omega) isQuote ?_ ?_ ?_
      · intro found quote
        exact plain (isEscape_iff.mpr ⟨escaped _ (Nat.le_refl _) found quote, quote⟩)
      · exact fun index after => escaped index (by omega)
      · exact fun index after => last index (by omega)

theorem skipString_quotable (quotable : Quotable text)
    (holds : Rest length (text ++ 0x22 :: rest) split) :
    (skipString (length - split.ui32Position) split).ui32Position =
      split.ui32Position + text.length := by
  have ends := holds.ends
  rw [List.length_append, List.length_cons] at ends
  have textByte (index : Nat) (behind : split.ui32Position ≤ index)
      (inside : index < split.ui32Position + text.length) :
      text[index - split.ui32Position]? = some (split.pszData index) := by
    have short : index - split.ui32Position < text.length := by omega
    have byte := holds.byte_eq (index - split.ui32Position)
      (by rw [List.length_append]; omega)
    rw [List.getElem_append_left short, Nat.add_sub_of_le behind] at byte
    rw [List.getElem?_eq_getElem short, ← byte]
  have closing : split.pszData (split.ui32Position + text.length) = 0x22 := by
    simpa using holds.byte_eq text.length (by simp)
  apply skipString_position (Nat.add_sub_of_le (by omega)) (Nat.le_add_right _ _) (by omega)
    closing
  · intro inside byte
    have first := textByte _ (Nat.le_refl _) inside
    rw [Nat.sub_self] at first
    exact absurd (quotable.escaped 0 (first.trans (congrArg some byte))).1 (Nat.lt_irrefl 0)
  · intro index behind inside quote
    have second := textByte (index + 1) (by omega) inside
    have backslash := (quotable.escaped _ (second.trans (congrArg some quote))).2
    have first := textByte index behind (by omega)
    rw [Nat.sub_right_comm, Nat.add_sub_cancel, first] at backslash
    exact Option.some.inj backslash
  · intro index behind ends backslash
    have byte := textByte index behind (by omega)
    have last : index - split.ui32Position = text.length - 1 := by omega
    rw [last, ← List.getLast?_eq_getElem?, backslash] at byte
    exact quotable.last byte

theorem splitArgument_quoted (quotable : Quotable text)
    (holds : Rest length (0x22 :: text ++ [0x22] ++ rest) split) :
    Finds length (split.ui32Position + 1) text rest split (split.splitArgument length) := by
  have isQuote : split.byte = 0x22 := by
    rw [List.cons_append, List.cons_append] at holds
    exact holds.byte_head
  have opened : Rest length (text ++ 0x22 :: rest) (split.readByte.advance 1).storeArgument := by
    have line : 0x22 :: text ++ [0x22] ++ rest = [0x22] ++ (text ++ 0x22 :: rest) := by simp
    rw [line] at holds
    exact holds.drop rfl fun _ _ => rfl
  have bytes := opened.bytes
  rw [List.length_append, load_add] at bytes
  unfold splitArgument
  rw [if_pos isQuote]
  extract_lets argument skipped
  have ends : argument.ui32Position + (text ++ 0x22 :: rest).length = length := opened.ends
  rw [List.length_append, List.length_cons] at ends
  have position : skipped.ui32Position = argument.ui32Position + text.length :=
    skipString_quotable quotable opened
  rw [if_neg (by omega)]
  have other (index : Nat) (apart : index ≠ skipped.ui32Position) :
      (skipped.clearByte.advance 1).pszData index = argument.pszData index := by
    rw [advance_pszData, clearByte_pszData, Function.update_of_ne apart]
    exact congrFun (skipString_pszData _ _) index
  have begins : argument.ui32Position = split.ui32Position + 1 := rfl
  have line : text ++ 0x22 :: rest = (text ++ [0x22]) ++ rest := by simp
  rw [line] at opened
  have after : (skipped.clearByte.advance 1).ui32Position =
      split.ui32Position + 1 + text.length + 1 := congrArg (· + 1) position
  refine { behind := opened.drop ?_ ?_, loaded := ?_, ends := Or.inl ⟨?_, ?_⟩, forward := ?_
           kept := ?_ }
  · rw [advance_position, clearByte_position, position, List.length_append, Nat.add_assoc]
    rfl
  · intro index after
    exact other index (Nat.ne_of_gt after)
  · have same : load (skipped.clearByte.advance 1).pszData argument.ui32Position text.length =
        load argument.pszData argument.ui32Position text.length := by
      rw [load_eq_load_iff]
      intro offset inside
      exact other _ (by omega)
    exact same.trans (List.append_inj_left bytes (load_length _ _ _))
  · rw [← begins, ← position]
    exact Function.update_self _ _ _
  · rw [after]
    exact Nat.lt_succ_self _
  · omega
  · intro index inFront
    exact other index (by omega)

/-! ## Lines -/

variable {starts : List Nat}

/-- An argument is found however it is written. -/
theorem splitArgument_written (argument : Argument)
    (holds : Rest length (argument.written ++ rest) split)
    (apart : ∀ byte ∈ rest.head?, IsBlank byte) (tokens : Tokens length starts split)
    (closed : Closed starts split) :
    ∃ start, Tokens length (starts ++ [start]) (split.splitArgument length) ∧
      Pending length (starts ++ [start]) (split.splitArgument length) ∧
      Finds length start argument.text rest split (split.splitArgument length) := by
  have form := argument.form
  by_cases isQuoted : argument.quoted
  · rw [if_pos isQuoted] at form
    rw [Argument.written, if_pos isQuoted] at holds
    have isQuote : split.byte = 0x22 := by
      rw [List.cons_append, List.cons_append] at holds
      exact holds.byte_head
    have ends := holds.ends
    simp only [List.length_append, List.length_cons, List.length_nil] at ends
    obtain ⟨found, pending⟩ := tokens_quoted tokens closed (by omega) isQuote
    exact ⟨_, found, pending, splitArgument_quoted form holds⟩
  · rw [if_neg isQuoted] at form
    rw [Argument.written, if_neg isQuoted] at holds
    obtain ⟨found, pending⟩ := tokens_bare tokens closed (byte_ne_of_bare form holds)
    exact ⟨_, found, pending, splitArgument_bare form holds apart⟩

theorem written_length (argument : Argument) : 0 < argument.written.length := by
  have form := argument.form
  unfold Argument.written
  split
  · simp
  next isBare =>
    rw [if_neg isBare] at form
    exact List.length_pos_of_ne_nil form.nonempty

theorem written_head (argument : Argument) :
    ∀ byte ∈ (argument.written ++ rest).head?, ¬ IsBlank byte := by
  have form := argument.form
  unfold Argument.written
  split
  · intro byte isFirst
    cases isFirst
    decide
  next isBare =>
    rw [if_neg isBare] at form
    intro byte isFirst
    rw [List.head?_append_of_ne_nil _ form.nonempty] at isFirst
    exact form.noBlank byte (List.mem_of_mem_head? isFirst)

/-- The loop adds the arguments of the line to those found before. -/
theorem splitLoop_writes (free : Nat) {arguments : List Argument}
    (writes : Writes arguments line) (few : arguments.length ≤ free)
    (tokens : Tokens length starts split) (pending : Pending length starts split)
    (holds : Rest length line split) :
    ∃ result found, splitLoop length free split = some result ∧ Tokens length found result ∧
      found.map (cString result.pszData (length + 1)) =
        starts.map (cString
          (stripBlanks (length - split.ui32Position) split).pszData (length + 1)) ++
        arguments.map Argument.text := by
  induction writes generalizing free starts split with
  | @blanks gap isGap =>
      rw [List.map_nil, List.append_nil]
      have tail : Rest length (gap ++ []) split := by simpa using holds
      have ends := holds.ends
      have position := stripBlanks_gap tail isGap (by simp)
      rw [ends] at position
      have stripped := (tokens_stripBlanks tokens pending).1
      cases free with
      | zero =>
          rw [splitLoop]
          split
          · obtain ⟨result, returns, listed, data⟩ := tokens_tooManyArgs stripped
            exact ⟨result, starts, returns, listed, by rw [data]⟩
          next atEnd =>
            rw [Nat.sub_eq_zero_of_le (Nat.le_of_not_lt atEnd)]
            exact ⟨split, starts, rfl, tokens, rfl⟩
      | succ free =>
          rw [splitLoop]
          split
          · exact ⟨_, starts, if_pos position.ge, stripped, rfl⟩
          next atEnd =>
            rw [Nat.sub_eq_zero_of_le (Nat.le_of_not_lt atEnd)]
            exact ⟨split, starts, rfl, tokens, rfl⟩
  | @argument gap rest arguments argument isGap writes apart ih =>
      cases free with
      | zero => exact absurd few (Nat.not_succ_le_zero _)
      | succ free =>
          have written := written_length argument
          have ends := holds.ends
          simp only [List.length_append] at ends
          rw [List.append_assoc] at holds
          have position := stripBlanks_gap holds isGap (written_head argument)
          obtain ⟨stripped, closed⟩ := tokens_stripBlanks tokens pending
          have inside : (stripBlanks (length - split.ui32Position) split).ui32Position <
              length := by omega
          have closed := closed inside
          have behind : Rest length (argument.written ++ rest)
              (stripBlanks (length - split.ui32Position) split) := by
            refine holds.drop position fun index after => ?_
            rw [stripBlanks_pszData, if_neg fun skipped => Nat.not_le_of_lt skipped.2 after]
          obtain ⟨start, found, later, finds⟩ :=
            splitArgument_written argument behind apart stripped closed
          obtain ⟨result, all, returns, final, texts⟩ :=
            ih free (Nat.le_of_succ_le_succ few) found later finds.behind
          refine ⟨result, all, ?_, final, ?_⟩
          · rw [splitLoop, if_pos (by omega)]
            exact (if_neg (Nat.not_le_of_lt inside)).trans returns
          · rw [texts, finds.map_cString closed inside.le apart argument.nulFree,
              List.append_assoc]
            rfl

end Split

/-- `Shell_SplitCommand` finds the arguments that were written, quoted or not. -/
theorem shellSplitCommand_writes {arguments : List Argument} {line : List UInt8}
    (writes : Writes arguments line) (few : arguments.length ≤ shellArgMax)
    {pszData : Nat → UInt8} (bytes : load pszData 0 line.length = line)
    (isNul : pszData line.length = 0) :
    ∃ result, shellSplitCommand pszData line.length = some result ∧
      result.ui8Argc = arguments.length ∧
      ∀ index, result.arguments line.length index = (arguments[index]?).map Argument.text := by
  have holds : Split.Rest line.length line (.start pszData) :=
    { bytes := bytes
      ends := Nat.zero_add _
      isNul := isNul }
  obtain ⟨result, starts, returns, final, texts⟩ := Split.splitLoop_writes shellArgMax writes
    few (Split.tokens_start isNul) Split.pending_start holds
  rw [List.map_nil, List.nil_append] at texts
  refine ⟨result, returns, ?_, ?_⟩
  · rw [final.argc, ← List.length_map (cString result.pszData (line.length + 1)), texts,
      List.length_map]
  · intro index
    rw [Split.arguments, final.argv, ← List.getElem?_map, texts, List.getElem?_map]

/-- `a "b \""`, with a blank in front. -/
theorem shellSplitCommand_writes_two :
    let arguments : List Argument :=
      [⟨[0x61], false, by decide, by decide⟩,
        ⟨[0x62, 0x20, 0x5c, 0x22], true, by decide, by decide⟩]
    let line := [0x20, 0x61, 0x20, 0x22, 0x62, 0x20, 0x5c, 0x22, 0x22]
    Writes arguments line ∧ ∃ result, shellSplitCommand (literal line) line.length = some result ∧
      result.ui8Argc = arguments.length ∧
      ∀ index, result.arguments line.length index = (arguments[index]?).map Argument.text := by
  intro arguments line
  have blank : ∀ byte ∈ [(0x20 : UInt8)], IsBlank byte := by simp [IsBlank]
  have second : Writes arguments.tail (line.drop 2) :=
    @Writes.argument [0x20] [] _ _ blank (.blanks (by simp)) (by simp)
  have writes : Writes arguments line :=
    @Writes.argument [0x20] _ _ _ blank second (by simp [IsBlank])
  exact ⟨writes, shellSplitCommand_writes writes (by decide) rfl rfl⟩

end SunWise.Shell
