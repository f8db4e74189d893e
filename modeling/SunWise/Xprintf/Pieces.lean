import SunWise.Xprintf.Fields

/-!
# The pieces of a format

Every format is a list of characters and sequences, and may end in the middle of a sequence.
Each piece has a text of its own, and `xvprintf` puts these texts one after the other.
-/

namespace SunWise.Xprintf

open Library

/-- The flag of a sequence. -/
inductive Flag where
  | none
  | zero
  | left
  deriving DecidableEq, Repr

/-- What stands between `%` and the type of a sequence. -/
structure Modifiers where
  flag : Flag
  width : List UInt8
  long : Option UInt8
  deriving DecidableEq, Repr

/-- A part of a format that is put on its own. -/
inductive Piece where
  | char (c : UInt8)
  | sequence (modifiers : Modifiers) (type : UInt8)
  deriving DecidableEq, Repr

def Flag.text : Flag → List UInt8
  | .none => []
  | .zero => ['0'.toUInt8]
  | .left => ['-'.toUInt8]

def Modifiers.text (modifiers : Modifiers) : List UInt8 :=
  '%'.toUInt8 :: modifiers.flag.text ++ modifiers.width ++ modifiers.long.toList

def Piece.text : Piece → List UInt8
  | .char c => [c]
  | .sequence modifiers type => modifiers.text ++ [type]

/-- The width is one of digits, which a flag does not belong to. -/
structure Modifiers.Valid (modifiers : Modifiers) : Prop where
  digits : ∀ c ∈ modifiers.width, IsDigit c
  noFlag : modifiers.flag = .none → modifiers.width.head? ≠ some '0'.toUInt8
  long : ∀ c ∈ modifiers.long, c = 'l'.toUInt8 ∨ c = 'L'.toUInt8

/-- A type is what no modifier goes on with. -/
structure Modifiers.Ends (modifiers : Modifiers) (type : UInt8) : Prop where
  nonzero : type ≠ 0
  noDigit : modifiers.long = none → ¬ IsDigit type
  noLong : modifiers.long = none → type ≠ 'l'.toUInt8 ∧ type ≠ 'L'.toUInt8
  noFlag : modifiers = ⟨.none, [], none⟩ → type ≠ '-'.toUInt8

def Piece.Valid : Piece → Prop
  | .char c => c ≠ 0 ∧ c ≠ '%'.toUInt8
  | .sequence modifiers type => modifiers.Valid ∧ modifiers.Ends type

/-- The end of a format: nothing, or modifiers without a type. -/
def endText (rest : Option Modifiers) : List UInt8 :=
  rest.elim [] Modifiers.text

/-- The bits that modifiers set. -/
def Modifiers.flags (modifiers : Modifiers) : Flags where
  zeroPadded := modifiers.flag = .zero
  leftJustified := modifiers.flag = .left
  isLong := modifiers.long.isSome

/-- The value of the digits of a width. -/
def widthOf (width : List UInt8) : UInt32 :=
  width.foldl (fun w c => w * 10 + c.toUInt32 - '0'.toUInt8.toUInt32) 0

/-- What a type takes from the arguments, and puts. -/
def typeText (modifiers : Modifiers) (type : UInt8) (arp : List Argument) :
    Option (List UInt8 × List Argument) :=
  let f := modifiers.flags
  let w := widthOf modifiers.width
  if upper type = 'S'.toUInt8 then
    match arp with
    | .string array :: arp => some (field f ' '.toUInt8 w (array.takeWhile (· ≠ 0)), arp)
    | _ => none
  else if upper type = 'C'.toUInt8 then
    match arp with
    | .word v :: arp => some ([v.toUInt8], arp)
    | _ => none
  else
    match baseOf (upper type) with
    | none => some ([type], arp)
    | some r =>
        match arp with
        | .word v :: arp =>
            some (field f (if f.zeroPadded then '0'.toUInt8 else ' '.toUInt8) w
              (numberText r (type = 'x'.toUInt8) (upper type = 'D'.toUInt8) v), arp)
        | _ => none

def Piece.put : Piece → List Argument → Option (List UInt8 × List Argument)
  | .char c, arp => some ([c], arp)
  | .sequence modifiers type, arp => typeText modifiers type arp

/-- The texts of all pieces, one after the other. -/
def putAll : List Piece → List Argument → Option (List UInt8)
  | [], _ => some []
  | piece :: pieces, arp => do
      let (put, arp) ← piece.put arp
      let output ← putAll pieces arp
      some (put ++ output)

theorem widthLoop_append {width : List UInt8} (digits : ∀ c ∈ width, IsDigit c) {c : UInt8}
    (noDigit : ¬ IsDigit c) (w : UInt32) (fmt : List UInt8) :
    ∃ first more, width ++ c :: fmt = first :: more ∧
      widthLoop w first more = some (width.foldl (fun w c => w * 10 + c.toUInt32 -
        '0'.toUInt8.toUInt32) w, c, fmt) := by
  induction width generalizing w with
  | nil =>
      refine ⟨c, fmt, rfl, ?_⟩
      cases fmt <;> rw [widthLoop, if_neg noDigit] <;> rfl
  | cons digit width ih =>
      rw [List.forall_mem_cons] at digits
      obtain ⟨first, more, isMore, loops⟩ :=
        ih digits.2 (w * 10 + digit.toUInt32 - '0'.toUInt8.toUInt32)
      refine ⟨digit, first :: more, by rw [List.cons_append, isMore], ?_⟩
      rw [widthLoop, if_pos digits.1, loops]
      rfl

theorem isDigit_ne {c : UInt8} (isDigit : IsDigit c) : c ≠ '-'.toUInt8 := by
  rintro rfl
  exact absurd isDigit (by decide)

/-- Modifiers are read up to the first character that does not belong to them. -/
theorem readModifiers_text {modifiers : Modifiers} (valid : modifiers.Valid) {c : UInt8}
    (noDigit : modifiers.long = none → ¬ IsDigit c)
    (noLong : modifiers.long = none → c ≠ 'l'.toUInt8 ∧ c ≠ 'L'.toUInt8)
    (noFlag : modifiers = ⟨.none, [], none⟩ → c ≠ '-'.toUInt8) (fmt : List UInt8) :
    ∃ more, modifiers.text ++ c :: fmt = '%'.toUInt8 :: more ∧
      readModifiers more = some (modifiers.flags, widthOf modifiers.width, c, fmt) := by
  obtain ⟨flag, width, long⟩ := modifiers
  refine ⟨flag.text ++ (width ++ (long.toList ++ c :: fmt)), by simp [Modifiers.text], ?_⟩
  obtain ⟨next, later, isLater, notDigit, reads⟩ : ∃ next later, long.toList ++ c :: fmt =
      next :: later ∧ ¬ IsDigit next ∧ ∀ f : Flags, f.isLong = false →
        readPrefix f next later = some ({ f with isLong := long.isSome }, c, fmt) := by
    cases long with
    | none =>
        refine ⟨c, fmt, rfl, noDigit rfl, fun f notLong => ?_⟩
        rw [readPrefix, if_neg (not_or.mpr (noLong rfl)), Option.isSome_none, ← notLong]
    | some l =>
        have isLong := valid.long l rfl
        refine ⟨l, c :: fmt, rfl, ?_, fun f _ => ?_⟩
        · rcases isLong with rfl | rfl <;> decide
        · rw [readPrefix, if_pos isLong]
          rfl
  obtain ⟨first, more, isMore, loops⟩ := widthLoop_append valid.digits notDigit 0 later
  rw [isLater, isMore]
  cases flag with
  | none =>
      have noZero : first ≠ '0'.toUInt8 ∧ first ≠ '-'.toUInt8 := by
        cases width with
        | nil =>
            rw [List.nil_append, List.cons.injEq] at isMore
            rw [← isMore.1]
            refine ⟨fun isZero => notDigit (isZero ▸ by decide), ?_⟩
            cases long with
            | none =>
                rw [Option.toList_none, List.nil_append, List.cons.injEq] at isLater
                exact isLater.1 ▸ noFlag rfl
            | some l =>
                rw [Option.toList_some, List.cons_append, List.cons.injEq] at isLater
                rw [← isLater.1]
                rcases valid.long l rfl with rfl | rfl <;> decide
        | cons digit width =>
            rw [List.cons_append, List.cons.injEq] at isMore
            rw [← isMore.1]
            exact ⟨fun isZero => valid.noFlag rfl (congrArg some isZero),
              isDigit_ne (valid.digits digit List.mem_cons_self)⟩
      simp only [readModifiers, Flag.text, List.nil_append, fetch, readFlag, if_neg noZero.1,
        if_neg noZero.2, Option.bind_eq_bind, Option.bind_some, loops, reads {} rfl]
      rfl
  | zero =>
      simp only [readModifiers, Flag.text, List.cons_append, List.nil_append, fetch, readFlag,
        if_true, Option.bind_eq_bind, Option.bind_some, loops, reads { zeroPadded := true } rfl]
      rfl
  | left =>
      have notZero : '-'.toUInt8 ≠ '0'.toUInt8 := by decide
      simp only [readModifiers, Flag.text, List.cons_append, List.nil_append, fetch, readFlag,
        if_neg notZero, if_true, Option.bind_eq_bind, Option.bind_some, loops,
        reads { leftJustified := true } rfl]
      rfl

/-- The widths and strings that fit in the 32 bits that they are counted with. -/
def Fits (pieces : List Piece) (arp : List Argument) : Prop :=
  (∀ modifiers type, .sequence modifiers type ∈ pieces →
    (widthOf modifiers.width).toNat + 1 < 2 ^ 32) ∧
  ∀ array, .string array ∈ arp → 0 ∈ array ∧ array.length < 2 ^ 32

theorem baseOf_isBase {d : UInt8} {r : Nat} (isBase : baseOf d = some r) :
    IsBase r ∧ (d = 'D'.toUInt8 → r = 10) := by
  unfold baseOf at isBase
  unfold IsBase
  split at isBase
  next isB =>
    cases isBase
    exact ⟨Or.inl rfl, fun isD => absurd (isB.symm.trans isD) (by decide)⟩
  split at isBase
  next isO =>
    cases isBase
    exact ⟨Or.inr (Or.inl rfl), fun isD => absurd (isO.symm.trans isD) (by decide)⟩
  split at isBase
  next =>
    cases isBase
    exact ⟨Or.inr (Or.inr (Or.inl rfl)), fun _ => rfl⟩
  split at isBase
  next isX =>
    cases isBase
    exact ⟨Or.inr (Or.inr (Or.inr rfl)), fun isD => absurd (isX.symm.trans isD) (by decide)⟩
  next => cases isBase

theorem putConversion_eq {modifiers : Modifiers} {type : UInt8} {arp : List Argument}
    (width : (widthOf modifiers.width).toNat + 1 < 2 ^ 32)
    (strings : ∀ array, .string array ∈ arp → 0 ∈ array ∧ array.length < 2 ^ 32) :
    putConversion modifiers.flags (widthOf modifiers.width) type arp =
      typeText modifiers type arp := by
  unfold putConversion typeText
  dsimp only
  split
  next =>
    cases arp with
    | nil => rfl
    | cons argument arp =>
        cases argument with
        | word v => rfl
        | string array =>
            obtain ⟨hasNul, short⟩ := strings array List.mem_cons_self
            obtain ⟨text, rest, rfl, noNul⟩ := List.eq_append_cons_of_mem hasNul
            rw [List.length_append, List.length_cons] at short
            have isText : (text ++ 0 :: rest).takeWhile (· ≠ 0) = text := by
              rw [List.takeWhile_append_of_pos, List.takeWhile_cons_of_neg, List.append_nil]
              · decide
              · exact fun c isIn => decide_eq_true fun isNul => noNul (isNul ▸ isIn)
            simp only [stringArgument, Option.bind_eq_bind, Option.bind_some]
            rw [putString_eq _ noNul rest width (by omega), isText]
            rfl
  split
  next =>
    cases arp with
    | nil => rfl
    | cons argument arp => cases argument <;> rfl
  cases isBase : baseOf (upper type) with
  | none => rfl
  | some r =>
      cases arp with
      | nil => rfl
      | cons argument arp =>
          cases argument with
          | string array => rfl
          | word v =>
              have base := baseOf_isBase isBase
              simp only [wordArgument, Option.bind_eq_bind, Option.bind_some]
              rw [putNumber_eq _ base.1 _ _ base.2 rfl v width]
              rfl

theorem arguments_of_put {piece : Piece} {arp left : List Argument} {put : List UInt8}
    (puts : piece.put arp = some (put, left)) : ∀ argument ∈ left, argument ∈ arp := by
  have suffix : left <:+ arp := by
    cases piece with
    | char c =>
        cases puts
        exact List.suffix_refl _
    | sequence modifiers type =>
        unfold Piece.put typeText at puts
        dsimp only at puts
        split at puts
        next =>
          split at puts
          next =>
            cases puts
            exact List.suffix_cons ..
          next => cases puts
        split at puts
        next =>
          split at puts
          next =>
            cases puts
            exact List.suffix_cons ..
          next => cases puts
        split at puts
        next =>
          cases puts
          exact List.suffix_refl _
        next =>
          split at puts
          next =>
            cases puts
            exact List.suffix_cons ..
          next => cases puts
  exact fun argument isLeft => suffix.subset isLeft

theorem length_text_pos (piece : Piece) : 0 < piece.text.length := by
  cases piece <;> simp [Piece.text]

/-- The loop puts the pieces of a format one after the other. -/
theorem xvprintfLoop_pieces {pieces : List Piece} (valid : ∀ piece ∈ pieces, piece.Valid)
    {last : Option Modifiers} (validEnd : ∀ modifiers ∈ last, modifiers.Valid)
    {arp : List Argument} (fits : Fits pieces arp) (rest : List UInt8) {turns : Nat}
    (enough : pieces.length < turns) :
    xvprintfLoop turns (pieces.flatMap Piece.text ++ (endText last ++ 0 :: rest)) arp =
      putAll pieces arp := by
  induction pieces generalizing arp turns with
  | nil =>
      obtain ⟨turns, rfl⟩ := Nat.exists_eq_succ_of_ne_zero (Nat.ne_of_gt enough)
      cases last with
      | none => rfl
      | some modifiers =>
          obtain ⟨more, isMore, reads⟩ := readModifiers_text (c := 0) (validEnd modifiers rfl)
            (fun _ => by decide) (fun _ => by decide) (fun _ => by decide) rest
          have notEnd : '%'.toUInt8 ≠ 0 := by decide
          rw [List.flatMap_nil, List.nil_append, endText, Option.elim_some, isMore]
          simp only [xvprintfLoop, fetch, Option.bind_eq_bind, Option.bind_some, if_neg notEnd,
            ne_eq, not_true_eq_false, if_false, reads, if_true, putAll]
  | cons piece pieces ih =>
      obtain ⟨turns, rfl⟩ := Nat.exists_eq_succ_of_ne_zero (Nat.ne_zero_of_lt enough)
      rw [List.forall_mem_cons] at valid
      have later : ∀ put left, piece.put arp = some (put, left) →
          xvprintfLoop turns (pieces.flatMap Piece.text ++ (endText last ++ 0 :: rest)) left =
            putAll pieces left := by
        intro put left puts
        refine ih valid.2 ⟨fun modifiers type isIn => ?_, fun array isIn => ?_⟩
          (Nat.lt_of_succ_lt_succ enough)
        · exact fits.1 modifiers type (List.mem_cons_of_mem _ isIn)
        · exact fits.2 array (arguments_of_put puts _ isIn)
      rw [List.flatMap_cons, List.append_assoc, putAll]
      cases piece with
      | char c =>
          have isChar := valid.1
          rw [Piece.text, List.cons_append, List.nil_append]
          simp only [xvprintfLoop, fetch, Option.bind_eq_bind, Option.bind_some, if_neg isChar.1,
            ne_eq, isChar.2, not_false_eq_true, if_true, Piece.put]
          rw [later [c] arp rfl]
          rfl
      | sequence modifiers type =>
          obtain ⟨isValid, ends⟩ := valid.1
          have width := fits.1 modifiers type List.mem_cons_self
          obtain ⟨more, isMore, reads⟩ := readModifiers_text isValid ends.noDigit ends.noLong
            ends.noFlag (pieces.flatMap Piece.text ++ (endText last ++ 0 :: rest))
          have notEnd : '%'.toUInt8 ≠ 0 := by decide
          rw [Piece.text, List.append_assoc, List.cons_append, List.nil_append, isMore]
          simp only [xvprintfLoop, fetch, Option.bind_eq_bind, Option.bind_some, if_neg notEnd,
            ne_eq, not_true_eq_false, if_false, reads, if_neg ends.nonzero]
          rw [putConversion_eq width fits.2, Piece.put]
          cases puts : typeText modifiers type arp with
          | none => rfl
          | some both =>
              obtain ⟨put, left⟩ := both
              simp only [Option.bind_some]
              rw [later put left puts]

/-! ## Every format -/

/-- What follows a width, and the prefix in it. -/
theorem exists_long (fmt : List UInt8) :
    ∃ (long : Option UInt8) (rest : List UInt8), fmt = long.toList ++ rest ∧
      (∀ c ∈ long, c = 'l'.toUInt8 ∨ c = 'L'.toUInt8) ∧
      (long = none → ∀ c ∈ rest.head?, c ≠ 'l'.toUInt8 ∧ c ≠ 'L'.toUInt8) := by
  cases fmt with
  | nil => exact ⟨none, [], rfl, by simp, by simp⟩
  | cons c fmt =>
      by_cases isLong : c = 'l'.toUInt8 ∨ c = 'L'.toUInt8
      · exact ⟨some c, fmt, rfl, by rintro _ ⟨⟩; exact isLong, fun isNone => by cases isNone⟩
      · refine ⟨none, c :: fmt, rfl, by simp, fun _ => ?_⟩
        rintro _ ⟨⟩
        exact not_or.mp isLong

theorem exists_modifiers_of_flag (flag : Flag) (fmt : List UInt8)
    (noFlag : flag = .none → ∀ c ∈ fmt.head?, c ≠ '0'.toUInt8 ∧ c ≠ '-'.toUInt8) :
    ∃ (modifiers : Modifiers) (rest : List UInt8), modifiers.Valid ∧
      '%'.toUInt8 :: (flag.text ++ fmt) = modifiers.text ++ rest ∧
      ∀ type ∈ rest.head?, type ≠ 0 → modifiers.Ends type := by
  have isWidth := List.takeWhile_append_dropWhile (p := (IsDigit ·)) (l := fmt)
  obtain ⟨long, rest, isRest, isLong, noLong⟩ := exists_long (fmt.dropWhile (IsDigit ·))
  refine ⟨⟨flag, fmt.takeWhile (IsDigit ·), long⟩, rest,
    ⟨fun c isIn => ?_, fun isNone => ?_, isLong⟩, ?_,
    fun type isType nonzero => ⟨nonzero, ?_, fun isNone => noLong isNone type isType, ?_⟩⟩
  · exact of_decide_eq_true (List.mem_takeWhile_imp (p := fun c => decide (IsDigit c)) isIn)
  · cases fmt with
    | nil => simp
    | cons c fmt =>
        have isFirst := noFlag isNone c rfl
        rw [List.takeWhile_cons]
        split
        · exact fun isZero => isFirst.1 (Option.some.inj isZero)
        · simp
  · rw [Modifiers.text]
    simp only [List.cons_append, List.append_assoc, ← isRest, isWidth]
  · intro isNone isDigit
    subst isNone
    rw [Option.toList_none, List.nil_append] at isRest
    have noDigit := List.head?_dropWhile_not (IsDigit ·) fmt
    rw [isRest, Option.mem_def.mp isType] at noDigit
    exact of_decide_eq_false noDigit isDigit
  · intro isPlain
    rw [Modifiers.mk.injEq] at isPlain
    obtain ⟨isNone, noWidth, noPrefix⟩ := isPlain
    subst noPrefix
    rw [noWidth, List.nil_append] at isWidth
    rw [isWidth, Option.toList_none, List.nil_append] at isRest
    rw [← isRest] at isType
    exact (noFlag isNone type isType).2

theorem exists_modifiers (fmt : List UInt8) :
    ∃ (modifiers : Modifiers) (rest : List UInt8), modifiers.Valid ∧
      '%'.toUInt8 :: fmt = modifiers.text ++ rest ∧
      ∀ type ∈ rest.head?, type ≠ 0 → modifiers.Ends type := by
  cases fmt with
  | nil => exact exists_modifiers_of_flag .none [] (fun _ => by simp)
  | cons c fmt =>
      by_cases isZero : c = '0'.toUInt8
      · subst isZero
        exact exists_modifiers_of_flag .zero fmt (fun isNone => by cases isNone)
      by_cases isLeft : c = '-'.toUInt8
      · subst isLeft
        exact exists_modifiers_of_flag .left fmt (fun isNone => by cases isNone)
      refine exists_modifiers_of_flag .none (c :: fmt) fun _ => ?_
      rintro _ ⟨⟩
      exact ⟨isZero, isLeft⟩

/-- Every format consists of pieces, and perhaps of modifiers without a type at its end. -/
theorem exists_pieces (fmt : List UInt8) (nonzero : 0 ∉ fmt) :
    ∃ (pieces : List Piece) (last : Option Modifiers), (∀ piece ∈ pieces, piece.Valid) ∧
      (∀ modifiers ∈ last, modifiers.Valid) ∧
      fmt = pieces.flatMap Piece.text ++ endText last := by
  induction length : fmt.length using Nat.strong_induction_on generalizing fmt with
  | _ count ih =>
      cases fmt with
      | nil => exact ⟨[], none, List.forall_mem_nil _, by simp, rfl⟩
      | cons c fmt =>
          rw [List.mem_cons, not_or] at nonzero
          by_cases isPercent : c = '%'.toUInt8
          · subst isPercent
            obtain ⟨modifiers, rest, valid, isText, ends⟩ := exists_modifiers fmt
            cases rest with
            | nil =>
                refine ⟨[], some modifiers, List.forall_mem_nil _, ?_, ?_⟩
                · rintro _ ⟨⟩
                  exact valid
                · rw [isText, List.append_nil]
                  rfl
            | cons type rest =>
                have lengths := congrArg List.length isText
                rw [List.length_append, List.length_cons, List.length_cons] at lengths
                have isIn : ∀ c ∈ type :: rest, c ≠ 0 := by
                  rintro c isIn rfl
                  have isInText : (0 : UInt8) ∈ '%'.toUInt8 :: fmt :=
                    isText ▸ List.mem_append_right _ isIn
                  rcases List.mem_cons.mp isInText with isPercent | isFormat
                  · exact nonzero.1 isPercent
                  · exact nonzero.2 isFormat
                obtain ⟨pieces, last, validPieces, validEnd, isRest⟩ := ih rest.length
                  (by rw [← length, List.length_cons]; omega) rest
                  (fun isZero => isIn 0 (List.mem_cons_of_mem _ isZero) rfl) rfl
                refine ⟨.sequence modifiers type :: pieces, last, ?_, validEnd, ?_⟩
                · exact List.forall_mem_cons.mpr
                    ⟨⟨valid, ends type rfl (isIn type List.mem_cons_self)⟩, validPieces⟩
                · rw [isText, isRest, List.flatMap_cons, Piece.text]
                  simp only [List.append_assoc, List.cons_append, List.nil_append]
          · obtain ⟨pieces, last, validPieces, validEnd, isRest⟩ := ih fmt.length
              (by rw [← length, List.length_cons]; omega) fmt nonzero.2 rfl
            refine ⟨.char c :: pieces, last, ?_, validEnd, ?_⟩
            · exact List.forall_mem_cons.mpr ⟨⟨Ne.symm nonzero.1, isPercent⟩, validPieces⟩
            · rw [isRest, List.flatMap_cons]
              rfl

end SunWise.Xprintf
