import SunWise.Can.Frames
import SunWise.Flash.RoundTrip
import SunWise.Shell.Commands
import SunWise.Shell.Dump

/-!
# Data that is shown

The commands `qspi read` and `can recv` read from a device to `m_aui8DummyBuffer` and show
what is there.  They do not look at what the driver returns, and show as much as they have
asked for: when `Flash_ReadData` rejects a page, or a frame has less than eight bytes, they show
what was in the buffer before.  A remote frame has no bytes at all.
-/

namespace SunWise.Shell

open Library Qspi Flash

/-- Memory, with `m_aui8DummyBuffer` at an address. -/
def bufferMemory (address : UInt32) (m_aui8DummyBuffer : Nat → UInt8) : UInt32 → UInt8 :=
  fun byte => m_aui8DummyBuffer (byte - address).toNat

/-- The flash, the buffer, and the bytes that have been shown, with their addresses. -/
structure FlashShell where
  /-- The receive buffer of the controller is `m_aui8DummyBuffer`. -/
  qspi : QspiState NorFlash
  shown : List (UInt32 × UInt8)

/-- An action of `qspi read`. -/
def FlashShell.perform (buffer : UInt32) (shell : FlashShell) : ShellAction → FlashShell
  | .flashReadData uinAddress uinLength =>
      { shell with qspi := (flashReadData norBus uinAddress (some 0) uinLength shell.qspi).2 }
  | .dumpBuffer uinAddressForDisplay uinLength =>
      let memory := bufferMemory buffer shell.qspi.rx
      let reads := (shellCommandDumpMemory memory uinAddressForDisplay buffer uinLength).reads
      { shell with
        shown := shell.shown ++ reads.map fun (displayed, address) => (displayed, memory address) }
  | _ => shell

/-- The bytes that `qspi read` shows. -/
def qspiRead (buffer uinAddress uinLength : UInt32) (qspi : QspiState NorFlash) :
    List (UInt32 × UInt8) :=
  ((qspiReadLoop uinAddress uinLength).foldl (FlashShell.perform buffer) ⟨qspi, []⟩).shown

/-- Every byte that is shown is what the flash delivers for its address, whatever the buffer
held before. -/
structure ShowsFlash (buffer uinAddress uinLength : UInt32) (qspi : QspiState NorFlash) :
    Prop where
  delivered : ∀ address byte, (address, byte) ∈ qspiRead buffer uinAddress uinLength qspi →
    address.toNat < flashSize.toNat ∧ byte = qspi.device.answer address.toNat
  independent : ∀ rx, qspiRead buffer uinAddress uinLength { qspi with rx } =
    qspiRead buffer uinAddress uinLength qspi

/-- A range of the flash, or one that begins with a page that the dump does not show and that
ends in the flash when it wraps around. -/
def ShowableRange (uinAddress uinLength : UInt32) : Prop :=
  uinLength = 0 ∨ uinAddress.toNat + uinLength.toNat ≤ flashSize.toNat ∨
    2 ^ 32 - 16 < uinAddress.toNat + min 256 uinLength.toNat ∧
      uinAddress.toNat + uinLength.toNat ≤ 2 ^ 32 + flashSize.toNat

/-- What the flash delivers for a range. -/
def flashBytes (flash : NorFlash) (uinAddress uinLength : UInt32) : List (UInt32 × UInt8) :=
  (List.range uinLength.toNat).map fun offset =>
    (uinAddress + UInt32.ofNat offset, flash.answer (uinAddress.toNat + offset))

section Pages

variable {buffer uinAddress uinLength : UInt32} {shell : FlashShell}

theorem shown_dumpBuffer (buffer uinAddressForDisplay uinLength : UInt32) (shell : FlashShell) :
    (shell.perform buffer (.dumpBuffer uinAddressForDisplay uinLength)).shown = shell.shown ++
      if uinAddressForDisplay.toNat + uinLength.toNat ≤ 2 ^ 32 - 16 then
        (List.range uinLength.toNat).map fun offset =>
          (uinAddressForDisplay + UInt32.ofNat offset, shell.qspi.rx offset)
      else [] := by
  rw [FlashShell.perform]
  dsimp only
  congr 1
  split
  next ends =>
    rw [(shellCommandDumpMemory_dumps _ _ _ _ ends).reads, List.map_map]
    apply List.map_congr_left
    intro offset inside
    have small := uinLength.toNat_lt
    have index : (buffer + UInt32.ofNat offset - buffer).toNat = offset := by
      rw [UInt32.add_comm, UInt32.add_sub_cancel]
      exact UInt32.toNat_ofNat_of_lt' ((List.mem_range.mp inside).trans small)
    simp only [Function.comp_apply, bufferMemory, index]
  next wraps =>
    rw [shellCommandDumpMemory_wrapped _ _ _ _ (Nat.lt_of_not_le wraps)]
    rfl

/-- The actions for a page. -/
def FlashShell.page (buffer uinAddress uinLength : UInt32) (shell : FlashShell) : FlashShell :=
  (shell.perform buffer (.flashReadData uinAddress uinLength)).perform buffer
    (.dumpBuffer uinAddress uinLength)

theorem flashReadData_device (uinAddress uinLength : UInt32) (qspi : QspiState NorFlash) :
    (flashReadData norBus uinAddress (some 0) uinLength qspi).2.device = qspi.device := by
  rw [flashReadData]
  split
  next => rfl
  next accepts =>
    have nonempty : uinLength ≠ 0 := fun isEmpty => accepts (Or.inr (Or.inr isEmpty))
    exact hwQspiReadBlock_device qspi uinAddress 0
      (Nat.pos_of_ne_zero fun isZero => nonempty (UInt32.toNat_inj.mp isZero))

theorem page_device (buffer uinAddress uinLength : UInt32) (shell : FlashShell) :
    (shell.page buffer uinAddress uinLength).qspi.device = shell.qspi.device :=
  flashReadData_device uinAddress uinLength shell.qspi

theorem shown_page_inside (nonempty : uinLength ≠ 0)
    (fits : uinAddress.toNat + uinLength.toNat ≤ flashSize.toNat) :
    (shell.page buffer uinAddress uinLength).shown =
      shell.shown ++ flashBytes shell.qspi.device uinAddress uinLength := by
  have accepts := guard_passes fits nonempty
  have test : ¬ (uinAddress + uinLength > flashSize ∨ some 0 = none ∨ uinLength = 0) := by
    simpa using accepts
  have positive : 0 < uinLength.toNat :=
    Nat.pos_of_ne_zero fun isZero => nonempty (UInt32.toNat_inj.mp isZero)
  rw [flashSize_toNat] at fits
  rw [FlashShell.page, shown_dumpBuffer, if_pos (by omega), FlashShell.perform, flashReadData,
    if_neg test]
  dsimp only
  rw [hwQspiReadBlock_read shell.qspi 0 positive fits, flashBytes]
  congr 1
  apply List.map_congr_left
  intro offset inside
  have below := List.mem_range.mp inside
  rw [store_load_apply, if_pos (by omega), Nat.sub_zero]

/-- A page at the end of the address space is not shown. -/
theorem shown_page_hidden (wraps : 2 ^ 32 - 16 < uinAddress.toNat + uinLength.toNat) :
    (shell.page buffer uinAddress uinLength).shown = shell.shown := by
  rw [FlashShell.page, shown_dumpBuffer, if_neg (Nat.not_le_of_lt wraps), List.append_nil]
  rfl

/-- A page that reaches behind the flash is shown nevertheless. -/
theorem shown_page_stale (nonempty : uinLength ≠ 0)
    (behind : flashSize.toNat < uinAddress.toNat + uinLength.toNat)
    (ends : uinAddress.toNat + uinLength.toNat ≤ 2 ^ 32 - 16) :
    ∃ pair ∈ (shell.page buffer uinAddress uinLength).shown,
      flashSize.toNat ≤ pair.1.toNat := by
  have positive : 0 < uinLength.toNat :=
    Nat.pos_of_ne_zero fun isZero => nonempty (UInt32.toNat_inj.mp isZero)
  have last : (uinAddress + UInt32.ofNat (uinLength.toNat - 1)).toNat =
      uinAddress.toNat + uinLength.toNat - 1 := by
    rw [UInt32.toNat_add, UInt32.toNat_ofNat']
    omega
  rw [FlashShell.page, shown_dumpBuffer, if_pos ends]
  refine ⟨_, List.mem_append_right _ (List.mem_map.mpr ⟨uinLength.toNat - 1, ?_, rfl⟩), ?_⟩
  · exact List.mem_range.mpr (Nat.sub_lt positive Nat.one_pos)
  · rw [last]
    omega

/-- What has been shown stays shown. -/
theorem shown_isPrefix (actions : List ShellAction) (shell : FlashShell) :
    shell.shown <+: (actions.foldl (FlashShell.perform buffer) shell).shown := by
  induction actions generalizing shell with
  | nil => exact List.prefix_refl _
  | cons action actions ih =>
      rw [List.foldl_cons]
      refine List.IsPrefix.trans ?_ (ih _)
      cases action with
      | dumpBuffer uinAddressForDisplay uinLength =>
          rw [shown_dumpBuffer]
          exact List.prefix_append _ _
      | _ => exact List.prefix_refl _

/-- The page that the loop cuts off. -/
def pageCount (uinLengthOrData : UInt32) : UInt32 :=
  if uinLengthOrData > 256 then 256 else uinLengthOrData

theorem pageCount_toNat (uinLengthOrData : UInt32) :
    (pageCount uinLengthOrData).toNat = min 256 uinLengthOrData.toNat := by
  have page : (256 : UInt32).toNat = 256 := rfl
  unfold pageCount
  split
  next long =>
    rw [gt_iff_lt, UInt32.lt_iff_toNat_lt, page] at long
    omega
  next short =>
    rw [gt_iff_lt, UInt32.lt_iff_toNat_lt, page] at short
    omega

/-- A range can be shown if its first page and the rest can. -/
theorem showableRange_page (nonempty : uinLength ≠ 0) :
    ShowableRange uinAddress uinLength ↔
      (uinAddress.toNat + (pageCount uinLength).toNat ≤ flashSize.toNat ∨
        2 ^ 32 - 16 < uinAddress.toNat + (pageCount uinLength).toNat) ∧
      ShowableRange (uinAddress + pageCount uinLength) (uinLength - pageCount uinLength) := by
  have positive : 0 < uinLength.toNat :=
    Nat.pos_of_ne_zero fun isZero => nonempty (UInt32.toNat_inj.mp isZero)
  have small := uinAddress.toNat_lt
  have inside := uinLength.toNat_lt
  have count := pageCount_toNat uinLength
  have fits : pageCount uinLength ≤ uinLength := by
    rw [UInt32.le_iff_toNat_le, count]
    exact Nat.min_le_right _ _
  simp only [ShowableRange, ← UInt32.toNat_inj, UInt32.toNat_add, UInt32.toNat_sub_of_le _ _ fits,
    flashSize_toNat, UInt32.toNat_zero, count]
  omega

/-- The loop goes on behind its first page. -/
theorem foldl_qspiReadLoop (nonempty : uinLength > 0) (shell : FlashShell) :
    (qspiReadLoop uinAddress uinLength).foldl (FlashShell.perform buffer) shell =
      (qspiReadLoop (uinAddress + pageCount uinLength)
        (uinLength - pageCount uinLength)).foldl (FlashShell.perform buffer)
        (shell.page buffer uinAddress (pageCount uinLength)) := by
  rw [qspiReadLoop, if_pos nonempty]
  rfl

theorem ne_zero_of_more (more : uinLength > 0) : uinLength ≠ 0 := by
  rintro rfl
  exact absurd more (by decide)

theorem pageCount_ne_zero (nonempty : uinLength ≠ 0) : pageCount uinLength ≠ 0 := by
  have positive : 0 < uinLength.toNat :=
    Nat.pos_of_ne_zero fun isZero => nonempty (UInt32.toNat_inj.mp isZero)
  intro isZero
  have count := pageCount_toNat uinLength
  rw [isZero, UInt32.toNat_zero] at count
  omega

theorem fromFlash_flashBytes {flash : NorFlash}
    (fits : uinAddress.toNat + uinLength.toNat ≤ flashSize.toNat) {address : UInt32}
    {byte : UInt8} (isByte : (address, byte) ∈ flashBytes flash uinAddress uinLength) :
    address.toNat < flashSize.toNat ∧ byte = flash.answer address.toNat := by
  rw [flashSize_toNat] at fits ⊢
  rcases List.mem_map.mp isByte with ⟨offset, inside, isPair⟩
  have below := List.mem_range.mp inside
  cases isPair
  have place : (uinAddress + UInt32.ofNat offset).toNat = uinAddress.toNat + offset := by
    rw [UInt32.toNat_add, UInt32.toNat_ofNat']
    omega
  rw [place]
  exact ⟨by omega, rfl⟩

/-- In a range that can be shown, what is shown comes from the flash. -/
theorem shown_qspiReadLoop (buffer : UInt32) (flash : NorFlash)
    (showable : ShowableRange uinAddress uinLength) :
    ∃ bytes : List (UInt32 × UInt8),
      (∀ address byte, (address, byte) ∈ bytes →
        address.toNat < flashSize.toNat ∧ byte = flash.answer address.toNat) ∧
      ∀ shell : FlashShell, shell.qspi.device = flash →
        ((qspiReadLoop uinAddress uinLength).foldl (FlashShell.perform buffer) shell).shown =
          shell.shown ++ bytes := by
  induction uinAddress, uinLength using qspiReadLoop.induct with
  | case1 uinAddress uinLength more count ih =>
      have nonempty := ne_zero_of_more more
      rw [showableRange_page nonempty] at showable
      obtain ⟨page, rest⟩ := showable
      obtain ⟨later, fromFlash, shown⟩ := ih rest
      rcases page with inside | wraps
      · refine ⟨flashBytes flash uinAddress (pageCount uinLength) ++ later, ?_, ?_⟩
        · intro address byte isShown
          rcases List.mem_append.mp isShown with isFirst | isLater
          · exact fromFlash_flashBytes inside isFirst
          · exact fromFlash address byte isLater
        · rintro shell rfl
          rw [foldl_qspiReadLoop more]
          refine (shown _ (page_device _ _ _ shell)).trans ?_
          rw [shown_page_inside (pageCount_ne_zero nonempty) inside, List.append_assoc]
      · refine ⟨later, fromFlash, ?_⟩
        rintro shell rfl
        rw [foldl_qspiReadLoop more]
        refine (shown _ (page_device _ _ _ shell)).trans ?_
        rw [shown_page_hidden wraps]
  | case2 uinAddress uinLength ended =>
      refine ⟨[], fun address byte isShown => absurd isShown List.not_mem_nil, ?_⟩
      intro shell isFlash
      rw [qspiReadLoop, if_neg ended]
      exact (List.append_nil _).symm

/-- In any other range, a byte is shown for an address behind the flash. -/
theorem shown_qspiReadLoop_stale (unshowable : ¬ ShowableRange uinAddress uinLength)
    (shell : FlashShell) :
    ∃ pair ∈ ((qspiReadLoop uinAddress uinLength).foldl (FlashShell.perform buffer) shell).shown,
      flashSize.toNat ≤ pair.1.toNat := by
  induction uinAddress, uinLength using qspiReadLoop.induct generalizing shell with
  | case1 uinAddress uinLength more count ih =>
      have nonempty := ne_zero_of_more more
      rw [showableRange_page nonempty, not_and_or] at unshowable
      rw [foldl_qspiReadLoop more]
      rcases unshowable with page | rest
      · rw [not_or, Nat.not_le, Nat.not_lt] at page
        rcases @shown_page_stale buffer _ _ shell (pageCount_ne_zero nonempty) page.1 page.2 with
          ⟨pair, isShown, behind⟩
        exact ⟨pair, (shown_isPrefix _ _).subset isShown, behind⟩
      · exact ih rest _
  | case2 uinAddress uinLength ended =>
      have isEmpty : uinLength = 0 := UInt32.toNat_inj.mp (Nat.le_zero.mp (Nat.not_lt.mp ended))
      exact absurd (Or.inl isEmpty) unshowable

/-- The command shows the flash exactly on the ranges that can be shown. -/
theorem showsFlash_iff (buffer uinAddress uinLength : UInt32) (qspi : QspiState NorFlash) :
    ShowsFlash buffer uinAddress uinLength qspi ↔ ShowableRange uinAddress uinLength := by
  constructor
  · intro shows
    by_contra unshowable
    rcases @shown_qspiReadLoop_stale buffer _ _ unshowable ⟨qspi, []⟩ with
      ⟨⟨address, byte⟩, isShown, behind⟩
    exact Nat.not_lt.mpr behind (shows.delivered address byte isShown).1
  · intro showable
    obtain ⟨bytes, fromFlash, shown⟩ := shown_qspiReadLoop buffer qspi.device showable
    constructor
    · intro address byte isShown
      rw [qspiRead, shown _ rfl] at isShown
      exact fromFlash address byte isShown
    · intro rx
      rw [qspiRead, qspiRead, shown ⟨{ qspi with rx }, []⟩ rfl, shown ⟨qspi, []⟩ rfl]

end Pages

/-! ## Receiving a frame -/

/-- The case of `can recv`: the count and the bytes that it shows. -/
def canRecv (reads : Nat) (can : Can.CanTypeDef) (m_aui8DummyBuffer : Nat → UInt8) :
    Option (Nat × List UInt8) :=
  let ui32TmpLength := min 256 8
  let filled := store m_aui8DummyBuffer 0
    ((List.range ui32TmpLength).map fun i => UInt8.ofNat (i % 256))
  (Can.hwCanReadBlock reads can ui32TmpLength).map fun (frame, _) =>
    let read := store filled 0 (frame.rxbuf.map UInt8.ofBitVec)
    (ui32TmpLength, load read 0 ui32TmpLength)

/-- The registers in front of the data: two for a standard identifier, four for an extended
one. -/
def dataOffset (rfi : BitVec 32) : Nat :=
  if rfi.getLsbD Can.canTdiFfPos then 4 else 2

/-- The number of data bytes of a frame: none if it is a remote frame, and at most eight. -/
def carriedLength (rfi : BitVec 32) : Nat :=
  if rfi.getLsbD Can.canTdiRtrPos then 0 else min 8 (rfi.extractLsb' Can.canTdiDlcPos 4).toNat

/-- The data bytes that the frame in the receive registers carries. -/
def frameBytes (can : Can.CanTypeDef) : List UInt8 :=
  (List.range (carriedLength can.rfi)).map fun index =>
    UInt8.ofBitVec ((can.rdi (dataOffset can.rfi + index)).setWidth 8)

/-- The bytes of the frame are shown, with their count, whatever the buffer held before. -/
def ShowsFrame (reads : Nat) (can : Can.CanTypeDef) : Prop :=
  ∀ m_aui8DummyBuffer count bytes, canRecv reads can m_aui8DummyBuffer = some (count, bytes) →
    count = (frameBytes can).length ∧ bytes = frameBytes can

/-- If a frame arrives, it is a data frame of eight bytes. -/
def ShowableFrame (reads : Nat) (can : Can.CanTypeDef) : Prop :=
  (Can.waitStatus Can.canSrRbsPos reads (Can.leaveReset can)).isSome →
    can.rfi.getLsbD Can.canTdiRtrPos = false ∧ 8 ≤ (can.rfi.extractLsb' Can.canTdiDlcPos 4).toNat

/-- The bytes that `HW_CAN_ReadBlock` puts into the buffer. -/
def readBytes (can : Can.CanTypeDef) : List UInt8 :=
  (Can.readFrame can 8).rxbuf.map UInt8.ofBitVec

theorem dlc_eq (rfi : BitVec 32) :
    (rfi &&& 0xf).toNat = (rfi.extractLsb' Can.canTdiDlcPos 4).toNat := by
  have low : (0xf : BitVec 32).toNat = 2 ^ 4 - 1 := rfl
  rw [BitVec.toNat_and, low, Nat.and_two_pow_sub_one_eq_mod, BitVec.extractLsb'_toNat,
    Can.canTdiDlcPos, Nat.shiftRight_zero]

/-- The bytes that are read are those of the frame, unless it is a remote frame. -/
theorem readBytes_eq {can : Can.CanTypeDef} (isData : can.rfi.getLsbD Can.canTdiRtrPos = false) :
    readBytes can = frameBytes can := by
  have carried : carriedLength can.rfi = min 8 (can.rfi &&& 0xf).toNat := by
    rw [carriedLength, isData, dlc_eq]
    rfl
  rw [readBytes, Can.readFrame, frameBytes, carried, dataOffset]
  cases can.rfi.getLsbD Can.canTdiFfPos <;>
    simp only [load, List.map_map, Bool.not_true, Bool.not_false, Bool.false_eq_true, if_true,
      if_false] <;> rfl

theorem frameBytes_length (can : Can.CanTypeDef) :
    (frameBytes can).length = carriedLength can.rfi := by
  rw [frameBytes, List.length_map, List.length_range]

theorem carriedLength_eq_iff (rfi : BitVec 32) :
    8 = carriedLength rfi ↔
      rfi.getLsbD Can.canTdiRtrPos = false ∧ 8 ≤ (rfi.extractLsb' Can.canTdiDlcPos 4).toNat := by
  rw [carriedLength]
  cases rfi.getLsbD Can.canTdiRtrPos with
  | true => simp
  | false =>
      rw [if_neg Bool.false_ne_true, and_iff_right rfl]
      omega

/-- What the buffer is filled with before a frame is received. -/
def filledBuffer (m_aui8DummyBuffer : Nat → UInt8) : Nat → UInt8 :=
  store m_aui8DummyBuffer 0 ((List.range 8).map fun i => UInt8.ofNat (i % 256))

theorem canRecv_eq (reads : Nat) (can : Can.CanTypeDef) (m_aui8DummyBuffer : Nat → UInt8) :
    canRecv reads can m_aui8DummyBuffer =
      if (Can.waitStatus Can.canSrRbsPos reads (Can.leaveReset can)).isSome then
        some (8, load (store (filledBuffer m_aui8DummyBuffer) 0 (readBytes can)) 0 8)
      else none := by
  rw [canRecv, Can.hwCanReadBlock]
  cases waited : Can.waitStatus Can.canSrRbsPos reads (Can.leaveReset can) with
  | none => rfl
  | some after =>
      rcases Can.waitStatus_some waited with ⟨later, rfl⟩
      rfl

/-- The command shows a frame exactly if it is a data frame of eight bytes. -/
theorem showsFrame_iff (reads : Nat) (can : Can.CanTypeDef) :
    ShowsFrame reads can ↔ ShowableFrame reads can := by
  have length := frameBytes_length can
  rw [ShowableFrame, ← carriedLength_eq_iff]
  constructor
  · intro shows arrived
    have shown := canRecv_eq reads can fun _ => 0
    rw [if_pos arrived] at shown
    exact (shows _ _ _ shown).1.trans length
  · intro showable m_aui8DummyBuffer count bytes shown
    rw [canRecv_eq] at shown
    split at shown
    next arrived =>
      have whole : (frameBytes can).length = 8 := length.trans (showable arrived).symm
      have isData := ((carriedLength_eq_iff can.rfi).mp (showable arrived)).1
      rw [readBytes_eq isData] at shown
      cases shown
      refine ⟨whole.symm, ?_⟩
      have loaded : load (store (filledBuffer m_aui8DummyBuffer) 0 (frameBytes can)) 0
          (frameBytes can).length = frameBytes can := load_store_self _ _
      rwa [whole] at loaded
    next => cases shown

/-- Both commands show what the device has delivered, exactly if the range and the frame can
be shown. -/
theorem readCommands_deliver_iff (buffer uinAddress uinLength : UInt32)
    (qspi : QspiState NorFlash) (reads : Nat) (can : Can.CanTypeDef) :
    (ShowsFlash buffer uinAddress uinLength qspi ↔ ShowableRange uinAddress uinLength) ∧
      (ShowsFrame reads can ↔ ShowableFrame reads can) :=
  ⟨showsFlash_iff buffer uinAddress uinLength qspi, showsFrame_iff reads can⟩

/-- The command `qspi read ffff80 100`, for a page that ends behind the flash, a frame with
two bytes, and a remote frame. -/
theorem readCommands_not_deliver :
    ¬ ShowsFlash 0x20000000 0x00ffff80 0x100
        ⟨⟨fun _ => 0xff, false, 0, fun _ => 0⟩, ⟨.spiFrfStandard, .tmodTxAndRx⟩, [], fun _ => 0⟩ ∧
      ¬ ShowsFrame 1 { (default : Can.CanTypeDef) with sr := fun _ => 1, rfi := 2 } ∧
      ¬ ShowsFrame 1 { (default : Can.CanTypeDef) with sr := fun _ => 1, rfi := 0x48 } := by
  rw [showsFlash_iff, showsFrame_iff, showsFrame_iff, ShowableRange, ShowableFrame, ShowableFrame]
  refine ⟨by decide, ?_, ?_⟩
  · intro showable
    exact absurd (showable rfl) (by decide)
  · intro showable
    exact absurd (showable rfl) (by decide)

end SunWise.Shell
