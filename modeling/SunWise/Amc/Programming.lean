import SunWise.Amc.Driver
import SunWise.Library.Memory
import SunWise.Library.ParallelNor

/-!
# Programming a NOR flash

The driver on a parallel NOR flash.  The loop of `HW_AMC_NorFlashProgram` ends when DQ5 is
set in a read of the target, or when two reads of address 0 agree.  As long as the device
does not time out, either can only happen once it is ready, whatever the array holds; after
a timeout the loop ends as well, and nothing is reported.
-/

namespace SunWise.Amc

open Library

/-- The halfword that an address of the window selects. -/
def cell (baseAddr addr : UInt32) : Nat :=
  ((addr - baseAddr) >>> 1).toNat

/-- A NOR flash in the memory window. -/
def norBus (baseAddr : UInt32) : AmcBus ParallelNor where
  write16 device addr data := device.write (cell baseAddr addr) data
  read16 device addr := device.read (cell baseAddr addr)

section Commands

variable (baseAddr : UInt32)

theorem cell_add (offset : UInt32) : cell baseAddr (baseAddr + offset) = offset.toNat / 2 := by
  have same : baseAddr + offset - baseAddr = offset := by
    rw [UInt32.add_comm, UInt32.add_sub_cancel]
  rw [cell, same, UInt32.toNat_shiftRight]
  exact Nat.shiftRight_eq_div_pow _ 1

/-- The first read of a turn finds the device busy before its timeout. -/
theorem status_waits (other : UInt16) (toggle : Bool) :
    ParallelNor.statusWord other toggle false &&& 0x0020 ≠ 0x0020 := by
  rw [(ParallelNor.statusWord_bits other toggle false).2]
  decide

/-- A wait for an operation that completes ends with the device ready, and nothing but the
status has changed. -/
theorem waitProgram_completes (offset : UInt32) (reads : Nat) {device : ParallelNor}
    (busy : device.underWay = .completes reads) :
    ∃ after, (∀ polls, reads < polls →
        waitProgram (norBus baseAddr) baseAddr offset polls device = (true, after)) ∧
      ∃ toggle other,
        after = { device with underWay := .completes 0, toggle, other } := by
  induction reads using Nat.strongRecOn generalizing device with
  | ind reads ih =>
    match reads with
    | 0 =>
        refine ⟨device, ?_, device.toggle, device.other, ?_⟩
        · intro polls enough
          obtain ⟨more, rfl⟩ := Nat.exists_eq_succ_of_ne_zero (Nat.ne_of_gt enough)
          simp [waitProgram, norBus, ParallelNor.read_ready busy]
        · rw [← busy]
    | 1 =>
        refine ⟨device.tick (.completes 0), ?_, _, _, rfl⟩
        intro polls enough
        obtain ⟨more, rfl⟩ := Nat.exists_eq_succ_of_ne_zero (Nat.ne_of_gt
          (Nat.lt_of_succ_lt enough))
        have ready : (device.tick (.completes 0)).underWay = .completes 0 := rfl
        simp only [waitProgram, norBus, ParallelNor.read_busy busy,
          ParallelNor.read_ready ready, if_pos (status_waits _ _), if_true]
    | 2 =>
        -- the second read of address 0 is the first from the array
        let middle := device.tick (.completes 1)
        let final := middle.tick (.completes 0)
        have still : middle.underWay = .completes 1 := rfl
        have ready : final.underWay = .completes 0 := rfl
        have turn (polls : Nat) :
            waitProgram (norBus baseAddr) baseAddr offset (polls + 1) device =
              if ParallelNor.statusWord (middle.other 0) middle.toggle false =
                final.memory (cell baseAddr (baseAddr + 0)) then (true, final)
              else waitProgram (norBus baseAddr) baseAddr offset polls final := by
          simp only [waitProgram, norBus, ParallelNor.read_busy busy,
            if_pos (status_waits _ _)]
          rw [ParallelNor.read_busy still, ParallelNor.read_ready ready]
        by_cases agree : ParallelNor.statusWord (middle.other 0) middle.toggle false =
            final.memory (cell baseAddr (baseAddr + 0))
        · refine ⟨final, ?_, _, _, rfl⟩
          intro polls enough
          obtain ⟨more, rfl⟩ := Nat.exists_eq_add_of_le' (Nat.one_le_of_lt enough)
          rw [turn, if_pos agree]
        · rcases ih 0 (by decide) ready with ⟨after, returns, toggle, other, same⟩
          refine ⟨after, ?_, toggle, other, same⟩
          intro polls enough
          obtain ⟨more, rfl⟩ := Nat.exists_eq_add_of_le' (Nat.one_le_of_lt enough)
          rw [turn, if_neg agree]
          exact returns more (by omega)
    | reads + 3 =>
        let second := device.tick (.completes (reads + 2))
        let third := second.tick (.completes (reads + 1))
        let final := third.tick (.completes reads)
        have secondBusy : second.underWay = .completes (reads + 1 + 1) := rfl
        have thirdBusy : third.underWay = .completes (reads + 1) := rfl
        have turn (polls : Nat) :
            waitProgram (norBus baseAddr) baseAddr offset (polls + 1) device =
              waitProgram (norBus baseAddr) baseAddr offset polls final := by
          simp only [waitProgram, norBus, ParallelNor.read_busy busy,
            if_pos (status_waits _ _)]
          rw [ParallelNor.read_busy secondBusy, ParallelNor.read_busy thirdBusy]
          exact if_neg (ParallelNor.statusWord_toggles _ _ _ _ _)
        have finalBusy : final.underWay = .completes reads := rfl
        rcases ih reads (by omega) finalBusy with ⟨after, returns, rest⟩
        refine ⟨after, ?_, rest⟩
        intro polls enough
        obtain ⟨more, rfl⟩ := Nat.exists_eq_add_of_le' (Nat.one_le_of_lt enough)
        rw [turn]
        exact returns more (by omega)

theorem waitProgram_timesOut (offset : UInt32) (reads : Nat) {device : ParallelNor}
    (busy : device.underWay = .timesOut reads) :
    ∃ after, ∀ polls, reads < polls →
      waitProgram (norBus baseAddr) baseAddr offset polls device = (true, after) := by
  induction reads using Nat.strongRecOn generalizing device with
  | ind reads ih =>
    by_cases now : reads = 0
    · -- the read of the target has DQ5 set
      refine ⟨device.tick (.timesOut (reads - 1)), ?_⟩
      intro polls enough
      obtain ⟨more, rfl⟩ := Nat.exists_eq_add_of_le' (Nat.one_le_of_lt enough)
      have exceeded : ¬ (ParallelNor.statusWord (device.other 0) device.toggle
          (decide (reads = 0)) &&& 0x0020 ≠ 0x0020) := by
        rw [(ParallelNor.statusWord_bits _ _ _).2, decide_eq_true now]
        decide
      simp only [waitProgram, norBus, ParallelNor.read_timesOut busy, if_neg exceeded]
    · -- the reads of address 0 are status words that differ
      let second := device.tick (.timesOut (reads - 1))
      let third := second.tick (.timesOut (reads - 1 - 1))
      let final := third.tick (.timesOut (reads - 1 - 1 - 1))
      have secondBusy : second.underWay = .timesOut (reads - 1) := rfl
      have thirdBusy : third.underWay = .timesOut (reads - 1 - 1) := rfl
      have finalBusy : final.underWay = .timesOut (reads - 1 - 1 - 1) := rfl
      have waits : ParallelNor.statusWord (device.other 0) device.toggle (decide (reads = 0)) &&&
          0x0020 ≠ 0x0020 := by
        rw [decide_eq_false now]
        exact status_waits _ _
      have turn (polls : Nat) :
          waitProgram (norBus baseAddr) baseAddr offset (polls + 1) device =
            waitProgram (norBus baseAddr) baseAddr offset polls final := by
        simp only [waitProgram, norBus, ParallelNor.read_timesOut busy, if_pos waits]
        rw [ParallelNor.read_timesOut secondBusy, ParallelNor.read_timesOut thirdBusy]
        exact if_neg (ParallelNor.statusWord_toggles _ _ _ _ _)
      rcases ih (reads - 1 - 1 - 1) (by omega) finalBusy with ⟨after, returns⟩
      refine ⟨after, ?_⟩
      intro polls enough
      obtain ⟨more, rfl⟩ := Nat.exists_eq_add_of_le' (Nat.one_le_of_lt enough)
      rw [turn]
      exact returns more (by omega)

theorem waitProgram_ends (offset : UInt32) (device : ParallelNor) :
    ∃ least after, ∀ polls, least ≤ polls →
      waitProgram (norBus baseAddr) baseAddr offset polls device = (true, after) := by
  cases busy : device.underWay with
  | completes reads =>
      rcases waitProgram_completes baseAddr offset reads busy with ⟨after, returns, -⟩
      exact ⟨reads + 1, after, fun polls enough => returns polls enough⟩
  | timesOut reads =>
      rcases waitProgram_timesOut baseAddr offset reads busy with ⟨after, returns⟩
      exact ⟨reads + 1, after, fun polls enough => returns polls enough⟩

theorem hwAmcNorFlashProgram_returns (offset : UInt32) (data : UInt16) (device : ParallelNor) :
    ∃ least after, ∀ polls, least ≤ polls →
      hwAmcNorFlashProgram (norBus baseAddr) polls baseAddr offset data device =
        (some 0, after) := by
  let bus := norBus baseAddr
  let sent := bus.write16 (bus.write16 (bus.write16 (bus.write16 device
    (baseAddr + byteToHalfword 0x555) 0x00AA) (baseAddr + byteToHalfword 0x2AA) 0x0055)
    (baseAddr + byteToHalfword 0x555) 0x00A0) (baseAddr + offset) data
  rcases waitProgram_ends baseAddr offset sent with ⟨least, after, ends⟩
  refine ⟨least, after, ?_⟩
  intro polls enough
  simp only [hwAmcNorFlashProgram]
  rw [ends polls enough]
  rfl

/-- So `NorFlash_Write` returns, and the value is always the length. -/
theorem norFlashWrite_returns (addr : UInt32) (pbuf : List UInt16) (device : ParallelNor) :
    ∃ least after, ∀ polls, least ≤ polls →
      norFlashWrite (norBus baseAddr) polls baseAddr addr pbuf device =
        (some pbuf.length, after) := by
  have ends (i : Nat) (rest : List UInt16) (device : ParallelNor) :
      ∃ least after, ∀ polls, least ≤ polls →
        writeLoop (norBus baseAddr) polls baseAddr addr rest i device = (true, after) := by
    induction rest generalizing i device with
    | nil => exact ⟨0, device, fun _ _ => rfl⟩
    | cons data rest ih =>
        rcases hwAmcNorFlashProgram_returns baseAddr (addr + byteToHalfword (UInt32.ofNat i)) data
          device with ⟨first, middle, programmed⟩
        rcases ih (i + 1) middle with ⟨later, after, returns⟩
        refine ⟨max first later, after, ?_⟩
        intro polls enough
        simp only [writeLoop, programmed polls (by omega)]
        exact returns polls (by omega)
  rcases ends 0 pbuf device with ⟨least, after, returns⟩
  refine ⟨least, after, ?_⟩
  intro polls enough
  rw [norFlashWrite, returns polls enough]
  rfl

/-- A program of an erased halfword that completes. -/
theorem hwAmcNorFlashProgram_completes (offset : UInt32) (data : UInt16)
    {device : ParallelNor} (ready : device.Ready) {reads : Nat}
    (outcome : device.outcomes 0 = .completes reads)
    (erased : device.memory (offset.toNat / 2) = 0xFFFF) :
    ∃ after, (∀ polls, reads < polls → hwAmcNorFlashProgram (norBus baseAddr) polls baseAddr
        offset data device = (some 0, after)) ∧
      after.Ready ∧ after.memory = store device.memory (offset.toNat / 2) [data] ∧
      after.outcomes = (fun operation => device.outcomes (operation + 1)) ∧
      after.ignored = device.ignored := by
  let accepted := device.program (offset.toNat / 2) data
  have busy : accepted.underWay = .completes reads := outcome
  have taken : ∀ polls, hwAmcNorFlashProgram (norBus baseAddr) polls baseAddr offset data
      device = (if (waitProgram (norBus baseAddr) baseAddr offset polls accepted).1 then
        some 0 else none, (waitProgram (norBus baseAddr) baseAddr offset polls accepted).2) := by
    intro polls
    have cycles := ParallelNor.write_program ready (offset.toNat / 2) data
    have unlock : (byteToHalfword 0x555).toNat / 2 = 0x555 ∧
        (byteToHalfword 0x2AA).toNat / 2 = 0x2AA := by decide
    have sent : (norBus baseAddr).write16 ((norBus baseAddr).write16 ((norBus
        baseAddr).write16 ((norBus baseAddr).write16 device
          (baseAddr + byteToHalfword 0x555) 0x00AA) (baseAddr + byteToHalfword 0x2AA) 0x0055)
          (baseAddr + byteToHalfword 0x555) 0x00A0) (baseAddr + offset) data = accepted := by
      simp only [norBus, cell_add, unlock]
      exact cycles
    simp only [hwAmcNorFlashProgram, sent]
  have blank : (0xFFFF : UInt16) &&& data = data := by
    apply UInt16.toBitVec_inj.mp
    exact BitVec.allOnes_and
  rcases waitProgram_completes baseAddr offset reads busy
    with ⟨after, returns, toggle, other, same⟩
  refine ⟨after, ?_, ?_, ?_, ?_, ?_⟩
  · intro polls enough
    rw [taken, returns polls enough]
    rfl
  · rw [same]
    exact ⟨rfl, rfl⟩
  · rw [same]
    simp only [accepted, ParallelNor.program, outcome, erased, blank, store_singleton]
  · rw [same]
    rfl
  · rw [same]
    rfl

theorem offset_toNat {addr : UInt32} {i : Nat} (fits : addr.toNat + 2 * i < 2 ^ 32) :
    (addr + byteToHalfword (UInt32.ofNat i)).toNat = addr.toNat + 2 * i := by
  have shifted : (byteToHalfword (UInt32.ofNat i)).toNat = 2 * i := by
    have index : i % 2 ^ 32 = i := Nat.mod_eq_of_lt (by omega)
    rw [byteToHalfword, UInt32.toNat_shiftLeft, UInt32.toNat_ofNat', index]
    change i <<< 1 % 2 ^ 32 = 2 * i
    rw [Nat.shiftLeft_eq, pow_one, Nat.mul_comm]
    exact Nat.mod_eq_of_lt (by omega)
  rw [UInt32.toNat_add, shifted, Nat.mod_eq_of_lt fits]

/-- The halfwords of a range are programmed one after the other. -/
theorem writeLoop_completes {addr : UInt32} (even : addr.toNat % 2 = 0)
    (pbuf : List UInt16) (i : Nat) {device : ParallelNor} (ready : device.Ready)
    (fits : addr.toNat + 2 * (i + pbuf.length) ≤ 2 ^ 32)
    (erased : load device.memory (addr.toNat / 2 + i) pbuf.length =
      List.replicate pbuf.length 0xFFFF)
    (complete : ∀ j < pbuf.length, ∃ reads, device.outcomes j = .completes reads) :
    ∃ after least, (∀ polls, least ≤ polls →
        writeLoop (norBus baseAddr) polls baseAddr addr pbuf i device = (true, after)) ∧
      after.Ready ∧ after.memory = store device.memory (addr.toNat / 2 + i) pbuf ∧
      after.ignored = device.ignored := by
  induction pbuf generalizing i device with
  | nil =>
      exact ⟨device, 0, fun _ _ => rfl, ready, (store_nil _).symm, rfl⟩
  | cons data pbuf ih =>
      rw [List.length_cons] at fits erased complete
      rcases complete 0 (Nat.succ_pos _) with ⟨reads, outcome⟩
      have place : (addr + byteToHalfword (UInt32.ofNat i)).toNat = addr.toNat + 2 * i :=
        offset_toNat (by omega)
      have index : (addr.toNat + 2 * i) / 2 = addr.toNat / 2 + i := by omega
      rw [Nat.add_comm pbuf.length 1, load_add, List.replicate_add] at erased
      have parts := List.append_inj erased (by simp)
      have first : device.memory (addr.toNat / 2 + i) = 0xFFFF := by
        simpa [load] using parts.1
      rcases hwAmcNorFlashProgram_completes baseAddr
        (addr + byteToHalfword (UInt32.ofNat i)) data ready outcome
        (by rw [place, index]; exact first) with
        ⟨middle, returns, middleReady, memory, outcomes, ignored⟩
      rw [place, index] at memory
      have rest : load middle.memory (addr.toNat / 2 + (i + 1)) pbuf.length =
          List.replicate pbuf.length 0xFFFF := by
        have after : addr.toNat / 2 + i + [data].length ≤ addr.toNat / 2 + i + 1 :=
          Nat.le_refl _
        rw [memory, ← Nat.add_assoc, load_store_disjoint _ (Or.inr after)]
        exact parts.2
      have later : ∀ j < pbuf.length, ∃ reads, middle.outcomes j = .completes reads := by
        intro j below
        rw [outcomes]
        exact complete (j + 1) (Nat.succ_lt_succ below)
      rcases ih (i + 1) middleReady (by omega) rest later
        with ⟨after, least, returns', afterReady, memory', ignored'⟩
      refine ⟨after, max (reads + 1) least, ?_, afterReady, ?_, ignored'.trans ignored⟩
      · intro polls enough
        have here := returns polls (by omega)
        simp only [writeLoop, here]
        exact returns' polls (by omega)
      · rw [memory', memory, ← Nat.add_assoc]
        exact (store_append _ [data] pbuf).symm

theorem readLoop_ready {addr : UInt32} (even : addr.toNat % 2 = 0) (rest i : Nat)
    {device : ParallelNor} (ready : device.Ready)
    (fits : addr.toNat + 2 * (i + rest) ≤ 2 ^ 32) :
    readLoop (norBus baseAddr) baseAddr addr rest i device =
      (load device.memory (addr.toNat / 2 + i) rest, device) := by
  induction rest generalizing i with
  | zero => rfl
  | succ rest ih =>
      have place : (addr + byteToHalfword (UInt32.ofNat i)).toNat = addr.toNat + 2 * i :=
        offset_toNat (by omega)
      have index : (addr.toNat + 2 * i) / 2 = addr.toNat / 2 + i := by omega
      have delivered : hwAmcNorFlashRead (norBus baseAddr) baseAddr
          (addr + byteToHalfword (UInt32.ofNat i)) device =
          (device.memory (addr.toNat / 2 + i), device) := by
        simp only [hwAmcNorFlashRead, norBus, cell_add, place, index,
          ParallelNor.read_ready ready.done]
      rw [readLoop, delivered]
      simp only [ih (i + 1) (by omega)]
      rw [Nat.add_comm rest 1, load_add, Nat.add_assoc]
      rfl

theorem norFlashWrite_result {addr : UInt32} {pbuf : List UInt16} {device after : ParallelNor}
    {least result : Nat}
    (returns : ∀ polls, least ≤ polls →
      norFlashWrite (norBus baseAddr) polls baseAddr addr pbuf device = (some result, after)) :
    result = pbuf.length := by
  rcases norFlashWrite_returns baseAddr addr pbuf device with ⟨enough, final, always⟩
  have same := (returns _ (Nat.le_max_left least enough)).symm.trans
    (always _ (Nat.le_max_right least enough))
  exact Option.some.inj (Prod.ext_iff.mp same).1

end Commands

/-- What a caller may expect of a write. `NorFlash_Write` returns, no write finds the device
busy, the halfwords can be read back, and another value than the length is returned when the
device has timed out on one of them. -/
def Programs (baseAddr addr : UInt32) (pbuf : List UInt16) (device : ParallelNor) : Prop :=
  ∃ least result after,
    (∀ polls, least ≤ polls → norFlashWrite (norBus baseAddr) polls baseAddr addr pbuf device =
      (some result, after)) ∧
    after.ignored = device.ignored ∧
    ((∀ i < pbuf.length, ∃ reads, device.outcomes i = .completes reads) →
      result = pbuf.length ∧
      norFlashRead (norBus baseAddr) baseAddr addr pbuf.length after =
        (pbuf.length, pbuf, after)) ∧
    ((∃ i < pbuf.length, ∃ reads, device.outcomes i = .timesOut reads) →
      result ≠ pbuf.length)

/-- A write into an erased range does what it should exactly when the device times out on
none of the halfwords. -/
theorem norFlashWrite_programs_iff (baseAddr : UInt32) {addr : UInt32} {pbuf : List UInt16}
    {device : ParallelNor} (ready : device.Ready) (even : addr.toNat % 2 = 0)
    (fits : addr.toNat + 2 * pbuf.length ≤ 2 ^ 32)
    (erased : load device.memory (addr.toNat / 2) pbuf.length =
      List.replicate pbuf.length 0xFFFF) :
    Programs baseAddr addr pbuf device ↔
      ∀ i < pbuf.length, ∀ reads, device.outcomes i ≠ .timesOut reads := by
  constructor
  · -- the value that `NorFlash_Write` returns is always the length
    rintro ⟨least, result, after, returns, -, -, reported⟩ i below reads timeout
    exact reported ⟨i, below, reads, timeout⟩ (norFlashWrite_result baseAddr returns)
  · intro never
    have complete : ∀ i < pbuf.length, ∃ reads, device.outcomes i = .completes reads := by
      intro i below
      cases outcome : device.outcomes i with
      | completes reads => exact ⟨reads, rfl⟩
      | timesOut reads => exact absurd outcome (never i below reads)
    have range : addr.toNat + 2 * (0 + pbuf.length) ≤ 2 ^ 32 := by
      rw [Nat.zero_add]
      exact fits
    rcases writeLoop_completes baseAddr even pbuf 0 ready range erased complete
      with ⟨after, least, returns, afterReady, memory, ignored⟩
    refine ⟨least, pbuf.length, after, ?_, ignored, ?_, ?_⟩
    · intro polls enough
      rw [norFlashWrite, returns polls enough]
      rfl
    · intro _
      refine ⟨rfl, ?_⟩
      rw [norFlashRead, readLoop_ready baseAddr even pbuf.length 0 afterReady range, memory,
        Nat.add_zero, load_store_self]
    · rintro ⟨i, below, reads, timeout⟩
      exact absurd timeout (never i below reads)

/-- An erased device on which every operation goes the same way. -/
def erasedNor (outcome : Outcome) : ParallelNor where
  memory _ := 0xFFFF
  cycle := .idle
  underWay := .completes 0
  toggle := false
  outcomes _ := outcome
  other _ := 0
  ignored := []

theorem norFlashWrite_programs_three :
    Programs 0x10000000 0x100 [0x1234, 0x0020, 0xFFDF] (erasedNor (.completes 4)) ↔
      ∀ i < 3, ∀ reads, (erasedNor (.completes 4)).outcomes i ≠ .timesOut reads :=
  norFlashWrite_programs_iff 0x10000000 ⟨rfl, rfl⟩ (by decide) (by decide) (by decide)

/-- A device that times out on the only halfword. -/
theorem norFlashWrite_not_programs :
    ¬ Programs 0x10000000 0x100 [0x1234] (erasedNor (.timesOut 0)) := by
  rintro ⟨least, result, after, returns, -, -, reported⟩
  exact reported ⟨0, by decide, 0, rfl⟩ (norFlashWrite_result 0x10000000 returns)

end SunWise.Amc
