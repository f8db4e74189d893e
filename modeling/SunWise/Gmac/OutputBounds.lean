import SunWise.Gmac.Output

/-!
# Bounds of a transmission

One call of `low_level_output` from beginning to end, while no other task is inside.  The
chain is copied to the buffer of the tail descriptor without a look at its length, and the
length then goes through a field of eleven bits.
-/

namespace SunWise.Gmac

open Library

/-- What the calls of `low_level_output` share, between two of them: after the first one the
semaphore is there to be taken. -/
structure OutputQuiet where
  ring : TxRing
  ousem : Ousem
  ready : ∀ sem, ousem.sem = some sem → 0 < ousem.counts sem

/-- The local variables of the copy loop, the ring and the ranges written so far. The
counters have 32 bits. -/
structure OutputCopy where
  ring : TxRing
  bufferoffset : Nat
  framelength : Nat
  written : List (Nat × Nat)

/-- The local variables before the loop. -/
def OutputCopy.start (ring : TxRing) : OutputCopy where
  ring := ring
  bufferoffset := 0
  framelength := 0
  written := []

/-- The loop over the `pbuf` chain. -/
def copyChain (packet : Nat) : Chain → OutputCopy → OutputCopy
  | [], copy => copy
  | q :: next, copy =>
      copyChain packet next
        { ring := copy.ring.copy (packet + copy.bufferoffset) q
          bufferoffset := (copy.bufferoffset + q.length) % 2 ^ 32
          framelength := (copy.framelength + q.length) % 2 ^ 32
          written := copy.written ++ [(packet + copy.bufferoffset, q.length)] }

/-- A call that has returned. -/
structure OutputReturn where
  errval : ErrT
  ring : TxRing
  ousem : Ousem
  written : List (Nat × Nat)

/-- The first lines of `low_level_output`. -/
def Ousem.prepare (ousem : Ousem) : Option Ousem :=
  if ousem.sem = none then ousem.new.signal else some ousem

/-- `sys_sem_wait(&ousem)`, when it does not block. -/
def Ousem.wait (ousem : Ousem) : Option Ousem :=
  ousem.sem.bind ousem.take

/-- `low_level_output`. A call that blocks on the semaphore does not return. -/
def lowLevelOutput (quiet : OutputQuiet) (p : Chain) : Option OutputReturn :=
  quiet.ousem.prepare.bind fun ousem =>
    match quiet.ring.getSendPacket with
    | none =>
        ousem.signal.map fun ousem =>
          { errval := .errUse, ring := quiet.ring, ousem, written := [] }
    | some packet =>
        ousem.wait.bind fun ousem =>
          let copy := copyChain packet p (.start quiet.ring)
          let ring := copy.ring.startSendPacket copy.framelength p.flatten
          ousem.signal.map fun ousem =>
            { errval := .errOk, ring, ousem, written := copy.written }

/-- Either the call has failed without writing, or it has written the chain inside the
buffer of the descriptor it chose, and the descriptor has its length. -/
def OutputReturn.Bounded (txBufferSize : Nat) (before : TxRing) (p : Chain)
    (call : OutputReturn) : Prop :=
  (call.errval ≠ .errOk ∧ call.written = [] ∧ call.ring = before) ∨
    (call.errval = .errOk ∧
      (∀ range ∈ call.written, before.tail.buffer1Addr ≤ range.1 ∧
        range.1 + range.2 ≤ before.tail.buffer1Addr + txBufferSize) ∧
      load call.ring.memory before.tail.buffer1Addr p.flatten.length = p.flatten ∧
      (call.ring.desc before.sLastTxDescriptor).view.buffer1Size.toNat = p.flatten.length)

namespace Ousem

variable {ousem : Ousem}

/-- The semaphore is there and can be taken. -/
def Free (ousem : Ousem) : Prop :=
  ∃ sem, ousem.sem = some sem ∧ 0 < ousem.counts sem

theorem prepare_free (ready : ∀ sem, ousem.sem = some sem → 0 < ousem.counts sem) :
    ∃ prepared, ousem.prepare = some prepared ∧ prepared.Free := by
  unfold prepare
  split
  next => exact ⟨_, rfl, ousem.created, rfl, by simp [new]⟩
  next set_ =>
    rcases Option.ne_none_iff_exists'.mp set_ with ⟨sem, isSem⟩
    exact ⟨ousem, rfl, sem, isSem, ready sem isSem⟩

theorem signal_free {sem : Nat} (isSem : ousem.sem = some sem) :
    ∃ signalled, ousem.signal = some signalled ∧ signalled.Free :=
  ⟨{ ousem with counts := Function.update ousem.counts sem 1 }, by simp [signal, isSem], sem,
    isSem, by simp⟩

theorem Free.signal (free : ousem.Free) :
    ∃ signalled, ousem.signal = some signalled ∧ signalled.Free := by
  rcases free with ⟨sem, isSem, -⟩
  exact signal_free isSem

theorem Free.wait_signal (free : ousem.Free) :
    ∃ taken signalled, ousem.wait = some taken ∧ taken.signal = some signalled ∧
      signalled.Free := by
  rcases free with ⟨sem, isSem, positive⟩
  have taken : ousem.wait = some { ousem with
      counts := Function.update ousem.counts sem (ousem.counts sem - 1) } := by
    simp [wait, take, isSem, positive]
  rcases @signal_free { ousem with
    counts := Function.update ousem.counts sem (ousem.counts sem - 1) } sem isSem with
      ⟨signalled, gives, free⟩
  exact ⟨_, signalled, taken, gives, free⟩

end Ousem

/-- The ranges a chain is copied to, without overflow. -/
def chainRanges (packet : Nat) : Chain → Nat → List (Nat × Nat)
  | [], _ => []
  | q :: next, offset => (packet + offset, q.length) :: chainRanges packet next (offset + q.length)

/-- The copies of a chain stay inside a buffer exactly when all of it fits. -/
theorem chainRanges_inside_iff (packet size : Nat) (p : Chain) {offset : Nat}
    (start : offset ≤ size) :
    (∀ range ∈ chainRanges packet p offset,
        packet ≤ range.1 ∧ range.1 + range.2 ≤ packet + size) ↔
      offset + p.flatten.length ≤ size := by
  induction p generalizing offset with
  | nil => simpa [chainRanges] using start
  | cons q next ih =>
      rw [chainRanges, List.forall_mem_cons, List.flatten_cons, List.length_append]
      constructor
      · rintro ⟨⟨-, first⟩, later⟩
        have fits := (ih (by omega)).mp later
        omega
      · intro fits
        exact ⟨by dsimp only; omega, (ih (by omega)).mpr (by omega)⟩

/-- Without overflow the loop is one copy of the whole chain. -/
theorem copyChain_eq (packet : Nat) (p : Chain) {copy : OutputCopy}
    (small : copy.bufferoffset + p.flatten.length < 2 ^ 32)
    (same : copy.framelength = copy.bufferoffset) :
    copyChain packet p copy =
      { ring := copy.ring.copy (packet + copy.bufferoffset) p.flatten
        bufferoffset := copy.bufferoffset + p.flatten.length
        framelength := copy.bufferoffset + p.flatten.length
        written := copy.written ++ chainRanges packet p copy.bufferoffset } := by
  induction p generalizing copy with
  | nil =>
      cases copy
      dsimp only at same
      subst same
      simp [copyChain, chainRanges, TxRing.copy]
  | cons q next ih =>
      rw [List.flatten_cons, List.length_append] at small
      have step : (copy.bufferoffset + q.length) % 2 ^ 32 = copy.bufferoffset + q.length :=
        Nat.mod_eq_of_lt (by omega)
      rw [copyChain, same, step, ih (by dsimp only; omega) rfl]
      simp only [TxRing.copy, chainRanges, List.flatten_cons, store_append, List.length_append,
        List.append_assoc, List.singleton_append, Nat.add_assoc]

section Call

variable (txBufferSize : Nat) (quiet : OutputQuiet) (p : Chain)

theorem lowLevelOutput_of_owner (dma : quiet.ring.tail.owner = true) :
    ∃ ousem : Ousem, ousem.Free ∧ lowLevelOutput quiet p =
      some { errval := .errUse, ring := quiet.ring, ousem, written := [] } := by
  rcases Ousem.prepare_free quiet.ready with ⟨prepared, prepares, free⟩
  rcases free.signal with ⟨signalled, signals, free⟩
  refine ⟨signalled, free, ?_⟩
  simp [lowLevelOutput, prepares, TxRing.getSendPacket, dma, signals]

theorem lowLevelOutput_of_free (cpu : quiet.ring.tail.owner = false) :
    ∃ ousem : Ousem, ousem.Free ∧
      let copy := copyChain quiet.ring.tail.buffer1Addr p (.start quiet.ring)
      lowLevelOutput quiet p = some
        { errval := .errOk
          ring := copy.ring.startSendPacket copy.framelength p.flatten
          ousem
          written := copy.written } := by
  rcases Ousem.prepare_free quiet.ready with ⟨prepared, prepares, free⟩
  rcases free.wait_signal with ⟨taken, signalled, takes, signals, free⟩
  refine ⟨signalled, free, ?_⟩
  simp [lowLevelOutput, prepares, TxRing.getSendPacket, cpu, takes, signals]

/-- A chain that is copied is bounded exactly when it fits the buffer and the field. -/
theorem copied_bounded_iff (ousem : Ousem) :
    let copy := copyChain quiet.ring.tail.buffer1Addr p (.start quiet.ring)
    OutputReturn.Bounded txBufferSize quiet.ring p
        { errval := .errOk
          ring := copy.ring.startSendPacket copy.framelength p.flatten
          ousem
          written := copy.written } ↔
      p.flatten.length ≤ txBufferSize ∧ p.flatten.length < 2 ^ 11 := by
  intro copy
  rcases Nat.lt_or_ge p.flatten.length (2 ^ 11) with short | long
  · have whole := copyChain_eq quiet.ring.tail.buffer1Addr p
      (by simp only [OutputCopy.start]; omega :
        (OutputCopy.start quiet.ring).bufferoffset + p.flatten.length < 2 ^ 32) rfl
    have inside := chainRanges_inside_iff quiet.ring.tail.buffer1Addr txBufferSize p
      (Nat.zero_le txBufferSize)
    have stored := @load_store_self _ quiet.ring.memory quiet.ring.tail.buffer1Addr p.flatten
    simp only [OutputCopy.start, Nat.zero_add, Nat.add_zero, List.nil_append] at whole inside
    have length : (BitVec.ofNat 11 p.flatten.length).toNat = p.flatten.length := by
      rw [BitVec.toNat_ofNat, Nat.mod_eq_of_lt short]
    simp only [copy, OutputCopy.start, whole, OutputReturn.Bounded]
    rw [inside, and_iff_left short]
    constructor
    · rintro (⟨failed, -⟩ | ⟨-, fits, -⟩)
      · exact absurd rfl failed
      · exact fits
    · intro fits
      refine Or.inr ⟨trivial, fits, stored, ?_⟩
      simpa [TxRing.startSendPacket, TxRing.copy] using length
  · refine iff_of_false ?_ (fun fits => Nat.not_lt.mpr long fits.2)
    rintro (⟨failed, -⟩ | ⟨-, -, -, size⟩)
    · exact failed rfl
    · rw [← size] at long
      exact Nat.not_lt.mpr long (BitVec.isLt _)

/-- A call returns. It fails without writing or stays inside the buffer exactly when the
ring is full or the chain fits the buffer and the length field. -/
theorem lowLevelOutput_bounded_iff :
    ∃ call, lowLevelOutput quiet p = some call ∧ call.ousem.Free ∧
      (call.Bounded txBufferSize quiet.ring p ↔
        quiet.ring.tail.owner = true ∨
          (p.flatten.length ≤ txBufferSize ∧ p.flatten.length < 2 ^ 11)) := by
  cases owner : quiet.ring.tail.owner with
  | true =>
      rcases lowLevelOutput_of_owner quiet p owner with ⟨ousem, free, returns⟩
      refine ⟨_, returns, free, iff_of_true (Or.inl ⟨?_, rfl, rfl⟩) (Or.inl rfl)⟩
      exact fun succeeded => ErrT.noConfusion succeeded
  | false =>
      rcases lowLevelOutput_of_free quiet p owner with ⟨ousem, free, returns⟩
      have bounded := copied_bounded_iff txBufferSize quiet p ousem
      refine ⟨_, returns, free, bounded.trans ?_⟩
      rw [Bool.false_eq_true, false_or]

end Call

/-- Before the first call, with the default sizes. -/
def OutputQuiet.boot : OutputQuiet where
  ring := .init (defaultTxConfig 0) (fun _ => default) fun _ => 0
  ousem := { sem := none, counts := fun _ => 0, created := 0 }
  ready := by simp

/-- A chain that is one byte longer than a buffer is written over its end. -/
theorem lowLevelOutput_not_bounded :
    ∃ call, lowLevelOutput .boot [List.replicate 1601 0] = some call ∧
      ¬call.Bounded gmacBufferSize OutputQuiet.boot.ring [List.replicate 1601 0] := by
  have cpu : OutputQuiet.boot.ring.tail.owner = false := by decide
  rcases lowLevelOutput_of_free .boot [List.replicate 1601 0] cpu with ⟨ousem, -, returns⟩
  refine ⟨_, returns, ?_⟩
  intro bounded
  have fits := (copied_bounded_iff gmacBufferSize .boot [List.replicate 1601 0] ousem).mp
    bounded
  rw [List.flatten_singleton, List.length_replicate] at fits
  exact absurd fits.1 (by decide)

end SunWise.Gmac
