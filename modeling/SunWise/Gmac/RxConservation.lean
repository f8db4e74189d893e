import SunWise.Gmac.Input

/-!
# Conservation of receive descriptors

Every descriptor is with the DMA, waits to be read, or belongs to the frame under
assembly.  `HW_GMAC_GetRecvPacket` starts a new frame whenever it sees a first
descriptor and adds to the old one whenever it does not; the reads after which every
descriptor is still accounted for are singled out.
-/

namespace SunWise.Gmac

open Library

namespace RxRing

/-- Every descriptor is accounted for, and the lists are long enough. -/
structure Conserved (config : RxConfig) (ring : RxRing) : Prop where
  located : ∀ slot < config.rxDescNum,
    (ring.desc slot).owner = true ∨ ring.Waiting slot ∨ ring.InFrame config slot
  bounded : ring.rxBufferCount ≤ config.rxDescNum

/-- A read of the current descriptor that keeps the descriptors accounted for: if it
starts a frame, no other descriptor is still held, and if it does not, there is a frame
to which it can be added. -/
def Orderly (config : RxConfig) (ring : RxRing) : Prop :=
  if ring.current.first then
    ∀ slot < config.rxDescNum, ring.Held slot → slot = ring.sLastRxDescriptor
  else ring.rxDescStart ≠ none ∧ ring.rxBufferCount < config.rxDescNum

/-- The ring is chained up, the frame under assembly ends at the read pointer, and what
is held belongs to it. -/
structure Assembled (config : RxConfig) (ring : RxRing) : Prop where
  pointer : ring.sLastRxDescriptor < config.rxDescNum
  head : ring.dmaHead < config.rxDescNum
  wired : Wired config ring
  bounded : ring.rxBufferCount ≤ config.rxDescNum
  frame : ∀ start, ring.rxDescStart = some start →
    start < config.rxDescNum ∧
      ring.sLastRxDescriptor = (start + ring.rxBufferCount) % config.rxDescNum
  held : ∀ slot < config.rxDescNum, ring.Held slot → ring.InFrame config slot
  owned : ∀ slot < config.rxDescNum,
    (ring.desc slot).owner = true → ring.consumed slot = false

namespace Assembled

variable {config : RxConfig} {ring : RxRing}

theorem conserved (assembled : Assembled config ring) : Conserved config ring where
  located := by
    intro slot inRing
    cases owner : (ring.desc slot).owner with
    | true => exact Or.inl rfl
    | false =>
        cases consumed : ring.consumed slot with
        | true => exact Or.inr (Or.inr (assembled.held slot inRing ⟨owner, consumed⟩))
        | false => exact Or.inr (Or.inl ⟨owner, consumed⟩)
  bounded := assembled.bounded

theorem fill (assembled : Assembled config ring) {status : BitVec 31}
    {bytes : List UInt8} {after : RxRing}
    (fills : ring.fill status bytes = some after) : Assembled config after := by
  rcases fill_eq_some_iff.mp fills with ⟨dma, rfl⟩
  have unread := assembled.owned _ assembled.head dma
  constructor
  · exact assembled.pointer
  · change (ring.desc ring.dmaHead).next < config.rxDescNum
    rw [assembled.wired.next _ assembled.head]
    exact Nat.mod_lt _ config.positive
  · exact assembled.wired.complete status bytes
  · exact assembled.bounded
  · exact assembled.frame
  · intro slot inRing holds
    by_cases isHead : slot = ring.dmaHead
    · subst slot
      rw [Held, complete, unread] at holds
      cases holds.2
    · apply assembled.held slot inRing
      simpa [Held, complete, isHead] using holds
  · exact unread_complete assembled.owned status bytes

theorem giveBack (assembled : Assembled config ring) (descriptor : Nat) :
    Assembled config (ring.giveBack descriptor) where
  pointer := assembled.pointer
  head := assembled.head
  wired := assembled.wired.giveBack descriptor
  bounded := assembled.bounded
  frame := assembled.frame
  held := by
    intro slot inRing holds
    by_cases same : slot = descriptor
    · subst slot
      simp [Held, RxRing.giveBack] at holds
    · apply assembled.held slot inRing
      simpa [Held, RxRing.giveBack, same] using holds
  owned := unread_giveBack assembled.owned descriptor

theorem addDescriptor (assembled : Assembled config ring) {start : Nat}
    (cpu : ring.current.owner = false) {base : RxRing}
    (same : base.desc = ring.desc ∧ base.sLastRxDescriptor = ring.sLastRxDescriptor ∧
      base.dmaHead = ring.dmaHead ∧ base.consumed = ring.consumed)
    (isStart : base.rxDescStart = some start) (inRing : start < config.rxDescNum)
    (ends : ring.sLastRxDescriptor =
      (start + base.rxBufferCount) % config.rxDescNum)
    (room : base.rxBufferCount < config.rxDescNum)
    (held : ∀ slot < config.rxDescNum, ring.Held slot →
      slot = ring.sLastRxDescriptor ∨
        slot ∈ slots config.rxDescNum start base.rxBufferCount) :
    Assembled config base.addDescriptor := by
  rcases same with ⟨desc, pointer, head, consumed⟩
  have next := assembled.wired.next _ assembled.pointer
  constructor
  · simp only [RxRing.addDescriptor, RxRing.current, desc, pointer, next]
    exact Nat.mod_lt _ config.positive
  · simp only [RxRing.addDescriptor, head]
    exact assembled.head
  · exact assembled.wired.of_same (fun _ => by rw [RxRing.addDescriptor, desc])
      (fun _ => by rw [RxRing.addDescriptor, desc])
  · simp only [RxRing.addDescriptor]
    omega
  · intro other isOther
    simp only [RxRing.addDescriptor, isStart] at isOther
    cases isOther
    refine ⟨inRing, ?_⟩
    simp only [RxRing.addDescriptor, RxRing.current, desc, pointer, next]
    rw [ends, Nat.mod_add_mod, Nat.add_assoc]
  · intro slot slotInRing holds
    refine ⟨start, isStart, ?_⟩
    change slot ∈ slots config.rxDescNum start (base.rxBufferCount + 1)
    rw [slots_succ, ← ends, List.mem_append, List.mem_singleton]
    by_cases isCurrent : slot = ring.sLastRxDescriptor
    · exact Or.inr isCurrent
    · have before : ring.Held slot := by
        simpa [Held, RxRing.addDescriptor, desc, pointer, consumed, isCurrent]
          using holds
      rcases held slot slotInRing before with isCurrent' | inFrame
      · exact Or.inr isCurrent'
      · exact Or.inl inFrame
  · apply unread_addDescriptor
    · rw [desc, consumed]
      exact assembled.owned
    · rw [RxRing.current, desc, pointer]
      exact cpu

theorem getRecvPacket (assembled : Assembled config ring)
    (orderly : ring.current.owner = false → ring.Orderly config) :
    Assembled config ring.getRecvPacket.2 := by
  cases owner : ring.current.owner with
  | true =>
      rw [getRecvPacket_dma owner]
      exact assembled
  | false =>
      have orderly := orderly owner
      rw [(getRecvPacket_cpu owner).1]
      cases isFirst : ring.current.first with
      | true =>
          rw [Orderly, if_pos isFirst] at orderly
          have same : ring.beginFrame.desc = ring.desc ∧
              ring.beginFrame.sLastRxDescriptor = ring.sLastRxDescriptor ∧
              ring.beginFrame.dmaHead = ring.dmaHead ∧
              ring.beginFrame.consumed = ring.consumed := ⟨rfl, rfl, rfl, rfl⟩
          apply assembled.addDescriptor owner same rfl assembled.pointer
          · exact (Nat.mod_eq_of_lt assembled.pointer).symm
          · exact config.positive
          · intro slot inRing holds
            exact Or.inl (orderly slot inRing holds)
      | false =>
          rw [Orderly, if_neg (by simp [isFirst])] at orderly
          rcases Option.ne_none_iff_exists'.mp orderly.1 with ⟨start, isStart⟩
          rcases assembled.frame start isStart with ⟨inRing, ends⟩
          apply assembled.addDescriptor owner ⟨rfl, rfl, rfl, rfl⟩ isStart inRing ends
            orderly.2
          intro slot slotInRing holds
          rcases assembled.held slot slotInRing holds with ⟨other, isOther, inFrame⟩
          rw [isStart] at isOther
          cases isOther
          exact Or.inr inFrame

/-- Starting a frame loses a descriptor that is still held. -/
theorem not_conserved_of_first (assembled : Assembled config ring)
    (cpu : ring.current.owner = false) (isFirst : ring.current.first = true) {slot : Nat}
    (inRing : slot < config.rxDescNum) (holds : ring.Held slot)
    (different : slot ≠ ring.sLastRxDescriptor) :
    ¬Conserved config ring.getRecvPacket.2 := by
  intro conserved
  rcases conserved.located slot inRing with dma | waits | inFrame
  · rw [getRecvPacket_desc, holds.1] at dma
    cases dma
  · have unread := waits.2
    rw [getRecvPacket_consumed cpu, Function.update_of_ne different, holds.2] at unread
    cases unread
  · rw [(getRecvPacket_cpu cpu).1, if_pos isFirst] at inFrame
    rcases inFrame with ⟨start, isStart, inWindow⟩
    cases isStart
    rcases mem_slots_iff.mp inWindow with ⟨offset, below, isSlot⟩
    have isZero : offset = 0 := Nat.lt_one_iff.mp below
    rw [isZero, Nat.add_zero, Nat.mod_eq_of_lt assembled.pointer] at isSlot
    exact different isSlot.symm

/-- Without a frame to add to, the current descriptor is lost. -/
theorem not_conserved_of_no_start (assembled : Assembled config ring)
    (cpu : ring.current.owner = false) (notFirst : ring.current.first = false)
    (missing : ring.rxDescStart = none) : ¬Conserved config ring.getRecvPacket.2 := by
  intro conserved
  rcases conserved.located _ assembled.pointer with dma | waits | inFrame
  · rw [getRecvPacket_desc] at dma
    rw [current, dma] at cpu
    cases cpu
  · have unread := waits.2
    rw [getRecvPacket_consumed cpu, Function.update_self] at unread
    cases unread
  · rw [(getRecvPacket_cpu cpu).1, notFirst] at inFrame
    rcases inFrame with ⟨start, isStart, -⟩
    change ring.rxDescStart = some start at isStart
    rw [missing] at isStart
    cases isStart

/-- After any other read a descriptor is lost, or the lists are exceeded. -/
theorem not_conserved (assembled : Assembled config ring)
    (cpu : ring.current.owner = false) (disorderly : ¬ring.Orderly config) :
    ¬Conserved config ring.getRecvPacket.2 := by
  cases isFirst : ring.current.first with
  | true =>
      rw [Orderly, if_pos isFirst] at disorderly
      push Not at disorderly
      rcases disorderly with ⟨slot, inRing, holds, different⟩
      exact assembled.not_conserved_of_first cpu isFirst inRing holds different
  | false =>
      rw [Orderly, if_neg (by simp [isFirst])] at disorderly
      by_cases missing : ring.rxDescStart = none
      · exact assembled.not_conserved_of_no_start cpu isFirst missing
      · intro conserved
        have bounded := conserved.bounded
        rw [(getRecvPacket_cpu cpu).1, isFirst] at bounded
        exact disorderly ⟨missing, bounded⟩

end Assembled

theorem init_assembled (config : RxConfig) (desc : Nat → GmacDes RxView)
    (memory : Nat → UInt8) : Assembled config (init config desc memory) where
  pointer := config.positive
  head := config.positive
  wired := init_wired config desc memory
  bounded := Nat.zero_le _
  frame := nofun
  held := by
    intro slot inRing holds
    cases holds.2
  owned := fun _ _ _ => rfl

end RxRing

/-- Every read of a descriptor that the CPU owns is orderly. -/
def OrderlyRead (config : RxConfig) (state : InputState) : InputLabel → Prop
  | .input =>
      match state.pc with
      | .idle => state.ring.current.owner = false → state.ring.Orderly config
      | _ => True
  | _ => True

section Runs

variable {config : RxConfig} {state next : InputState} {label : InputLabel}

/-- Orderly reads and all other steps keep the ring assembled. -/
theorem inputStep_assembled (assembled : state.ring.Assembled config)
    (orderly : OrderlyRead config state label)
    (taken : inputStep state label = some next) : next.ring.Assembled config := by
  cases label with
  | dma status bytes =>
      simp only [inputStep, Option.map_eq_some_iff] at taken
      rcases taken with ⟨ring, fills, rfl⟩
      exact assembled.fill fills
  | alloc ok =>
      simp only [inputStep] at taken
      split at taken
      · cases taken
        exact assembled
      · cases taken
  | input =>
      simp only [OrderlyRead] at orderly
      simp only [inputStep] at taken
      cases place : state.pc with
      | idle =>
          simp only [place] at taken orderly
          cases taken
          exact assembled.getRecvPacket orderly
      | alloc len => simp [place] at taken
      | copying copy =>
          simp only [place] at taken
          split at taken <;>
          · cases taken
            exact assembled
      | stopping p i nextDescriptor =>
          simp only [place] at taken
          split at taken
          · rcases Option.map_eq_some_iff.mp taken with ⟨descriptor, -, rfl⟩
            exact assembled.giveBack descriptor
          · cases taken
            exact assembled

/-- Every descriptor stays accounted for along exactly the runs whose reads are
orderly. -/
theorem input_conserved_iff (config : RxConfig) (desc : Nat → GmacDes RxView)
    (memory : Nat → UInt8) (labels : List InputLabel) :
    Always inputStep (fun state => state.ring.Conserved config)
        (InputState.init config desc memory) labels ↔
      Throughout inputStep (OrderlyRead config) (InputState.init config desc memory)
        labels := by
  apply always_iff_throughout (fun state assembled => RxRing.Assembled.conserved assembled)
  · intro state label next assembled orderly taken
    exact inputStep_assembled assembled orderly taken
  · intro state label next assembled disorderly taken
    cases label with
    | input =>
        simp only [OrderlyRead] at disorderly
        cases place : state.pc with
        | idle =>
            simp only [place] at disorderly
            push Not at disorderly
            simp only [inputStep, place, Option.some.injEq] at taken
            subst next
            exact assembled.not_conserved disorderly.1 disorderly.2
        | _ => simp [place] at disorderly
    | _ => exact absurd trivial disorderly
  · exact RxRing.init_assembled config desc memory

/-- A second first descriptor before a last one loses the descriptor before it. -/
theorem input_not_conserved :
    ¬Always inputStep (fun state => state.ring.Conserved (defaultRxConfig 0))
      (InputState.init (defaultRxConfig 0) (fun _ => default) fun _ => 0)
      [.dma 0x00010200 [1], .dma 0x00010300 [2], .input, .input] := by
  intro always
  have conserved := always.of_run rfl
  rcases conserved.located 0 (by decide) with dma | waits | inFrame
  · cases dma
  · cases waits.2
  · rcases inFrame with ⟨start, isStart, inWindow⟩
    cases isStart
    revert inWindow
    decide

end Runs

end SunWise.Gmac
