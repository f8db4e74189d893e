import SunWise.Iperf.Resources

/-!
# When the network tests keep their resources

Each function is followed through the calls that it waits for: what the ledger holds at each
of them, and which results are still to come for the run to end well.
-/

namespace SunWise.Iperf

open Library

namespace TcpClientPoint

/-- What the ledger holds. Connections that could not be made are still in it. -/
def Holds : TcpClientPoint → Ledger → Prop
  | .pvPortMalloc, ledger => ledger = .initial false
  | .netconnNew _, ledger =>
      ledger.heap = some 4096 ∧ ledger.netbufs = [] ∧ ledger.created = false
  | .netconnConnect _ conn, ledger | .netconnRecv _ conn, ledger =>
      ledger.heap = some 4096 ∧ ledger.netbufs = [] ∧ ledger.created = false ∧
        ∃ leaked, ledger.netconns = conn :: leaked
  | .returned, _ => True

/-- The pointer and the connections are as they should be, and so are the results to come. -/
def Owes (recvSendData : Pointer) (netconns live : List Nat) (replies : List Reply) : Prop :=
  .netconnRecv .failed ∈ replies →
    recvSendData = .heap ∧ netconns = live ∧
      (∀ err, .netconnConnect err ∈ replies → err = errOk) ∧
      ∀ buf first others, .netconnRecv (.data buf first others) ∉ replies

/-- The results to come that end well. -/
def Clear : TcpClientPoint → Ledger → List Reply → Prop
  | .pvPortMalloc, _, replies => TcpClientClear replies
  | .netconnNew recvSendData, ledger, replies => Owes recvSendData ledger.netconns [] replies
  | .netconnConnect recvSendData conn, ledger, replies
  | .netconnRecv recvSendData conn, ledger, replies =>
      Owes recvSendData ledger.netconns [conn] replies
  | .returned, ledger, _ => ledger.Settled

end TcpClientPoint

theorem echo_accepts {ledger : Ledger} {conn : Nat} (live : conn ∈ ledger.netconns)
    (lengths : List Nat) :
    Accepts Ledger.next Ledger.Permits ledger (lengths.flatMap (echo conn)) ∧
      (lengths.flatMap (echo conn)).foldl Ledger.next ledger = ledger := by
  apply accepts_of_ignored
  intro effect isEffect
  rcases List.mem_flatMap.mp isEffect with ⟨length, -, isPart⟩
  simp only [echo, List.mem_append, List.mem_cons, List.mem_replicate, List.not_mem_nil,
    or_false] at isPart
  rcases isPart with (rfl | ⟨-, rfl⟩) | rfl | rfl
  · exact ⟨trivial, rfl⟩
  · exact ⟨trivial, rfl⟩
  · exact ⟨trivial, rfl⟩
  · exact ⟨live, rfl⟩

theorem tcpClient_turn {point middle : TcpClientPoint} {ledger : Ledger} {reply : Reply}
    {effects : List Effect} (holds : point.Holds ledger)
    (turned : tcpClientStep point reply = some (middle, effects)) :
    Judged tcpClientStep Ledger.next Ledger.Permits TcpClientPoint.Holds TcpClientPoint.Clear
      point ledger reply middle effects := by
  revert turned
  fun_cases tcpClientStep point reply with
  | case1 =>
      rintro ⟨⟩
      cases holds
      refine ⟨fun _ => ⟨rfl, rfl, rfl⟩, fun replies runs => ?_⟩
      simp [TcpClientPoint.Clear, TcpClientPoint.Owes, TcpClientClear, Ledger.initial,
        remoteText]
  | case2 =>
      rintro ⟨⟩
      cases holds
      refine ⟨fun _ => trivial, fun replies runs => ?_⟩
      obtain rfl := replies_eq_nil (fun reply => rfl) runs
      simp [TcpClientPoint.Clear, TcpClientClear, Ledger.settled_iff, Ledger.initial, remoteText]
  | case3 =>
      rintro ⟨⟩
      refine ⟨fun _ => holds, fun replies runs => ?_⟩
      simp [TcpClientPoint.Clear, TcpClientPoint.Owes]
  | case4 =>
      rintro ⟨⟩
      rcases holds with ⟨heap, netbufs, created⟩
      refine ⟨fun _ => ⟨heap, netbufs, created, _, rfl⟩, fun replies runs => ?_⟩
      simp [TcpClientPoint.Clear, TcpClientPoint.Owes]
  | case5 recvSendData conn err failed =>
      rintro ⟨⟩
      rcases holds with ⟨heap, netbufs, created, leaked, netconns⟩
      refine ⟨fun _ => ⟨heap, netbufs, created⟩, fun replies runs => ?_⟩
      simp [TcpClientPoint.Clear, TcpClientPoint.Owes, netconns, failed]
  | case6 recvSendData conn err connected =>
      rintro ⟨⟩
      refine ⟨fun _ => holds, fun replies runs => ?_⟩
      obtain rfl := not_not.mp connected
      simp [TcpClientPoint.Clear, TcpClientPoint.Owes]
  | case7 recvSendData conn buf first others =>
      rintro ⟨⟩
      rcases holds with ⟨heap, netbufs, created, leaked, netconns⟩
      have echoes := @echo_accepts (ledger.next (.netbuf buf)) conn (by simp [netconns])
        (first :: others)
      have permitted : Accepts Ledger.next Ledger.Permits ledger
          (.netbuf buf :: (first :: others).flatMap (echo conn) ++ [.netbufDelete buf]) := by
        rw [List.cons_append, accepts_cons, accepts_append, echoes.2]
        exact ⟨trivial, echoes.1, by simp⟩
      have after : (Effect.netbuf buf :: (first :: others).flatMap (echo conn) ++
          [Effect.netbufDelete buf]).foldl Ledger.next ledger =
            { ledger with payload := none } := by
        rw [List.cons_append, List.foldl_cons, List.foldl_append, echoes.2]
        simp
      refine ⟨fun _ => after ▸ ⟨heap, netbufs, created, leaked, netconns⟩,
        fun replies runs => ?_⟩
      rw [after, and_iff_right permitted]
      constructor
      · intro owes ends
        have nothing := (owes (List.mem_cons_of_mem _ ends)).2.2.2 buf first others
        exact absurd List.mem_cons_self nothing
      · -- the pointer is lost
        intro owes ends
        have later : .netconnRecv .failed ∈ replies := by simpa using ends
        exact absurd (owes later).1 (by decide)
  | case8 recvSendData conn =>
      rintro ⟨⟩
      rcases holds with ⟨heap, netbufs, created, leaked, netconns⟩
      refine ⟨fun _ => trivial, fun replies runs => ?_⟩
      obtain rfl := replies_eq_nil (fun reply => rfl) runs
      simp [TcpClientPoint.Clear, TcpClientPoint.Owes, Ledger.settled_iff, heap, netbufs, created,
        netconns]
  | case9 => rintro ⟨⟩

theorem tcpClient_stop (point : TcpClientPoint) {ledger : Ledger} (holds : point.Holds ledger) :
    (point = .returned → ledger.Settled) ↔ point.Clear ledger [] := by
  cases point <;> simp [TcpClientPoint.Clear, TcpClientPoint.Owes, TcpClientClear]

theorem tcpClient_keeps_iff {final : TcpClientPoint} {replies : List Reply}
    {effects : List Effect}
    (run : IperfFunction.tcpClient.task.run replies = some (final, effects)) :
    IperfFunction.tcpClient.task.KeepsResources final effects ↔ TcpClientClear replies := by
  have start : TcpClientPoint.Holds .pvPortMalloc (.initial false) := rfl
  exact disciplined_iff_clear TcpClientPoint.Holds TcpClientPoint.Clear
    (fun point ledger holds => tcpClient_stop point holds)
    (fun point ledger reply middle effects holds turned => tcpClient_turn holds turned) start run

/-- The buffer of the server. -/
def ServerBuffer (recvData : Pointer) (ledger : Ledger) : Prop :=
  recvData = .heap ∧ ledger.heap = some 4096 ∨ recvData = .null

namespace UdpServerPoint

/-- What the ledger holds, and what its pointer does. -/
def Holds : UdpServerPoint → Ledger → Prop
  | .pvPortMalloc, ledger => ledger = .initial false
  | .netconnNew recvData, ledger | .netconnRecv recvData _, ledger =>
      ServerBuffer recvData ledger

/-- The results to come that end well. -/
def Clear : UdpServerPoint → Ledger → List Reply → Prop
  | .pvPortMalloc, _, replies => UdpServerClear replies
  | .netconnNew recvData, _, replies | .netconnRecv recvData _, _, replies =>
      ∀ buf first others, .netconnRecv (.data buf first others) ∈ replies →
        first + others.sum ≠ if recvData = .heap then 4096 else 0

end UdpServerPoint

/-- A datagram leaves the buffer where it is. Its NUL is stored outside exactly when the
datagram fills the buffer, or when there is none. -/
theorem udpServerReceive_spec {recvData : Pointer} {ledger : Ledger}
    (buffer : ServerBuffer recvData ledger) (buf totLen : Nat) :
    ServerBuffer recvData ((udpServerReceive recvData buf totLen).foldl Ledger.next ledger) ∧
      (Accepts Ledger.next Ledger.Permits ledger (udpServerReceive recvData buf totLen) ↔
        totLen ≠ if recvData = .heap then 4096 else 0) := by
  rcases buffer with ⟨rfl, heap⟩ | rfl
  · have copied : netbufCopy .heap totLen = min totLen 4096 := rfl
    by_cases fits : totLen ≤ 4096
    · have all : netbufCopy .heap totLen = totLen := copied.trans (Nat.min_eq_left fits)
      simp [udpServerReceive, ServerBuffer, all, heap]
      omega
    · have part : netbufCopy .heap totLen = 4096 :=
        copied.trans (Nat.min_eq_right (Nat.le_of_not_le fits))
      have cut : 4096 ≠ totLen := by omega
      simp [udpServerReceive, ServerBuffer, part, heap, cut, cut.symm]
  · have copied : netbufCopy .null totLen = 0 := rfl
    cases totLen with
    | zero => simp [udpServerReceive, ServerBuffer, copied]
    | succ totLen => simp [udpServerReceive, ServerBuffer, copied]

theorem udpServer_turn {point middle : UdpServerPoint} {ledger : Ledger} {reply : Reply}
    {effects : List Effect} (holds : point.Holds ledger)
    (turned : udpServerStep point reply = some (middle, effects)) :
    Judged udpServerStep Ledger.next Ledger.Permits UdpServerPoint.Holds UdpServerPoint.Clear
      point ledger reply middle effects := by
  revert turned
  fun_cases udpServerStep point reply with
  | case1 =>
      rintro ⟨⟩
      cases holds
      refine ⟨fun _ => Or.inl ⟨rfl, rfl⟩, fun replies runs => ?_⟩
      simp [UdpServerPoint.Clear, UdpServerClear]
  | case2 succeeds failed =>
      rintro ⟨⟩
      cases holds
      refine ⟨fun _ => Or.inr rfl, fun replies runs => ?_⟩
      simp [UdpServerPoint.Clear, UdpServerClear, failed]
  | case3 recvData conn =>
      rintro ⟨⟩
      cases conn with
      | none =>
          refine ⟨fun _ => holds, fun replies runs => ?_⟩
          simp [UdpServerPoint.Clear]
      | some conn =>
          refine ⟨fun _ => holds, fun replies runs => ?_⟩
          simp [UdpServerPoint.Clear]
  | case4 recvData conn =>
      rintro ⟨⟩
      refine ⟨fun _ => holds, fun replies runs => ?_⟩
      simp [UdpServerPoint.Clear]
  | case5 recvData conn buf first others =>
      rintro ⟨⟩
      rcases udpServerReceive_spec holds buf (first + others.sum) with ⟨still, permitted⟩
      refine ⟨fun _ => still, fun replies runs => ?_⟩
      rw [permitted]
      constructor
      · intro clear
        exact ⟨clear buf first others List.mem_cons_self,
          fun buf first others isLater => clear buf first others (List.mem_cons_of_mem _ isLater)⟩
      · rintro ⟨here, later⟩ otherBuf otherFirst otherOthers isReply
        rcases List.mem_cons.mp isReply with isHere | isLater
        · cases isHere
          exact here
        · exact later otherBuf otherFirst otherOthers isLater
  | case6 => rintro ⟨⟩

theorem udpServer_stop (point : UdpServerPoint) (ledger : Ledger) :
    (False → ledger.Settled) ↔ point.Clear ledger [] := by
  cases point <;> simp [UdpServerPoint.Clear, UdpServerClear]

theorem udpServer_keeps_iff {final : UdpServerPoint} {replies : List Reply}
    {effects : List Effect}
    (run : IperfFunction.udpServer.task.run replies = some (final, effects)) :
    IperfFunction.udpServer.task.KeepsResources final effects ↔ UdpServerClear replies := by
  have start : UdpServerPoint.Holds .pvPortMalloc (.initial false) := rfl
  exact disciplined_iff_clear UdpServerPoint.Holds UdpServerPoint.Clear
    (fun point ledger holds => udpServer_stop point ledger)
    (fun point ledger reply middle effects holds turned => udpServer_turn holds turned) start run

namespace UdpClientPoint

/-- What the ledger holds. -/
def Holds : UdpClientPoint → Ledger → Prop
  | .pvPortMalloc, ledger => ledger = .initial false
  | .netbufNew, ledger =>
      ledger.heap = some 4096 ∧ ledger.netbufs = [] ∧ ledger.netconns = [] ∧
        ledger.created = false
  | .netconnNew buf, ledger =>
      ledger.heap = some 4096 ∧ ledger.netbufs = [buf] ∧ ledger.netconns = [] ∧
        ledger.created = false
  | .netconnSendto buf conn _, ledger =>
      ledger.heap = some 4096 ∧ ledger.netbufs = [buf] ∧ ledger.netconns = [conn] ∧
        ledger.created = false
  | .returned, _ => True

/-- The results to come that end well. -/
def Clear : UdpClientPoint → Ledger → List Reply → Prop
  | .pvPortMalloc, _, replies => UdpClientClear replies
  | .netbufNew, _, replies => ¬ [.netbufNew none] <+: replies
  | .netconnNew _, _, _ | .netconnSendto _ _ _, _, _ => True
  | .returned, ledger, _ => ledger.Settled

end UdpClientPoint

theorem udpClient_turn {point middle : UdpClientPoint} {ledger : Ledger} {reply : Reply}
    {effects : List Effect} (holds : point.Holds ledger)
    (turned : udpClientStep point reply = some (middle, effects)) :
    Judged udpClientStep Ledger.next Ledger.Permits UdpClientPoint.Holds UdpClientPoint.Clear
      point ledger reply middle effects := by
  revert turned
  fun_cases udpClientStep point reply with
  | case1 =>
      rintro ⟨⟩
      cases holds
      refine ⟨fun _ => ⟨rfl, rfl, rfl, rfl⟩, fun replies runs => ?_⟩
      simp [UdpClientPoint.Clear, UdpClientClear]
  | case2 succeeds failed =>
      rintro ⟨⟩
      cases holds
      refine ⟨fun _ => trivial, fun replies runs => ?_⟩
      simp [UdpClientPoint.Clear, UdpClientClear, failed, Ledger.settled_iff, Ledger.initial]
  | case3 =>
      rintro ⟨⟩
      rcases holds with ⟨heap, netbufs, netconns, created⟩
      refine ⟨fun _ => trivial, fun replies runs => ?_⟩
      -- the memory is not freed
      simp [UdpClientPoint.Clear, Ledger.settled_iff, heap]
  | case4 buf =>
      rintro ⟨⟩
      rcases holds with ⟨heap, netbufs, netconns, created⟩
      refine ⟨fun _ => ⟨heap, congrArg _ netbufs, netconns, created⟩, fun replies runs => ?_⟩
      simp [UdpClientPoint.Clear]
  | case5 buf =>
      rintro ⟨⟩
      exact judged_of_permitted (fun _ => trivial) (by simp) holds fun _ => trivial
  | case6 buf conn =>
      rintro ⟨⟩
      rcases holds with ⟨heap, netbufs, netconns, created⟩
      exact judged_of_permitted (fun _ => trivial) (by simp)
        ⟨heap, netbufs, congrArg _ netconns, created⟩ fun _ => trivial
  | case7 buf conn i err failed =>
      rintro ⟨⟩
      rcases id holds with ⟨heap, netbufs, netconns, created⟩
      have live : conn ∈ ledger.netconns ∧ buf ∈ ledger.netbufs := by simp [netconns, netbufs]
      have ignored := @accepts_of_ignored _ _ Ledger.next Ledger.Permits ledger
        (.netconnSendto conn buf ::
          if err = errUse then [] else [.xprintf "Write failed: %d\n" [errArgument err]])
        (by split <;> simp [live])
      exact judged_of_permitted (fun _ => trivial) ignored.1 (ignored.2.symm ▸ holds)
        fun _ => trivial
  | case8 buf conn i err sent more =>
      rintro ⟨⟩
      rcases id holds with ⟨heap, netbufs, netconns, created⟩
      exact judged_of_permitted (fun _ => trivial) (by simp [netconns, netbufs]) holds
        fun _ => trivial
  | case9 buf conn i err sent last =>
      rintro ⟨⟩
      rcases holds with ⟨heap, netbufs, netconns, created⟩
      refine ⟨fun _ => trivial, fun replies runs => ?_⟩
      simp [UdpClientPoint.Clear, Ledger.settled_iff, heap, netbufs, netconns, created]
  | case10 => rintro ⟨⟩

theorem udpClient_stop (point : UdpClientPoint) (ledger : Ledger) :
    (point = .returned → ledger.Settled) ↔ point.Clear ledger [] := by
  cases point <;> simp [UdpClientPoint.Clear, UdpClientClear]

theorem udpClient_keeps_iff {final : UdpClientPoint} {replies : List Reply}
    {effects : List Effect}
    (run : IperfFunction.udpClient.task.run replies = some (final, effects)) :
    IperfFunction.udpClient.task.KeepsResources final effects ↔ UdpClientClear replies := by
  have start : UdpClientPoint.Holds .pvPortMalloc (.initial false) := rfl
  exact disciplined_iff_clear UdpClientPoint.Holds UdpClientPoint.Clear
    (fun point ledger holds => udpClient_stop point ledger)
    (fun point ledger reply middle effects holds turned => udpClient_turn holds turned) start run

/-! ## Speed tests -/

theorem finish_spec {test : SpeedTest} {ledger : Ledger} (heap : ledger.heap.isSome)
    (netconns : ledger.netconns = [test.conn]) (netbufs : ledger.netbufs = [])
    (protocol : String) (now : UInt32) :
    Accepts Ledger.next Ledger.Permits ledger (test.finish protocol now) ∧
      ((test.finish protocol now).foldl Ledger.next ledger).Settled := by
  simp [SpeedTest.finish, Ledger.settled_iff, heap, netconns, netbufs]

namespace UdpSpeedPoint

/-- The ledger of a running test, with the netbufs of the turn. -/
def Running (conn : Nat) (netbufs : List Nat) (ledger : Ledger) : Prop :=
  ledger.heap = some 1024 ∧ ledger.netconns = [conn] ∧ ledger.netbufs = netbufs ∧
    ledger.created = true

/-- What the ledger holds. -/
def Holds : UdpSpeedPoint → Ledger → Prop
  | .pvPortMalloc, ledger => ledger = .initial true
  | .netconnNew, ledger =>
      ledger.heap = some 1024 ∧ ledger.netconns = [] ∧ ledger.netbufs = [] ∧
        ledger.created = true
  | .startTime conn, ledger => Running conn [] ledger
  | .loopTime test, ledger | .netbufNew test, ledger | .currentTime test, ledger
  | .finalTime test, ledger => Running test.conn [] ledger
  | .netbufAlloc test buf, ledger | .netconnSendto test buf, ledger =>
      Running test.conn [buf] ledger
  | .returned, _ => True

/-- The results to come that end well. -/
def Clear : UdpSpeedPoint → Ledger → List Reply → Prop
  | .pvPortMalloc, _, replies => SpeedClientClear replies
  | .netconnNew, _, replies => ¬ [.netconnNew none] <+: replies
  | .returned, ledger, _ => ledger.Settled
  | _, _, _ => True

end UdpSpeedPoint

theorem udpSpeedPause_ignored (ledger : Ledger) (test : SpeedTest) :
    Accepts Ledger.next Ledger.Permits ledger (udpSpeedPause test) ∧
      (udpSpeedPause test).foldl Ledger.next ledger = ledger := by
  apply accepts_of_ignored
  unfold udpSpeedPause
  split <;> simp

/-- A netbuf is sent and deleted; more texts or delays may follow. -/
theorem udpSpeedSend_spec {test : SpeedTest} {buf : Nat} {ledger : Ledger}
    (running : UdpSpeedPoint.Running test.conn [buf] ledger) (more : List Effect)
    (ignored : ∀ ledger : Ledger, ∀ effect ∈ more,
      ledger.Permits effect ∧ ledger.next effect = ledger) :
    Accepts Ledger.next Ledger.Permits ledger (udpSpeedSend test buf ++ more) ∧
      UdpSpeedPoint.Running test.conn []
        ((udpSpeedSend test buf ++ more).foldl Ledger.next ledger) := by
  rcases running with ⟨heap, netconns, netbufs, created⟩
  rcases accepts_of_ignored (ignored ((udpSpeedSend test buf).foldl Ledger.next ledger)) with
    ⟨permitted, same⟩
  rw [accepts_append, List.foldl_append, same]
  refine ⟨⟨?_, permitted⟩, heap, netconns, ?_, created⟩
  · simp [udpSpeedSend, netconns, netbufs]
  · simp [udpSpeedSend, netbufs]

/-- Behind the results of sending, the turn ends or the time is asked for. -/
theorem udpSpeedReport_spec {test : SpeedTest} {ledger : Ledger} {effects : List Effect}
    (permitted : Accepts Ledger.next Ledger.Permits ledger effects)
    (running : UdpSpeedPoint.Running test.conn [] (effects.foldl Ledger.next ledger)) :
    let turn := udpSpeedReport test effects
    Accepts Ledger.next Ledger.Permits ledger turn.2 ∧
      turn.1.Holds (turn.2.foldl Ledger.next ledger) ∧
      ∀ replies, turn.1.Clear (turn.2.foldl Ledger.next ledger) replies := by
  unfold udpSpeedReport
  split
  · exact ⟨permitted, running, fun _ => trivial⟩
  · rcases udpSpeedPause_ignored (effects.foldl Ledger.next ledger) test with ⟨pauses, same⟩
    simp only [accepts_append, List.foldl_append, same]
    exact ⟨⟨permitted, pauses⟩, running, fun _ => trivial⟩

theorem udpSpeed_turn {point middle : UdpSpeedPoint} {ledger : Ledger} {reply : Reply}
    {effects : List Effect} (holds : point.Holds ledger)
    (turned : udpSpeedStep point reply = some (middle, effects)) :
    Judged udpSpeedStep Ledger.next Ledger.Permits UdpSpeedPoint.Holds UdpSpeedPoint.Clear
      point ledger reply middle effects := by
  have report {test result : SpeedTest} {buf : Nat} {sent : List Effect} {err : ErrT}
      (same : result.conn = test.conn)
      (sends : Accepts Ledger.next Ledger.Permits ledger sent ∧
        UdpSpeedPoint.Running test.conn [] (sent.foldl Ledger.next ledger))
      (turned : some (udpSpeedReport result sent) = some (middle, effects)) :
      Judged udpSpeedStep Ledger.next Ledger.Permits UdpSpeedPoint.Holds UdpSpeedPoint.Clear
        (.netconnSendto test buf) ledger (.netconnSendto err) middle effects := by
    have spec := udpSpeedReport_spec sends.1 (same ▸ sends.2)
    rw [Option.some.inj turned] at spec
    exact judged_of_permitted (fun _ => trivial) spec.1 spec.2.1 spec.2.2
  revert turned
  fun_cases udpSpeedStep point reply with
  | case1 =>
      rintro ⟨⟩
      cases holds
      refine ⟨fun _ => ⟨rfl, rfl, rfl, rfl⟩, fun replies runs => ?_⟩
      simp [UdpSpeedPoint.Clear, SpeedClientClear]
  | case2 succeeds failed =>
      rintro ⟨⟩
      cases holds
      refine ⟨fun _ => trivial, fun replies runs => ?_⟩
      -- the flag is not cleared
      simp [UdpSpeedPoint.Clear, SpeedClientClear, failed, Ledger.settled_iff, Ledger.initial]
  | case3 =>
      rintro ⟨⟩
      rcases holds with ⟨heap, netconns, netbufs, created⟩
      refine ⟨fun _ => trivial, fun replies runs => ?_⟩
      simp [UdpSpeedPoint.Clear, Ledger.settled_iff, heap, created]
  | case4 conn =>
      rintro ⟨⟩
      rcases holds with ⟨heap, netconns, netbufs, created⟩
      refine ⟨fun _ => ⟨heap, congrArg _ netconns, netbufs, created⟩, fun replies runs => ?_⟩
      simp [UdpSpeedPoint.Clear]
  | case5 | case6 | case7 =>
      rintro ⟨⟩
      exact judged_of_permitted (fun _ => trivial) trivial holds fun _ => trivial
  | case8 test =>
      rintro ⟨⟩
      exact judged_of_permitted (fun _ => trivial) (by simp) holds fun _ => trivial
  | case9 test buf =>
      rintro ⟨⟩
      rcases holds with ⟨heap, netconns, netbufs, created⟩
      exact judged_of_permitted (fun _ => trivial) (by simp)
        ⟨heap, netconns, congrArg _ netbufs, created⟩ fun _ => trivial
  | case10 test buf =>
      rintro ⟨⟩
      rcases holds with ⟨heap, netconns, netbufs, created⟩
      exact judged_of_permitted (fun _ => trivial) (by simp [netbufs])
        ⟨heap, netconns, netbufs, created⟩ fun _ => trivial
  | case11 test buf succeeds failed =>
      rintro ⟨⟩
      rcases holds with ⟨heap, netconns, netbufs, created⟩
      exact judged_of_permitted (fun _ => trivial) (by simp [netbufs])
        ⟨heap, netconns, by simp [netbufs], created⟩ fun _ => trivial
  | case12 | case15 =>
      have sends := udpSpeedSend_spec holds [] fun _ => List.forall_mem_nil _
      rw [List.append_nil] at sends
      exact report rfl sends
  | case13 test buf =>
      rintro ⟨⟩
      have sends := udpSpeedSend_spec holds [.vTaskDelay (pdMsToTicks 10)] (by simp)
      exact judged_of_permitted (fun _ => trivial) sends.1 sends.2 fun _ => trivial
  | case14 test buf err =>
      exact report rfl (udpSpeedSend_spec holds _ (by simp))
  | case16 test ticks elapsed speed shown =>
      rintro ⟨⟩
      have texts : Accepts Ledger.next Ledger.Permits ledger shown ∧
          shown.foldl Ledger.next ledger = ledger := by
        apply accepts_of_ignored
        dsimp only [shown]
        split <;> simp
      have pauses := udpSpeedPause_ignored ledger test
      have same : (shown ++ udpSpeedPause test).foldl Ledger.next ledger = ledger := by
        rw [List.foldl_append, texts.2, pauses.2]
      refine judged_of_permitted (fun _ => trivial) ?_ (same.symm ▸ holds) fun _ => trivial
      rw [accepts_append, texts.2]
      exact ⟨texts.1, pauses.1⟩
  | case17 test ticks =>
      rintro ⟨⟩
      rcases holds with ⟨heap, netconns, netbufs, created⟩
      rcases @finish_spec test ledger (by simp [heap]) netconns netbufs "UDP" ticks with
        ⟨permitted, settled⟩
      exact judged_of_permitted (fun _ => trivial) permitted trivial fun _ => settled
  | case18 => rintro ⟨⟩

theorem udpSpeed_stop (point : UdpSpeedPoint) (ledger : Ledger) :
    (point = .returned → ledger.Settled) ↔ point.Clear ledger [] := by
  cases point <;> simp [UdpSpeedPoint.Clear, SpeedClientClear]

theorem udpSpeed_keeps_iff {final : UdpSpeedPoint} {replies : List Reply}
    {effects : List Effect}
    (run : IperfFunction.udpSpeedClient.task.run replies = some (final, effects)) :
    IperfFunction.udpSpeedClient.task.KeepsResources final effects ↔
      SpeedClientClear replies := by
  have start : UdpSpeedPoint.Holds .pvPortMalloc (.initial true) := rfl
  exact disciplined_iff_clear UdpSpeedPoint.Holds UdpSpeedPoint.Clear
    (fun point ledger holds => udpSpeed_stop point ledger)
    (fun point ledger reply middle effects holds turned => udpSpeed_turn holds turned) start run

namespace TcpSpeedPoint

/-- The ledger of a running test. -/
def Running (conn : Nat) (ledger : Ledger) : Prop :=
  ledger.heap = some 8192 ∧ ledger.netconns = [conn] ∧ ledger.netbufs = [] ∧
    ledger.created = true

/-- What the ledger holds. -/
def Holds : TcpSpeedPoint → Ledger → Prop
  | .pvPortMalloc, ledger => ledger = .initial true
  | .netconnNew, ledger =>
      ledger.heap = some 8192 ∧ ledger.netconns = [] ∧ ledger.netbufs = [] ∧
        ledger.created = true
  | .netconnConnect conn, ledger | .startTime conn, ledger => Running conn ledger
  | .loopTime test, ledger | .netconnWrite test, ledger | .currentTime test, ledger
  | .finalTime test, ledger => Running test.conn ledger
  | .returned, _ => True

/-- The results to come that end well. -/
def Clear : TcpSpeedPoint → Ledger → List Reply → Prop
  | .pvPortMalloc, _, replies => SpeedClientClear replies
  | .netconnNew, _, replies => ¬ [.netconnNew none] <+: replies
  | .returned, ledger, _ => ledger.Settled
  | _, _, _ => True

end TcpSpeedPoint

theorem tcpSpeed_turn {point middle : TcpSpeedPoint} {ledger : Ledger} {reply : Reply}
    {effects : List Effect} (holds : point.Holds ledger)
    (turned : tcpSpeedStep point reply = some (middle, effects)) :
    Judged tcpSpeedStep Ledger.next Ledger.Permits TcpSpeedPoint.Holds TcpSpeedPoint.Clear
      point ledger reply middle effects := by
  revert turned
  fun_cases tcpSpeedStep point reply with
  | case1 =>
      rintro ⟨⟩
      cases holds
      refine ⟨fun _ => ⟨rfl, rfl, rfl, rfl⟩, fun replies runs => ?_⟩
      simp [TcpSpeedPoint.Clear, SpeedClientClear]
  | case2 succeeds failed =>
      rintro ⟨⟩
      cases holds
      refine ⟨fun _ => trivial, fun replies runs => ?_⟩
      -- the flag is not cleared
      simp [TcpSpeedPoint.Clear, SpeedClientClear, failed, Ledger.settled_iff, Ledger.initial]
  | case3 =>
      rintro ⟨⟩
      rcases holds with ⟨heap, netconns, netbufs, created⟩
      refine ⟨fun _ => trivial, fun replies runs => ?_⟩
      simp [TcpSpeedPoint.Clear, Ledger.settled_iff, heap, created]
  | case4 conn =>
      rintro ⟨⟩
      rcases holds with ⟨heap, netconns, netbufs, created⟩
      refine ⟨fun _ => ⟨heap, congrArg _ netconns, netbufs, created⟩, fun replies runs => ?_⟩
      simp [TcpSpeedPoint.Clear]
  | case5 conn err failed =>
      rintro ⟨⟩
      rcases holds with ⟨heap, netconns, netbufs, created⟩
      exact judged_of_permitted (fun _ => trivial) (by simp [heap, netconns]) trivial
        fun _ => ⟨rfl, by simp [netconns], netbufs, rfl⟩
  | case6 conn err connected =>
      rintro ⟨⟩
      exact judged_of_permitted (fun _ => trivial) (by simp) holds fun _ => trivial
  | case7 | case8 | case9 | case14 =>
      rintro ⟨⟩
      exact judged_of_permitted (fun _ => trivial) trivial holds fun _ => trivial
  | case10 | case11 | case12 =>
      rintro ⟨⟩
      exact judged_of_permitted (fun _ => trivial) (by simp [holds.2.1]) holds fun _ => trivial
  | case13 test =>
      rintro ⟨⟩
      exact judged_of_permitted (fun _ => trivial) (by simp) holds fun _ => trivial
  | case15 test ticks =>
      rintro ⟨⟩
      rcases holds with ⟨heap, netconns, netbufs, created⟩
      rcases @finish_spec test ledger (by simp [heap]) netconns netbufs "TCP" ticks with
        ⟨permitted, settled⟩
      exact judged_of_permitted (fun _ => trivial) permitted trivial fun _ => settled
  | case16 => rintro ⟨⟩

theorem tcpSpeed_stop (point : TcpSpeedPoint) (ledger : Ledger) :
    (point = .returned → ledger.Settled) ↔ point.Clear ledger [] := by
  cases point <;> simp [TcpSpeedPoint.Clear, SpeedClientClear]

theorem tcpSpeed_keeps_iff {final : TcpSpeedPoint} {replies : List Reply}
    {effects : List Effect}
    (run : IperfFunction.tcpSpeedClient.task.run replies = some (final, effects)) :
    IperfFunction.tcpSpeedClient.task.KeepsResources final effects ↔
      SpeedClientClear replies := by
  have start : TcpSpeedPoint.Holds .pvPortMalloc (.initial true) := rfl
  exact disciplined_iff_clear TcpSpeedPoint.Holds TcpSpeedPoint.Clear
    (fun point ledger holds => tcpSpeed_stop point ledger)
    (fun point ledger reply middle effects holds turned => tcpSpeed_turn holds turned) start run

/-- A run of any of the functions keeps its resources exactly when its results are clear. -/
theorem keepsResources_iff_clear (function : IperfFunction) (replies : List Reply)
    (final : function.task.Point) (effects : List Effect)
    (run : function.task.run replies = some (final, effects)) :
    function.task.KeepsResources final effects ↔ function.Clear replies := by
  cases function with
  | tcpClient => exact tcpClient_keeps_iff run
  | udpServer => exact udpServer_keeps_iff run
  | udpClient => exact udpClient_keeps_iff run
  | udpSpeedClient => exact udpSpeed_keeps_iff run
  | tcpSpeedClient => exact tcpSpeed_keeps_iff run

/-- A server that refuses the connection. -/
theorem keepsResources_refused :
    ∃ effects,
      IperfFunction.tcpSpeedClient.task.run
          [.pvPortMalloc true, .netconnNew (some 0), .netconnConnect (-13)] =
        some (.returned, effects) ∧
      IperfFunction.tcpSpeedClient.task.KeepsResources .returned effects := by
  refine ⟨_, rfl, ?_⟩
  apply (keepsResources_iff_clear .tcpSpeedClient
    [.pvPortMalloc true, .netconnNew (some 0), .netconnConnect (-13)] .returned _ rfl).mpr
  exact ⟨by decide, by decide⟩

/-- There is a run on these results, and it does not keep its resources. -/
def IperfTask.Fails (task : IperfTask) (replies : List Reply) : Prop :=
  ∃ final effects, task.run replies = some (final, effects) ∧
    ¬ task.KeepsResources final effects

theorem IperfTask.fails_of_not_clear {task : IperfTask} {replies : List Reply}
    {Clear : List Reply → Prop}
    (keepsIff : ∀ {final effects}, task.run replies = some (final, effects) →
      (task.KeepsResources final effects ↔ Clear replies))
    (runs : (task.run replies).isSome) (notClear : ¬ Clear replies) : task.Fails replies := by
  obtain ⟨⟨final, effects⟩, run⟩ := Option.isSome_iff_exists.mp runs
  exact ⟨final, effects, run, fun keeps => notClear ((keepsIff run).mp keeps)⟩

/-- A segment is received, a datagram fills the buffer, and netbufs or memory run out. -/
theorem iperf_fails :
    IperfFunction.tcpClient.task.Fails
        [.pvPortMalloc true, .netconnNew (some 0), .netconnConnect 0,
          .netconnRecv (.data 0 1 []), .netconnRecv .failed] ∧
      IperfFunction.udpServer.task.Fails
        [.pvPortMalloc true, .netconnNew (some 0), .netconnRecv (.data 0 4096 [])] ∧
      IperfFunction.udpClient.task.Fails [.pvPortMalloc true, .netbufNew none] ∧
      IperfFunction.udpSpeedClient.task.Fails [.pvPortMalloc false] ∧
      IperfFunction.tcpSpeedClient.task.Fails [.pvPortMalloc false] := by
  refine ⟨?_, ?_, ?_, ?_, ?_⟩
  · apply IperfTask.fails_of_not_clear tcpClient_keeps_iff rfl
    intro clear
    exact (clear (by simp)).2 0 1 [] (by simp)
  · apply IperfTask.fails_of_not_clear udpServer_keeps_iff rfl
    intro clear
    exact clear 0 4096 [] (by simp) rfl
  · apply IperfTask.fails_of_not_clear udpClient_keeps_iff rfl
    exact fun clear => clear (by decide)
  · apply IperfTask.fails_of_not_clear udpSpeed_keeps_iff rfl
    exact fun clear => clear.1 (by decide)
  · apply IperfTask.fails_of_not_clear tcpSpeed_keeps_iff rfl
    exact fun clear => clear.1 (by decide)

end SunWise.Iperf
