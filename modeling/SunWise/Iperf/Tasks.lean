import SunWise.Shell.Commands

/-!
# Network tests

The functions of `iperf.c`, built with `LWIP_IPERF_CLIENT_RECV`, up to the call whose result
they wait for.  Calls whose results are ignored are effects, and so is every access to the
memory that `pvPortMalloc` or `netbuf_alloc` returned.
-/

namespace SunWise.Iperf

open Shell

/-- `err_t`. -/
abbrev ErrT := Int

def errOk : ErrT := 0
def errMem : ErrT := -1
def errWouldblock : ErrT := -7
def errUse : ErrT := -8

/-- What a pointer variable holds. -/
inductive Pointer where
  | null
  /-- The memory that `pvPortMalloc` returned. -/
  | heap
  /-- The payload of a netbuf. -/
  | payload
  deriving DecidableEq, Repr

/-- How `netconn_recv` returns: with an error, or with a netbuf. A netbuf is one `pbuf` or
several, of which the lengths count. -/
inductive Received where
  | failed
  | data (buf : Nat) (first : Nat) (others : List Nat)
  deriving DecidableEq, Repr

/-- The results that the functions wait for. A handle is a number. -/
inductive Reply where
  | pvPortMalloc (succeeds : Bool)
  | netconnNew (conn : Option Nat)
  | netconnConnect (err : ErrT)
  | netconnRecv (received : Received)
  | netconnWrite (err : ErrT)
  | netconnSendto (err : ErrT)
  | netbufNew (buf : Option Nat)
  | netbufAlloc (succeeds : Bool)
  | xTaskGetTickCount (ticks : UInt32)
  deriving DecidableEq, Repr

/-- What the functions do. -/
inductive Effect where
  | xprintf (format : String) (arguments : List PrintArgument)
  | pvPortMalloc (size : Nat)
  /-- `count` bytes are stored, from `start` bytes behind the pointer on. -/
  | stored (pointer : Pointer) (start count : Nat)
  | vPortFree (pointer : Pointer)
  | netconnNew (conn : Nat)
  | netconnWrite (conn : Nat) (pointer : Pointer) (length : Nat)
  | netconnSendto (conn buf : Nat)
  | netconnClose (conn : Nat)
  | netconnDelete (conn : Nat)
  /-- A netbuf comes from `netbuf_new` or `netconn_recv`. -/
  | netbuf (buf : Nat)
  | netbufAlloc (buf size : Nat)
  | netbufDelete (buf : Nat)
  /-- The flag that the shell command set is cleared. -/
  | clearCreated
  | vTaskDelay (ticks : UInt32)
  | vTaskDelete
  deriving DecidableEq, Repr

/-- A text without arguments. -/
@[simp] def text (format : String) : Effect :=
  .xprintf format []

/-- An `err_t` in a text. -/
def errArgument (err : ErrT) : PrintArgument :=
  .number (UInt32.ofInt err)

/-- An address and a port in a text. -/
@[simp] def addressText (format : String) (host : UInt32) : Effect :=
  .xprintf format [.number 192, .number 168, .number 0, .number host, .number 5001]

/-- The text of `CONFIG_REMOTE_IP_AND_PORT`. -/
@[simp] def remoteText : Effect :=
  addressText "remote: %d.%d.%d.%d (port %d)\n" 111

/-- The text of `CONFIG_LOCAL_IP_AND_PORT`. -/
@[simp] def localText : Effect :=
  addressText "local: %d.%d.%d.%d (port %d)\n" 122

/-- The first text of a speed test. -/
@[simp] def targetText (protocol : String) : Effect :=
  addressText (protocol ++ " speed test target: %d.%d.%d.%d (port %d)\n") 111

/-- `configTICK_RATE_HZ`. -/
def configTickRateHz : UInt32 := 1000

/-- `pdMS_TO_TICKS`. -/
def pdMsToTicks (ms : UInt32) : UInt32 :=
  ms * configTickRateHz / 1000

/-- The calls of `iperf_tcp_client` that are waited for. -/
inductive TcpClientPoint where
  | pvPortMalloc
  | netconnNew (recvSendData : Pointer)
  | netconnConnect (recvSendData : Pointer) (conn : Nat)
  | netconnRecv (recvSendData : Pointer) (conn : Nat)
  | returned
  deriving DecidableEq, Repr

/-- One `pbuf` of what was received, sent back. -/
def echo (conn len : Nat) : List Effect :=
  .xprintf "tcp recv, len = %d\n" [.number (UInt32.ofNat len)] ::
    List.replicate len (.xprintf "%c" [.device]) ++
    [text "\n", .netconnWrite conn .payload len]

/-- `iperf_tcp_client`. -/
def tcpClientStep : TcpClientPoint → Reply → Option (TcpClientPoint × List Effect)
  | .pvPortMalloc, .pvPortMalloc succeeds =>
      if succeeds then
        some (.netconnNew .heap,
          [remoteText, .pvPortMalloc 4096, .stored .heap 0 4096, .stored .heap (4096 - 1) 1])
      else some (.returned, [remoteText])
  | .netconnNew recvSendData, .netconnNew none =>
      some (.netconnNew recvSendData, [text "Create conn failed\n", .vTaskDelay 10])
  | .netconnNew recvSendData, .netconnNew (some conn) =>
      some (.netconnConnect recvSendData conn,
        [.netconnNew conn, text "Create conn successful\n"])
  | .netconnConnect recvSendData conn, .netconnConnect err =>
      if err ≠ errOk then
        some (.netconnNew recvSendData,
          [text "Connect failed\n", .netconnClose conn, .vTaskDelay 10])
      else
        some (.netconnRecv recvSendData conn, [text "Connect iperf server successful\n"])
  | .netconnRecv _ conn, .netconnRecv (.data buf first others) =>
      -- `netbuf_data` stores to `recv_send_data`
      some (.netconnRecv .payload conn,
        .netbuf buf :: (first :: others).flatMap (echo conn) ++ [.netbufDelete buf])
  | .netconnRecv recvSendData conn, .netconnRecv .failed =>
      some (.returned,
        [.netconnClose conn, .netconnDelete conn, .vPortFree recvSendData])
  | _, _ => none

/-- The calls of `iperf_udp_server` that are waited for. -/
inductive UdpServerPoint where
  | pvPortMalloc
  | netconnNew (recvData : Pointer)
  | netconnRecv (recvData : Pointer) (conn : Option Nat)
  deriving DecidableEq, Repr

/-- `netbuf_copy` to a buffer of 4096 bytes: the bytes that it copies. -/
def netbufCopy (recvData : Pointer) (totLen : Nat) : Nat :=
  if recvData = .null then 0 else min totLen 4096

/-- What is done with a datagram. -/
def udpServerReceive (recvData : Pointer) (buf totLen : Nat) : List Effect :=
  let copied := netbufCopy recvData totLen
  .netbuf buf :: (if recvData = .null then [] else [.stored recvData 0 copied]) ++
    (if copied ≠ totLen then [text "netbuf_copy failed\n"]
    else [.stored recvData totLen 1, .xprintf "udp recv: %s\n" [.device]]) ++
    [.netbufDelete buf]

/-- `iperf_udp_server`. `netconn_recv` fails when there is no connection. -/
def udpServerStep : UdpServerPoint → Reply → Option (UdpServerPoint × List Effect)
  | .pvPortMalloc, .pvPortMalloc succeeds =>
      if succeeds then some (.netconnNew .heap, [localText, .pvPortMalloc 4096])
      else some (.netconnNew .null, [localText, text "No memory\n"])
  | .netconnNew recvData, .netconnNew conn =>
      some (.netconnRecv recvData conn, conn.toList.map .netconnNew)
  | .netconnRecv recvData conn, .netconnRecv .failed =>
      some (.netconnRecv recvData conn, [])
  | .netconnRecv recvData (some conn), .netconnRecv (.data buf first others) =>
      some (.netconnRecv recvData (some conn),
        udpServerReceive recvData buf (first + others.sum))
  | _, _ => none

/-- The calls of `iperf_udp_client` that are waited for. -/
inductive UdpClientPoint where
  | pvPortMalloc
  | netbufNew
  | netconnNew (buf : Nat)
  | netconnSendto (buf conn i : Nat)
  | returned
  deriving DecidableEq, Repr

/-- `iperf_udp_client`, with `TCP_MSS` 1460. -/
def udpClientStep : UdpClientPoint → Reply → Option (UdpClientPoint × List Effect)
  | .pvPortMalloc, .pvPortMalloc succeeds =>
      if succeeds then
        some (.netbufNew,
          [remoteText, .pvPortMalloc 4096, .stored .heap 0 4096, .stored .heap 1460 1])
      else some (.returned, [remoteText])
  | .netbufNew, .netbufNew none => some (.returned, [text "Create netbuf failed\n"])
  | .netbufNew, .netbufNew (some buf) => some (.netconnNew buf, [.netbuf buf])
  | .netconnNew buf, .netconnNew none =>
      some (.netconnNew buf, [text "Create conn failed\n", .vTaskDelay 10])
  | .netconnNew buf, .netconnNew (some conn) =>
      some (.netconnSendto buf conn 0, [.netconnNew conn, text "Create conn successful\n"])
  | .netconnSendto buf conn i, .netconnSendto err =>
      if err ≠ errOk then
        some (.netconnSendto buf conn i,
          .netconnSendto conn buf ::
            if err = errUse then [] else [.xprintf "Write failed: %d\n" [errArgument err]])
      else if i + 1 < 1000 then
        some (.netconnSendto buf conn (i + 1), [.netconnSendto conn buf])
      else
        some (.returned,
          [.netconnSendto conn buf, .vTaskDelay (pdMsToTicks 1000), .netconnClose conn,
            .netconnDelete conn, .netbufDelete buf, .vPortFree .heap])
  | _, _ => none

/-! ## Speed tests -/

/-- The variables of a speed test. -/
structure SpeedTest where
  conn : Nat
  startTime : UInt32
  totalBytes : UInt32
  packetCount : UInt32
  consecutiveSuccess : UInt32
  lastDisplayTime : UInt32
  deriving DecidableEq, Repr

/-- The variables before the loop. -/
def SpeedTest.start (conn : Nat) (startTime : UInt32) : SpeedTest where
  conn := conn
  startTime := startTime
  totalBytes := 0
  packetCount := 0
  consecutiveSuccess := 0
  lastDisplayTime := startTime

/-- `speed_kbps / 1000`. -/
def speedMbps (totalBytes elapsed : UInt32) : UInt32 :=
  totalBytes * 8 / (elapsed * 1000 / configTickRateHz) / 1000 / 1000

/-- The texts behind the loop, and the end of the task. -/
def SpeedTest.finish (test : SpeedTest) (protocol : String) (now : UInt32) : List Effect :=
  let totalTime := now - test.startTime
  [text (protocol ++ " Speed Test Completed:\n"),
    .xprintf "  Duration: %lu ms\n" [.number (totalTime * 1000 / configTickRateHz)],
    .xprintf "  Packets sent: %lu\n" [.number test.packetCount],
    .xprintf "  Total bytes: %lu\n" [.number test.totalBytes],
    .xprintf "  Average speed: %lu Mbps\n" [.number (speedMbps test.totalBytes totalTime)],
    .netconnClose test.conn, .netconnDelete test.conn, .vPortFree .heap,
    text (protocol ++ " test task finishing...\n"), .clearCreated,
    .vTaskDelay (pdMsToTicks 100), .vTaskDelete]

/-- The calls of `iperf_udp_speed_client` that are waited for. -/
inductive UdpSpeedPoint where
  | pvPortMalloc
  | netconnNew
  | startTime (conn : Nat)
  | loopTime (test : SpeedTest)
  | netbufNew (test : SpeedTest)
  | netbufAlloc (test : SpeedTest) (buf : Nat)
  | netconnSendto (test : SpeedTest) (buf : Nat)
  | currentTime (test : SpeedTest)
  | finalTime (test : SpeedTest)
  | returned
  deriving DecidableEq, Repr

/-- The end of a turn of the loop. -/
def udpSpeedPause (test : SpeedTest) : List Effect :=
  if test.packetCount % 50 = 0 then [.vTaskDelay (pdMsToTicks 1)] else []

/-- A turn of the loop behind the results of sending. -/
def udpSpeedReport (test : SpeedTest) (effects : List Effect) :
    UdpSpeedPoint × List Effect :=
  if test.packetCount % 1000 = 0 ∧ test.packetCount > 0 then (.currentTime test, effects)
  else (.loopTime test, effects ++ udpSpeedPause test)

/-- Sending a netbuf, and deleting it. -/
def udpSpeedSend (test : SpeedTest) (buf : Nat) : List Effect :=
  [.netconnSendto test.conn buf, .netbufDelete buf]

/-- `iperf_udp_speed_client`. -/
def udpSpeedStep : UdpSpeedPoint → Reply → Option (UdpSpeedPoint × List Effect)
  | .pvPortMalloc, .pvPortMalloc succeeds =>
      if succeeds then
        some (.netconnNew, [targetText "udp", .pvPortMalloc 1024, .stored .heap 0 1024])
      else
        some (.returned, [targetText "udp", text "Failed to allocate memory for UDP speed test\n"])
  | .netconnNew, .netconnNew none =>
      some (.returned, [text "Create UDP connection failed\n", .vPortFree .heap])
  | .netconnNew, .netconnNew (some conn) =>
      some (.startTime conn,
        [.netconnNew conn, text "UDP speed test started, duration: 20 seconds\n"])
  | .startTime conn, .xTaskGetTickCount ticks => some (.loopTime (.start conn ticks), [])
  | .loopTime test, .xTaskGetTickCount ticks =>
      if ticks - test.startTime < pdMsToTicks 20000 then some (.netbufNew test, [])
      else some (.finalTime test, [])
  | .netbufNew test, .netbufNew none =>
      some (.loopTime test, [text "UDP netbuf new failed\n"])
  | .netbufNew test, .netbufNew (some buf) => some (.netbufAlloc test buf, [.netbuf buf])
  | .netbufAlloc test buf, .netbufAlloc succeeds =>
      if succeeds then
        some (.netconnSendto test buf, [.netbufAlloc buf 1024, .stored .payload 0 1024])
      else some (.loopTime test, [text "UDP netbuf alloc failed\n", .netbufDelete buf])
  | .netconnSendto test buf, .netconnSendto err =>
      if err = errOk then
        let totalBytes := test.totalBytes + 1024
        some (udpSpeedReport { test with totalBytes, packetCount := test.packetCount + 1 }
          (udpSpeedSend test buf))
      else if err = errMem then
        some (.loopTime test, udpSpeedSend test buf ++ [.vTaskDelay (pdMsToTicks 10)])
      else if err ≠ errUse then
        some (udpSpeedReport test
          (udpSpeedSend test buf ++ [.xprintf "UDP send failed: %d\n" [errArgument err]]))
      else some (udpSpeedReport test (udpSpeedSend test buf))
  | .currentTime test, .xTaskGetTickCount ticks =>
      let elapsed := ticks - test.startTime
      let speed := speedMbps test.totalBytes elapsed
      let shown :=
        if elapsed > 0 then
          [.xprintf "UDP: %lu packets, %lu Mbps\n" [.number test.packetCount, .number speed]]
        else []
      some (.loopTime test, shown ++ udpSpeedPause test)
  | .finalTime test, .xTaskGetTickCount ticks => some (.returned, test.finish "UDP" ticks)
  | _, _ => none

/-- The calls of `iperf_tcp_speed_client` that are waited for. -/
inductive TcpSpeedPoint where
  | pvPortMalloc
  | netconnNew
  | netconnConnect (conn : Nat)
  | startTime (conn : Nat)
  | loopTime (test : SpeedTest)
  | netconnWrite (test : SpeedTest)
  | currentTime (test : SpeedTest)
  | finalTime (test : SpeedTest)
  | returned
  deriving DecidableEq, Repr

/-- Writing the data. -/
@[simp] def tcpSpeedWrite (test : SpeedTest) : Effect :=
  .netconnWrite test.conn .heap 8192

/-- `iperf_tcp_speed_client`. -/
def tcpSpeedStep : TcpSpeedPoint → Reply → Option (TcpSpeedPoint × List Effect)
  | .pvPortMalloc, .pvPortMalloc succeeds =>
      if succeeds then
        some (.netconnNew, [targetText "tcp", .pvPortMalloc 8192, .stored .heap 0 8192])
      else
        some (.returned, [targetText "tcp", text "Failed to allocate memory for TCP speed test\n"])
  | .netconnNew, .netconnNew none =>
      some (.returned, [text "Create TCP connection failed\n", .vPortFree .heap])
  | .netconnNew, .netconnNew (some conn) => some (.netconnConnect conn, [.netconnNew conn])
  | .netconnConnect conn, .netconnConnect err =>
      if err ≠ errOk then
        some (.returned,
          [.xprintf "TCP connect failed, err: %d\n" [errArgument err], .netconnClose conn,
            .netconnDelete conn, .vPortFree .heap, .clearCreated, .vTaskDelete])
      else
        some (.startTime conn, [text "TCP speed test started, duration: 20 seconds\n"])
  | .startTime conn, .xTaskGetTickCount ticks => some (.loopTime (.start conn ticks), [])
  | .loopTime test, .xTaskGetTickCount ticks =>
      if ticks - test.startTime < pdMsToTicks 20000 then some (.netconnWrite test, [])
      else some (.finalTime test, [])
  | .netconnWrite test, .netconnWrite err =>
      if err = errOk then
        let consecutiveSuccess :=
          if test.consecutiveSuccess + 1 > 100 then 0 else test.consecutiveSuccess + 1
        let totalBytes := test.totalBytes + 8192
        some (.currentTime
          { test with totalBytes, packetCount := test.packetCount + 1, consecutiveSuccess },
          [tcpSpeedWrite test])
      else if err = errMem ∨ err = errWouldblock then
        some (.loopTime { test with consecutiveSuccess := 0 },
          [tcpSpeedWrite test, .vTaskDelay (pdMsToTicks 2)])
      else
        some (.finalTime test,
          [tcpSpeedWrite test, .xprintf "TCP send failed: %d\n" [errArgument err]])
  | .currentTime test, .xTaskGetTickCount ticks =>
      let elapsed := ticks - test.startTime
      let speed := speedMbps test.totalBytes elapsed
      if ticks - test.lastDisplayTime > pdMsToTicks 2000 ∧ elapsed > 0 then
        some (.loopTime { test with lastDisplayTime := ticks },
          [.xprintf "TCP: %lu packets, %lu Mbps\n" [.number test.packetCount, .number speed]])
      else some (.loopTime test, [])
  | .finalTime test, .xTaskGetTickCount ticks => some (.returned, test.finish "TCP" ticks)
  | _, _ => none

end SunWise.Iperf
