import Mathlib.Algebra.Ring.Nat
import SunWise.Iperf.Discipline

/-!
# Rates of the speed tests

The speed tests compute rates from counters of 32 bits.  A run is given the ticks that pass
before each result, so that what the counters stand for, the bytes sent and the ticks since
the start, is known beside them.  The code divides by 1000 once too often: what it prints as
Mbps are Gbps.
-/

namespace SunWise.Iperf

open Shell

/-- A rate that is printed: the bytes that have been sent and the ticks since the start, the
code's values of both, and what it prints. -/
structure SpeedReport where
  bytes : Nat
  ticks : Nat
  totalBytes : UInt32
  elapsed : UInt32
  printed : UInt32
  deriving DecidableEq, Repr

/-- The texts that end with a rate. -/
def rateFormats : List String :=
  ["UDP: %lu packets, %lu Mbps\n", "TCP: %lu packets, %lu Mbps\n",
    "  Average speed: %lu Mbps\n"]

/-- The rate in a text. -/
def printedRate : Effect → Option UInt32
  | .xprintf format arguments =>
      if format ∈ rateFormats then
        match arguments.getLast? with
        | some (.number rate) => some rate
        | _ => none
      else none
  | _ => none

namespace SpeedReport

variable (report : SpeedReport)

/-- The code's values are those of counters of 32 bits. -/
structure Counted : Prop where
  totalBytes : report.totalBytes = UInt32.ofNat report.bytes
  elapsed : report.elapsed = UInt32.ofNat report.ticks
  printed : report.printed = speedMbps report.totalBytes report.elapsed

/-- No division by zero, no product beyond 32 bits, and the rate is
`8 * bytes / (ticks / configTICK_RATE_HZ) / 10^6`, rounded down. -/
structure Right : Prop where
  divisor : report.elapsed * 1000 / configTickRateHz ≠ 0
  bits : report.bytes * 8 < 2 ^ 32
  time : report.ticks * 1000 < 2 ^ 32
  rate : report.printed.toNat =
    8 * report.bytes * configTickRateHz.toNat / (report.ticks * 1000000)

/-- Less than 1 Mbps, and a time whose product does not wrap around. -/
def Slow : Prop :=
  8 * report.bytes < 1000 * report.ticks ∧ 1000 * report.ticks < 2 ^ 32

end SpeedReport

/-- The rate that the code computes from counters that have not wrapped around. -/
theorem toNat_speedMbps {totalBytes elapsed : UInt32} (bits : totalBytes.toNat * 8 < 2 ^ 32)
    (time : elapsed.toNat * 1000 < 2 ^ 32) :
    (speedMbps totalBytes elapsed).toNat =
      8 * totalBytes.toNat / (elapsed.toNat * 1000000) := by
  have eight : (8 : UInt32).toNat = 8 := rfl
  have thousand : (1000 : UInt32).toNat = 1000 := rfl
  have rate : configTickRateHz.toNat = 1000 := rfl
  rw [speedMbps, UInt32.toNat_div, UInt32.toNat_div, UInt32.toNat_div, UInt32.toNat_div,
    UInt32.toNat_mul, UInt32.toNat_mul, eight, thousand, rate, Nat.mod_eq_of_lt bits,
    Nat.mod_eq_of_lt time, Nat.mul_div_cancel _ (by decide), Nat.div_div_eq_div_mul,
    Nat.div_div_eq_div_mul, Nat.mul_comm 8]

/-- Dividing by 1000 once too often makes no difference below 1 Mbps only. -/
theorem rates_agree_iff {bits ticks : Nat} (positive : 0 < ticks) :
    bits / (ticks * 1000000) = bits * 1000 / (ticks * 1000000) ↔ bits < 1000 * ticks := by
  have right : bits * 1000 / (ticks * 1000000) = bits / (1000 * ticks) := by
    have scaled : ticks * 1000000 = 1000 * ticks * 1000 := by omega
    rw [scaled, Nat.mul_div_mul_right _ _ (by decide)]
  have code : bits / (ticks * 1000000) = bits / (1000 * ticks) / 1000 := by
    have scaled : ticks * 1000000 = 1000 * ticks * 1000 := by omega
    rw [scaled, Nat.div_div_eq_div_mul]
  rw [right, code, ← Nat.div_eq_zero_iff_lt (Nat.mul_pos (by decide) positive)]
  generalize bits / (1000 * ticks) = rate
  omega

/-- A report is right exactly if it is about less than 1 Mbps. -/
theorem right_iff_slow {report : SpeedReport} (counted : report.Counted) :
    report.Right ↔ report.Slow := by
  have rate : configTickRateHz.toNat = 1000 := rfl
  have bytes : report.bytes * 8 < 2 ^ 32 → report.totalBytes.toNat = report.bytes := by
    intro bits
    rw [counted.totalBytes]
    exact UInt32.toNat_ofNat_of_lt' (by rw [UInt32.size]; omega)
  have ticks : report.ticks * 1000 < 2 ^ 32 → report.elapsed.toNat = report.ticks := by
    intro time
    rw [counted.elapsed]
    exact UInt32.toNat_ofNat_of_lt' (by rw [UInt32.size]; omega)
  have printed (bits : report.bytes * 8 < 2 ^ 32) (time : report.ticks * 1000 < 2 ^ 32) :
      report.printed.toNat = 8 * report.bytes / (report.ticks * 1000000) := by
    rw [counted.printed, toNat_speedMbps (by rw [bytes bits]; exact bits)
      (by rw [ticks time]; exact time), bytes bits, ticks time]
  constructor
  · rintro ⟨divisor, bits, time, same⟩
    have positive : 0 < report.ticks := by
      apply Nat.pos_of_ne_zero
      intro none
      rw [counted.elapsed, none] at divisor
      exact divisor rfl
    rw [printed bits time, rate, rates_agree_iff positive] at same
    exact ⟨same, by omega⟩
  · rintro ⟨slow, inside⟩
    have positive : 0 < report.ticks := by omega
    have bits : report.bytes * 8 < 2 ^ 32 := by omega
    have time : report.ticks * 1000 < 2 ^ 32 := by omega
    refine ⟨?_, bits, time, ?_⟩
    · intro none
      have value := congrArg UInt32.toNat none
      have thousand : (1000 : UInt32).toNat = 1000 := rfl
      rw [UInt32.toNat_div, UInt32.toNat_mul, ticks time, rate, thousand,
        Nat.mod_eq_of_lt time, Nat.mul_div_cancel _ (by decide)] at value
      exact Nat.ne_of_gt positive value
    · rw [printed bits time, rate, rates_agree_iff positive]
      exact slow

/-- The course of a run: what time it is, when the test started and how many bytes have been
sent, in numbers that do not wrap around. -/
structure Course where
  now : Nat
  start : Nat
  bytes : Nat
  deriving DecidableEq, Repr

/-- A speed test, with its variables where it waits for the time of a report. -/
structure SpeedClient where
  Point : Type
  start : Point
  step : Point → Reply → Option (Point × List Effect)
  /-- `IPERF_BUFSZ`. -/
  bufsz : Nat
  starting : Point → Bool
  reporting : Point → Option SpeedTest

def udpSpeedClient : SpeedClient where
  Point := UdpSpeedPoint
  start := .pvPortMalloc
  step := udpSpeedStep
  bufsz := 1024
  starting
    | .startTime _ => true
    | _ => false
  reporting
    | .currentTime test | .finalTime test => some test
    | _ => none

def tcpSpeedClient : SpeedClient where
  Point := TcpSpeedPoint
  start := .pvPortMalloc
  step := tcpSpeedStep
  bufsz := 8192
  starting
    | .startTime _ => true
    | _ => false
  reporting
    | .currentTime test | .finalTime test => some test
    | _ => none

/-- The tick counter shows the low 32 bits of the time. -/
def stamp (now : Nat) : Reply → Reply
  | .xTaskGetTickCount _ => .xTaskGetTickCount (UInt32.ofNat now)
  | reply => reply

/-- The buffer has been sent. -/
def Sent : Reply → Bool
  | .netconnSendto err | .netconnWrite err => err = errOk
  | _ => false

namespace SpeedClient

variable (client : SpeedClient)

/-- The course behind a turn. -/
def course (point : client.Point) (reply : Reply) (course : Course) : Course where
  now := course.now
  start := if client.starting point then course.now else course.start
  bytes := course.bytes + if Sent reply then client.bufsz else 0

/-- Most turns change nothing that counts. -/
theorem course_eq {point : client.Point} {reply : Reply} (running : client.starting point = false)
    (unsent : Sent reply = false) (course : Course) :
    client.course point reply course = course := by
  rw [SpeedClient.course, running, unsent]
  rfl

/-- The rates that a turn prints. -/
def turnReports (point : client.Point) (course : Course) (reply : Reply)
    (effects : List Effect) : List SpeedReport :=
  match client.reporting point, reply with
  | some test, .xTaskGetTickCount ticks =>
      (effects.filterMap printedRate).map fun printed =>
        ⟨course.bytes, course.now - course.start, test.totalBytes, ticks - test.startTime,
          printed⟩
  | _, _ => []

/-- The reports of a run. Each result comes after a number of ticks. -/
def reports : client.Point → Course → List (Nat × Reply) → List SpeedReport
  | _, _, [] => []
  | point, course, (ticks, reply) :: replies =>
      let course := { course with now := course.now + ticks }
      let reply := stamp course.now reply
      match client.step point reply with
      | none => []
      | some (next, effects) =>
          client.turnReports point course reply effects ++
            reports next (client.course point reply course) replies

/-- The reports of a test that begins at a time. -/
def run (now : Nat) (replies : List (Nat × Reply)) : List SpeedReport :=
  client.reports client.start ⟨now, 0, 0⟩ replies

end SpeedClient

/-- The variables of a test count what has happened. -/
structure SpeedTest.Follows (test : SpeedTest) (course : Course) : Prop where
  startTime : test.startTime = UInt32.ofNat course.start
  totalBytes : test.totalBytes = UInt32.ofNat course.bytes
  started : course.start ≤ course.now

/-- The points of a test whose variables count what has happened. -/
def UdpSpeedPoint.Follows (course : Course) : UdpSpeedPoint → Prop
  | .loopTime test | .netbufNew test | .netbufAlloc test _ | .netconnSendto test _
  | .currentTime test | .finalTime test => test.Follows course
  | .returned => True
  | _ => course.bytes = 0

def TcpSpeedPoint.Follows (course : Course) : TcpSpeedPoint → Prop
  | .loopTime test | .netconnWrite test | .currentTime test | .finalTime test =>
      test.Follows course
  | .returned => True
  | _ => course.bytes = 0

theorem finish_rates_udp (test : SpeedTest) (now : UInt32) :
    (test.finish "UDP" now).filterMap printedRate =
      [speedMbps test.totalBytes (now - test.startTime)] := rfl

theorem finish_rates_tcp (test : SpeedTest) (now : UInt32) :
    (test.finish "TCP" now).filterMap printedRate =
      [speedMbps test.totalBytes (now - test.startTime)] := rfl

/-- The differences that the code computes are the ticks since the start. -/
theorem SpeedTest.Follows.elapsed {test : SpeedTest} {course : Course}
    (follows : test.Follows course) :
    UInt32.ofNat course.now - test.startTime = UInt32.ofNat (course.now - course.start) := by
  rw [follows.startTime, UInt32.ofNat_sub follows.started]

/-- A rate that is computed from the variables is a counted one. -/
theorem SpeedTest.Follows.counted {test : SpeedTest} {course : Course}
    (follows : test.Follows course) :
    SpeedReport.Counted ⟨course.bytes, course.now - course.start, test.totalBytes,
      UInt32.ofNat course.now - test.startTime,
      speedMbps test.totalBytes (UInt32.ofNat course.now - test.startTime)⟩ where
  totalBytes := follows.totalBytes
  elapsed := follows.elapsed
  printed := rfl

theorem SpeedTest.Follows.all_counted {test : SpeedTest} {course : Course}
    (follows : test.Follows course) {rates : List UInt32}
    (computed : ∀ rate ∈ rates,
      rate = speedMbps test.totalBytes (UInt32.ofNat course.now - test.startTime)) :
    ∀ report ∈ rates.map fun printed => (⟨course.bytes, course.now - course.start,
      test.totalBytes, UInt32.ofNat course.now - test.startTime, printed⟩ : SpeedReport),
      report.Counted := by
  intro report isReport
  rcases List.mem_map.mp isReport with ⟨rate, isRate, rfl⟩
  rw [computed rate isRate]
  exact follows.counted

theorem SpeedTest.Follows.sent {test : SpeedTest} {course : Course}
    (follows : test.Follows course) (bufsz : Nat) {after : SpeedTest}
    (startTime : after.startTime = test.startTime)
    (totalBytes : after.totalBytes = test.totalBytes + UInt32.ofNat bufsz) :
    after.Follows { course with bytes := course.bytes + bufsz } where
  startTime := startTime.trans follows.startTime
  totalBytes := by rw [totalBytes, follows.totalBytes, UInt32.ofNat_add]
  started := follows.started

section Rule

variable {client : SpeedClient} {Follows : Course → client.Point → Prop}

/-- If the variables of a test keep up with its course, all reports are counted. -/
theorem reports_counted
    (later : ∀ course point ticks, Follows course point →
      Follows { course with now := course.now + ticks } point)
    (turn : ∀ course point reply next effects, Follows course point →
      client.step point (stamp course.now reply) = some (next, effects) →
      Follows (client.course point (stamp course.now reply) course) next ∧
        ∀ report ∈ client.turnReports point course (stamp course.now reply) effects,
          report.Counted)
    {point : client.Point} {course : Course} (follows : Follows course point)
    (replies : List (Nat × Reply)) :
    ∀ report ∈ client.reports point course replies, report.Counted := by
  induction replies generalizing point course with
  | nil => exact List.forall_mem_nil _
  | cons head replies ih =>
      rcases head with ⟨ticks, reply⟩
      rw [SpeedClient.reports]
      dsimp only
      split
      next => exact List.forall_mem_nil _
      next next effects taken =>
        rcases turn _ point reply next effects (later course point ticks follows) taken with
          ⟨kept, counted⟩
        rw [List.forall_mem_append]
        exact ⟨counted, ih kept⟩

end Rule

theorem ticks_of_stamp {now : Nat} {reply : Reply} {ticks : UInt32}
    (isStamped : stamp now reply = .xTaskGetTickCount ticks) : ticks = UInt32.ofNat now := by
  cases reply <;> cases isStamped
  rfl

theorem udpSpeedReport_follows {test : SpeedTest} {course : Course} {sent effects : List Effect}
    {next : UdpSpeedPoint} (follows : test.Follows course)
    (turned : udpSpeedReport test sent = (next, effects)) : next.Follows course := by
  unfold udpSpeedReport at turned
  split at turned <;> cases turned <;> exact follows

theorem udpSpeedPause_rates (test : SpeedTest) :
    (udpSpeedPause test).filterMap printedRate = [] := by
  unfold udpSpeedPause
  split <;> rfl

theorem udpSpeed_later (course : Course) (point : UdpSpeedPoint) (ticks : Nat)
    (follows : point.Follows course) :
    point.Follows { course with now := course.now + ticks } := by
  cases point <;> first
    | exact ⟨follows.1, follows.2, follows.3.trans (Nat.le_add_right _ _)⟩
    | exact follows

theorem udpSpeed_follows (course : Course) (point : UdpSpeedPoint) (reply : Reply)
    (next : UdpSpeedPoint) (effects : List Effect) (follows : point.Follows course)
    (taken : udpSpeedStep point (stamp course.now reply) = some (next, effects)) :
    next.Follows (udpSpeedClient.course point (stamp course.now reply) course) ∧
      ∀ report ∈ udpSpeedClient.turnReports point course (stamp course.now reply) effects,
        report.Counted := by
  revert taken
  generalize isStamped : stamp course.now reply = stamped
  fun_cases udpSpeedStep point stamped with
  | case1 | case4 | case6 | case7 | case8 | case9 | case10 | case11 | case13 =>
      rintro ⟨⟩
      exact ⟨follows, List.forall_mem_nil _⟩
  | case2 | case3 =>
      rintro ⟨⟩
      exact ⟨trivial, List.forall_mem_nil _⟩
  | case5 conn ticks =>
      rintro ⟨⟩
      have none : course.bytes = 0 := follows
      refine ⟨⟨ticks_of_stamp isStamped, ?_, Nat.le_refl _⟩, List.forall_mem_nil _⟩
      exact (congrArg UInt32.ofNat none).symm
  | case12 test buf totalBytes =>
      intro turned
      refine ⟨udpSpeedReport_follows ?_ (Option.some.inj turned), List.forall_mem_nil _⟩
      exact follows.sent 1024 rfl rfl
  | case14 test buf err notOk | case15 test buf err notOk =>
      intro turned
      have unsent : Sent (.netconnSendto err) = false := decide_eq_false notOk
      rw [@SpeedClient.course_eq udpSpeedClient (.netconnSendto test buf) _ rfl unsent]
      exact ⟨udpSpeedReport_follows follows (Option.some.inj turned), List.forall_mem_nil _⟩
  | case16 test ticks elapsed speed shown =>
      rintro ⟨⟩
      obtain rfl := ticks_of_stamp isStamped
      refine ⟨follows, ?_⟩
      have rates : ∀ rate ∈ (shown ++ udpSpeedPause test).filterMap printedRate, rate = speed := by
        rw [List.filterMap_append, udpSpeedPause_rates, List.append_nil]
        intro rate
        show rate ∈ (if elapsed > 0 then _ else _ : List Effect).filterMap printedRate → _
        split
        next => exact List.mem_singleton.mp
        next => exact fun isRate => absurd isRate List.not_mem_nil
      exact follows.all_counted rates
  | case17 test ticks =>
      rintro ⟨⟩
      obtain rfl := ticks_of_stamp isStamped
      refine ⟨trivial, follows.all_counted ?_⟩
      intro rate isRate
      rw [finish_rates_udp] at isRate
      exact List.mem_singleton.mp isRate
  | case18 => rintro ⟨⟩

theorem tcpSpeed_later (course : Course) (point : TcpSpeedPoint) (ticks : Nat)
    (follows : point.Follows course) :
    point.Follows { course with now := course.now + ticks } := by
  cases point <;> first
    | exact ⟨follows.1, follows.2, follows.3.trans (Nat.le_add_right _ _)⟩
    | exact follows

theorem tcpSpeed_follows (course : Course) (point : TcpSpeedPoint) (reply : Reply)
    (next : TcpSpeedPoint) (effects : List Effect) (follows : point.Follows course)
    (taken : tcpSpeedStep point (stamp course.now reply) = some (next, effects)) :
    next.Follows (tcpSpeedClient.course point (stamp course.now reply) course) ∧
      ∀ report ∈ tcpSpeedClient.turnReports point course (stamp course.now reply) effects,
        report.Counted := by
  revert taken
  generalize isStamped : stamp course.now reply = stamped
  fun_cases tcpSpeedStep point stamped with
  | case1 | case4 | case6 | case8 | case9 | case14 =>
      rintro ⟨⟩
      exact ⟨follows, List.forall_mem_nil _⟩
  | case2 | case3 | case5 =>
      rintro ⟨⟩
      exact ⟨trivial, List.forall_mem_nil _⟩
  | case7 conn ticks =>
      rintro ⟨⟩
      have none : course.bytes = 0 := follows
      refine ⟨⟨ticks_of_stamp isStamped, ?_, Nat.le_refl _⟩, List.forall_mem_nil _⟩
      exact (congrArg UInt32.ofNat none).symm
  | case10 test =>
      rintro ⟨⟩
      exact ⟨follows.sent 8192 rfl rfl, List.forall_mem_nil _⟩
  | case11 test err notOk | case12 test err notOk =>
      rintro ⟨⟩
      have unsent : Sent (.netconnWrite err) = false := decide_eq_false notOk
      rw [@SpeedClient.course_eq tcpSpeedClient (.netconnWrite test) _ rfl unsent]
      exact ⟨⟨follows.1, follows.2, follows.3⟩, List.forall_mem_nil _⟩
  | case13 test ticks elapsed speed due =>
      rintro ⟨⟩
      obtain rfl := ticks_of_stamp isStamped
      refine ⟨⟨follows.1, follows.2, follows.3⟩, follows.all_counted ?_⟩
      exact fun rate isRate => List.mem_singleton.mp isRate
  | case15 test ticks =>
      rintro ⟨⟩
      obtain rfl := ticks_of_stamp isStamped
      refine ⟨trivial, follows.all_counted ?_⟩
      intro rate isRate
      rw [finish_rates_tcp] at isRate
      exact List.mem_singleton.mp isRate
  | case16 => rintro ⟨⟩

/-- A speed test. -/
inductive SpeedProtocol where
  | udp
  | tcp
  deriving DecidableEq, Repr

def SpeedProtocol.client : SpeedProtocol → SpeedClient
  | .udp => udpSpeedClient
  | .tcp => tcpSpeedClient

theorem run_counted (protocol : SpeedProtocol) (now : Nat) (replies : List (Nat × Reply)) :
    ∀ report ∈ protocol.client.run now replies, report.Counted := by
  cases protocol with
  | udp => exact reports_counted udpSpeed_later udpSpeed_follows rfl replies
  | tcp => exact reports_counted tcpSpeed_later tcpSpeed_follows rfl replies

/-- In a run of a speed test all reports are right if and only if all of them are about rates
below 1 Mbps, which are printed as zero. -/
theorem speedClient_right_iff (protocol : SpeedProtocol) (now : Nat)
    (replies : List (Nat × Reply)) :
    (∀ report ∈ protocol.client.run now replies, report.Right) ↔
      ∀ report ∈ protocol.client.run now replies, report.Slow := by
  constructor
  · intro right report isReport
    exact (right_iff_slow (run_counted protocol now replies report isReport)).mp
      (right report isReport)
  · intro slow report isReport
    exact (right_iff_slow (run_counted protocol now replies report isReport)).mpr
      (slow report isReport)

/-- One buffer is sent in the first millisecond, which is a rate of 65 Mbps; then the connection
is lost. -/
theorem tcpSpeedClient_not_right :
    ¬ ∀ report ∈ SpeedProtocol.tcp.client.run 0
        [(0, .pvPortMalloc true), (0, .netconnNew (some 0)), (0, .netconnConnect errOk),
          (0, .xTaskGetTickCount 0), (0, .xTaskGetTickCount 0), (0, .netconnWrite errOk),
          (0, .xTaskGetTickCount 0), (0, .xTaskGetTickCount 0), (1, .netconnWrite (-13)),
          (0, .xTaskGetTickCount 0)],
      report.Right := by
  intro right
  have printed := (right ⟨8192, 1, 8192, 1, 0⟩ (by decide)).rate
  exact absurd printed (by decide)

end SunWise.Iperf
