import Logistics.DecimalText

namespace Logistics.ClientTimers

open DecimalText

inductive Setting
  | inventoryUpdateIntervalMs | consumeStockMinMs | consumeStockMaxMs | consumeMinAmount | consumeMaxAmount
  | lowStockThreshold | criticalStockThreshold | maxStockPerItem | emergencyCheckIntervalMs
  | ackCheckIntervalSec | recvTimeoutSec | loopTimeoutSec | ackTimeoutMs | maxRetries
  | responseDelayMinMs | responseDelayMaxMs
  deriving DecidableEq

abbrev TimerConfig := Setting → Int

namespace Setting

def entry : Setting → String × Int
  | inventoryUpdateIntervalMs => ("CLIENT_INVENTORY_INTERVAL_MS", 60000)
  | consumeStockMinMs => ("CLIENT_CONSUME_MIN_MS", 10000)
  | consumeStockMaxMs => ("CLIENT_CONSUME_MAX_MS", 30000)
  | consumeMinAmount => ("CLIENT_CONSUME_MIN_AMOUNT", 1)
  | consumeMaxAmount => ("CLIENT_CONSUME_MAX_AMOUNT", 20)
  | lowStockThreshold => ("CLIENT_LOW_STOCK_THRESHOLD", 20)
  | criticalStockThreshold => ("CLIENT_CRITICAL_STOCK_THRESHOLD", 5)
  | maxStockPerItem => ("CLIENT_MAX_STOCK_PER_ITEM", 100)
  | emergencyCheckIntervalMs => ("CLIENT_EMERGENCY_INTERVAL_MS", 30000)
  | ackCheckIntervalSec => ("CLIENT_ACK_CHECK_INTERVAL_SEC", 1)
  | recvTimeoutSec => ("CLIENT_RECV_TIMEOUT_SEC", 1)
  | loopTimeoutSec => ("CLIENT_LOOP_TIMEOUT_SEC", 1)
  | ackTimeoutMs => ("CLIENT_ACK_TIMEOUT_MS", 5000)
  | maxRetries => ("CLIENT_MAX_RETRIES", 3)
  | responseDelayMinMs => ("CLIENT_RESPONSE_DELAY_MIN_MS", 50)
  | responseDelayMaxMs => ("CLIENT_RESPONSE_DELAY_MAX_MS", 500)

def key (s : Setting) : String := s.entry.1

def initial : TimerConfig := fun s => s.entry.2

end Setting

structure Strtol where
  parsed : Int
  rest : List Char
  outOfRange : Bool

def strtol (text : List Char) : Strtol :=
  let signed := splitSign (text.dropWhile isSpace)
  let digits := signed.2.takeWhile Char.isDigit
  let value : Int := if signed.1 then -(Nat.ofDigitChars 10 digits 0 : Int) else Nat.ofDigitChars 10 digits 0
  if digits = [] then ⟨0, text, false⟩
  else ⟨max (-2 ^ 63) (min value (2 ^ 63 - 1)), signed.2.dropWhile Char.isDigit, value < -2 ^ 63 ∨ 2 ^ 63 ≤ value⟩

def intMax : Int := 2147483647

abbrev Rand := Fin 2147483648

def parsePositiveEnv (getenv : String → Option String) (key : String) (fallback : Int) : Int :=
  match (getenv key).map String.toList with
  | none | some [] => fallback
  | some value =>
    let read := strtol value
    if read.outOfRange ∨ read.rest = value ∨ read.rest ≠ [] ∨ read.parsed ≤ 0 ∨ intMax < read.parsed then fallback
    else read.parsed

def swapAbove (low high : Setting) (cfg : TimerConfig) : TimerConfig := fun s =>
  if cfg high < cfg low then if s = low then cfg high else if s = high then cfg low else cfg s else cfg s

def loadTimerConfig (getenv : String → Option String) (cfg : TimerConfig) : TimerConfig :=
  let read : TimerConfig := fun s => parsePositiveEnv getenv s.key (cfg s)
  swapAbove .consumeMinAmount .consumeMaxAmount <| swapAbove .responseDelayMinMs .responseDelayMaxMs <|
    swapAbove .consumeStockMinMs .consumeStockMaxMs read

structure Timespec where
  tvSec : Int
  tvNsec : Int
  deriving DecidableEq

structure Itimerspec where
  itInterval : Timespec
  itValue : Timespec

def msToItimerspec (ms : Int) : Itimerspec := ⟨⟨0, 0⟩, ⟨ms.tdiv 1000, ms.tmod 1000 * 1000000⟩⟩

def asInt (n : Int) : Option Int := if -intMax - 1 ≤ n ∧ n ≤ intMax then some n else none

/-- `low + rand() % (high - low + 1)` on `int`, where `rand` is what the call of `rand()` returns;
none is an overflow or a division by zero. -/
def drawBetween (low high : Int) (rand : Rand) : Option Int := do
  let width ← asInt (high - low)
  let count ← asInt (width + 1)
  if count = 0 then none else asInt (low + Int.tmod rand.val count)

def getRandomConsumeInterval (cfg : TimerConfig) (rand : Rand) : Option Int :=
  drawBetween (cfg .consumeStockMinMs) (cfg .consumeStockMaxMs) rand

def getRandomPhaseOffset (intervalMs : Int) (rand : Rand) : Option Int :=
  let minOffset := if intervalMs.tdiv 2 ≤ 0 then 1 else intervalMs.tdiv 2
  drawBetween minOffset intervalMs rand

def getRandomConsumeAmount (cfg : TimerConfig) (rand : Rand) : Option Int :=
  drawBetween (cfg .consumeMinAmount) (cfg .consumeMaxAmount) rand

def delayMs (cfg : TimerConfig) (rand : Rand) : Option Int :=
  drawBetween (cfg .responseDelayMinMs) (cfg .responseDelayMaxMs) rand

def randomResponseDelay (cfg : TimerConfig) (rand : Rand) : Option Timespec :=
  (delayMs cfg rand).map fun delay => ⟨0, delay * 1000000⟩

def Timespec.Denotes (spec : Timespec) (ms : Int) : Prop :=
  0 ≤ spec.tvNsec ∧ spec.tvNsec ≤ 999999999 ∧ spec.tvSec * 1000000000 + spec.tvNsec = ms * 1000000

def Draws (draw : Rand → Option Int) (low high : Int) (P : Int → Rand → Prop) : Prop :=
  ∀ rand, ∃ n, draw rand = some n ∧ low ≤ n ∧ n ≤ high ∧ P n rand

structure TimingValid (cfg : TimerConfig) : Prop where
  consumeInterval : Draws (getRandomConsumeInterval cfg) (cfg .consumeStockMinMs) (cfg .consumeStockMaxMs)
    fun ms _ => (msToItimerspec ms).itValue.Denotes ms
  phaseOffset : ∀ s, Draws (getRandomPhaseOffset (cfg s)) (cfg s / 2) (cfg s)
    fun ms _ => (msToItimerspec ms).itValue.Denotes ms
  consumeAmount : Draws (getRandomConsumeAmount cfg) (cfg .consumeMinAmount) (cfg .consumeMaxAmount) fun _ _ => True
  responseDelay : Draws (delayMs cfg) (cfg .responseDelayMinMs) (cfg .responseDelayMaxMs)
    fun ms rand => ∃ spec, randomResponseDelay cfg rand = some spec ∧ spec.Denotes ms

def InRange (n : Int) : Prop := 0 < n ∧ n ≤ intMax

variable {getenv : String → Option String} {cfg : TimerConfig} {low high : Int}

theorem inRange_initial (s : Setting) : InRange (Setting.initial s) := by
  cases s <;> exact ⟨by decide, by decide⟩

theorem inRange_parsePositiveEnv (key : String) {fallback : Int} (h : InRange fallback) :
    InRange (parsePositiveEnv getenv key fallback) := by
  unfold parsePositiveEnv
  split
  · exact h
  · exact h
  · dsimp only
    split_ifs with hbad
    · exact h
    · simp only [not_or, not_le, not_lt] at hbad
      exact hbad.2.2.2

theorem inRange_swapAbove (a b : Setting) (h : ∀ s, InRange (cfg s)) (s : Setting) : InRange (swapAbove a b cfg s) := by
  unfold swapAbove
  split_ifs
  exacts [h b, h a, h s, h s]

theorem inRange_loadTimerConfig (h : ∀ s, InRange (cfg s)) (s : Setting) : InRange (loadTimerConfig getenv cfg s) :=
  inRange_swapAbove _ _ (inRange_swapAbove _ _ (inRange_swapAbove _ _ fun s => inRange_parsePositiveEnv s.key (h s))) s

theorem loadTimerConfig_ordered (getenv : String → Option String) (cfg : TimerConfig) :
    let loaded := loadTimerConfig getenv cfg
    loaded .consumeStockMinMs ≤ loaded .consumeStockMaxMs ∧ loaded .consumeMinAmount ≤ loaded .consumeMaxAmount ∧
      loaded .responseDelayMinMs ≤ loaded .responseDelayMaxMs := by
  refine ⟨?_, ?_, ?_⟩ <;> simp only [loadTimerConfig, swapAbove, reduceCtorEq, if_true, if_false, ite_self] <;>
    split_ifs <;> omega

theorem denotes_msToItimerspec {ms : Int} (h : 0 ≤ ms) : (msToItimerspec ms).itValue.Denotes ms := by
  simp only [msToItimerspec, Timespec.Denotes, Int.tmod_eq_emod_of_nonneg h, Int.tdiv_eq_ediv_of_nonneg h]
  omega

theorem drawBetween_eq (hlow : 0 < low) (hle : low ≤ high) (hhigh : high ≤ intMax) (rand : Rand) :
    drawBetween low high rand = some (low + rand.val % (high - low + 1)) := by
  have hmod := Int.emod_nonneg (rand.val : Int) (show high - low + 1 ≠ 0 by omega)
  have hlt := Int.emod_lt_of_pos (rand.val : Int) (show 0 < high - low + 1 by omega)
  have hint {n : Int} (h : 0 ≤ n) (h' : n ≤ intMax) : asInt n = some n := if_pos ⟨by unfold intMax; omega, h'⟩
  rw [drawBetween, hint (by omega) (by omega)]
  simp only [Option.bind_eq_bind, Option.bind_some]
  rw [hint (by omega) (by omega), Option.bind_some, if_neg (by omega), Int.tmod_eq_emod_of_nonneg (Int.natCast_nonneg _),
    hint (by omega) (by omega)]

theorem draws_between (hlow : 0 < low) (hle : low ≤ high) (hhigh : high ≤ intMax) {P : Int → Rand → Prop}
    (hP : ∀ n rand, 0 < n → n ≤ high → drawBetween low high rand = some n → P n rand) :
    Draws (drawBetween low high) low high P := by
  intro rand
  have hmod := Int.emod_nonneg (rand.val : Int) (show high - low + 1 ≠ 0 by omega)
  have hlt := Int.emod_lt_of_pos (rand.val : Int) (show 0 < high - low + 1 by omega)
  have hdraw := drawBetween_eq hlow hle hhigh rand
  exact ⟨_, hdraw, by omega, by omega, hP _ rand (by omega) (by omega) hdraw⟩

theorem draws_phaseOffset {interval : Int} (h : InRange interval) : Draws (getRandomPhaseOffset interval) (interval / 2)
    interval fun ms _ => (msToItimerspec ms).itValue.Denotes ms := by
  intro rand
  have hpos := h.1
  rw [getRandomPhaseOffset, Int.tdiv_eq_ediv_of_nonneg hpos.le]
  generalize hmin : (if interval / 2 ≤ 0 then 1 else interval / 2 : Int) = minOffset
  have hbounds : 0 < minOffset ∧ interval / 2 ≤ minOffset ∧ minOffset ≤ interval := by split_ifs at hmin <;> omega
  obtain ⟨n, hdraw, hlow, hhigh, hspec⟩ := draws_between hbounds.1 hbounds.2.2 h.2
    (fun n _ hn _ _ => denotes_msToItimerspec hn.le) rand
  exact ⟨n, hdraw, hbounds.2.1.trans hlow, hhigh, hspec⟩

/-- Seconds are never carried out of the drawn delay, so a delay of a second or more is no request
`nanosleep` accepts. -/
theorem timingValid_iff (getenv : String → Option String) : TimingValid (loadTimerConfig getenv Setting.initial) ↔
    loadTimerConfig getenv Setting.initial .responseDelayMaxMs ≤ 999 := by
  have hrange : ∀ s, InRange (loadTimerConfig getenv Setting.initial s) := inRange_loadTimerConfig inRange_initial
  obtain ⟨hconsume, hamount, hdelay⟩ := loadTimerConfig_ordered getenv Setting.initial
  generalize loadTimerConfig getenv Setting.initial = cfg at *
  constructor
  · intro h
    have hmax := (hrange .responseDelayMaxMs).2
    have hmin := (hrange .responseDelayMinMs).1
    unfold intMax at hmax
    let rand : Rand := ⟨(cfg .responseDelayMaxMs - cfg .responseDelayMinMs).toNat, by omega⟩
    obtain ⟨ms, hms, -, -, spec, hspec, -, hnsec, -⟩ := h.responseDelay rand
    have hdraw : delayMs cfg rand = some (cfg .responseDelayMaxMs) := by
      rw [delayMs, drawBetween_eq hmin hdelay (hrange _).2, Int.toNat_of_nonneg (by omega),
        Int.emod_eq_of_lt (by omega) (by omega), add_sub_cancel]
    rw [randomResponseDelay, hdraw] at hspec
    cases hspec
    dsimp only at hnsec
    omega
  · intro hmax
    refine ⟨draws_between (hrange _).1 hconsume (hrange _).2 fun n _ hn _ _ => denotes_msToItimerspec hn.le,
      fun s => draws_phaseOffset (hrange s), draws_between (hrange _).1 hamount (hrange _).2 fun _ _ _ _ _ => trivial,
      draws_between (hrange _).1 hdelay (hrange _).2 fun n rand hn hle hdraw => ?_⟩
    refine ⟨_, congrArg (Option.map _) hdraw, ?_⟩
    simp only [Timespec.Denotes]
    omega

theorem response_delay_of_one_second : ∃ getenv rand, delayMs (loadTimerConfig getenv Setting.initial) rand =
    some 1000 ∧ randomResponseDelay (loadTimerConfig getenv Setting.initial) rand = some ⟨0, 1000000000⟩ :=
  ⟨fun key => if key ∈ ["CLIENT_RESPONSE_DELAY_MIN_MS", "CLIENT_RESPONSE_DELAY_MAX_MS"] then some "1000" else none, 0,
    by decide +kernel, by decide +kernel⟩

end Logistics.ClientTimers
