import FoxfireSniper.MachineRunProofs
import FoxfireSniper.Types
import Mathlib.Data.List.Forall2
import Mathlib.Data.List.Range
import Mathlib.Algebra.Order.Ring.Rat
import Mathlib.Algebra.BigOperators.Group.List.Basic

/-! # The tick bars of a pool

    The aggregator of `src/aggregators` keeps, for every pool that swaps, indicators that are
    fed with each tick, and bars that are to sum up every `period` ticks.  Four things go
    otherwise than the names say.

    * The two lists of the configuration reach `IndicatorsData::new` in the other order, so
      that `indicator_periods_in_ticks` are the sizes of the bars.
    * The first tick that a bar sees creates it, and is not counted.
    * `Candle::add` returns the new candle, and `update_with_tick` drops it.
    * `TickBarsCache::next` reads the candle after `TickBar::next` has reset it.

    What the crate `yata` computes is a parameter, and a refused length is a panic.

    * **`held_run`** — what the bars hold after any events;
    * **`bars_emitted_iff`** — the bars are those of the ticks if and only if the numbers of
      ticks agree and every candle is flat. -/

namespace FoxfireAggregator

open FoxfireTypes MachineRun

-- ── Candles and bars ────────────────────────────────────────────────────────

/-- `Candle` of `yata`. -/
structure Candle where
  «open» : ℚ
  high   : ℚ
  low    : ℚ
  close  : ℚ
  volume : ℚ
  deriving DecidableEq, Repr

/-- `Candle::default()`. -/
instance : Inhabited Candle := ⟨⟨0, 0, 0, 0, 0⟩⟩

/-- The candle of one tick. -/
def Candle.ofTick (price volume : ℚ) : Candle := ⟨price, price, price, price, volume⟩

/-- The sum is a new candle that combines both. -/
def Candle.add (a b : Candle) : Candle :=
  ⟨a.open, max a.high b.high, min a.low b.low, b.close, a.volume + b.volume⟩

structure TickBar where
  candle        : Candle
  tickCount     : UInt32
  formingPeriod : UInt32
  deriving DecidableEq, Repr

/-- `TickBar::default()`. -/
instance : Inhabited TickBar := ⟨⟨default, 0, 0⟩⟩

namespace TickBar

def new (period : UInt32) (_price _volume : ℚ) : TickBar :=
  { (default : TickBar) with formingPeriod := period }

/-- The sum is computed, and not assigned. -/
def updateWithTick (b : TickBar) (price volume : ℚ) : TickBar :=
  let _ := b.candle.add (Candle.ofTick price volume)
  { b with tickCount := b.tickCount + 1 }

def isComplete (b : TickBar) : Bool := b.formingPeriod ≤ b.tickCount

def reset (_ : TickBar) (period : UInt32) : TickBar :=
  { (default : TickBar) with formingPeriod := period }

def getCandle (b : TickBar) : Candle := b.candle

def next (b : TickBar) (price volume : ℚ) : TickBar × Option Candle :=
  let b := b.updateWithTick price volume
  if b.isComplete then (b.reset b.formingPeriod, some b.getCandle) else (b, none)

end TickBar

structure TickBarValue where
  period : UInt32
  tBar   : Candle
  deriving DecidableEq, Repr

structure TickBarWithPeriod where
  period : UInt32
  tBar   : TickBar
  deriving DecidableEq, Repr

/-- `HashMap<PeriodType, TickBarWithPeriod>`. -/
abbrev TickBars := UInt32 → Option TickBarWithPeriod

structure TickBarsCache where
  barSizes : List UInt32
  tickBars : TickBars

namespace TickBarsCache

def new (barSizes : List UInt32) : TickBarsCache := ⟨barSizes, fun _ => none⟩

/-- The body of the loop over the sizes. -/
def nextPeriod (tickBars : TickBars) (price volume : ℚ) (period : UInt32) :
    TickBars × List TickBarValue :=
  match tickBars period with
  | none =>
      (Function.update tickBars period (some ⟨period, TickBar.new period price volume⟩), [])
  | some indicators =>
      let (tBar, candle) := indicators.tBar.next price volume
      let indicators := { indicators with tBar := tBar }
      (Function.update tickBars period (some indicators),
        match candle with
        -- the candle of the bar as `next` has left it
        | some _ => [⟨period, indicators.tBar.getCandle⟩]
        | none   => [])

def nextPeriods (price volume : ℚ) : TickBars → List UInt32 → TickBars × List TickBarValue
  | tickBars, []                => (tickBars, [])
  | tickBars, period :: periods =>
      let p := nextPeriod tickBars price volume period
      let q := nextPeriods price volume p.1 periods
      (q.1, p.2 ++ q.2)

def next (c : TickBarsCache) (price volume : ℚ) : TickBarsCache × List TickBarValue :=
  let p := nextPeriods price volume c.tickBars c.barSizes
  ({ c with tickBars := p.1 }, p.2)

end TickBarsCache

-- ── Indicators of every tick ────────────────────────────────────────────────

/-- A method or an indicator of `yata`: what it is made of may be refused. -/
structure Method (κ ι ο : Type) where
  State : Type
  new   : κ → ι → Option State
  next  : State → ι → State × ο

inductive MA where
  | rma (length : UInt32)
  deriving DecidableEq, Repr

inductive Source where
  | close
  deriving DecidableEq, Repr

structure RelativeStrengthIndex where
  ma     : MA
  zone   : ℚ
  source : Source
  deriving DecidableEq, Repr

structure BollingerBands where
  avgSize : UInt32
  sigma   : ℚ
  source  : Source
  deriving DecidableEq, Repr

/-- What is used of the crate. -/
structure Yata where
  IndicatorResult : Type
  tema            : Method UInt32 ℚ ℚ
  ema             : Method UInt32 ℚ ℚ
  rsi             : Method RelativeStrengthIndex Candle IndicatorResult
  bollinger       : Method BollingerBands Candle IndicatorResult

variable {yata : Yata}

structure EveryTickIndicatorsValue (yata : Yata) where
  tTema      : ℚ
  tEma       : ℚ
  tRsi       : yata.IndicatorResult
  tBollinger : yata.IndicatorResult

structure EveryTickIndicators (yata : Yata) where
  tTema      : yata.tema.State
  tEma       : yata.ema.State
  tRsi       : yata.rsi.State
  tBollinger : yata.bollinger.State

namespace EveryTickIndicators

/-- `none`: one of the four `unwrap`s panics. -/
def new (length : UInt32) (price volume : ℚ) : Option (EveryTickIndicators yata) := do
  let firstCandle := Candle.ofTick price volume
  let tTema ← yata.tema.new length price
  let tEma ← yata.ema.new length price
  let tRsi ← yata.rsi.new ⟨.rma length, 3 / 10, .close⟩ firstCandle
  let tBollinger ← yata.bollinger.new ⟨length, 2, .close⟩ firstCandle
  return ⟨tTema, tEma, tRsi, tBollinger⟩

def next (e : EveryTickIndicators yata) (price volume : ℚ) :
    EveryTickIndicators yata × EveryTickIndicatorsValue yata :=
  let nextTickCandle := Candle.ofTick price volume
  let tema := yata.tema.next e.tTema price
  let ema := yata.ema.next e.tEma price
  let rsi := yata.rsi.next e.tRsi nextTickCandle
  let bollinger := yata.bollinger.next e.tBollinger nextTickCandle
  (⟨tema.1, ema.1, rsi.1, bollinger.1⟩, ⟨tema.2, ema.2, rsi.2, bollinger.2⟩)

end EveryTickIndicators

/-- `HashMap<PeriodType, EveryTickIndicators>`. -/
abbrev EveryTick (yata : Yata) := UInt32 → Option (EveryTickIndicators yata)

structure EveryTickIndicatorsCache (yata : Yata) where
  lengths             : List UInt32
  everyTickIndicators : EveryTick yata

namespace EveryTickIndicatorsCache

def new (lengths : List UInt32) : EveryTickIndicatorsCache yata := ⟨lengths, fun _ => none⟩

/-- The loop over the lengths. -/
def nextLengths (price volume : ℚ) : EveryTick yata → List UInt32 →
    Option (EveryTick yata × List (EveryTickIndicatorsValue yata))
  | every, []                => some (every, [])
  | every, length :: lengths =>
      match every length with
      | none =>
          (EveryTickIndicators.new length price volume).bind fun indicators =>
            nextLengths price volume (Function.update every length (some indicators)) lengths
      | some indicators =>
          let p := indicators.next price volume
          (nextLengths price volume (Function.update every length (some p.1)) lengths).map
            fun q => (q.1, p.2 :: q.2)

def next (c : EveryTickIndicatorsCache yata) (price volume : ℚ) :
    Option (EveryTickIndicatorsCache yata × List (EveryTickIndicatorsValue yata)) :=
  (nextLengths price volume c.everyTickIndicators c.lengths).map fun p =>
    ({ c with everyTickIndicators := p.1 }, p.2)

end EveryTickIndicatorsCache

-- ── The aggregator ──────────────────────────────────────────────────────────

structure AggregatorConfig where
  indicatorPeriodsInTicks : List UInt32
  tickBarSizes            : List UInt32
  deriving DecidableEq, Repr

structure IndicatorsData (yata : Yata) where
  everyTickIndicators : EveryTickIndicatorsCache yata
  tickBars            : TickBarsCache

def IndicatorsData.new (barSizes lengths : List UInt32) : IndicatorsData yata :=
  ⟨.new lengths, .new barSizes⟩

inductive DerivedEvent (yata : Yata) where
  | tickIndicatorEvent (pool : Pubkey) (value : EveryTickIndicatorsValue yata)
  | tickBarEvent (pool : Pubkey) (value : TickBarValue)

structure TickIndicatorsAggregator (yata : Yata) where
  config     : AggregatorConfig
  indicators : Pubkey → Option (IndicatorsData yata)

/-- What a tick of a pool with indicators does to them: `next_tick`, then `next_bars`. -/
def IndicatorsData.onTick (d : IndicatorsData yata) (t : RaydiumSwapEvent) :
    Option (IndicatorsData yata × List (DerivedEvent yata)) :=
  (d.everyTickIndicators.next t.price t.volume).map fun p =>
    let q := d.tickBars.next t.price t.volume
    (⟨p.1, q.1⟩,
      p.2.map (.tickIndicatorEvent t.pool) ++ q.2.map (.tickBarEvent t.pool))

def aggregateEvent (a : TickIndicatorsAggregator yata) :
    BotEvent → Option (TickIndicatorsAggregator yata × List (DerivedEvent yata))
  | .blockchainEvent (.raydiumSwapEvent t) =>
      match a.indicators t.pool with
      | some d =>
          (d.onTick t).map fun p =>
            ({ a with indicators := Function.update a.indicators t.pool (some p.1) }, p.2)
      | none =>
          -- the configuration's lists, in this order
          let d := IndicatorsData.new a.config.indicatorPeriodsInTicks a.config.tickBarSizes
          some ({ a with indicators := Function.update a.indicators t.pool (some d) }, [])
  | _ => some (a, [])

/-- The aggregator as a machine. -/
def aggregator (yata : Yata) : Step (TickIndicatorsAggregator yata) BotEvent (DerivedEvent yata) :=
  aggregateEvent

-- ── What a bar holds ────────────────────────────────────────────────────────

/-- A bar is complete after so many ticks. -/
def size (period : UInt32) : Nat := max 1 period.toNat

/-- The bars that have been emitted for a period that the loop has come to `v` times. -/
def emittedAfter (period : UInt32) (v : Nat) : Nat := (v - 1) / size period

/-- What the cache holds for a period that the loop has come to `v` times. -/
def heldAfter (period : UInt32) : Nat → Option TickBarWithPeriod
  | 0     => none
  | v + 1 => some ⟨period, default, UInt32.ofNat (v % size period), period⟩

theorem size_pos (period : UInt32) : 0 < size period := lt_of_lt_of_le one_pos (le_max_left _ _)

theorem size_le (period : UInt32) : size period < 2 ^ 32 := by
  have h := period.toNat_lt
  rw [size]
  omega

theorem emittedAfter_mono (period : UInt32) {v w : Nat} (h : v ≤ w) :
    emittedAfter period v ≤ emittedAfter period w :=
  Nat.div_le_div_right (Nat.sub_le_sub_right h 1)

/-- A count below the size of the bar does not overflow when it is increased. -/
theorem count_succ {period : UInt32} {x : Nat} (hx : x < size period) :
    (UInt32.ofNat x + 1).toNat = x + 1 := by
  have h := size_le period
  rw [UInt32.toNat_add, UInt32.toNat_ofNat']
  have hone : (1 : UInt32).toNat = 1 := rfl
  rw [hone, Nat.mod_eq_of_lt (by omega : x < 2 ^ 32), Nat.mod_eq_of_lt (by omega)]

/-- The bar is complete with its last tick, and not before. -/
theorem complete_iff {period : UInt32} {x : Nat} (hx : x < size period) :
    period ≤ UInt32.ofNat x + 1 ↔ x + 1 = size period := by
  rw [UInt32.le_iff_toNat_le, count_succ hx]
  rw [size] at hx ⊢
  omega

/-- One more tick, and the bar starts again. -/
theorem div_mod_full {q v : Nat} (hq : 0 < q) (h : v % q + 1 = q) :
    (v + 1) % q = 0 ∧ (v + 1) / q = v / q + 1 := by
  have hv : v + 1 = (v / q + 1) * q := by
    rw [Nat.add_mul, Nat.one_mul]
    have := Nat.div_add_mod' v q
    omega
  rw [hv]
  exact ⟨Nat.mul_mod_left _ _, Nat.mul_div_cancel _ hq⟩

/-- One more tick of a bar that goes on. -/
theorem div_mod_open {q v : Nat} (hq : 0 < q) (h : v % q + 1 ≠ q) :
    (v + 1) % q = v % q + 1 ∧ (v + 1) / q = v / q := by
  have hlt : v % q + 1 < q := by
    have := Nat.mod_lt v hq
    omega
  have hv : v + 1 = (v % q + 1) + q * (v / q) := by
    have := Nat.div_add_mod v q
    omega
  rw [hv, Nat.add_mul_mod_self_left, Nat.add_mul_div_left _ _ hq, Nat.mod_eq_of_lt hlt,
    Nat.div_eq_of_lt hlt]
  exact ⟨by omega, by omega⟩

namespace TickBarsCache

/-- **ONE VISIT** of the loop to a period. -/
theorem nextPeriod_eq {tickBars : TickBars} {price volume : ℚ} {period : UInt32} {v : Nat}
    (h : tickBars period = heldAfter period v) :
    nextPeriod tickBars price volume period =
      (Function.update tickBars period (heldAfter period (v + 1)),
        List.replicate (emittedAfter period (v + 1) - emittedAfter period v)
          ⟨period, default⟩) := by
  cases v with
  | zero =>
      have hzero : emittedAfter period 1 - emittedAfter period 0 = 0 := Nat.sub_self _
      rw [nextPeriod, h, hzero]
      show (_, _) = (_, _)
      rw [heldAfter, Nat.zero_mod]
      rfl
  | succ v =>
      have hlt := Nat.mod_lt v (size_pos period)
      rw [nextPeriod, h]
      simp only [heldAfter, TickBar.next, TickBar.updateWithTick, TickBar.isComplete,
        decide_eq_true_eq, complete_iff hlt, emittedAfter, Nat.add_sub_cancel]
      by_cases hfull : v % size period + 1 = size period
      · obtain ⟨hmod, hdiv⟩ := div_mod_full (size_pos period) hfull
        rw [if_pos hfull, hmod, hdiv, Nat.add_sub_cancel_left]
        rfl
      · obtain ⟨hmod, hdiv⟩ := div_mod_open (size_pos period) hfull
        rw [if_neg hfull, hmod, hdiv, Nat.sub_self]
        have hcount : UInt32.ofNat (v % size period) + 1 = UInt32.ofNat (v % size period + 1) := by
          rw [UInt32.ofNat_add]
          rfl
        rw [hcount]
        rfl

/-- **ONE TICK**: the loop comes to a period as often as the period is listed. -/
theorem nextPeriods_eq {price volume : ℚ} : ∀ {periods : List UInt32} {tickBars : TickBars}
    {v : UInt32 → Nat}, (∀ p, tickBars p = heldAfter p (v p)) → ∀ p,
    (nextPeriods price volume tickBars periods).1 p = heldAfter p (v p + periods.count p) ∧
    (nextPeriods price volume tickBars periods).2.filter (fun x => x.period = p) =
      List.replicate (emittedAfter p (v p + periods.count p) - emittedAfter p (v p))
        ⟨p, default⟩ := by
  intro periods
  induction periods with
  | nil =>
      intro tickBars v h p
      rw [List.count_nil, Nat.add_zero, Nat.sub_self]
      exact ⟨h p, rfl⟩
  | cons period periods ih =>
      intro tickBars v h p
      rw [nextPeriods, nextPeriod_eq (h period)]
      have hnext : ∀ p', Function.update tickBars period (heldAfter period (v period + 1)) p' =
          heldAfter p' (Function.update v period (v period + 1) p') := by
        intro p'
        by_cases hp : p' = period
        · subst hp
          rw [Function.update_self, Function.update_self]
        · rw [Function.update_of_ne hp, Function.update_of_ne hp]
          exact h p'
      obtain ⟨hheld, hbars⟩ := ih hnext p
      rw [List.filter_append, hbars]
      by_cases hp : p = period
      · subst hp
        have hmono := emittedAfter_mono p (Nat.le_succ (v p))
        have hmono' := emittedAfter_mono p (Nat.le_add_right (v p + 1) (periods.count p))
        rw [Function.update_self] at hheld ⊢
        rw [List.count_cons_self, ← Nat.add_assoc, Nat.add_right_comm]
        refine ⟨hheld, ?_⟩
        rw [List.filter_replicate, if_pos (decide_eq_true rfl), List.replicate_append_replicate,
          Nat.add_comm (_ - _), Nat.sub_add_sub_cancel hmono' hmono]
      · rw [Function.update_of_ne hp] at hheld ⊢
        rw [List.count_cons_of_ne (Ne.symm hp)]
        refine ⟨hheld, ?_⟩
        rw [List.filter_replicate, if_neg (by simpa using Ne.symm hp), List.nil_append]

end TickBarsCache

-- ── What is to be emitted ───────────────────────────────────────────────────

/-- The full groups of `p` ticks. -/
def groups (p : Nat) (ticks : List RaydiumSwapEvent) : List (List RaydiumSwapEvent) :=
  (List.range (ticks.length / p)).map fun i => (ticks.drop (i * p)).take p

/-- The groups are consecutive, and leave out less than one more group. -/
theorem groups_flatten (p : Nat) (ticks : List RaydiumSwapEvent) :
    (groups p ticks).flatten = ticks.take (ticks.length / p * p) := by
  have h : ∀ m, ((List.range m).map fun i => (ticks.drop (i * p)).take p).flatten =
      ticks.take (m * p) := by
    intro m
    induction m with
    | zero => rw [Nat.zero_mul, List.take_zero]; rfl
    | succ m ih =>
        rw [List.range_succ, List.map_append, List.flatten_append, ih, Nat.succ_mul,
          List.take_add]
        simp
  exact h _

theorem length_of_mem_groups {p : Nat} {ticks g : List RaydiumSwapEvent}
    (h : g ∈ groups p ticks) : g.length = p := by
  obtain ⟨i, hi, rfl⟩ := List.mem_map.mp h
  have hlt := List.mem_range.mp hi
  have hle : (i + 1) * p ≤ ticks.length :=
    (Nat.mul_le_mul_right p hlt).trans (Nat.div_mul_le_self _ _)
  rw [Nat.succ_mul] at hle
  rw [List.length_take, List.length_drop]
  omega

/-- The candle of a group of ticks. -/
structure Summarises (g : List RaydiumSwapEvent) (c : Candle) : Prop where
  first  : (g.head?).map (·.price) = some c.open
  last   : (g.getLast?).map (·.price) = some c.close
  high   : IsGreatest {x | ∃ t ∈ g, t.price = x} c.high
  low    : IsLeast {x | ∃ t ∈ g, t.price = x} c.low
  volume : c.volume = (g.map (·.volume)).sum

/-- The default candle is that of a group in which nothing has a price, and the volumes
    cancel. -/
theorem summarises_default_iff {g : List RaydiumSwapEvent} (hg : g ≠ []) :
    Summarises g default ↔ (∀ t ∈ g, t.price = 0) ∧ (g.map (·.volume)).sum = 0 := by
  constructor
  · rintro ⟨-, -, hhigh, hlow, hvolume⟩
    refine ⟨fun t ht => ?_, hvolume.symm⟩
    exact le_antisymm (hhigh.2 ⟨t, ht, rfl⟩) (hlow.2 ⟨t, ht, rfl⟩)
  · rintro ⟨hprice, hvolume⟩
    have hfirst := hprice _ (List.head_mem hg)
    have hset : ∀ x ∈ {x | ∃ t ∈ g, t.price = x}, x = 0 := by
      rintro x ⟨t, ht, rfl⟩
      exact hprice t ht
    have hzero : (0 : ℚ) ∈ {x | ∃ t ∈ g, t.price = x} := ⟨_, List.head_mem hg, hfirst⟩
    refine ⟨?_, ?_, ⟨hzero, fun x hx => (hset x hx).le⟩, ⟨hzero, fun x hx => (hset x hx).ge⟩,
      hvolume.symm⟩
    · rw [List.head?_eq_some_head hg, Option.map_some, hfirst]
      rfl
    · rw [List.getLast?_eq_some_getLast hg, Option.map_some, hprice _ (List.getLast_mem hg)]
      rfl

/-- The ticks of a pool. -/
def ticksOf (pool : Pubkey) (events : List BotEvent) : List RaydiumSwapEvent :=
  events.filterMap fun
    | .blockchainEvent (.raydiumSwapEvent t) => if t.pool = pool then some t else none
    | _ => none

/-- The candles of the `TickBarEvent`s of a pool and a period. -/
def barsOf (pool : Pubkey) (period : UInt32) (out : List (DerivedEvent yata)) : List Candle :=
  out.filterMap fun
    | .tickBarEvent q v => if q = pool ∧ v.period = period then some v.tBar else none
    | .tickIndicatorEvent _ _ => none

/-- The bars are those of the ticks: one for each full group, in order, and none for a period
    that is not configured. -/
structure Emits (config : AggregatorConfig) (ticks : List RaydiumSwapEvent)
    (bars : UInt32 → List Candle) : Prop where
  each : ∀ p ∈ config.tickBarSizes, 1 ≤ p →
    List.Forall₂ Summarises (groups p.toNat ticks) (bars p)
  only : ∀ p, p ∉ config.tickBarSizes → bars p = []

-- ── What is emitted ─────────────────────────────────────────────────────────

/-- The bars of a pool after `k` of its ticks. -/
def Held (a : TickIndicatorsAggregator yata) (pool : Pubkey) (sizes : List UInt32) (k : Nat) :
    Prop :=
  ∃ d, a.indicators pool = some d ∧ d.tickBars.barSizes = sizes ∧
    ∀ p, d.tickBars.tickBars p = heldAfter p (sizes.count p * k)

variable {a a' : TickIndicatorsAggregator yata} {pool : Pubkey} {sizes : List UInt32} {k : Nat}
  {e : BotEvent} {out : List (DerivedEvent yata)}

theorem barsOf_append (pool : Pubkey) (p : UInt32) (o₁ o₂ : List (DerivedEvent yata)) :
    barsOf pool p (o₁ ++ o₂) = barsOf pool p o₁ ++ barsOf pool p o₂ :=
  List.filterMap_append

theorem ticksOf_cons (pool : Pubkey) (e : BotEvent) (es : List BotEvent) :
    ticksOf pool (e :: es) = ticksOf pool [e] ++ ticksOf pool es :=
  List.filterMap_append (l := [e])

/-- The bars of one tick. -/
theorem barsOf_onTick {d d' : IndicatorsData yata} {t : RaydiumSwapEvent}
    (h : d.onTick t = some (d', out)) :
    d'.tickBars = (d.tickBars.next t.price t.volume).1 ∧ ∀ pool p, barsOf pool p out =
      if t.pool = pool then ((d.tickBars.next t.price t.volume).2.filter
        (fun x => x.period = p)).map (·.tBar) else [] := by
  obtain ⟨⟨every, values⟩, -, heq⟩ := Option.map_eq_some_iff.mp h
  obtain ⟨rfl, rfl⟩ := Prod.mk.inj heq
  refine ⟨rfl, fun pool p => ?_⟩
  rw [barsOf_append]
  have hindicators : barsOf pool p
      (values.map (DerivedEvent.tickIndicatorEvent t.pool)) = [] := by
    rw [barsOf, List.filterMap_map]
    exact List.filterMap_eq_nil_iff.mpr fun _ _ => rfl
  rw [hindicators, List.nil_append, barsOf, List.filterMap_map]
  by_cases hp : t.pool = pool
  · rw [if_pos hp, ← List.filterMap_eq_map, List.filterMap_filter]
    congr 1
    funext x
    simp [hp]
  · rw [if_neg hp]
    exact List.filterMap_eq_nil_iff.mpr fun x _ => if_neg fun h => hp h.1

theorem ticksOf_swap {t : RaydiumSwapEvent} (hp : t.pool = pool) :
    ticksOf pool [.blockchainEvent (.raydiumSwapEvent t)] = [t] :=
  List.filterMap_cons_some (if_pos hp)

/-- Swaps of other pools, and other events, leave a pool's bars alone. -/
theorem aggregate_other (hticks : ticksOf pool [e] = [])
    (hs : aggregateEvent a e = some (a', out)) :
    a'.indicators pool = a.indicators pool ∧ ∀ p, barsOf pool p out = [] := by
  have hquiet : some (a, []) = some (a', out) →
      a'.indicators pool = a.indicators pool ∧ ∀ p, barsOf pool p out = [] := by
    rintro ⟨⟩
    exact ⟨rfl, fun _ => rfl⟩
  cases e with
  | blockchainEvent b =>
      cases b with
      | raydiumSwapEvent t =>
          have hne : t.pool ≠ pool := by
            intro hp
            rw [ticksOf_swap hp] at hticks
            cases hticks
          simp only [aggregateEvent] at hs
          cases hd : a.indicators t.pool with
          | none =>
              simp only [hd, Option.some.injEq, Prod.mk.injEq] at hs
              obtain ⟨rfl, rfl⟩ := hs
              exact ⟨Function.update_of_ne (Ne.symm hne) _ _, fun _ => rfl⟩
          | some d =>
              simp only [hd] at hs
              obtain ⟨⟨d', out'⟩, htick, heq⟩ := Option.map_eq_some_iff.mp hs
              obtain ⟨rfl, rfl⟩ := Prod.mk.inj heq
              refine ⟨Function.update_of_ne (Ne.symm hne) _ _, fun p => ?_⟩
              rw [(barsOf_onTick htick).2 pool p, if_neg hne]
      | _ => exact hquiet hs
  | _ => exact hquiet hs

/-- A swap of the pool. -/
theorem aggregate_tick {t : RaydiumSwapEvent} {d : IndicatorsData yata} (hpool : t.pool = pool)
    (hd : a.indicators pool = some d)
    (hs : aggregateEvent a (.blockchainEvent (.raydiumSwapEvent t)) = some (a', out)) :
    ∃ d', d.onTick t = some (d', out) ∧ a'.indicators pool = some d' := by
  subst hpool
  simp only [aggregateEvent, hd] at hs
  obtain ⟨⟨d', out'⟩, htick, heq⟩ := Option.map_eq_some_iff.mp hs
  obtain ⟨rfl, rfl⟩ := Prod.mk.inj heq
  exact ⟨d', htick, Function.update_self _ _ _⟩

/-- An event is a swap of the pool, or not. -/
theorem tick_or_other (pool : Pubkey) (e : BotEvent) : ticksOf pool [e] = [] ∨
    ∃ t, e = .blockchainEvent (.raydiumSwapEvent t) ∧ t.pool = pool ∧ ticksOf pool [e] = [t] := by
  cases e with
  | blockchainEvent b =>
      cases b with
      | raydiumSwapEvent t =>
          by_cases hp : t.pool = pool
          · exact Or.inr ⟨t, rfl, hp, ticksOf_swap hp⟩
          · exact Or.inl (List.filterMap_cons_none (if_neg hp))
      | _ => exact Or.inl rfl
  | _ => exact Or.inl rfl

/-- **ONE EVENT.** -/
theorem held_step (h : Held a pool sizes k) (hs : aggregateEvent a e = some (a', out)) :
    Held a' pool sizes (k + (ticksOf pool [e]).length) ∧ ∀ p, barsOf pool p out =
      List.replicate (emittedAfter p (sizes.count p * (k + (ticksOf pool [e]).length)) -
        emittedAfter p (sizes.count p * k)) default := by
  obtain ⟨d, hd, hsizes, hheld⟩ := h
  rcases tick_or_other pool e with hticks | ⟨t, rfl, hpool, hticks⟩
  · obtain ⟨hsame, hbars⟩ := aggregate_other hticks hs
    rw [hticks, List.length_nil, Nat.add_zero]
    refine ⟨⟨d, hsame.trans hd, hsizes, hheld⟩, fun p => ?_⟩
    rw [hbars p, Nat.sub_self]
    rfl
  · obtain ⟨d', htick, hd'⟩ := aggregate_tick hpool hd hs
    obtain ⟨hcache, hbars⟩ := barsOf_onTick htick
    have hvisits := fun p =>
      @TickBarsCache.nextPeriods_eq t.price t.volume d.tickBars.barSizes _ _ hheld p
    rw [hsizes] at hvisits
    rw [hticks, List.length_singleton]
    refine ⟨⟨d', hd', ?_, fun p => ?_⟩, fun p => ?_⟩
    · rw [hcache]
      exact hsizes
    · rw [hcache, Nat.mul_succ]
      show (TickBarsCache.nextPeriods _ _ _ d.tickBars.barSizes).1 p = _
      rw [hsizes]
      exact (hvisits p).1
    · rw [hbars pool p, if_pos hpool, Nat.mul_succ]
      show ((TickBarsCache.nextPeriods _ _ _ d.tickBars.barSizes).2.filter _).map _ = _
      rw [hsizes, (hvisits p).2, List.map_replicate]

/-- **ANY EVENTS**: the bars of a pool depend on the number of its ticks alone. -/
theorem held_run : ∀ {es : List BotEvent} {a a' : TickIndicatorsAggregator yata}
    {out : List (DerivedEvent yata)} {k : Nat}, Held a pool sizes k →
    run (aggregator yata) a es = some (a', out) →
    Held a' pool sizes (k + (ticksOf pool es).length) ∧ ∀ p, barsOf pool p out =
      List.replicate (emittedAfter p (sizes.count p * (k + (ticksOf pool es).length)) -
        emittedAfter p (sizes.count p * k)) default := by
  intro es
  induction es with
  | nil =>
      rintro a a' out k h ⟨⟩
      refine ⟨h, fun p => ?_⟩
      show [] = List.replicate (_ - _) _
      rw [show (ticksOf pool []).length = 0 from rfl, Nat.add_zero, Nat.sub_self]
      rfl
  | cons e es ih =>
      intro a a' out k h hrun
      obtain ⟨a₁, o₁, o₂, hfirst, hrest, rfl⟩ := run_cons_eq_some hrun
      obtain ⟨h₁, hbars₁⟩ := held_step h hfirst
      obtain ⟨h₂, hbars₂⟩ := ih h₁ hrest
      rw [ticksOf_cons, List.length_append, ← Nat.add_assoc]
      refine ⟨h₂, fun p => ?_⟩
      rw [barsOf_append, hbars₁ p, hbars₂ p, List.replicate_append_replicate, Nat.add_comm (_ - _),
        Nat.sub_add_sub_cancel]
      · exact emittedAfter_mono p (Nat.mul_le_mul_left _ (Nat.le_add_right _ _))
      · exact emittedAfter_mono p (Nat.mul_le_mul_left _ (Nat.le_add_right _ _))

-- ── Panics ──────────────────────────────────────────────────────────────────

/-- `yata` accepts the length. -/
def Makes (yata : Yata) (length : UInt32) (price volume : ℚ) : Prop :=
  (EveryTickIndicators.new length price volume : Option (EveryTickIndicators yata)).isSome = true

/-- A length that has its indicators keeps them. -/
theorem EveryTickIndicatorsCache.makes_rest {price volume : ℚ} {lengths : List UInt32}
    {every : EveryTick yata} {length : UInt32} (indicators : EveryTickIndicators yata) :
    (∀ l ∈ lengths, Function.update every length (some indicators) l = none →
        Makes yata l price volume) ↔
      ∀ l ∈ lengths, l ≠ length → every l = none → Makes yata l price volume := by
  constructor
  · intro h l hl hne hnone
    exact h l hl ((Function.update_of_ne hne _ _).trans hnone)
  · intro h l hl hnone
    have hne : l ≠ length := by
      rintro rfl
      rw [Function.update_self] at hnone
      cases hnone
    rw [Function.update_of_ne hne] at hnone
    exact h l hl hne hnone

theorem EveryTickIndicatorsCache.nextLengths_isSome {price volume : ℚ} :
    ∀ {lengths : List UInt32} {every : EveryTick yata},
      (nextLengths price volume every lengths).isSome = true ↔ ∀ l ∈ lengths, every l = none →
        Makes yata l price volume := by
  intro lengths
  induction lengths with
  | nil =>
      intro every
      exact ⟨fun _ l hl => (by cases hl), fun _ => rfl⟩
  | cons length lengths ih =>
      intro every
      rw [nextLengths, List.forall_mem_cons]
      cases hlength : every length with
      | none =>
          cases hnew : (EveryTickIndicators.new length price volume :
              Option (EveryTickIndicators yata)) with
          | none =>
              have hrefused : ¬ Makes yata length price volume := by
                rw [Makes, hnew]
                exact Bool.false_ne_true
              exact ⟨fun h => (by cases h), fun h => absurd (h.1 rfl) hrefused⟩
          | some indicators =>
              have hmakes : Makes yata length price volume := by
                rw [Makes, hnew]
                rfl
              simp only [Option.bind_some, ih, makes_rest]
              refine ⟨fun h => ⟨fun _ => hmakes, fun l hl hnone => ?_⟩,
                fun h l hl _ hnone => h.2 l hl hnone⟩
              by_cases hl' : l = length
              · rw [hl']
                exact hmakes
              · exact h l hl hl' hnone
      | some indicators =>
          simp only [Option.isSome_map, ih, makes_rest]
          refine ⟨fun h => ⟨fun hnone => (by cases hnone), fun l hl hnone => ?_⟩,
            fun h l hl _ hnone => h.2 l hl hnone⟩
          refine h l hl ?_ hnone
          rintro rfl
          rw [hlength] at hnone
          cases hnone

/-- No length is refused: the tick's pool has no indicators yet, or every length that it has
    not seen is one that `yata` accepts. -/
def Accepted (a : TickIndicatorsAggregator yata) (e : BotEvent) : Prop :=
  ∀ t, e = .blockchainEvent (.raydiumSwapEvent t) → ∀ d, a.indicators t.pool = some d →
    ∀ l ∈ d.everyTickIndicators.lengths, d.everyTickIndicators.everyTickIndicators l = none →
      Makes yata l t.price t.volume

/-- The aggregator panics on what is not accepted, and on nothing else. -/
theorem aggregateEvent_isSome (a : TickIndicatorsAggregator yata) (e : BotEvent) :
    (aggregator yata a e).isSome = true ↔ Accepted a e := by
  have hquiet : (∀ t, e ≠ .blockchainEvent (.raydiumSwapEvent t)) →
      (aggregateEvent a e).isSome = true → ((aggregator yata a e).isSome = true ↔ Accepted a e) :=
    fun hne hsome => ⟨fun _ t he => absurd he (hne t), fun _ => hsome⟩
  cases e with
  | blockchainEvent b =>
      cases b with
      | raydiumSwapEvent t =>
          have haccepted : Accepted a (.blockchainEvent (.raydiumSwapEvent t)) ↔
              ∀ d, a.indicators t.pool = some d → ∀ l ∈ d.everyTickIndicators.lengths,
                d.everyTickIndicators.everyTickIndicators l = none →
                Makes yata l t.price t.volume := by
            refine ⟨fun h => h t rfl, ?_⟩
            rintro h t' ⟨⟩
            exact h
          rw [haccepted]
          simp only [aggregator, aggregateEvent]
          cases hd : a.indicators t.pool with
          | none => exact ⟨fun _ d hd' => (by cases hd'), fun _ => rfl⟩
          | some d =>
              simp only [Option.isSome_map, IndicatorsData.onTick, EveryTickIndicatorsCache.next,
                EveryTickIndicatorsCache.nextLengths_isSome]
              refine ⟨?_, fun h => h d rfl⟩
              rintro h d' ⟨⟩
              exact h
      | _ => exact hquiet (fun _ h => (by cases h)) rfl
  | _ => exact hquiet (fun _ h => (by cases h)) rfl

-- ── When the bars are right ─────────────────────────────────────────────────

/-- **THE CONDITION**, with `c` the times that `indicator_periods_in_ticks` lists a period,
    and `n` the number of ticks: as many bars are emitted as there are full groups, the ticks
    of these have no price and their volumes cancel; a period that is not in `tick_bar_sizes`
    gets no bar. -/
structure Agrees (config : AggregatorConfig) (ticks : List RaydiumSwapEvent) : Prop where
  counts  : ∀ p ∈ config.tickBarSizes, 1 ≤ p →
    (config.indicatorPeriodsInTicks.count p * ticks.length - 1) / p.toNat =
      ticks.length / p.toNat
  prices  : ∀ p ∈ config.tickBarSizes, 1 ≤ p →
    ∀ t ∈ ticks.take (ticks.length / p.toNat * p.toNat), t.price = 0
  volumes : ∀ p ∈ config.tickBarSizes, 1 ≤ p →
    ∀ g ∈ groups p.toNat ticks, (g.map (·.volume)).sum = 0
  others  : ∀ p, p ∉ config.tickBarSizes →
    config.indicatorPeriodsInTicks.count p * ticks.length ≤ size p

theorem size_of_pos {p : UInt32} (hp : 1 ≤ p) : size p = p.toNat :=
  max_eq_right (UInt32.le_iff_toNat_le.mp hp)

theorem emittedAfter_eq_zero_iff (p : UInt32) (v : Nat) : emittedAfter p v = 0 ↔ v ≤ size p := by
  have h := size_pos p
  rw [emittedAfter, Nat.div_eq_zero_iff]
  omega

/-- Equal bars sum up all groups if there is one for each, and it sums up every group. -/
theorem forall₂_replicate_iff {gs : List (List RaydiumSwapEvent)} {m : Nat} {c : Candle} :
    List.Forall₂ Summarises gs (List.replicate m c) ↔
      m = gs.length ∧ ∀ g ∈ gs, Summarises g c := by
  constructor
  · intro h
    have hlength : m = gs.length := by
      rw [h.length_eq, List.length_replicate]
    subst hlength
    rw [← List.map_const', List.forall₂_map_right_iff, List.forall₂_same] at h
    exact ⟨rfl, h⟩
  · rintro ⟨rfl, h⟩
    rw [← List.map_const', List.forall₂_map_right_iff, List.forall₂_same]
    exact h

/-- Default candles sum up the groups of `p` ticks. -/
theorem forall₂_default_iff {p m : Nat} {ticks : List RaydiumSwapEvent} (hp : 0 < p) :
    List.Forall₂ Summarises (groups p ticks) (List.replicate m default) ↔
      m = ticks.length / p ∧ (∀ t ∈ ticks.take (ticks.length / p * p), t.price = 0) ∧
        ∀ g ∈ groups p ticks, (g.map (·.volume)).sum = 0 := by
  have hne : ∀ g ∈ groups p ticks, g ≠ [] := by
    rintro g hg rfl
    exact absurd (length_of_mem_groups hg) (Nat.ne_of_lt hp)
  have hlength : (groups p ticks).length = ticks.length / p := by
    rw [groups, List.length_map, List.length_range]
  rw [forall₂_replicate_iff, hlength, ← groups_flatten]
  constructor
  · rintro ⟨hm, h⟩
    refine ⟨hm, fun t ht => ?_, fun g hg => ((summarises_default_iff (hne g hg)).mp (h g hg)).2⟩
    obtain ⟨g, hg, htg⟩ := List.mem_flatten.mp ht
    exact ((summarises_default_iff (hne g hg)).mp (h g hg)).1 t htg
  · rintro ⟨hm, hprices, hvolumes⟩
    refine ⟨hm, fun g hg => (summarises_default_iff (hne g hg)).mpr ⟨fun t ht => ?_, hvolumes g hg⟩⟩
    exact hprices t (List.mem_flatten.mpr ⟨g, hg, ht⟩)

/-- The bars that are emitted are the right ones. -/
theorem emits_iff {config : AggregatorConfig} {ticks : List RaydiumSwapEvent}
    {bars : UInt32 → List Candle} (hbars : ∀ p, bars p = List.replicate
      (emittedAfter p (config.indicatorPeriodsInTicks.count p * ticks.length)) default) :
    Emits config ticks bars ↔ Agrees config ticks := by
  have heach : ∀ p, 1 ≤ p → (List.Forall₂ Summarises (groups p.toNat ticks) (bars p) ↔
      (config.indicatorPeriodsInTicks.count p * ticks.length - 1) / p.toNat =
        ticks.length / p.toNat ∧
      (∀ t ∈ ticks.take (ticks.length / p.toNat * p.toNat), t.price = 0) ∧
        ∀ g ∈ groups p.toNat ticks, (g.map (·.volume)).sum = 0) := by
    intro p hp
    rw [hbars p, forall₂_default_iff (UInt32.le_iff_toNat_le.mp hp), emittedAfter,
      size_of_pos hp]
  have hnone : ∀ p, bars p = [] ↔
      config.indicatorPeriodsInTicks.count p * ticks.length ≤ size p := by
    intro p
    rw [hbars p, List.replicate_eq_nil_iff, emittedAfter_eq_zero_iff]
  constructor
  · intro h
    exact ⟨fun p hp h1 => ((heach p h1).mp (h.each p hp h1)).1,
      fun p hp h1 => ((heach p h1).mp (h.each p hp h1)).2.1,
      fun p hp h1 => ((heach p h1).mp (h.each p hp h1)).2.2,
      fun p hp => (hnone p).mp (h.only p hp)⟩
  · intro h
    exact ⟨fun p hp h1 => (heach p h1).mpr ⟨h.counts p hp h1, h.prices p hp h1, h.volumes p hp h1⟩,
      fun p hp => (hnone p).mpr (h.others p hp)⟩

/-- If every tick has a price, no group may be full. -/
theorem agrees_iff_of_prices {config : AggregatorConfig} {ticks : List RaydiumSwapEvent}
    (hprices : ∀ t ∈ ticks, t.price ≠ 0) :
    Agrees config ticks ↔
      (∀ p ∈ config.tickBarSizes, 1 ≤ p → ticks.length < p.toNat ∧
        config.indicatorPeriodsInTicks.count p * ticks.length ≤ p.toNat) ∧
      ∀ p, p ∉ config.tickBarSizes →
        config.indicatorPeriodsInTicks.count p * ticks.length ≤ size p := by
  constructor
  · intro h
    refine ⟨fun p hp h1 => ?_, h.others⟩
    have hpos : 0 < p.toNat := UInt32.le_iff_toNat_le.mp h1
    have hlt : ticks.length < p.toNat := by
      by_contra hge
      have hfull : 0 < ticks.length / p.toNat := Nat.div_pos (Nat.le_of_not_lt hge) hpos
      cases ticks with
      | nil => exact hge hpos
      | cons t ts =>
          obtain ⟨m, hm⟩ := Nat.exists_eq_succ_of_ne_zero (Nat.mul_pos hfull hpos).ne'
          refine hprices t List.mem_cons_self (h.prices p hp h1 t ?_)
          rw [hm, List.take_succ_cons]
          exact List.mem_cons_self
    refine ⟨hlt, ?_⟩
    have hcount := h.counts p hp h1
    rw [Nat.div_eq_of_lt hlt, ← size_of_pos h1] at hcount
    rw [← size_of_pos h1]
    exact (emittedAfter_eq_zero_iff p _).mp hcount
  · rintro ⟨heach, hothers⟩
    refine ⟨fun p hp h1 => ?_, fun p hp h1 => ?_, fun p hp h1 => ?_, hothers⟩
    · obtain ⟨hlt, hcount⟩ := heach p hp h1
      rw [Nat.div_eq_of_lt hlt, ← size_of_pos h1]
      rw [← size_of_pos h1] at hcount
      exact (emittedAfter_eq_zero_iff p _).mpr hcount
    · rw [Nat.div_eq_of_lt (heach p hp h1).1, Nat.zero_mul, List.take_zero]
      exact fun t ht => (by cases ht)
    · rw [groups, Nat.div_eq_of_lt (heach p hp h1).1]
      exact fun g hg => (by cases hg)

/-- A pool's first tick creates its bars. -/
theorem held_new {t₀ : RaydiumSwapEvent} (hpool : t₀.pool = pool)
    (hnew : a.indicators pool = none)
    (hs : aggregateEvent a (.blockchainEvent (.raydiumSwapEvent t₀)) = some (a', out)) :
    Held a' pool a.config.indicatorPeriodsInTicks 0 ∧ out = [] := by
  subst hpool
  simp only [aggregateEvent, hnew, Option.some.injEq, Prod.mk.injEq] at hs
  obtain ⟨rfl, rfl⟩ := hs
  exact ⟨⟨_, Function.update_self _ _ _, rfl, fun _ => rfl⟩, rfl⟩

/-- What is emitted for a pool, from its first tick on. -/
theorem bars_of_run {t₀ : RaydiumSwapEvent} {es : List BotEvent} (hpool : t₀.pool = pool)
    (hnew : a.indicators pool = none)
    (hrun : run (aggregator yata) a (.blockchainEvent (.raydiumSwapEvent t₀) :: es) =
      some (a', out)) (p : UInt32) :
    barsOf pool p out = List.replicate (emittedAfter p
      (a.config.indicatorPeriodsInTicks.count p * (ticksOf pool es).length)) default := by
  obtain ⟨a₁, o₁, o₂, hfirst, hrest, rfl⟩ := run_cons_eq_some hrun
  obtain ⟨hheld, rfl⟩ := held_new hpool hnew hfirst
  rw [List.nil_append, (held_run hheld hrest).2 p, Nat.zero_add, Nat.mul_zero,
    (emittedAfter_eq_zero_iff p 0).mpr (Nat.zero_le _), Nat.sub_zero]

/-- **THE BARS OF THE TICKS.**  After the first tick of a pool, the aggregator handles any
    further events and emits for the pool one bar for each full group of its ticks, in order,
    for each configured period, and no bar for any other, if and only if no length is refused
    and the configuration `Agrees` with the ticks. -/
theorem bars_emitted_iff {t₀ : RaydiumSwapEvent} {es : List BotEvent} (hpool : t₀.pool = pool)
    (hnew : a.indicators pool = none) :
    (∃ a' out, run (aggregator yata) a (.blockchainEvent (.raydiumSwapEvent t₀) :: es) =
        some (a', out) ∧
      Emits a.config (ticksOf pool es) fun p => barsOf pool p out) ↔
    Along (aggregator yata) Accepted a (.blockchainEvent (.raydiumSwapEvent t₀) :: es) ∧
      Agrees a.config (ticksOf pool es) := by
  rw [← run_isSome_iff_along aggregateEvent_isSome, Option.isSome_iff_exists]
  constructor
  · rintro ⟨a', out, hrun, hemits⟩
    exact ⟨⟨_, hrun⟩, (emits_iff (bars_of_run hpool hnew hrun)).mp hemits⟩
  · rintro ⟨⟨⟨a', out⟩, hrun⟩, hagrees⟩
    exact ⟨a', out, hrun, (emits_iff (bars_of_run hpool hnew hrun)).mpr hagrees⟩

-- ── Bars of three ticks ─────────────────────────────────────────────────────

/-- Averages of a price that stays the same. -/
def steadyYata : Yata where
  IndicatorResult := Unit
  tema := ⟨ℚ, fun length x => if length = 0 then none else some x, fun s _ => (s, s)⟩
  ema := ⟨ℚ, fun length x => if length = 0 then none else some x, fun s _ => (s, s)⟩
  rsi := ⟨Unit, fun _ _ => some (), fun s _ => (s, ())⟩
  bollinger := ⟨Unit, fun c _ => if c.avgSize ≤ 2 then none else some (), fun s _ => (s, ())⟩

/-- Bars and indicators of three ticks, and no pool yet. -/
def threeTicks : TickIndicatorsAggregator steadyYata := ⟨⟨[3], [3]⟩, fun _ => none⟩

/-- A swap of one token for one SOL. -/
def unitSwap : RaydiumSwapEvent :=
  ⟨default, ⟨List.replicate 64 0, rfl⟩, ⟨4⟩, .buy, 1, 1, 1, 1, 0⟩

def unitTick : BotEvent := .blockchainEvent (.raydiumSwapEvent unitSwap)

/-- The condition for the first tick and two more. -/
theorem two_ticks_emitted :
    (∃ a' out, run (aggregator steadyYata) threeTicks [unitTick, unitTick, unitTick] =
        some (a', out) ∧
      Emits ⟨[3], [3]⟩ (ticksOf ⟨4⟩ [unitTick, unitTick]) fun p => barsOf ⟨4⟩ p out) ↔
    Along (aggregator steadyYata) Accepted threeTicks [unitTick, unitTick, unitTick] ∧
      Agrees ⟨[3], [3]⟩ (ticksOf ⟨4⟩ [unitTick, unitTick]) :=
  @bars_emitted_iff steadyYata threeTicks ⟨4⟩ unitSwap [unitTick, unitTick] rfl rfl

/-- **A FLAT BAR.**  After the first tick and four more, all at the price 1, a bar of three
    ticks is emitted, and its prices are 0. -/
theorem unit_bar_flat : ∃ a' out,
    run (aggregator steadyYata) threeTicks [unitTick, unitTick, unitTick, unitTick, unitTick] =
      some (a', out) ∧ barsOf ⟨4⟩ 3 out = [default] ∧
    ¬ Emits ⟨[3], [3]⟩ (ticksOf ⟨4⟩ [unitTick, unitTick, unitTick, unitTick])
      fun p => barsOf ⟨4⟩ p out := by
  obtain ⟨⟨a', out⟩, hrun⟩ := Option.isSome_iff_exists.mp (show (run (aggregator steadyYata)
    threeTicks [unitTick, unitTick, unitTick, unitTick, unitTick]).isSome = true from rfl)
  have hbars := @bars_of_run steadyYata threeTicks a' ⟨4⟩ out unitSwap
    [unitTick, unitTick, unitTick, unitTick] rfl rfl hrun 3
  refine ⟨a', out, hrun, hbars, fun hemits => ?_⟩
  have heach := hemits.each 3 List.mem_cons_self (by decide)
  rw [hbars, forall₂_default_iff (by decide)] at heach
  exact one_ne_zero (heach.2.1 unitSwap List.mem_cons_self)

end FoxfireAggregator
