import Mathlib.Algebra.BigOperators.Group.List.Basic
import FoxfireSniper.AccountCacheProofs

/-! # Where the lamports of an account go

    `parse_account` of the collector reads the cached balance of an account, writes the
    update, and then asks whether the bot itself signed the transaction.  It takes a lock for
    each of the three, and other tasks write the cache in between.  A change of the balance is
    told as a `Deposit` or a `Withdrawal` unless an agent signed it or it is small.

    * `exec_parseAccount`: the three steps, with nothing in between, are `parse_account`.
    * `checkedEvents_eq`: NO SUBTRACTION UNDERFLOWS.
    * **`account_flow`**: as long as nobody else writes the account, the balance changes by
      what was told, what the agents signed and what was suppressed. -/

namespace FoxfireAccountFlow

open FoxfireTypes FoxfireCache FoxfireCollector FoxfireAccounts NoRollback MachineRun

-- ── The events of an update ─────────────────────────────────────────────────

/-- `prev_balance`: nothing is known of an account without data. -/
def prevBalance (cache : OperationalCache) (k : Pubkey) : UInt64 :=
  (cache.getAccount k).join.elim 0 (·.lamports)

/-- The second half of `parse_account`, from `if_agent_signature` on. -/
def accountEvents (cache : OperationalCache) (acc : AccountPretty) (prev : UInt64) :
    List BotEvent :=
  let update : BotEvent := .blockchainEvent (.accountUpdate acc)
  if cache.ifAgentSignature acc.txnSignature then [update]
  else if prev < acc.lamports ∧ balanceChangeThresholdSol < acc.lamports - prev then
    [update, .blockchainEvent (.deposit acc.txnSignature acc.pubkey (acc.lamports - prev))]
  else if acc.lamports < prev ∧ balanceChangeThresholdSol < prev - acc.lamports then
    [update, .blockchainEvent (.withdrawal acc.txnSignature acc.pubkey (prev - acc.lamports))]
  else [update]

/-- The subtraction of a checked build: `none` is the panic. -/
def checkedSub (a b : UInt64) : Option UInt64 := if b ≤ a then some (a - b) else none

/-- `a > b && a - b > BALANCE_CHANGE_THRESHOLD_SOL`. -/
def exceedsBy (a b : UInt64) : Option Bool :=
  if b < a then (checkedSub a b).map fun d => decide (balanceChangeThresholdSol < d)
  else some false

/-- The same events, with every subtraction that the source makes checked. -/
def checkedEvents (cache : OperationalCache) (acc : AccountPretty) (prev : UInt64) :
    Option (List BotEvent) := do
  let update : BotEvent := .blockchainEvent (.accountUpdate acc)
  if cache.ifAgentSignature acc.txnSignature then return [update]
  if ← exceedsBy acc.lamports prev then
    let amount ← checkedSub acc.lamports prev
    return [update, .blockchainEvent (.deposit acc.txnSignature acc.pubkey amount)]
  if ← exceedsBy prev acc.lamports then
    let amount ← checkedSub prev acc.lamports
    return [update, .blockchainEvent (.withdrawal acc.txnSignature acc.pubkey amount)]
  return [update]

-- ── The collector among the other tasks ─────────────────────────────────────

/-- Where `parse_account` is. -/
inductive Stage where
  | idle
  | read (acc : AccountPretty) (prev : UInt64)
  | updated (acc : AccountPretty) (prev : UInt64)
  deriving DecidableEq

structure Collector where
  cache : OperationalCache
  stage : Stage

inductive Move where
  /-- The feed delivers an update, and `parse_account` reads the cached balance. -/
  | getAccount (acc : AccountPretty)
  | updateAccount
  /-- The signature is looked up, and the events are returned. -/
  | ifAgentSignature
  /-- Another task leaves the cache like this. -/
  | other (cache : OperationalCache)

def collector : Step Collector Move BotEvent
  | ⟨cache, .idle⟩, .getAccount acc             =>
      some (⟨cache, .read acc (prevBalance cache acc.pubkey)⟩, [])
  | ⟨cache, .read acc prev⟩, .updateAccount     =>
      some (⟨cache.updateAccount acc.pubkey (some acc), .updated acc prev⟩, [])
  | ⟨cache, .updated acc prev⟩, .ifAgentSignature =>
      some (⟨cache, .idle⟩, accountEvents cache acc prev)
  | ⟨_, stage⟩, .other cache                    => some (⟨cache, stage⟩, [])
  | _, _                                        => none

/-- No other task writes the entry of `k`. -/
def OnlyWriter {γ : Type} (k : Pubkey) (t : Collector × γ) : Move → Prop
  | .other cache => cache.getAccount k = t.1.cache.getAccount k
  | _            => True

-- ── The ledger ──────────────────────────────────────────────────────────────

/-- What a deposit into `k` tells. -/
def depositOf (k : Pubkey) : BotEvent → ℤ
  | .blockchainEvent (.deposit _ acc lamports) => if acc = k then lamports.toNat else 0
  | _                                          => 0

def withdrawalOf (k : Pubkey) : BotEvent → ℤ
  | .blockchainEvent (.withdrawal _ acc lamports) => if acc = k then lamports.toNat else 0
  | _                                             => 0

def isDeposit : BotEvent → Bool
  | .blockchainEvent (.deposit ..) => true
  | _                              => false

def isWithdrawal : BotEvent → Bool
  | .blockchainEvent (.withdrawal ..) => true
  | _                                 => false

def Collector.balance (s : Collector) (k : Pubkey) : ℤ := (prevBalance s.cache k).toNat

/-- Where the changes of one account went: a history variable. -/
structure Ledger where
  deposits    : ℤ
  withdrawals : ℤ
  agentSigned : ℤ
  /-- Changes that nobody signed and no event tells. -/
  suppressed  : List ℤ
  /-- The change of the update that is being parsed. -/
  pending     : ℤ
  deriving DecidableEq

def Ledger.empty : Ledger := ⟨0, 0, 0, [], 0⟩

/-- The events are booked. -/
def Ledger.tell (k : Pubkey) (l : Ledger) (out : List BotEvent) : Ledger :=
  { l with
    deposits := l.deposits + (out.map (depositOf k)).sum
    withdrawals := l.withdrawals + (out.map (withdrawalOf k)).sum }

/-- A change is what an update does to the cached balance of `k`. -/
def note (k : Pubkey) (l : Ledger) (s : Collector) (m : Move) (s' : Collector)
    (out : List BotEvent) : Ledger :=
  let l := l.tell k out
  match m, s.stage with
  | .updateAccount, _                  =>
      { l with pending := l.pending + (s'.balance k - s.balance k) }
  | .ifAgentSignature, .updated acc _ =>
      if s.cache.ifAgentSignature acc.txnSignature then
        { l with agentSigned := l.agentSigned + l.pending, pending := 0 }
      else if acc.pubkey ≠ k ∨ out.any isDeposit ∨ out.any isWithdrawal then
        { l with pending := 0 }
      else { l with suppressed := l.suppressed ++ [l.pending], pending := 0 }
  | _, _                              => l

-- ── One update ──────────────────────────────────────────────────────────────

theorem checkedSub_of_lt {a b : UInt64} (h : b < a) : checkedSub a b = some (a - b) :=
  if_pos (UInt64.le_of_lt h)

theorem exceedsBy_eq (a b : UInt64) :
    exceedsBy a b = some (decide (b < a ∧ balanceChangeThresholdSol < a - b)) := by
  rw [exceedsBy]
  by_cases h : b < a
  · rw [if_pos h, checkedSub_of_lt h, Option.map_some, Option.some.injEq, decide_eq_decide]
    exact (and_iff_right h).symm
  · rw [if_neg h, Option.some.injEq, eq_comm, decide_eq_false_iff_not]
    exact fun hand => h hand.1

/-- **NO SUBTRACTION UNDERFLOWS**: each one is only made where its comparison holds. -/
theorem checkedEvents_eq (cache : OperationalCache) (acc : AccountPretty) (prev : UInt64) :
    checkedEvents cache acc prev = some (accountEvents cache acc prev) := by
  rw [checkedEvents, accountEvents, exceedsBy_eq, exceedsBy_eq]
  by_cases hagent : cache.ifAgentSignature acc.txnSignature = true
  · rw [if_pos hagent, if_pos hagent]
    rfl
  rw [if_neg hagent, if_neg hagent]
  by_cases hup : prev < acc.lamports ∧ balanceChangeThresholdSol < acc.lamports - prev
  · rw [if_pos hup, checkedSub_of_lt hup.1]
    simp only [pure, Option.bind_eq_bind, Option.bind_some, hup, and_self, decide_true, if_true]
  by_cases hdown : acc.lamports < prev ∧ balanceChangeThresholdSol < prev - acc.lamports
  · rw [if_neg hup, if_pos hdown, checkedSub_of_lt hdown.1]
    simp only [pure, Option.bind_eq_bind, Option.bind_some, hup, hdown, and_self, decide_true,
      decide_false, if_true, Bool.false_eq_true, if_false]
  · rw [if_neg hup, if_neg hdown]
    simp only [pure, Option.bind_eq_bind, Option.bind_some, hup, hdown, decide_false,
      Bool.false_eq_true, if_false]

/-- What can be told of an update. -/
theorem accountEvents_cases (cache : OperationalCache) (acc : AccountPretty) (prev : UInt64) :
    (cache.ifAgentSignature acc.txnSignature = true ∧
      accountEvents cache acc prev = [.blockchainEvent (.accountUpdate acc)]) ∨
    (cache.ifAgentSignature acc.txnSignature = false ∧ prev < acc.lamports ∧
      accountEvents cache acc prev = [.blockchainEvent (.accountUpdate acc),
        .blockchainEvent (.deposit acc.txnSignature acc.pubkey (acc.lamports - prev))]) ∨
    (cache.ifAgentSignature acc.txnSignature = false ∧ acc.lamports < prev ∧
      accountEvents cache acc prev = [.blockchainEvent (.accountUpdate acc),
        .blockchainEvent (.withdrawal acc.txnSignature acc.pubkey (prev - acc.lamports))]) ∨
    (cache.ifAgentSignature acc.txnSignature = false ∧
      |(acc.lamports.toNat : ℤ) - prev.toNat| ≤ balanceChangeThresholdSol.toNat ∧
      accountEvents cache acc prev = [.blockchainEvent (.accountUpdate acc)]) := by
  rw [accountEvents]
  cases hagent : cache.ifAgentSignature acc.txnSignature with
  | true => exact .inl ⟨rfl, if_pos rfl⟩
  | false =>
      refine .inr ?_
      rw [if_neg Bool.false_ne_true]
      by_cases hup : prev < acc.lamports ∧ balanceChangeThresholdSol < acc.lamports - prev
      · exact .inl ⟨rfl, hup.1, if_pos hup⟩
      refine .inr ?_
      rw [if_neg hup]
      by_cases hdown : acc.lamports < prev ∧ balanceChangeThresholdSol < prev - acc.lamports
      · exact .inl ⟨rfl, hdown.1, if_pos hdown⟩
      refine .inr ⟨rfl, ?_, if_neg hdown⟩
      rw [abs_le]
      -- neither difference is above the threshold, so it is small on either side
      constructor
      · by_cases hlt : acc.lamports < prev
        · have hle := mt (And.intro hlt) hdown
          rw [UInt64.not_lt, UInt64.le_iff_toNat_le,
            UInt64.toNat_sub_of_le _ _ (UInt64.le_of_lt hlt)] at hle
          omega
        · rw [UInt64.not_lt, UInt64.le_iff_toNat_le] at hlt
          omega
      · by_cases hlt : prev < acc.lamports
        · have hle := mt (And.intro hlt) hup
          rw [UInt64.not_lt, UInt64.le_iff_toNat_le,
            UInt64.toNat_sub_of_le _ _ (UInt64.le_of_lt hlt)] at hle
          omega
        · rw [UInt64.not_lt, UInt64.le_iff_toNat_le] at hlt
          omega

/-- No update is told as both. -/
theorem accountEvents_not_both (cache : OperationalCache) (acc : AccountPretty)
    (prev : UInt64) :
    ¬ ((accountEvents cache acc prev).any isDeposit ∧
      (accountEvents cache acc prev).any isWithdrawal) := by
  rintro ⟨hdep, hwith⟩
  rcases accountEvents_cases cache acc prev with ⟨-, h⟩ | ⟨-, -, h⟩ | ⟨-, -, h⟩ | ⟨-, -, h⟩ <;>
    rw [h] at hdep hwith
  · cases hdep
  · cases hwith
  · cases hdep
  · cases hdep

/-- **THE THREE STEPS ARE `parse_account`**, when nothing comes in between. -/
theorem exec_parseAccount (acc : AccountPretty) (cache : OperationalCache) :
    (exec (parseAccount acc) cache).1 =
        .ok (accountEvents (cache.updateAccount acc.pubkey (some acc)) acc
          (prevBalance cache acc.pubkey)) ∧
      run collector ⟨cache, .idle⟩ [.getAccount acc, .updateAccount, .ifAgentSignature] =
        some (⟨(exec (parseAccount acc) cache).2, .idle⟩,
          accountEvents (cache.updateAccount acc.pubkey (some acc)) acc
            (prevBalance cache acc.pubkey)) := by
  constructor
  · rw [parseAccount, exec_get_bind, exec_set_bind, accountEvents]
    show _ = Except.ok (if cache.ifAgentSignature acc.txnSignature = true then _ else _)
    rw [prevBalance]
    split
    · rfl
    · split
      · rfl
      · split <;> rfl
  · rw [parseAccount_state]
    show some (_, [] ++ ([] ++ (_ ++ []))) = _
    rw [List.append_nil]
    rfl

-- ── The invariant ───────────────────────────────────────────────────────────

/-- What is still to be told of the update that is being parsed. -/
def StageHolds (k : Pubkey) (t : Collector × Ledger) : Prop :=
  match t.1.stage with
  | .idle             => t.2.pending = 0
  | .read acc prev    => t.2.pending = 0 ∧ (acc.pubkey = k → prev = prevBalance t.1.cache k)
  | .updated acc prev =>
      t.2.pending = if acc.pubkey = k then (acc.lamports.toNat : ℤ) - prev.toNat else 0

/-- `b₀` is the balance of the beginning. -/
structure Inv (k : Pubkey) (b₀ : ℤ) (t : Collector × Ledger) : Prop where
  balance : t.1.balance k - b₀ = t.2.deposits - t.2.withdrawals + t.2.agentSigned +
    t.2.suppressed.sum + t.2.pending
  small   : ∀ d ∈ t.2.suppressed, |d| ≤ (balanceChangeThresholdSol.toNat : ℤ)
  stage   : StageHolds k t

theorem prevBalance_updateAccount (cache : OperationalCache) (acc : AccountPretty)
    (k : Pubkey) : prevBalance (cache.updateAccount acc.pubkey (some acc)) k =
      if k = acc.pubkey then acc.lamports else prevBalance cache k := by
  rw [prevBalance, data_updateAccount]
  by_cases hk : k = acc.pubkey
  · rw [if_pos hk, if_pos hk]
    rfl
  · rw [if_neg hk, if_neg hk]
    rfl

/-- What an update of `k` tells of `k`, and one of another account. -/
theorem told_accountEvents (k : Pubkey) (cache : OperationalCache) (acc : AccountPretty)
    (prev : UInt64) :
    (((accountEvents cache acc prev).map (depositOf k)).sum -
        ((accountEvents cache acc prev).map (withdrawalOf k)).sum : ℤ) =
      if acc.pubkey = k ∧ ((accountEvents cache acc prev).any isDeposit ∨
          (accountEvents cache acc prev).any isWithdrawal) then
        (acc.lamports.toNat : ℤ) - prev.toNat
      else 0 := by
  rcases accountEvents_cases cache acc prev with ⟨-, h⟩ | ⟨-, hlt, h⟩ | ⟨-, hlt, h⟩ | ⟨-, -, h⟩
  · rw [h, if_neg (by simp [isDeposit, isWithdrawal])]
    simp [depositOf, withdrawalOf]
  · have hsub := UInt64.toNat_sub_of_le _ _ (UInt64.le_of_lt hlt)
    have hlt' := UInt64.lt_iff_toNat_lt.mp hlt
    rw [h]
    by_cases hk : acc.pubkey = k
    · simp only [hk, depositOf, withdrawalOf, isDeposit, isWithdrawal, List.map_cons,
        List.map_nil, List.sum_cons, List.sum_nil, List.any_cons, List.any_nil, if_true,
        Bool.or_false, Bool.or_true, true_or, and_self]
      omega
    · simp [hk, depositOf, withdrawalOf]
  · have hsub := UInt64.toNat_sub_of_le _ _ (UInt64.le_of_lt hlt)
    have hlt' := UInt64.lt_iff_toNat_lt.mp hlt
    rw [h]
    by_cases hk : acc.pubkey = k
    · simp only [hk, depositOf, withdrawalOf, isDeposit, isWithdrawal, List.map_cons,
        List.map_nil, List.sum_cons, List.sum_nil, List.any_cons, List.any_nil, if_true,
        Bool.or_false, Bool.false_or, or_true, and_self]
      omega
    · simp [hk, depositOf, withdrawalOf]
  · rw [h, if_neg (by simp [isDeposit, isWithdrawal])]
    simp [depositOf, withdrawalOf]

/-- What neither an agent signed nor an event tells is small. -/
theorem untold_small {cache : OperationalCache} {acc : AccountPretty} {prev : UInt64}
    (hagent : ¬ cache.ifAgentSignature acc.txnSignature = true)
    (hsilent : ¬ ((accountEvents cache acc prev).any isDeposit = true ∨
      (accountEvents cache acc prev).any isWithdrawal = true)) :
    |(acc.lamports.toNat : ℤ) - prev.toNat| ≤ (balanceChangeThresholdSol.toNat : ℤ) := by
  rcases accountEvents_cases cache acc prev with ⟨h, -⟩ | ⟨-, -, h⟩ | ⟨-, -, h⟩ | ⟨-, hle, -⟩
  · exact absurd h hagent
  · exact absurd (by rw [h]; exact .inl rfl) hsilent
  · exact absurd (by rw [h]; exact .inr rfl) hsilent
  · exact hle

/-- Without events nothing is booked. -/
theorem Ledger.tell_nil (k : Pubkey) (l : Ledger) : l.tell k [] = l := by
  simp [Ledger.tell]

/-- A move that leaves the entry of `k` and the ledger alone. -/
theorem Inv.frame {k : Pubkey} {b₀ : ℤ} {s s' : Collector} {l : Ledger}
    (hinv : Inv k b₀ (s, l)) (hkept : prevBalance s'.cache k = prevBalance s.cache k)
    (hstage : StageHolds k (s', l)) : Inv k b₀ (s', l) := by
  refine ⟨?_, hinv.small, hstage⟩
  rw [← hinv.balance]
  show ((prevBalance s'.cache k).toNat : ℤ) - b₀ = (prevBalance s.cache k).toNat - b₀
  rw [hkept]

/-- The update is written: its change is pending. -/
theorem Inv.write {k : Pubkey} {b₀ : ℤ} {cache : OperationalCache} {acc : AccountPretty}
    {prev : UInt64} {l : Ledger} (hinv : Inv k b₀ (⟨cache, .read acc prev⟩, l)) :
    let s' : Collector := ⟨cache.updateAccount acc.pubkey (some acc), .updated acc prev⟩
    Inv k b₀ (s', { l with
      pending := l.pending + (s'.balance k - (prevBalance cache k).toNat) }) := by
  intro s'
  obtain ⟨hbalance, hsmall, hzero, hprev⟩ := hinv
  have hzero : l.pending = 0 := hzero
  have hafter : s'.balance k =
      if k = acc.pubkey then (acc.lamports.toNat : ℤ) else (prevBalance cache k).toNat := by
    rw [Collector.balance, prevBalance_updateAccount]
    split <;> rfl
  refine ⟨?_, hsmall, ?_⟩
  · have hbefore : ((prevBalance cache k).toNat : ℤ) - b₀ = l.deposits - l.withdrawals +
        l.agentSigned + l.suppressed.sum + l.pending := hbalance
    show s'.balance k - b₀ = l.deposits - l.withdrawals + l.agentSigned + l.suppressed.sum +
      (l.pending + (s'.balance k - (prevBalance cache k).toNat))
    omega
  · show l.pending + (s'.balance k - (prevBalance cache k).toNat) =
      if acc.pubkey = k then (acc.lamports.toNat : ℤ) - prev.toNat else 0
    rw [hzero, zero_add, hafter]
    by_cases hk : acc.pubkey = k
    · rw [if_pos hk, if_pos hk.symm, hprev hk]
    · rw [if_neg hk, if_neg (Ne.symm hk), sub_self]

/-- The events are returned: the pending change is told, signed, or suppressed. -/
theorem Inv.tell {k : Pubkey} {b₀ : ℤ} {cache : OperationalCache} {acc : AccountPretty}
    {prev : UInt64} {l : Ledger} (hinv : Inv k b₀ (⟨cache, .updated acc prev⟩, l)) :
    Inv k b₀ (⟨cache, .idle⟩, note k l ⟨cache, .updated acc prev⟩ .ifAgentSignature
      ⟨cache, .idle⟩ (accountEvents cache acc prev)) := by
  obtain ⟨hbalance, hsmall, hpending⟩ := hinv
  have hbalance : ((prevBalance cache k).toNat : ℤ) - b₀ = l.deposits - l.withdrawals +
    l.agentSigned + l.suppressed.sum + l.pending := hbalance
  have hpending : l.pending =
    if acc.pubkey = k then (acc.lamports.toNat : ℤ) - prev.toNat else 0 := hpending
  have htold := told_accountEvents k cache acc prev
  show Inv k b₀ (_, if cache.ifAgentSignature acc.txnSignature = true then _
    else if acc.pubkey ≠ k ∨ (accountEvents cache acc prev).any isDeposit = true ∨
      (accountEvents cache acc prev).any isWithdrawal = true then _ else _)
  by_cases hagent : cache.ifAgentSignature acc.txnSignature = true
  · -- an agent signed it, and nothing is told
    rw [if_pos hagent]
    refine ⟨?_, hsmall, rfl⟩
    have hquiet : accountEvents cache acc prev = [.blockchainEvent (.accountUpdate acc)] :=
      if_pos hagent
    rw [hquiet]
    show ((prevBalance cache k).toNat : ℤ) - b₀ = l.deposits + (0 + 0) -
      (l.withdrawals + (0 + 0)) + (l.agentSigned + l.pending) + l.suppressed.sum + 0
    omega
  rw [if_neg hagent]
  split
  · next hgone =>
      refine ⟨?_, hsmall, rfl⟩
      have htold' : ((accountEvents cache acc prev).map (depositOf k)).sum -
          ((accountEvents cache acc prev).map (withdrawalOf k)).sum = l.pending := by
        rw [htold, hpending]
        by_cases hk : acc.pubkey = k
        · rw [if_pos hk, if_pos ⟨hk, hgone.resolve_left (not_not_intro hk)⟩]
        · rw [if_neg hk, if_neg fun h => hk h.1]
      show ((prevBalance cache k).toNat : ℤ) - b₀ =
        l.deposits + ((accountEvents cache acc prev).map (depositOf k)).sum -
        (l.withdrawals + ((accountEvents cache acc prev).map (withdrawalOf k)).sum) +
        l.agentSigned + l.suppressed.sum + 0
      omega
  · next hsilent =>
      rw [not_or, not_not] at hsilent
      rw [if_neg fun h => hsilent.2 h.2] at htold
      rw [if_pos hsilent.1] at hpending
      refine ⟨?_, ?_, rfl⟩
      · show ((prevBalance cache k).toNat : ℤ) - b₀ =
          l.deposits + ((accountEvents cache acc prev).map (depositOf k)).sum -
          (l.withdrawals + ((accountEvents cache acc prev).map (withdrawalOf k)).sum) +
          l.agentSigned + (l.suppressed ++ [l.pending]).sum + 0
        rw [List.sum_append, List.sum_singleton]
        omega
      · intro d hd
        rcases List.mem_append.mp hd with hd | hd
        · exact hsmall d hd
        obtain rfl := List.mem_singleton.mp hd
        show |l.pending| ≤ _
        rw [hpending]
        exact untold_small hagent hsilent.2

/-- **ONE MOVE KEEPS THE LEDGER.** -/
theorem flow_step {k : Pubkey} {b₀ : ℤ} {t t' : Collector × Ledger} {m : Move}
    {out : List BotEvent} (hinv : Inv k b₀ t) (honly : OnlyWriter k t m)
    (hstep : tracked collector (note k) t m = some (t', out)) : Inv k b₀ t' := by
  obtain ⟨⟨cache, stage⟩, l⟩ := t
  obtain ⟨s', l'⟩ := t'
  obtain ⟨hmove, hnote⟩ := tracked_eq_some hstep
  obtain rfl : l' = note k l ⟨cache, stage⟩ m s' out := hnote
  cases m with
  | getAccount acc =>
      cases stage with
      | idle =>
          obtain ⟨rfl, rfl⟩ := Prod.mk.inj (Option.some.inj hmove)
          rw [show note k l _ (.getAccount acc) _ [] = l from Ledger.tell_nil k l]
          refine hinv.frame rfl ⟨hinv.stage, ?_⟩
          rintro rfl
          rfl
      | read _ _ => cases hmove
      | updated _ _ => cases hmove
  | updateAccount =>
      cases stage with
      | idle => cases hmove
      | read acc prev =>
          obtain ⟨rfl, rfl⟩ := Prod.mk.inj (Option.some.inj hmove)
          rw [note, Ledger.tell_nil]
          exact hinv.write
      | updated _ _ => cases hmove
  | ifAgentSignature =>
      cases stage with
      | idle => cases hmove
      | read _ _ => cases hmove
      | updated acc prev =>
          obtain ⟨rfl, rfl⟩ := Prod.mk.inj (Option.some.inj hmove)
          exact hinv.tell
  | other cache' =>
      obtain ⟨rfl, rfl⟩ : (⟨cache', stage⟩ : Collector) = s' ∧ [] = out := by
        cases stage <;> exact Prod.mk.inj (Option.some.inj hmove)
      rw [show note k l _ (.other cache') _ [] = l from Ledger.tell_nil k l]
      have hkept : prevBalance cache' k = prevBalance cache k := by
        rw [prevBalance, prevBalance, show cache'.getAccount k = cache.getAccount k from honly]
      refine hinv.frame hkept ?_
      have hstage := hinv.stage
      cases stage with
      | idle => exact hstage
      | read acc prev => exact ⟨hstage.1, fun h => (hstage.2 h).trans hkept.symm⟩
      | updated acc prev => exact hstage

-- ── Runs ────────────────────────────────────────────────────────────────────

/-- **THE LAMPORTS OF AN ACCOUNT ARE ACCOUNTED FOR**: between two moments at which no update
    is being parsed, the cached balance changes by the deposits less the withdrawals that
    were told, the changes that agents signed, and the suppressed ones, each of which is
    small.  No update is told as both, and no subtraction underflows. -/
theorem account_flow {k : Pubkey} {cache : OperationalCache} {t : Collector × Ledger}
    (h : Reach (tracked collector (note k)) (OnlyWriter k) (⟨cache, .idle⟩, Ledger.empty) t)
    (hidle : t.1.stage = .idle) :
    ((prevBalance t.1.cache k).toNat : ℤ) - (prevBalance cache k).toNat =
        t.2.deposits - t.2.withdrawals + t.2.agentSigned + t.2.suppressed.sum ∧
      (∀ d ∈ t.2.suppressed, |d| ≤ (balanceChangeThresholdSol.toNat : ℤ)) ∧
      ∀ c acc prev, checkedEvents c acc prev = some (accountEvents c acc prev) ∧
        ¬ ((accountEvents c acc prev).any isDeposit ∧
          (accountEvents c acc prev).any isWithdrawal) := by
  have hfirst : Inv k (prevBalance cache k).toNat (⟨cache, .idle⟩, Ledger.empty) :=
    ⟨sub_self _, fun d hd => absurd hd List.not_mem_nil, rfl⟩
  obtain ⟨hbalance, hsmall, hstage⟩ := h.invariant hfirst fun _ _ _ _ => flow_step
  rw [StageHolds, hidle] at hstage
  have hstage : t.2.pending = 0 := hstage
  rw [hstage, add_zero] at hbalance
  refine ⟨hbalance, hsmall, ?_⟩
  intro c acc prev
  exact ⟨checkedEvents_eq c acc prev, accountEvents_not_both c acc prev⟩

/-- A wallet's update with these lamports and this transaction. -/
def walletWith (lamports : UInt64) (signature : Signature) : AccountPretty :=
  ⟨1, ⟨7⟩, lamports, none, 1, some signature⟩

/-- No other task writes anything. -/
def alone (_ : Collector × Ledger) : Move → Bool
  | .other _ => false
  | _        => true

theorem alone_sound {k : Pubkey} (t : Collector × Ledger) (m : Move) (h : alone t m = true) :
    OnlyWriter k t m := by
  cases m with
  | getAccount acc => trivial
  | updateAccount => trivial
  | ifAgentSignature => trivial
  | other cache => cases h

/-- The steps of `parse_account` for each update in turn. -/
def parseAll (updates : List AccountPretty) : List Move :=
  updates.flatMap fun acc => [.getAccount acc, .updateAccount, .ifAgentSignature]

def signatureOf (byte : UInt8) : Signature := ⟨List.replicate 64 byte, List.length_replicate⟩

/-- The bot sent one transaction. -/
def oneSent : OperationalCache :=
  (OperationalCache.new (fun _ => none) fun _ => none).addAgentTx ⟨1⟩ (signatureOf 9)

/-- A deposit, a trade of the bot, and the fee of somebody else's transaction. -/
theorem deposit_trade_and_dust :
    ∃ t : Collector × Ledger, t.2 = ⟨5000, 0, 2500, [-100], 0⟩ ∧
      ((prevBalance t.1.cache ⟨7⟩).toNat : ℤ) - (prevBalance oneSent ⟨7⟩).toNat =
        5000 - 0 + 2500 + -100 := by
  have hview : (runIf (tracked collector (note ⟨7⟩)) alone (⟨oneSent, .idle⟩, Ledger.empty)
      (parseAll [walletWith 5000 (signatureOf 3), walletWith 7500 (signatureOf 9),
        walletWith 7400 (signatureOf 4)])).map (fun p => (p.1.2, decide (p.1.1.stage = .idle))) =
      some (⟨5000, 0, 2500, [-100], 0⟩, true) := by decide
  obtain ⟨⟨t, out⟩, hrun, heq⟩ := Option.map_eq_some_iff.mp hview
  obtain ⟨hledger, hidle⟩ := Prod.mk.inj heq
  refine ⟨t, hledger, ?_⟩
  have hflow := (account_flow (reach_of_runIf alone_sound hrun) (of_decide_eq_true hidle)).1
  rw [hledger] at hflow
  exact hflow

end FoxfireAccountFlow
