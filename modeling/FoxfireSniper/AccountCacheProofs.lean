import Mathlib.Data.Prod.Lex
import FoxfireSniper.CollectorProofs
import FoxfireSniper.MachineRunProofs

/-! # What the account cache knows last

    The balances of `src/solana/generic_api.rs`: `get_balance` and `get_token_balance` answer
    from the cache, and ask a node when it has no data.  An account is written by the
    collector for every Geyser update, whichever provider it comes from; by the two
    functions with the node's answer; and with "no data" whenever monitoring starts, or the
    node does not know the account.  Updates carry a slot and a write version; no writer
    reads them.

    The function that asks a node has looked at the cache before, so an answer is a step of
    its own.

    * `accounts_kept`: WHAT ONE MOVE KEEPS.
    * **`newest_cached`**: when the updates of an account come in the order of their versions,
      "no data" is only written where there is none, and a node's answer only where the feed
      has delivered nothing, the cache has the newest update of every account, and never
      goes back. -/

namespace FoxfireAccounts

open FoxfireTypes FoxfireCache FoxfireCollector NoRollback MachineRun

-- ── Balances ────────────────────────────────────────────────────────────────

/-- `get_balance` of a wallet, or `get_token_balance` of its token account. -/
inductive Kind where
  | sol
  | token
  deriving DecidableEq, Repr

inductive AccountError where
  | accountNotFound
  | otherError
  deriving DecidableEq, Repr

/-- What a node says about an account. -/
inductive RpcAccount where
  | found (lamports : UInt64) (tokenUnpackedData : Option UInt64)
  | notFound
  | failed
  deriving DecidableEq, Repr

/-- `From<SDKTokenAccount> for AccountPretty`: no slot, and no version. -/
def prettyOfRpc (lamports : UInt64) (tokenUnpackedData : Option UInt64) : AccountPretty where
  slot := 0
  pubkey := default
  lamports := lamports
  tokenUnpackedData := tokenUnpackedData
  writeVersion := 0
  txnSignature := none

/-- The balance in an account; data that is no token account counts as nothing. -/
def balanceIn : Kind → AccountPretty → UInt64
  | .sol, acc   => acc.lamports
  | .token, acc => acc.tokenUnpackedData.getD 0

/-- `update_from_rpc` of `get_balance` and `query_ata` of `get_token_balance`: what they do
    to the cache. -/
def updateFromRpc (pubkey : Pubkey) (answer : RpcAccount) (cache : OperationalCache) :
    OperationalCache :=
  match answer with
  | .found lamports tokenUnpackedData =>
      cache.updateAccount pubkey (some (prettyOfRpc lamports tokenUnpackedData))
  | .notFound                         => cache.monitorWithGeyser pubkey
  | .failed                           => cache

/-- What they return. -/
def balanceFromRpc (kind : Kind) (answer : RpcAccount) : Except AccountError UInt64 :=
  match answer with
  | .found lamports tokenUnpackedData =>
      .ok (balanceIn kind (prettyOfRpc lamports tokenUnpackedData))
  | .notFound                         => .error .accountNotFound
  | .failed                           => .error .otherError

-- ── The accounts ────────────────────────────────────────────────────────────

/-- The cache, and the functions that wait for a node. -/
structure Accounts where
  cache : OperationalCache
  asked : List (Kind × Pubkey)

inductive Move where
  /-- The collector comes to an update of one of the providers. -/
  | deliver (acc : AccountPretty)
  /-- `get_balance`, `get_token_balance` -/
  | call (kind : Kind) (pubkey : Pubkey)
  | answer (query : Nat) (account : RpcAccount)
  /-- `start_monitoring_account`, `start_monitoring_token_account` -/
  | startMonitoring (pubkey : Pubkey)
  /-- `stop_monitoring_account`, `stop_monitoring_token_account` -/
  | stopMonitoring (pubkey : Pubkey)

/-- A balance that was asked for. -/
structure Reply where
  kind    : Kind
  pubkey  : Pubkey
  balance : Except AccountError UInt64

def accounts : Step Accounts Move Reply
  | a, .deliver acc            =>
      some ({ a with cache := (exec (parseAccount acc) a.cache).2 }, [])
  | a, .call kind pubkey       =>
      match (a.cache.getAccount pubkey).join with
      | some acc => some (a, [⟨kind, pubkey, .ok (balanceIn kind acc)⟩])
      | none     => some ({ a with asked := a.asked ++ [(kind, pubkey)] }, [])
  | a, .answer query account   =>
      match a.asked[query]? with
      | some (kind, pubkey) =>
          some (⟨updateFromRpc pubkey account a.cache, a.asked.eraseIdx query⟩,
            [⟨kind, pubkey, balanceFromRpc kind account⟩])
      | none                => none
  | a, .startMonitoring pubkey =>
      some ({ a with cache := a.cache.monitorWithGeyser pubkey }, [])
  | a, .stopMonitoring pubkey  =>
      some ({ a with cache := a.cache.dropAccountMonitoring pubkey }, [])

/-- The data that the cache has of an account. -/
def Accounts.data (a : Accounts) (k : Pubkey) : Option AccountPretty :=
  (a.cache.getAccount k).join

-- ── Versions ────────────────────────────────────────────────────────────────

/-- Slot and write version. -/
def version (acc : AccountPretty) : ℕ ×ₗ ℕ := toLex (acc.slot.toNat, acc.writeVersion.toNat)

/-- The newest update of every account since it was last dropped: a history variable. -/
def note (newest : Pubkey → Option AccountPretty) (_ : Accounts) (m : Move) (_ : Accounts)
    (_ : List Reply) : Pubkey → Option AccountPretty :=
  match m with
  | .deliver acc           =>
      if (newest acc.pubkey).any fun n => decide (version acc < version n) then newest
      else Function.update newest acc.pubkey (some acc)
  | .stopMonitoring pubkey => Function.update newest pubkey none
  | _                      => newest

/-- The move writes nothing older than what is there: updates come in the order of their
    versions, monitoring starts and a node answers "not found" where there is no data, and
    a node answers with data where the feed has delivered nothing. -/
def InOrder (t : Accounts × (Pubkey → Option AccountPretty)) : Move → Prop
  | .deliver acc              => ∀ old, t.1.data acc.pubkey = some old → version old ≤ version acc
  | .answer query .notFound   => ∀ p, t.1.asked[query]? = some p → t.1.data p.2 = none
  | .answer query (.found ..) => ∀ p, t.1.asked[query]? = some p → t.2 p.2 = none
  | .startMonitoring pubkey   => t.1.data pubkey = none
  | _                         => True

-- ── What a move writes ──────────────────────────────────────────────────────

/-- The account that a move writes, and the data it writes. -/
def written (a : Accounts) : Move → Option (Pubkey × Option AccountPretty)
  | .deliver acc                     => some (acc.pubkey, some acc)
  | .answer query (.found lamports tokenUnpackedData) =>
      a.asked[query]?.map fun p => (p.2, some (prettyOfRpc lamports tokenUnpackedData))
  | .answer query .notFound          => a.asked[query]?.map fun p => (p.2, none)
  | .startMonitoring pubkey          => some (pubkey, none)
  | .stopMonitoring pubkey           => some (pubkey, none)
  | _                                => none

theorem parseAccount_state (acc : AccountPretty) (cache : OperationalCache) :
    (exec (parseAccount acc) cache).2 = cache.updateAccount acc.pubkey (some acc) := by
  rw [parseAccount, exec_get_bind, exec_set_bind]
  split
  · rfl
  · split
    · rfl
    · split <;> rfl

/-- The cache after a move. -/
def cacheAfter (a : Accounts) : Move → OperationalCache
  | .deliver acc            => a.cache.updateAccount acc.pubkey (some acc)
  | .call _ _               => a.cache
  | .answer query account   =>
      (a.asked[query]?).elim a.cache fun p => updateFromRpc p.2 account a.cache
  | .startMonitoring pubkey => a.cache.monitorWithGeyser pubkey
  | .stopMonitoring pubkey  => a.cache.dropAccountMonitoring pubkey

theorem cache_step {a a' : Accounts} {m : Move} {out : List Reply}
    (h : accounts a m = some (a', out)) : a'.cache = cacheAfter a m := by
  cases m with
  | deliver acc =>
      obtain ⟨rfl, -⟩ := Prod.mk.inj (Option.some.inj h)
      exact parseAccount_state acc a.cache
  | call kind pubkey =>
      rw [accounts] at h
      split at h
      · obtain ⟨rfl, -⟩ := Prod.mk.inj (Option.some.inj h)
        rfl
      · obtain ⟨rfl, -⟩ := Prod.mk.inj (Option.some.inj h)
        rfl
  | answer query account =>
      rw [accounts] at h
      rw [cacheAfter]
      cases hq : a.asked[query]? with
      | none => rw [hq] at h; cases h
      | some p =>
          rw [hq] at h
          obtain ⟨rfl, -⟩ := Prod.mk.inj (Option.some.inj h)
          rfl
  | startMonitoring pubkey =>
      obtain ⟨rfl, -⟩ := Prod.mk.inj (Option.some.inj h)
      rfl
  | stopMonitoring pubkey =>
      obtain ⟨rfl, -⟩ := Prod.mk.inj (Option.some.inj h)
      rfl

/-- The data after one write into the cache. -/
theorem data_updateAccount (cache : OperationalCache) (w k : Pubkey)
    (account : Option AccountPretty) :
    ((cache.updateAccount w account).getAccount k).join =
      if k = w then account else (cache.getAccount k).join := by
  by_cases hk : k = w
  · subst hk
    rw [if_pos rfl, getAccount_updateAccount_self]
    rfl
  · rw [if_neg hk, getAccount_updateAccount_other _ hk]

/-- **A MOVE WRITES ONE ACCOUNT**, or none. -/
theorem data_step {a a' : Accounts} {m : Move} {out : List Reply}
    (h : accounts a m = some (a', out)) (k : Pubkey) :
    a'.data k = (written a m).elim (a.data k) fun w => if k = w.1 then w.2 else a.data k := by
  rw [Accounts.data, cache_step h]
  cases m with
  | deliver acc => exact data_updateAccount a.cache acc.pubkey k (some acc)
  | call kind pubkey => rfl
  | answer query account =>
      rw [cacheAfter]
      cases hq : a.asked[query]? with
      | none =>
          cases account with
          | found lamports token => rw [written, hq]; rfl
          | notFound => rw [written, hq]; rfl
          | failed => rfl
      | some p =>
          cases account with
          | found lamports token =>
              rw [written, hq]
              exact data_updateAccount a.cache p.2 k _
          | notFound =>
              rw [written, hq]
              exact data_updateAccount a.cache p.2 k none
          | failed => rfl
  | startMonitoring pubkey => exact data_updateAccount a.cache pubkey k none
  | stopMonitoring pubkey =>
      show ((a.cache.dropAccountMonitoring pubkey).getAccount k).join = if k = pubkey then _ else _
      by_cases hk : k = pubkey
      · subst hk
        rw [if_pos rfl, getAccount_drop_self]
        rfl
      · rw [if_neg hk, getAccount_drop_other _ hk]
        rfl

-- ── The invariant ───────────────────────────────────────────────────────────

structure Inv (t : Accounts × (Pubkey → Option AccountPretty)) : Prop where
  /-- The newest update is there. -/
  newest      : ∀ k n, t.2 k = some n → t.1.data k = some n
  /-- What does not come from the feed has no version. -/
  unversioned : ∀ k old, t.2 k = none → t.1.data k = some old → version old = toLex (0, 0)

theorem version_nonneg (acc : AccountPretty) : toLex (0, 0) ≤ version acc := by
  rw [version, Prod.Lex.toLex_le_toLex]
  rcases Nat.eq_zero_or_pos acc.slot.toNat with h | h
  · exact Or.inr ⟨h.symm, Nat.zero_le _⟩
  · exact Or.inl h

/-- What is written over data is not older, unless the account is dropped. -/
theorem written_newer {t : Accounts × (Pubkey → Option AccountPretty)} {m : Move}
    (hinv : Inv t) (hin : InOrder t m) {k : Pubkey} {d : Option AccountPretty}
    (hw : written t.1 m = some (k, d)) (hm : m ≠ .stopMonitoring k) {old : AccountPretty}
    (hold : t.1.data k = some old) : ∃ new, d = some new ∧ version old ≤ version new := by
  cases m with
  | deliver acc =>
      obtain ⟨rfl, rfl⟩ := Prod.mk.inj (Option.some.inj hw)
      exact ⟨acc, rfl, hin old hold⟩
  | call kind pubkey => cases hw
  | answer query account =>
      cases account with
      | found lamports token =>
          obtain ⟨p, hp, heq⟩ := Option.map_eq_some_iff.mp hw
          obtain ⟨rfl, rfl⟩ := Prod.mk.inj heq
          refine ⟨_, rfl, ?_⟩
          rw [hinv.unversioned p.2 old (hin p hp) hold]
          exact version_nonneg _
      | notFound =>
          obtain ⟨p, hp, heq⟩ := Option.map_eq_some_iff.mp hw
          obtain ⟨rfl, rfl⟩ := Prod.mk.inj heq
          rw [hin p hp] at hold
          cases hold
      | failed => cases hw
  | startMonitoring pubkey =>
      obtain ⟨rfl, rfl⟩ := Prod.mk.inj (Option.some.inj hw)
      rw [show t.1.data pubkey = none from hin] at hold
      cases hold
  | stopMonitoring pubkey =>
      obtain ⟨rfl, -⟩ := Prod.mk.inj (Option.some.inj hw)
      exact absurd rfl hm

/-- **NO ACCOUNT GOES BACK**, unless it is dropped. -/
theorem version_kept {t : Accounts × (Pubkey → Option AccountPretty)} {a' : Accounts}
    {m : Move} {out : List Reply} (hinv : Inv t) (hin : InOrder t m)
    (hstep : accounts t.1 m = some (a', out)) {k : Pubkey} (hm : m ≠ .stopMonitoring k)
    {old : AccountPretty} (hold : t.1.data k = some old) :
    ∃ new, a'.data k = some new ∧ version old ≤ version new := by
  rw [data_step hstep k]
  cases hw : written t.1 m with
  | none => exact ⟨old, hold, le_rfl⟩
  | some w =>
      rw [Option.elim_some]
      by_cases hk : k = w.1
      · subst hk
        rw [if_pos rfl]
        exact written_newer hinv hin hw hm hold
      · rw [if_neg hk]
        exact ⟨old, hold, le_rfl⟩

/-- An update that comes in order is the newest. -/
theorem note_deliver {t : Accounts × (Pubkey → Option AccountPretty)} (hinv : Inv t)
    {acc : AccountPretty} (hin : InOrder t (.deliver acc)) (a' : Accounts) (out : List Reply) :
    note t.2 t.1 (.deliver acc) a' out = Function.update t.2 acc.pubkey (some acc) := by
  have hnot : ¬ (t.2 acc.pubkey).any (fun n => decide (version acc < version n)) = true := by
    intro h
    obtain ⟨n, hn, hlt⟩ := (Option.any_eq_true ..).mp h
    exact absurd (of_decide_eq_true hlt) (not_lt_of_ge (hin n (hinv.newest _ n hn)))
  exact if_neg hnot

/-- Nothing is written. -/
theorem Inv.same {t : Accounts × (Pubkey → Option AccountPretty)} (hinv : Inv t)
    {a' : Accounts} (hdata : ∀ k, a'.data k = t.1.data k) : Inv (a', t.2) :=
  ⟨fun k n hn => (hdata k).trans (hinv.newest k n hn),
    fun k old hnone hold => hinv.unversioned k old hnone ((hdata k).symm.trans hold)⟩

/-- Something without a version is written where the feed has delivered nothing. -/
theorem Inv.write {t : Accounts × (Pubkey → Option AccountPretty)} (hinv : Inv t)
    {a' : Accounts} {w : Pubkey} {d : Option AccountPretty}
    (hdata : ∀ k, a'.data k = if k = w then d else t.1.data k) (hnone : t.2 w = none)
    (hd : ∀ new, d = some new → version new = toLex (0, 0)) : Inv (a', t.2) := by
  constructor
  · intro k n hn
    have hk : k ≠ w := by
      rintro rfl
      rw [hnone] at hn
      cases hn
    exact (hdata k).trans ((if_neg hk).trans (hinv.newest k n hn))
  · intro k old hk hold
    have hold' : (if k = w then d else t.1.data k) = some old := (hdata k).symm.trans hold
    by_cases hkw : k = w
    · rw [if_pos hkw] at hold'
      exact hd old hold'
    · rw [if_neg hkw] at hold'
      exact hinv.unversioned k old hk hold'

/-- The feed has delivered nothing for an account without data. -/
theorem Inv.newest_none {t : Accounts × (Pubkey → Option AccountPretty)} (hinv : Inv t)
    {k : Pubkey} (h : t.1.data k = none) : t.2 k = none := by
  cases hn : t.2 k with
  | none => rfl
  | some n =>
      have hdata := hinv.newest k n hn
      rw [h] at hdata
      cases hdata

/-- The newest update of an account is written. -/
theorem Inv.deliver {t : Accounts × (Pubkey → Option AccountPretty)} (hinv : Inv t)
    {a' : Accounts} {acc : AccountPretty}
    (hdata : ∀ k, a'.data k = if k = acc.pubkey then some acc else t.1.data k) :
    Inv (a', Function.update t.2 acc.pubkey (some acc)) := by
  constructor
  · intro k n hn
    have hn' : Function.update t.2 acc.pubkey (some acc) k = some n := hn
    refine (hdata k).trans ?_
    by_cases hk : k = acc.pubkey
    · subst hk
      rw [Function.update_self] at hn'
      rw [if_pos rfl]
      exact hn'
    · rw [Function.update_of_ne hk] at hn'
      rw [if_neg hk]
      exact hinv.newest k n hn'
  · intro k old hnone hold
    have hnone' : Function.update t.2 acc.pubkey (some acc) k = none := hnone
    have hk : k ≠ acc.pubkey := by
      rintro rfl
      rw [Function.update_self] at hnone'
      cases hnone'
    rw [Function.update_of_ne hk] at hnone'
    have hsame : a'.data k = t.1.data k := (hdata k).trans (if_neg hk)
    exact hinv.unversioned k old hnone' (hsame.symm.trans hold)

/-- An account is dropped. -/
theorem Inv.drop {t : Accounts × (Pubkey → Option AccountPretty)} (hinv : Inv t)
    {a' : Accounts} {pubkey : Pubkey}
    (hdata : ∀ k, a'.data k = if k = pubkey then none else t.1.data k) :
    Inv (a', Function.update t.2 pubkey none) := by
  constructor
  · intro k n hn
    have hn' : Function.update t.2 pubkey none k = some n := hn
    have hk : k ≠ pubkey := by
      rintro rfl
      rw [Function.update_self] at hn'
      cases hn'
    rw [Function.update_of_ne hk] at hn'
    exact (hdata k).trans ((if_neg hk).trans (hinv.newest k n hn'))
  · intro k old hnone hold
    have hnone' : Function.update t.2 pubkey none k = none := hnone
    have hold' : (if k = pubkey then none else t.1.data k) = some old :=
      (hdata k).symm.trans hold
    by_cases hk : k = pubkey
    · rw [if_pos hk] at hold'
      cases hold'
    · rw [if_neg hk] at hold'
      rw [Function.update_of_ne hk] at hnone'
      exact hinv.unversioned k old hnone' hold'

/-- **WHAT ONE MOVE KEEPS.** -/
theorem accounts_kept {t : Accounts × (Pubkey → Option AccountPretty)} {a' : Accounts}
    {m : Move} {out : List Reply} (hinv : Inv t) (hin : InOrder t m)
    (hstep : accounts t.1 m = some (a', out)) : Inv (a', note t.2 t.1 m a' out) := by
  have hdata := data_step hstep
  cases m with
  | deliver acc =>
      rw [note_deliver hinv hin]
      exact hinv.deliver hdata
  | call kind pubkey => exact hinv.same hdata
  | answer query account =>
      cases account with
      | failed => exact hinv.same hdata
      | found lamports token =>
          cases hq : t.1.asked[query]? with
          | none => rw [accounts, hq] at hstep; cases hstep
          | some p =>
              simp only [written, hq, Option.map_some, Option.elim_some] at hdata
              refine hinv.write hdata (hin p hq) ?_
              rintro new ⟨⟩
              rfl
      | notFound =>
          cases hq : t.1.asked[query]? with
          | none => rw [accounts, hq] at hstep; cases hstep
          | some p =>
              simp only [written, hq, Option.map_some, Option.elim_some] at hdata
              refine hinv.write hdata (hinv.newest_none (hin p hq)) ?_
              rintro new ⟨⟩
  | startMonitoring pubkey =>
      refine hinv.write hdata (hinv.newest_none hin) ?_
      rintro new ⟨⟩
  | stopMonitoring pubkey => exact hinv.drop hdata

-- ── Runs ────────────────────────────────────────────────────────────────────

/-- No account is known, and nothing is asked. -/
def begin (pools : Pubkey → Option RaydiumPool)
    (prices : Pubkey → Option RaydiumPoolPriceUpdate) :
    Accounts × (Pubkey → Option AccountPretty) :=
  (⟨OperationalCache.new pools prices, []⟩, fun _ => none)

theorem begin_inv (pools : Pubkey → Option RaydiumPool)
    (prices : Pubkey → Option RaydiumPoolPriceUpdate) : Inv (begin pools prices) :=
  ⟨fun k n h => (by cases h), fun k old _ h => (by cases h)⟩

/-- The cache has the newest update of every account, and both functions answer with it. -/
def NewestCached (t : Accounts × (Pubkey → Option AccountPretty)) : Prop :=
  ∀ k n, t.2 k = some n → t.1.data k = some n ∧ ∀ kind,
    accounts t.1 (.call kind k) = some (t.1, [⟨kind, k, .ok (balanceIn kind n)⟩])

/-- Until it is dropped an account is never replaced by "no data" or by something older. -/
def NeverBack (C : Accounts × (Pubkey → Option AccountPretty) → Move → Prop)
    (t : Accounts × (Pubkey → Option AccountPretty)) : Prop :=
  ∀ k t', Reach (tracked accounts note) (fun s m => C s m ∧ m ≠ .stopMonitoring k) t t' →
    ∀ old, t.1.data k = some old →
      ∃ new, t'.1.data k = some new ∧ version old ≤ version new

theorem inv_of_reach {C : Accounts × (Pubkey → Option AccountPretty) → Move → Prop}
    (hC : ∀ s m, C s m → InOrder s m) {t t' : Accounts × (Pubkey → Option AccountPretty)}
    (hinv : Inv t) (h : Reach (tracked accounts note) C t t') : Inv t' := by
  refine Reach.invariant hinv ?_ h
  intro s m s' out hs hm hstep
  obtain ⟨hmove, hnote⟩ := tracked_eq_some hstep
  have hkept := accounts_kept hs (hC s m hm) hmove
  rw [← hnote] at hkept
  exact hkept

/-- **THE CACHE HAS THE NEWEST UPDATE OF EVERY ACCOUNT, AND NEVER GOES BACK**, in every
    state of every run whose moves write nothing older than what is there. -/
theorem newest_cached {pools : Pubkey → Option RaydiumPool}
    {prices : Pubkey → Option RaydiumPoolPriceUpdate}
    {t : Accounts × (Pubkey → Option AccountPretty)}
    (h : Reach (tracked accounts note) InOrder (begin pools prices) t) :
    NewestCached t ∧ NeverBack InOrder t := by
  have hinv := inv_of_reach (fun _ _ h => h) (begin_inv pools prices) h
  constructor
  · intro k n hn
    have hdata := hinv.newest k n hn
    refine ⟨hdata, ?_⟩
    intro kind
    rw [accounts, show (t.1.cache.getAccount k).join = some n from hdata]
  · intro k t' hreach old hold
    induction hreach with
    | init => exact ⟨old, hold, le_rfl⟩
    | next hprev hC hstep ih =>
        obtain ⟨mid, hmid, hle⟩ := ih
        have hinv' := inv_of_reach (fun _ _ h => h.1) hinv hprev
        obtain ⟨new, hnew, hle'⟩ :=
          version_kept hinv' hC.1 (tracked_eq_some hstep).1 hC.2 hmid
        exact ⟨new, hnew, hle.trans hle'⟩

-- ── Updates in order, and a late answer ─────────────────────────────────────

/-- A wallet with this many lamports in this slot. -/
def walletAt (slot lamports : UInt64) : AccountPretty := ⟨slot, ⟨7⟩, lamports, none, 1, none⟩

/-- The wallet is monitored, and updated twice. -/
theorem updates_in_order_cached :
    ∃ t : Accounts × (Pubkey → Option AccountPretty),
      t.1.data ⟨7⟩ = some (walletAt 6 60) ∧ NewestCached t := by
  have hmonitored : Reach (tracked accounts note) InOrder (begin (fun _ => none) fun _ => none) _ :=
    Reach.next (i := .startMonitoring ⟨7⟩) Reach.init rfl rfl
  refine ⟨_, ?_, (newest_cached (Reach.next (i := .deliver (walletAt 6 60))
    (Reach.next (i := .deliver (walletAt 5 50)) hmonitored ?_ rfl) ?_ rfl)).1⟩
  · rfl
  · intro old h
    cases h
  · intro old h
    obtain rfl : walletAt 5 50 = old := Option.some.inj h
    decide

/-- **A LATE ANSWER FORGETS AN UPDATE**: a node does not know the wallet yet, the feed
    delivers its first update, and then the node's answer is written. -/
theorem late_answer_forgets :
    ¬ ∀ (pools : Pubkey → Option RaydiumPool) (prices : Pubkey → Option RaydiumPoolPriceUpdate)
      (t : Accounts × (Pubkey → Option AccountPretty)),
      Reach (tracked accounts note) Always (begin pools prices) t →
      NewestCached t ∧ NeverBack Always t := by
  intro hclaim
  have hasked : Reach (tracked accounts note) Always (begin (fun _ => none) fun _ => none) _ :=
    Reach.next (i := .call .sol ⟨7⟩) Reach.init trivial rfl
  have hdelivered := Reach.next (i := .deliver (walletAt 5 50)) hasked trivial rfl
  have hanswered := Reach.next (i := .answer 0 .notFound) hdelivered trivial rfl
  have hdata := ((hclaim _ _ _ hanswered).1 ⟨7⟩ (walletAt 5 50) rfl).1
  cases hdata

end FoxfireAccounts
