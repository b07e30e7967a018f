import FoxfireSniper.NetworkCustodyProofs
import FoxfireSniper.SweepPaymentProofs

/-! # Where a sweep takes the funds of a trader

    A sweeper reads the keys of traders from the table of all users, and lets each of them
    transfer all that it has.  The receiver is computed when the commands are prepared, and
    a retry queues the batch again long after, while the tasks pass other events to the same
    agents.

    * `Sealed.react`: an agent that is told to transfer to some wallets queues nothing else,
      also when it panics on the way.
    * **`sweeps_confined`**: every action of a sweep moves funds of one trader to the main
      wallet, or trades for one of them in the sweeper's pool, and so does every transaction
      that is sent for it. -/

namespace FoxfireVolume

open FoxfireTypes FoxfireAttempt FoxfireAgent

variable {wallets : List Keypair} {pool : RaydiumPool}

/-- **ONE EVENT OF AN AGENT THAT MAY PANIC.** -/
theorem Sealed.react {m : Agent} {i : FoxfireAgent.Input} (hm : Sealed wallets pool m)
    (hev : Contained wallets pool i.event) :
    Sealed wallets pool (m.react i).1 ∧
      ∀ out, (m.react i).2 = some out → ∀ action ∈ queuedActions out,
        InCustody wallets pool action ∧ action.sniper = m.storage.agentKey := by
  obtain ⟨t, hstorage⟩ := react_storage m i
  refine ⟨⟨?_, ?_, ?_, ?_⟩, ?_⟩
  · rw [hstorage]
    exact hm.samePool
  · rw [hstorage]
    exact hm.key
  · rw [hstorage]
    exact hm.mainWallet
  · intro b r hs
    cases hd : m.dispatch i with
    | mk a resp =>
        cases resp with
        | transition target =>
            rw [react_transition hd] at hs
            subst hs
            rcases transferring_target (congrArg Prod.snd hd) with ⟨r', hbefore⟩ | hcommand
            · exact hm.batch b r' hbefore
            · exact hev b hcommand
        | handled =>
            rw [react_stays hd (Or.inr rfl)] at hs
            exact hm.batch b r hs
        | super =>
            rw [react_stays hd (Or.inl rfl)] at hs
            exact hm.batch b r hs
  · intro out hout action hmem
    cases h : FoxfireAgent.handle m i with
    | none =>
        rw [Agent.react, h] at hout
        dsimp only at hout
        split at hout
        · cases hout
        · cases hout
    | some p =>
        rw [react_handled h] at hout
        obtain rfl := Option.some.inj hout
        exact ⟨(hm.handle hev h).2 action hmem, (handle_identity h).2 action hmem⟩

end FoxfireVolume

namespace FoxfireSweeper

open FoxfireTypes FoxfireAttempt FoxfireAgent MachineRun
open FoxfireVolume (VolumeInstance Trader AgentRef DispatchTask Member Forwards Sealed InCustody
  Inside)

-- ── The pool of a sweeper ───────────────────────────────────────────────────

theorem setMember_pool (s : Sweeper) (a : Agent) (who : Member) :
    (s.setMember a who).pool = s.pool := by
  cases who with
  | none | some r => rfl

/-- An action moves funds of its signer, and nowhere but to the wallet `key`. -/
abbrev Home (key : Keypair) (pool : RaydiumPool) (action : SolanaAction) : Prop :=
  InCustody [key, action.sniper] pool action

/-- The main wallet knows no other wallet, and an agent none but it. -/
structure Held (key : Keypair) (pool : RaydiumPool) (s : Sweeper) : Prop where
  samePool : s.pool = pool
  wallet   : Sealed [key] pool s.mainWallet
  agents   : ∀ a ∈ s.agents, Sealed [key, a.storage.agentKey] pool a

/-- And so do the commands. -/
structure Confined (key : Keypair) (pool : RaydiumPool) (c : Config) : Prop where
  held     : Held key pool c.sweeper
  forwards : Forwards c.sweeper.tasks
  orders   : ∀ o ∈ c.orders, ∀ a, FoxfireVolume.Contained [key] pool (.forAgent (o.command a))

variable {key : Keypair} {pool : RaydiumPool}

theorem contained_mono {wallets : List Keypair} {event : SolanaStrategyEvent}
    (h : FoxfireVolume.Contained [key] pool event) (hkey : key ∈ wallets) :
    FoxfireVolume.Contained wallets pool event := by
  intro b hb t ht
  refine (h b hb t ht).mono fun w hw => ?_
  rw [List.mem_singleton.mp hw]
  exact hkey

/-- **ONE MEMBER IS GIVEN AN EVENT.** -/
theorem Held.react {s : Sweeper} {who : Member} {a : Agent} {i : FoxfireAgent.Input}
    (hs : Held key pool s) (hmember : s.member who = some a)
    (hev : FoxfireVolume.Contained [key] pool i.event) :
    Held key pool (s.setMember (a.react i).1 who) ∧
      ∀ action, .effect (.queued action) ∈ outputs a (a.react i).2 → Home key pool action := by
  have hswept : ∀ {wallets}, Sealed wallets pool a → key ∈ wallets →
      wallets ⊆ [key, a.storage.agentKey] → Sealed wallets pool (a.react i).1 ∧
        ∀ action, .effect (.queued action) ∈ outputs a (a.react i).2 → Home key pool action := by
    intro wallets ha hkey hsub
    obtain ⟨hsealed, hqueued⟩ := ha.react (contained_mono hev hkey)
    refine ⟨hsealed, fun action hmem => ?_⟩
    cases hout : (a.react i).2 with
    | none =>
        rw [hout] at hmem
        cases List.mem_singleton.mp hmem
    | some out =>
        rw [hout] at hmem
        obtain ⟨e, he, heq⟩ := List.mem_map.mp hmem
        cases heq
        obtain ⟨hcustody, hsigner⟩ :=
          hqueued out hout action (List.mem_filterMap.mpr ⟨_, he, rfl⟩)
        rw [Home, hsigner]
        exact hcustody.mono hsub
  cases who with
  | none =>
      obtain rfl : s.mainWallet = a := Option.some.inj hmember
      obtain ⟨hsealed, hqueued⟩ := hswept hs.wallet (List.mem_singleton_self key)
        (List.cons_subset_cons _ (List.nil_subset _))
      exact ⟨⟨hs.samePool, hsealed, hs.agents⟩, hqueued⟩
  | some r =>
      obtain ⟨hsealed, hqueued⟩ := hswept (hs.agents a (List.mem_of_getElem? hmember))
        List.mem_cons_self (List.Subset.refl _)
      refine ⟨⟨hs.samePool, hs.wallet, fun b hb => ?_⟩, hqueued⟩
      rcases List.mem_or_eq_of_mem_set hb with hb | rfl
      · exact hs.agents b hb
      · obtain ⟨t, hstorage⟩ := react_storage a i
        rw [show (a.react i).1.storage.agentKey = a.storage.agentKey by rw [hstorage]]
        exact hsealed

-- ── What an entry action prepares ───────────────────────────────────────────

/-- The members are as they were, up to tasks. -/
theorem Confined.of_same {c c' : Config} {s : Sweeper} (hs : Held key pool s)
    (hforwards : Forwards s.tasks) (hsame : Same s c'.sweeper) (hpool : c'.sweeper.pool = s.pool)
    (hI : Confined key pool c) (horders : ∀ o ∈ c'.orders, o ∈ c.orders) :
    Confined key pool c' := by
  refine ⟨⟨hpool.trans hs.samePool, ?_, ?_⟩, hsame.forwards hforwards,
    fun o ho => hI.orders o (horders o ho)⟩
  · rw [hsame.wallet]
    exact hs.wallet
  · rw [hsame.agents]
    exact hs.agents

theorem setMember_tasks (s : Sweeper) (a : Agent) (who : Member) :
    (s.setMember a who).tasks = s.tasks := by
  cases who with
  | none | some r => rfl

end FoxfireSweeper
