import Mathlib.Data.Finset.Basic
import FoxfireSniper.AccountCacheProofs

/-! # Which accounts the feed is subscribed to

    `geyser_feed` of `src/collectors/tx_stream/geyser_feed.rs` beside the functions that
    change the keys of the account cache.  A task waits for a notification, compares the
    keys with the ones it remembers, and if they differ reads them once more and sends a
    request with them.  Monitoring, its end, and "account not found" change a key and then
    notify; an update that is stored, and a node's answer with data, add a key and notify
    nobody.

    The key set of the map stands beside the cache (`Watched`).  `due` counts the functions
    that have changed a key and come to their `send` next.

    * `feed_heard`: WHAT ONE MOVE KEEPS.
    * **`keys_subscribed`**: when keys are only added without a notification while the task
      will still read them, and the task only finds its remembered keys again if it has
      sent them, then keys that are not subscribed have a notification pending. -/

namespace FoxfireSubscription

open FoxfireTypes FoxfireCache FoxfireCollector FoxfireAccounts NoRollback MachineRun

-- ── Keys ────────────────────────────────────────────────────────────────────

/-- The keys of the account cache after a move. -/
def keysAfter (a : Accounts) (keys : Finset Pubkey) : Move → Finset Pubkey
  | .deliver acc             => insert acc.pubkey keys
  | .answer query (.found ..) => (a.asked[query]?).elim keys fun p => insert p.2 keys
  | .answer query .notFound  => (a.asked[query]?).elim keys fun p => insert p.2 keys
  | .startMonitoring pubkey  => insert pubkey keys
  | .stopMonitoring pubkey   => keys.erase pubkey
  | _                        => keys

theorem isSome_updateAccount (cache : OperationalCache) (w k : Pubkey)
    (account : Option AccountPretty) :
    ((cache.updateAccount w account).getAccount k).isSome ↔
      k = w ∨ (cache.getAccount k).isSome := by
  by_cases hk : k = w
  · subst hk
    rw [getAccount_updateAccount_self]
    exact ⟨fun _ => Or.inl rfl, fun _ => rfl⟩
  · rw [getAccount_updateAccount_other _ hk]
    exact ⟨Or.inr, fun h => h.resolve_left hk⟩

/-- The keys are those of the map. -/
theorem mem_keysAfter {a a' : Accounts} {keys : Finset Pubkey} {m : Move} {out : List Reply}
    (hkeys : ∀ k, k ∈ keys ↔ (a.cache.getAccount k).isSome)
    (h : accounts a m = some (a', out)) (k : Pubkey) :
    k ∈ keysAfter a keys m ↔ (a'.cache.getAccount k).isSome := by
  have hinsert : ∀ w account, k ∈ insert w keys ↔
      ((a.cache.updateAccount w account).getAccount k).isSome := by
    intro w account
    rw [Finset.mem_insert, isSome_updateAccount, hkeys]
  rw [cache_step h]
  cases m with
  | deliver acc => exact hinsert acc.pubkey (some acc)
  | call kind pubkey => exact hkeys k
  | answer query account =>
      rw [cacheAfter]
      cases account with
      | found lamports token =>
          rw [keysAfter]
          cases a.asked[query]? with
          | none => exact hkeys k
          | some p => exact hinsert p.2 _
      | notFound =>
          rw [keysAfter]
          cases a.asked[query]? with
          | none => exact hkeys k
          | some p => exact hinsert p.2 none
      | failed =>
          cases a.asked[query]? with
          | none => exact hkeys k
          | some p => exact hkeys k
  | startMonitoring pubkey => exact hinsert pubkey none
  | stopMonitoring pubkey =>
      show k ∈ keys.erase pubkey ↔ ((a.cache.dropAccountMonitoring pubkey).getAccount k).isSome
      rw [Finset.mem_erase, hkeys]
      by_cases hk : k = pubkey
      · subst hk
        rw [getAccount_drop_self]
        exact ⟨fun h => absurd rfl h.1, fun h => (by cases h)⟩
      · rw [getAccount_drop_other _ hk]
        exact ⟨fun h => h.2, fun h => ⟨hk, h⟩⟩

/-- The account cache, with the keys of its map. -/
structure Watched where
  accounts : Accounts
  keys     : Finset Pubkey
  mem_keys : ∀ k, k ∈ keys ↔ (accounts.cache.getAccount k).isSome

def Watched.act (w : Watched) (m : Move) : Option (Watched × List Reply) :=
  match h : FoxfireAccounts.accounts w.accounts m with
  | some (a, out) => some (⟨a, keysAfter w.accounts w.keys m, mem_keysAfter w.mem_keys h⟩, out)
  | none          => none

theorem Watched.act_eq_some {w w' : Watched} {m : Move} {out : List Reply}
    (h : w.act m = some (w', out)) :
    FoxfireAccounts.accounts w.accounts m = some (w'.accounts, out) ∧
      w'.keys = keysAfter w.accounts w.keys m := by
  rw [Watched.act] at h
  split at h
  · next a o hact =>
      obtain ⟨rfl, rfl⟩ := Prod.mk.inj (Option.some.inj h)
      exact ⟨hact, rfl⟩
  · cases h

-- ── The subscription ────────────────────────────────────────────────────────

/-- Where the feed is: in its first lines, or in the loop of its task. -/
inductive Phase where
  /-- The receiver has been created. -/
  | starting
  /-- The first request has been read, and is being sent. -/
  | connecting (request : Finset Pubkey)
  | connected
  /-- `account_rx.changed().await` -/
  | waiting
  | comparing
  /-- The keys have changed; `get_account_filters` reads them again. -/
  | filtering
  | sending (request : Finset Pubkey)
  deriving DecidableEq

structure Feed where
  watched        : Watched
  due            : Nat
  /-- The receiver has not seen the last notification. -/
  changed        : Bool
  phase          : Phase
  /-- The accounts of the last request. -/
  subscribed     : Finset Pubkey
  cachedAccounts : Finset Pubkey

/-- `geyser_resubscribe_account_tx_notify.send(())` comes next. -/
def notifies : Move → Bool
  | .answer _ .notFound => true
  | .startMonitoring _  => true
  | .stopMonitoring _   => true
  | _                   => false

inductive FeedMove where
  | act (m : Move)
  | notify
  /-- The next step of `geyser_feed`. -/
  | task

/-- The next step of `geyser_feed`. -/
def Feed.task (f : Feed) : Option Feed :=
  match f.phase with
  | .starting           => some { f with phase := .connecting f.watched.keys }
  | .connecting request => some { f with phase := .connected, subscribed := request }
  | .connected          =>
      some { f with phase := .waiting, cachedAccounts := f.watched.keys }
  | .waiting            =>
      if f.changed then some { f with phase := .comparing, changed := false } else none
  | .comparing          =>
      if f.watched.keys = f.cachedAccounts then some { f with phase := .waiting }
      else some { f with phase := .filtering, cachedAccounts := f.watched.keys }
  | .filtering          => some { f with phase := .sending f.watched.keys }
  | .sending request    => some { f with phase := .waiting, subscribed := request }

def feed : Step Feed FeedMove Reply
  | f, .act m  => (f.watched.act m).map fun p =>
      ({ f with watched := p.1, due := if notifies m then f.due + 1 else f.due }, p.2)
  | f, .notify =>
      if 0 < f.due then some ({ f with due := f.due - 1, changed := true }, []) else none
  | f, .task   => f.task.map fun f' => (f', [])

-- ── Pending notifications ───────────────────────────────────────────────────

/-- A request has been sent. -/
def Phase.requested : Phase → Bool
  | .starting     => false
  | .connecting _ => false
  | _             => true

/-- The task has seen a notification, and not yet sent what follows from it. -/
def Phase.handling : Phase → Bool
  | .comparing => true
  | .filtering => true
  | .sending _ => true
  | _          => false

/-- A notification is about to be sent, or has not been seen, or is being handled. -/
def Feed.Pending (f : Feed) : Prop :=
  0 < f.due ∨ f.changed = true ∨ f.phase.handling = true

/-- The feed is going to read the keys. -/
def Phase.reads : Phase → Bool
  | .starting  => true
  | .comparing => true
  | .filtering => true
  | _          => false

def Feed.Looks (f : Feed) : Prop := 0 < f.due ∨ f.changed = true ∨ f.phase.reads = true

/-- Keys are only added without a notification while the feed is going to read them, and
    the task finds its remembered keys again only if it has sent them, or will look again. -/
def Heard (f : Feed) : FeedMove → Prop
  | .act (.deliver acc)              => acc.pubkey ∈ f.watched.keys ∨ f.Looks
  | .act (.answer query (.found ..)) => ∀ p, f.watched.accounts.asked[query]? = some p →
      p.2 ∈ f.watched.keys ∨ f.Looks
  | .task                            => f.phase = .comparing →
      f.watched.keys = f.cachedAccounts →
      f.watched.keys = f.subscribed ∨ 0 < f.due ∨ f.changed = true
  | _                                => True

/-- The accounts of the last request, or of the one under way. -/
def Feed.heading (f : Feed) : Finset Pubkey :=
  match f.phase with
  | .connecting request => request
  | .sending request    => request
  | _                   => f.subscribed

/-- The feed is going to read the keys, or has asked for them. -/
def Inv (f : Feed) : Prop := f.Looks ∨ f.watched.keys = f.heading

-- ── What one move keeps ─────────────────────────────────────────────────────

/-- A move of the accounts leaves the feed where it is. -/
theorem act_cases {f f' : Feed} {m : Move} {out : List Reply}
    (h : feed f (.act m) = some (f', out)) :
    accounts f.watched.accounts m = some (f'.watched.accounts, out) ∧
      f'.watched.keys = keysAfter f.watched.accounts f.watched.keys m ∧
      f'.due = (if notifies m then f.due + 1 else f.due) ∧ f'.changed = f.changed ∧
      f'.phase = f.phase ∧ f'.subscribed = f.subscribed := by
  obtain ⟨p, hp, heq⟩ := Option.map_eq_some_iff.mp h
  obtain ⟨rfl, rfl⟩ := Prod.mk.inj heq
  obtain ⟨hact, hkeys⟩ := Watched.act_eq_some hp
  exact ⟨hact, hkeys, rfl, rfl, rfl, rfl⟩

/-- A notifying move is followed by its notification. -/
theorem looks_of_notifies {f f' : Feed} {m : Move} {out : List Reply}
    (h : feed f (.act m) = some (f', out)) (hm : notifies m = true) : f'.Looks := by
  obtain ⟨-, -, hdue, -⟩ := act_cases h
  rw [if_pos hm] at hdue
  refine Or.inl ?_
  rw [hdue]
  exact Nat.succ_pos f.due

/-- A move that does not notify keeps what is pending. -/
theorem looks_of_act {f f' : Feed} {m : Move} {out : List Reply}
    (h : feed f (.act m) = some (f', out)) (hm : notifies m = false) (hf : f.Looks) :
    f'.Looks := by
  obtain ⟨-, -, hdue, hchanged, hphase, -⟩ := act_cases h
  rw [hm] at hdue
  rw [Feed.Looks, hdue, hchanged, hphase]
  exact hf

/-- A move that neither notifies nor adds a key keeps the invariant. -/
theorem inv_of_same {f f' : Feed} {m : Move} {out : List Reply} (hinv : Inv f)
    (h : feed f (.act m) = some (f', out)) (hm : notifies m = false)
    (hkeys : keysAfter f.watched.accounts f.watched.keys m = f.watched.keys) : Inv f' := by
  rcases hinv with hlooks | hsame
  · exact Or.inl (looks_of_act h hm hlooks)
  · obtain ⟨-, hkeys', -, -, hphase, hsub⟩ := act_cases h
    refine Or.inr ?_
    rw [hkeys', hkeys, hsame, Feed.heading, Feed.heading, hphase, hsub]

/-- A move that adds a key without a notification. -/
theorem inv_of_insert {f f' : Feed} {m : Move} {out : List Reply} {k : Pubkey} (hinv : Inv f)
    (h : feed f (.act m) = some (f', out)) (hm : notifies m = false)
    (hkeys : keysAfter f.watched.accounts f.watched.keys m = insert k f.watched.keys)
    (hk : k ∈ f.watched.keys ∨ f.Looks) : Inv f' := by
  rcases hk with hk | hlooks
  · exact inv_of_same hinv h hm (hkeys.trans (Finset.insert_eq_of_mem hk))
  · exact Or.inl (looks_of_act h hm hlooks)

/-- The steps of the accounts. -/
theorem act_heard {f f' : Feed} {m : Move} {out : List Reply} (hinv : Inv f)
    (hheard : Heard f (.act m)) (h : feed f (.act m) = some (f', out)) : Inv f' := by
  cases m with
  | deliver acc => exact inv_of_insert hinv h rfl rfl hheard
  | call kind pubkey => exact inv_of_same hinv h rfl rfl
  | answer query account =>
      cases account with
      | failed => exact inv_of_same hinv h rfl rfl
      | notFound => exact Or.inl (looks_of_notifies h rfl)
      | found lamports token =>
          cases hq : f.watched.accounts.asked[query]? with
          | none =>
              refine inv_of_same hinv h rfl ?_
              rw [keysAfter, hq]
              rfl
          | some p =>
              refine inv_of_insert hinv h rfl ?_ (hheard p hq)
              rw [keysAfter, hq]
              rfl
  | startMonitoring pubkey => exact Or.inl (looks_of_notifies h rfl)
  | stopMonitoring pubkey => exact Or.inl (looks_of_notifies h rfl)

/-- The steps of the feed. -/
theorem task_heard {f f' : Feed} (hinv : Inv f) (hheard : Heard f .task)
    (h : f.task = some f') : Inv f' := by
  rw [Feed.task] at h
  cases hphase : f.phase with
  | starting =>
      rw [hphase] at h
      obtain rfl := Option.some.inj h
      exact Or.inr rfl
  | connecting request =>
      rw [hphase] at h
      obtain rfl := Option.some.inj h
      rw [Inv, Feed.Looks, Feed.heading, hphase] at hinv
      exact hinv
  | connected =>
      rw [hphase] at h
      obtain rfl := Option.some.inj h
      rw [Inv, Feed.Looks, Feed.heading, hphase] at hinv
      exact hinv
  | waiting =>
      rw [hphase] at h
      dsimp only at h
      split at h
      · obtain rfl := Option.some.inj h
        exact Or.inl (Or.inr (Or.inr rfl))
      · cases h
  | comparing =>
      rw [hphase] at h
      dsimp only at h
      split at h
      · next hkeys =>
          -- the task goes back to sleep
          obtain rfl := Option.some.inj h
          rcases hheard hphase hkeys with hsub | hdue | hchanged
          · exact Or.inr hsub
          · exact Or.inl (Or.inl hdue)
          · exact Or.inl (Or.inr (Or.inl hchanged))
      · obtain rfl := Option.some.inj h
        exact Or.inl (Or.inr (Or.inr rfl))
  | filtering =>
      rw [hphase] at h
      obtain rfl := Option.some.inj h
      exact Or.inr rfl
  | sending request =>
      rw [hphase] at h
      obtain rfl := Option.some.inj h
      rw [Inv, Feed.Looks, Feed.heading, hphase] at hinv
      exact hinv

/-- **WHAT ONE MOVE KEEPS.** -/
theorem feed_heard {f f' : Feed} {i : FeedMove} {out : List Reply} (hinv : Inv f)
    (hheard : Heard f i) (h : feed f i = some (f', out)) : Inv f' := by
  cases i with
  | act m => exact act_heard hinv hheard h
  | notify =>
      rw [feed] at h
      split at h
      · obtain ⟨rfl, -⟩ := Prod.mk.inj (Option.some.inj h)
        exact Or.inl (Or.inr (Or.inl rfl))
      · cases h
  | task =>
      obtain ⟨f'', hf, heq⟩ := Option.map_eq_some_iff.mp h
      obtain ⟨rfl, -⟩ := Prod.mk.inj heq
      exact task_heard hinv hheard hf

-- ── Runs ────────────────────────────────────────────────────────────────────

/-- The feed starts beside whatever is cached. -/
def begin (w : Watched) (due : Nat) : Feed where
  watched := w
  due := due
  changed := false
  phase := .starting
  subscribed := ∅
  cachedAccounts := ∅

/-- Once a request has been sent, keys that differ from its accounts have a notification
    pending; so an account whose balance is answered from the cache is subscribed, or a
    notification is pending. -/
def Synced (f : Feed) : Prop :=
  f.phase.requested = true →
    (f.watched.keys ≠ f.subscribed → f.Pending) ∧
    ∀ k acc, f.watched.accounts.data k = some acc → k ∈ f.subscribed ∨ f.Pending

/-- After the first request only the task reads the keys. -/
theorem handling_of_reads {p : Phase} (hrequested : p.requested = true) (h : p.reads = true) :
    p.handling = true := by
  cases p with
  | starting => cases hrequested
  | connecting _ => cases hrequested
  | connected => cases h
  | waiting => cases h
  | comparing => rfl
  | filtering => rfl
  | sending _ => cases h

/-- And only the task has a request under way. -/
theorem handling_or_subscribed {f : Feed} (hrequested : f.phase.requested = true) :
    f.phase.handling = true ∨ f.heading = f.subscribed := by
  rw [Feed.heading]
  cases hphase : f.phase with
  | starting => rw [hphase] at hrequested; cases hrequested
  | connecting _ => rw [hphase] at hrequested; cases hrequested
  | sending _ => exact Or.inl rfl
  | connected => exact Or.inr rfl
  | waiting => exact Or.inr rfl
  | comparing => exact Or.inl rfl
  | filtering => exact Or.inl rfl

theorem synced_of_inv {f : Feed} (hinv : Inv f) : Synced f := by
  intro hrequested
  have hdiffer : f.watched.keys ≠ f.subscribed → f.Pending := by
    intro hne
    rcases hinv with (hdue | hchanged | hreads) | hsame
    · exact Or.inl hdue
    · exact Or.inr (Or.inl hchanged)
    · exact Or.inr (Or.inr (handling_of_reads hrequested hreads))
    · rcases handling_or_subscribed hrequested with hhandling | hsub
      · exact Or.inr (Or.inr hhandling)
      · exact absurd (hsame.trans hsub) hne
  refine ⟨hdiffer, ?_⟩
  intro k acc hdata
  have hkey : k ∈ f.watched.keys := by
    rw [f.watched.mem_keys]
    cases hacc : f.watched.accounts.cache.getAccount k with
    | none => rw [Accounts.data, hacc] at hdata; cases hdata
    | some account => rfl
  by_cases hsub : f.watched.keys = f.subscribed
  · exact Or.inl (hsub ▸ hkey)
  · exact Or.inr (hdiffer hsub)

/-- **KEYS THAT ARE NOT SUBSCRIBED HAVE A NOTIFICATION PENDING**, in every state of every
    run whose moves are heard. -/
theorem keys_subscribed {w : Watched} {due : Nat} {f : Feed}
    (h : Reach feed Heard (begin w due) f) : Synced f := by
  refine synced_of_inv (Reach.invariant ?_ ?_ h)
  · exact Or.inl (Or.inr (Or.inr rfl))
  · intro f i f' out hinv hheard hstep
    exact feed_heard hinv hheard hstep

-- ── A key that is announced, and one that is not ────────────────────────────

def nothingWatched : Watched where
  accounts := ⟨OperationalCache.new (fun _ => none) fun _ => none, []⟩
  keys := ∅
  mem_keys k := ⟨fun h => absurd h (Finset.notMem_empty k), fun h => (by cases h)⟩

/-- The test for `Heard`. -/
def heard (f : Feed) : FeedMove → Bool
  | .act (.deliver acc)              => decide (acc.pubkey ∈ f.watched.keys)
  | .act (.answer query (.found ..)) =>
      (f.watched.accounts.asked[query]?).all fun p => decide (p.2 ∈ f.watched.keys)
  | .task                            =>
      !(decide (f.phase = .comparing)) || !(decide (f.watched.keys = f.cachedAccounts)) ||
        decide (f.watched.keys = f.subscribed)
  | _                                => true

theorem heard_sound (f : Feed) (i : FeedMove) (h : heard f i = true) : Heard f i := by
  cases i with
  | notify => exact trivial
  | task =>
      intro hphase hkeys
      rw [heard, decide_eq_true hphase, decide_eq_true hkeys] at h
      exact Or.inl (of_decide_eq_true h)
  | act m =>
      cases m with
      | deliver acc => exact Or.inl (of_decide_eq_true h)
      | call kind pubkey => exact trivial
      | startMonitoring pubkey => exact trivial
      | stopMonitoring pubkey => exact trivial
      | answer query account =>
          cases account with
          | notFound => exact trivial
          | failed => exact trivial
          | found lamports token =>
              intro p hp
              rw [heard, hp, Option.all_some] at h
              exact Or.inl (of_decide_eq_true h)

/-- Where the feed is, the keys, the accounts of the last request, and what is pending. -/
def viewFeed (p : Option (Feed × List Reply)) :
    Option (Phase × Finset Pubkey × Finset Pubkey × Nat × Bool) :=
  p.map fun q => (q.1.phase, q.1.watched.keys, q.1.subscribed, q.1.due, q.1.changed)

/-- An account is monitored, announced and subscribed; then it is updated. -/
theorem announced_key_subscribed :
    ∃ f, f.phase = .waiting ∧ f.watched.keys = {⟨7⟩} ∧ f.subscribed = {⟨7⟩} ∧ Synced f := by
  have hview : viewFeed (runIf feed heard (begin nothingWatched 0)
      [.task, .task, .task, .act (.startMonitoring ⟨7⟩), .notify, .task, .task, .task, .task,
        .act (.deliver (walletAt 5 50))]) =
      some (.waiting, {⟨7⟩}, {⟨7⟩}, 0, false) := by decide +kernel
  obtain ⟨⟨f, out⟩, hrun, heq⟩ := Option.map_eq_some_iff.mp hview
  obtain ⟨hphase, heq⟩ := Prod.mk.inj heq
  obtain ⟨hkeys, heq⟩ := Prod.mk.inj heq
  exact ⟨f, hphase, hkeys, (Prod.mk.inj heq).1,
    keys_subscribed (reach_of_runIf heard_sound hrun)⟩

/-- **A KEY THAT NOBODY ANNOUNCES**: a balance is asked of a node, and cached; the feed
    sleeps on. -/
theorem silent_key_unsubscribed :
    ¬ ∀ (w : Watched) (due : Nat) (f : Feed), Reach feed Always (begin w due) f → Synced f := by
  intro hclaim
  have hview : viewFeed (run feed (begin nothingWatched 0)
      [.task, .task, .task, .act (.call .sol ⟨7⟩), .act (.answer 0 (.found 50 none))]) =
      some (.waiting, {⟨7⟩}, ∅, 0, false) := by decide +kernel
  obtain ⟨⟨f, out⟩, hrun, heq⟩ := Option.map_eq_some_iff.mp hview
  obtain ⟨hphase, heq⟩ := Prod.mk.inj heq
  obtain ⟨hkeys, heq⟩ := Prod.mk.inj heq
  obtain ⟨hsub, heq⟩ := Prod.mk.inj heq
  obtain ⟨hdue, hchanged⟩ := Prod.mk.inj heq
  have hsynced := hclaim _ _ _ (reach_of_run (fun _ _ => trivial) hrun)
  have hdiffer : f.watched.keys ≠ f.subscribed := by
    rw [hkeys, hsub]
    exact Finset.singleton_ne_empty _
  rcases (hsynced (by rw [hphase]; rfl)).1 hdiffer with h | h | h
  · rw [hdue] at h
    exact absurd h (Nat.lt_irrefl 0)
  · rw [hchanged] at h
    cases h
  · rw [hphase] at h
    cases h

end FoxfireSubscription
