import FoxfireSniper.TelegramAccessProofs
import FoxfireSniper.UniqueTableProofs

/-! # The users of the bot

    `load_or_create_user` of `src/storage/persistent.rs` asks for the row of a chat and then,
    in a second query, either updates it or inserts a new one with a new wallet.  Calls of
    several chats overlap, and any error of the first query is taken for a row that is not
    there.  What holds the table together are the unique columns of the migration.

    The deposit strategy reads the same table: whose wallet is it that has received SOL?

    * `step_extends`: NO ROW IS LOST, and none changes but for its last login.
    * **`users_once`**: every answer for a chat is the same user with the same wallet, and
      different chats have different wallets.
    * **`one_group_chat`**: all group chats are given one name, and names are unique, so that
      only one of them is ever registered. -/

namespace FoxfireUsers

open FoxfireTypes MachineRun UniqueTable
open FoxfireTelegram (TelegramUser Message getUserFromUserMessage)

-- ── The table ───────────────────────────────────────────────────────────────

/-- A text that should be base58: what it encodes, if it does. -/
inductive Base58 (α : Type) where
  | encodes (a : α)
  | invalid (text : String)
  deriving DecidableEq, Repr

def Base58.decode {α : Type} : Base58 α → Option α
  | .encodes a => some a
  | .invalid _ => none

theorem Base58.decode_eq_some {α : Type} {text : Base58 α} {a : α} :
    text.decode = some a ↔ text = .encodes a := by
  cases text with
  | encodes b => exact Option.some_inj.trans (Base58.encodes.injEq b a ▸ Iff.rfl)
  | invalid t => exact ⟨fun h => (by cases h), fun h => (by cases h)⟩

/-- The columns of a user that are unique, or the primary key. -/
structure Identity where
  id               : Int
  chatId           : Int
  tgName           : String
  walletAddress    : Base58 Pubkey
  walletPrivateKey : Base58 Keypair
  deriving DecidableEq, Repr

/-- A row of the table; when it is read, its wallet must be an address. -/
structure BotUser extends Identity where
  lastLogin : Instant
  deriving DecidableEq, Repr

def Identity.clash (a b : Identity) : Bool :=
  a.id = b.id || a.chatId = b.chatId || a.tgName = b.tgName ||
    a.walletAddress = b.walletAddress || a.walletPrivateKey = b.walletPrivateKey

def usersSchema : Schema BotUser Identity where
  identity := BotUser.toIdentity
  clash := Identity.clash
  symm := by
    intro a b
    simp only [Identity.clash, eq_comm]

/-- `last_login` is set. -/
def login (users : Table usersSchema) (id : Int) (now : Instant) : Table usersSchema :=
  users.change (fun row => if row.id = id then { row with lastLogin := now } else row) fun row => by
    split
    · rfl
    · rfl

/-- `user.id.0 as i64` -/
def chatIdOf (user : TelegramUser) : Int := user.id.toInt64.toInt

/-- `NewBotUser::new_from_tg_user`, with the new keypair and the next id. -/
def newFromTgUser (user : TelegramUser) (keypair : Keypair) (id : Int) (now : Instant) :
    BotUser where
  id := id
  chatId := chatIdOf user
  tgName := user.username.getD ""
  walletAddress := .encodes keypair.pubkey
  walletPrivateKey := .encodes keypair
  lastLogin := now

-- ── The bot ─────────────────────────────────────────────────────────────────

/-- A call of `load_or_create_user` between its two queries. -/
structure Load where
  user     : TelegramUser
  existing : Option BotUser

structure Bot where
  users  : Table usersSchema
  /-- The sequence of the column `id`. -/
  nextId : Int
  loads  : List Load
  /-- The task of the deposit strategy, until it panics. -/
  task   : Bool

/-- A query is answered, fails, or is executed and its answer lost. -/
inductive Reply where
  | answered
  | failed
  | lost
  deriving DecidableEq, Repr

/-- What the deposit strategy asks of its surroundings. -/
structure DepositEnv where
  botWallet : Option (Base58 Pubkey)
  botFee    : Option ℚ
  /-- A connection of the pool, and the query. -/
  connects  : Bool
  answers   : Bool
  uuid      : Uuid
  now       : Instant

inductive Input where
  /-- The first query for a command. -/
  | command (message : Message) (answers : Bool)
  /-- The second query of a call. -/
  | finish (k : Nat) (keypair : Keypair) (now : Instant) (reply : Reply)
  | event (event : BotEvent) (env : DepositEnv)

inductive Output where
  /-- The end of a call; `none` is an error or a panic. -/
  | loaded (user : TelegramUser) (result : Option BotUser)
  | notified (chat : Int) (lamports : UInt64)
  | queued (action : SolanaAction)

namespace Bot

/-- The first row that a query finds, if it is answered. -/
def first (b : Bot) (answers : Bool) (filter : BotUser → Bool) : Option BotUser :=
  if answers then b.users.rows.find? filter else none

/-- The row of the chat, or anything else. -/
def select (b : Bot) (user : TelegramUser) (answers : Bool) : Bot × List Output :=
  match b.first answers fun row => row.chatId = chatIdOf user with
  | none     => ({ b with loads := b.loads ++ [⟨user, none⟩] }, [])
  | some row =>
      match row.walletAddress.decode with
      | some _ => ({ b with loads := b.loads ++ [⟨user, some row⟩] }, [])
      | none   => (b, [.loaded user none])

/-- An insertion takes an id, even if it fails. -/
def insertUser (b : Bot) (user : TelegramUser) (keypair : Keypair) (now : Instant) :
    Bot × Option BotUser :=
  let row := newFromTgUser user keypair b.nextId now
  match b.users.insert row with
  | some users => ({ b with users := users, nextId := b.nextId + 1 }, some row)
  | none       => ({ b with nextId := b.nextId + 1 }, none)

/-- The second query of `load_or_create_user`. -/
def updateOrInsert (b : Bot) (load : Load) (keypair : Keypair) (now : Instant) :
    Bot × Option BotUser :=
  match load.existing with
  | some user =>
      ({ b with users := login b.users user.id now },
        (login b.users user.id now).rows.find? fun row => row.id = user.id)
  | none => b.insertUser load.user keypair now

def finish (b : Bot) (k : Nat) (keypair : Keypair) (now : Instant) (reply : Reply) :
    Bot × List Output :=
  match b.loads[k]? with
  | none      => (b, [])
  | some load =>
      let b := { b with loads := b.loads.eraseIdx k }
      match reply with
      | .failed   => (b, [.loaded load.user none])
      | .answered =>
          ((b.updateOrInsert load keypair now).1,
            [.loaded load.user (b.updateOrInsert load keypair now).2])
      | .lost     => ((b.updateOrInsert load keypair now).1, [.loaded load.user none])

/-- The action of a deposit: `(amount as f64 * bot_fee) as u64` for the bot. -/
def feeAction (env : DepositEnv) (mainWallet : Keypair) (botWallet : Pubkey) (amount : UInt64) :
    SolanaAction :=
  SolanaAction.newWithFeepayer env.uuid env.now mainWallet mainWallet
    [.transfer ⟨.sol, botWallet, .exact (castToU64 (amount.toNat * env.botFee.getD 0))⟩]

/-- `DepositWithdrawStrategy::process_event`, in its task. -/
def processEvent (b : Bot) (event : BotEvent) (env : DepositEnv) : Bot × List Output :=
  let panics := { b with task := false }
  match b.task, event, env.botWallet with
  | true, .blockchainEvent (.deposit _ userWallet amount), some botWallet =>
      if env.connects then
        match b.first env.answers fun row => row.walletAddress = .encodes userWallet with
        | none     => (b, [])
        | some row =>
            match row.walletPrivateKey.decode, botWallet.decode with
            | some mainWallet, some botWallet =>
                (b, [.notified row.chatId amount,
                  .queued (feeAction env mainWallet botWallet amount)])
            -- `unwrap` of either key
            | _, _ => (panics, [.notified row.chatId amount])
      else (panics, [])
  | _, _, _ => (b, [])

end Bot

/-- **ONE STEP.** -/
def step : Step Bot Input Output
  | b, .command message answers =>
      match getUserFromUserMessage message with
      | some user => some (b.select user answers)
      | none      => some (b, [])
  | b, .finish k keypair now reply => some (b.finish k keypair now reply)
  | b, .event event env => some (b.processEvent event env)

/-- The migration's row, which has no wallet. -/
def admin (now : Instant) : BotUser := ⟨⟨0, 0, "admin", .invalid "0x", .invalid "0x"⟩, now⟩

def migrated (now : Instant) : Bot where
  users := ⟨[admin now], List.pairwise_singleton ..⟩
  nextId := 1
  loads := []
  task := true

-- ── One query ───────────────────────────────────────────────────────────────

/-- The private key is the wallet's. -/
def Identity.HasKey (u : Identity) : Prop :=
  ∃ key : Keypair, u.walletPrivateKey = .encodes key ∧ u.walletAddress = .encodes key.pubkey

/-- Every wallet of the table has its key. -/
def Keyed (users : Table usersSchema) : Prop :=
  ∀ row ∈ users.rows, ∀ wallet, row.walletAddress = .encodes wallet → row.toIdentity.HasKey

/-- What a call may take for the row of its chat. -/
structure Known (users : Table usersSchema) (user : TelegramUser) (u : BotUser) : Prop where
  chatId : u.chatId = chatIdOf user
  key    : u.toIdentity.HasKey
  row    : ∃ row ∈ users.rows, row.toIdentity = u.toIdentity

theorem Known.later {users users' : Table usersSchema} {user : TelegramUser} {u : BotUser}
    (h : Known users user u) (hext : Extends users users') : Known users' user u := by
  obtain ⟨row, hrow, hid⟩ := h.row
  obtain ⟨row', hrow', hid'⟩ := hext.keeps hrow
  exact ⟨h.chatId, h.key, row', hrow', hid'.trans hid⟩

theorem login_extends {users : Table usersSchema} {id : Int} {now : Instant} :
    Extends users (login users id now) := Extends.change

theorem mem_login {users : Table usersSchema} {id : Int} {now : Instant} {row : BotUser}
    (h : row ∈ (login users id now).rows) : ∃ r ∈ users.rows, row.toIdentity = r.toIdentity := by
  obtain ⟨r, hr, rfl⟩ := List.mem_map.mp h
  refine ⟨r, hr, ?_⟩
  split
  · rfl
  · rfl

section Queries

variable {b : Bot} {load : Load} {user : TelegramUser} {keypair : Keypair} {now : Instant}

theorem insertUser_cases :
    (b.insertUser user keypair now = ({ b with nextId := b.nextId + 1 }, none)) ∨
      ∃ users, users.rows = b.users.rows ++ [newFromTgUser user keypair b.nextId now] ∧
        Extends b.users users ∧ b.insertUser user keypair now =
          ({ b with users := users, nextId := b.nextId + 1 },
            some (newFromTgUser user keypair b.nextId now)) := by
  rw [Bot.insertUser]
  cases hinsert : b.users.insert (newFromTgUser user keypair b.nextId now) with
  | none => exact .inl rfl
  | some users =>
      exact .inr ⟨users, Table.insert_eq_some hinsert, Extends.insert hinsert, rfl⟩

theorem updateOrInsert_loads : (b.updateOrInsert load keypair now).1.loads = b.loads := by
  rw [Bot.updateOrInsert]
  split
  · rfl
  · obtain heq | ⟨users, -, -, heq⟩ := @insertUser_cases b load.user keypair now
    · rw [heq]
    · rw [heq]

theorem updateOrInsert_extends : Extends b.users (b.updateOrInsert load keypair now).1.users := by
  rw [Bot.updateOrInsert]
  split
  · exact login_extends
  · obtain heq | ⟨users, -, hext, heq⟩ := @insertUser_cases b load.user keypair now
    · rw [heq]
      exact Extends.refl b.users
    · rw [heq]
      exact hext

theorem newFromTgUser_hasKey (id : Int) : (newFromTgUser user keypair id now).toIdentity.HasKey :=
  ⟨keypair, rfl, rfl⟩

theorem updateOrInsert_keyed (h : Keyed b.users) :
    Keyed (b.updateOrInsert load keypair now).1.users := by
  rw [Bot.updateOrInsert]
  split
  · intro row hrow wallet hwallet
    obtain ⟨r, hr, hid⟩ := mem_login hrow
    rw [hid] at hwallet ⊢
    exact h r hr wallet hwallet
  · obtain heq | ⟨users, hrows, -, heq⟩ := @insertUser_cases b load.user keypair now
    · rw [heq]
      exact h
    · rw [heq]
      intro row hrow wallet hwallet
      rcases List.mem_append.mp (hrows ▸ hrow) with hrow | hrow
      · exact h row hrow wallet hwallet
      · rw [List.mem_singleton.mp hrow]
        exact newFromTgUser_hasKey _

/-- **THE ANSWER OF A CALL**: the row that it knew of, or the one that it has inserted. -/
theorem updateOrInsert_known {result : BotUser}
    (hload : ∀ u, load.existing = some u → Known b.users load.user u)
    (h : (b.updateOrInsert load keypair now).2 = some result) :
    Known (b.updateOrInsert load keypair now).1.users load.user result := by
  rw [Bot.updateOrInsert] at h ⊢
  cases hexisting : load.existing with
  | some u =>
      simp only [hexisting] at h ⊢
      have hmem := List.mem_of_find?_eq_some h
      have hid : result.id = u.id := by
        have hid := List.find?_some h
        rwa [decide_eq_true_eq] at hid
      have hknown := hload u hexisting
      obtain ⟨row, hrow, hrowId⟩ := hknown.row
      have hsame : row.toIdentity = result.toIdentity := by
        refine login_extends.persists hrow hmem ?_
        show Identity.clash row.toIdentity result.toIdentity = true
        rw [hrowId, Identity.clash, hid, decide_eq_true rfl]
        rfl
      rw [hrowId] at hsame
      exact ⟨hsame ▸ hknown.chatId, hsame ▸ hknown.key, result, hmem, rfl⟩
  | none =>
      simp only [hexisting] at h ⊢
      obtain heq | ⟨users, hrows, -, heq⟩ := @insertUser_cases b load.user keypair now
      · rw [heq] at h
        cases h
      · rw [heq] at h ⊢
        obtain rfl := Option.some.inj h
        refine ⟨rfl, newFromTgUser_hasKey _, _, ?_, rfl⟩
        rw [hrows]
        exact List.mem_append_right _ List.mem_cons_self

end Queries

-- ── One step ────────────────────────────────────────────────────────────────

/-- The answers so far, and what the calls under way have found. -/
structure Inv (out : List Output) (b : Bot) : Prop where
  keyed   : Keyed b.users
  loads   : ∀ load ∈ b.loads, ∀ u, load.existing = some u → Known b.users load.user u
  answers : ∀ user u, .loaded user (some u) ∈ out → Known b.users user u

section Steps

variable {b b' : Bot} {i : Input} {past out : List Output}

theorem first_eq_some {answers : Bool} {filter : BotUser → Bool} {row : BotUser}
    (h : b.first answers filter = some row) : row ∈ b.users.rows ∧ filter row = true := by
  rw [Bot.first] at h
  split at h
  · exact ⟨List.mem_of_find?_eq_some h, List.find?_some h⟩
  · cases h

/-- What the deposit strategy makes of an event: nothing, a panic, or the notice and the fee of
    a deposit into the wallet of a user. -/
theorem processEvent_cases (event : BotEvent) (env : DepositEnv) :
    (b.processEvent event env = (b, [])) ∨
    (b.processEvent event env = ({ b with task := false }, [])) ∨
    ∃ signature wallet amount row, event = .blockchainEvent (.deposit signature wallet amount) ∧
      row ∈ b.users.rows ∧ row.walletAddress = .encodes wallet ∧
      ((b.processEvent event env = ({ b with task := false }, [.notified row.chatId amount])) ∨
        ∃ key botWallet, row.walletPrivateKey = .encodes key ∧
          env.botWallet = some (.encodes botWallet) ∧
          b.processEvent event env = (b, [.notified row.chatId amount,
            .queued (Bot.feeAction env key botWallet amount)])) := by
  unfold Bot.processEvent
  split
  · next signature wallet amount botWallet _ hbotWallet =>
      by_cases hconnects : env.connects = true
      · rw [if_pos hconnects]
        cases hfirst : b.first env.answers fun row => row.walletAddress = .encodes wallet with
        | none => exact .inl rfl
        | some row =>
            obtain ⟨hrow, hwallet⟩ := first_eq_some hfirst
            rw [decide_eq_true_eq] at hwallet
            refine .inr (.inr ⟨signature, wallet, amount, row, rfl, hrow, hwallet, ?_⟩)
            dsimp only
            cases hkey : row.walletPrivateKey.decode with
            | none => exact .inl rfl
            | some key =>
                cases hbot : botWallet.decode with
                | none => exact .inl rfl
                | some botKey =>
                    refine .inr ⟨key, botKey, Base58.decode_eq_some.mp hkey, ?_, rfl⟩
                    rw [hbotWallet, Base58.decode_eq_some.mp hbot]
      · rw [if_neg hconnects]
        exact .inr (.inl rfl)
  · exact .inl rfl

/-- The deposit strategy writes nothing, and answers no call. -/
theorem processEvent_frame (event : BotEvent) (env : DepositEnv) :
    (b.processEvent event env).1.users = b.users ∧
      (b.processEvent event env).1.loads = b.loads ∧
      ∀ user result, .loaded user result ∉ (b.processEvent event env).2 := by
  obtain heq | heq | ⟨_, _, _, _, -, -, -, heq | ⟨_, _, -, -, heq⟩⟩ :=
    @processEvent_cases b event env
  · rw [heq]
    exact ⟨rfl, rfl, fun _ _ h => by cases h⟩
  · rw [heq]
    exact ⟨rfl, rfl, fun _ _ h => by cases h⟩
  · rw [heq]
    exact ⟨rfl, rfl, fun _ _ h => by simp at h⟩
  · rw [heq]
    exact ⟨rfl, rfl, fun _ _ h => by simp at h⟩

/-- What the first query finds. -/
theorem select_cases (user : TelegramUser) (answers : Bool) :
    (b.select user answers = ({ b with loads := b.loads ++ [⟨user, none⟩] }, [])) ∨
    (b.select user answers = (b, [.loaded user none])) ∨
    ∃ row ∈ b.users.rows, row.chatId = chatIdOf user ∧
      (∃ wallet, row.walletAddress = .encodes wallet) ∧
      b.select user answers = ({ b with loads := b.loads ++ [⟨user, some row⟩] }, []) := by
  rw [Bot.select]
  split
  · exact .inl rfl
  · next row hfirst =>
      obtain ⟨hrow, hchat⟩ := first_eq_some hfirst
      rw [decide_eq_true_eq] at hchat
      cases hwallet : row.walletAddress.decode with
      | none => exact .inr (.inl rfl)
      | some wallet =>
          exact .inr (.inr ⟨row, hrow, hchat, ⟨wallet, Base58.decode_eq_some.mp hwallet⟩, rfl⟩)

theorem loads_select (h : Inv past b) (user : TelegramUser) (answers : Bool) :
    Inv (past ++ (b.select user answers).2) (b.select user answers).1 := by
  obtain heq | heq | ⟨row, hrow, hchat, ⟨wallet, hwallet⟩, heq⟩ := @select_cases b user answers
  · rw [heq, List.append_nil]
    refine ⟨h.keyed, fun load hload u hu => ?_, h.answers⟩
    rcases List.mem_append.mp hload with hload | hload
    · exact h.loads load hload u hu
    · rw [List.mem_singleton.mp hload] at hu
      cases hu
  · rw [heq]
    refine ⟨h.keyed, h.loads, fun user u hu => ?_⟩
    rcases List.mem_append.mp hu with hu | hu
    · exact h.answers user u hu
    · cases List.mem_singleton.mp hu
  · rw [heq, List.append_nil]
    refine ⟨h.keyed, fun load hload u hu => ?_, h.answers⟩
    rcases List.mem_append.mp hload with hload | hload
    · exact h.loads load hload u hu
    · rw [List.mem_singleton.mp hload] at hu ⊢
      obtain rfl := Option.some.inj hu
      exact ⟨hchat, h.keyed row hrow wallet hwallet, row, hrow, rfl⟩

/-- The end of a call: its answer is the result of the second query, or none. -/
theorem finish_inv (h : Inv past b) (k : Nat) (keypair : Keypair) (now : Instant) (reply : Reply) :
    Inv (past ++ (b.finish k keypair now reply).2) (b.finish k keypair now reply).1 := by
  rw [Bot.finish]
  cases hload : b.loads[k]? with
  | none => rwa [List.append_nil]
  | some load =>
      dsimp only
      have hknown := h.loads load (List.mem_of_getElem? hload)
      have hrest : ∀ load ∈ b.loads.eraseIdx k, ∀ u, load.existing = some u →
          Known b.users load.user u := fun load hload =>
        h.loads load (List.mem_of_mem_eraseIdx hload)
      -- whatever the query writes, for an answer that is known afterwards
      have hwrites : ∀ result, (∀ u, result = some u → Known (Bot.updateOrInsert
            { b with loads := b.loads.eraseIdx k } load keypair now).1.users load.user u) →
          Inv (past ++ [.loaded load.user result]) (Bot.updateOrInsert
            { b with loads := b.loads.eraseIdx k } load keypair now).1 := by
        intro result hresult
        have hext := @updateOrInsert_extends { b with loads := b.loads.eraseIdx k } load
          keypair now
        refine ⟨updateOrInsert_keyed h.keyed, fun load hload u hu => ?_, fun user u hu => ?_⟩
        · rw [updateOrInsert_loads] at hload
          exact (hrest load hload u hu).later hext
        · rcases List.mem_append.mp hu with hu | hu
          · exact (h.answers user u hu).later hext
          · obtain ⟨rfl, rfl⟩ := Output.loaded.inj (List.mem_singleton.mp hu)
            exact hresult u rfl
      cases reply with
      | failed =>
          refine ⟨h.keyed, hrest, fun user u hu => ?_⟩
          rcases List.mem_append.mp hu with hu | hu
          · exact h.answers user u hu
          · cases List.mem_singleton.mp hu
      | answered => exact hwrites _ fun u hu => updateOrInsert_known hknown hu
      | lost => exact hwrites none fun u hu => by cases hu

/-- **ONE STEP.** -/
theorem inv_step (h : Inv past b) (hs : step b i = some (b', out)) : Inv (past ++ out) b' := by
  cases i with
  | command message answers =>
      rw [step] at hs
      split at hs
      · next user _ =>
          have hselect := loads_select h user answers
          rw [Option.some.inj hs] at hselect
          exact hselect
      · obtain ⟨rfl, rfl⟩ := Prod.mk.inj (Option.some.inj hs)
        rwa [List.append_nil]
  | finish k keypair now reply =>
      have hfinish := finish_inv h k keypair now reply
      rw [step] at hs
      rw [Option.some.inj hs] at hfinish
      exact hfinish
  | event event env =>
      obtain ⟨husers, hloads, hquiet⟩ := @processEvent_frame b event env
      rw [step] at hs
      rw [Option.some.inj hs] at husers hloads hquiet
      refine ⟨husers ▸ h.keyed, fun load hload u hu => ?_, fun user u hu => ?_⟩
      · rw [hloads] at hload
        rw [husers]
        exact h.loads load hload u hu
      · rcases List.mem_append.mp hu with hu | hu
        · rw [husers]
          exact h.answers user u hu
        · exact absurd hu (hquiet user (some u))

end Steps

-- ── Any calls ───────────────────────────────────────────────────────────────

theorem inv_migrated (now : Instant) : Inv [] (migrated now) := by
  refine ⟨fun row hrow wallet hwallet => ?_, fun load hload => (by cases hload),
    fun user u hu => (by cases hu)⟩
  rw [List.mem_singleton.mp hrow] at hwallet
  cases hwallet

theorem inv_run {now : Instant} {is : List Input} {b : Bot} {out : List Output}
    (hrun : run step (migrated now) is = some (b, out)) : Inv out b :=
  run_invariant (J := Inv) (fun _ _ _ _ _ h hs => inv_step h hs) (inv_migrated now) hrun

/-- **ONE USER AND ONE WALLET FOR A CHAT.**  Calls of `load_or_create_user` overlap in any way,
    their queries fail or lose their answers, and deposits come in between: the row that a call
    returns is that of its chat, with a wallet and the key to it; it is in the table, and all
    calls for the chat return the same one.  Different chats have different wallets. -/
theorem users_once {now : Instant} {is : List Input} {b : Bot} {out : List Output}
    (hrun : run step (migrated now) is = some (b, out)) {user₁ user₂ : TelegramUser}
    {u₁ u₂ : BotUser} (h₁ : .loaded user₁ (some u₁) ∈ out) (h₂ : .loaded user₂ (some u₂) ∈ out) :
    Known b.users user₁ u₁ ∧
      (chatIdOf user₁ = chatIdOf user₂ → u₁.toIdentity = u₂.toIdentity) ∧
      (u₁.walletAddress = u₂.walletAddress → chatIdOf user₁ = chatIdOf user₂) := by
  have hinv := inv_run hrun
  have hknown₁ := hinv.answers user₁ u₁ h₁
  have hknown₂ := hinv.answers user₂ u₂ h₂
  obtain ⟨row₁, hrow₁, hid₁⟩ := hknown₁.row
  obtain ⟨row₂, hrow₂, hid₂⟩ := hknown₂.row
  have hsame : u₁.toIdentity.clash u₂.toIdentity = true → u₁.toIdentity = u₂.toIdentity := by
    intro hclash
    rw [← hid₁, ← hid₂] at hclash ⊢
    rw [Table.unique (S := usersSchema) hrow₁ hrow₂ hclash]
  refine ⟨hknown₁, fun hchat => hsame ?_, fun hwallet => ?_⟩
  · rw [← hknown₁.chatId, ← hknown₂.chatId] at hchat
    simp only [Identity.clash, hchat, decide_true, Bool.or_true, Bool.true_or]
  · have heq := hsame (by
      simp only [Identity.clash, hwallet, decide_true, Bool.or_true, Bool.true_or])
    rw [← hknown₁.chatId, ← hknown₂.chatId, heq]

def privateMessage (user : TelegramUser) : Message := ⟨1, ⟨chatIdOf user, true⟩, some user, none⟩

def ann : TelegramUser := ⟨5, false, some "ann"⟩

/-- Two commands of one user overlap, and there is a third one later. -/
def annThrice : List Input :=
  [.command (privateMessage ann) true, .command (privateMessage ann) true,
    .finish 0 ⟨⟨31⟩, 1⟩ 10 .answered, .finish 0 ⟨⟨32⟩, 2⟩ 20 .answered,
    .command (privateMessage ann) true, .finish 0 ⟨⟨33⟩, 3⟩ 30 .answered]

/-- The second insertion is rejected, and the third call finds what the first has inserted. -/
theorem ann_once : ∃ b u₁ u₂,
    run step (migrated 0) annThrice = some (b, [.loaded ann (some u₁), .loaded ann none,
      .loaded ann (some u₂)]) ∧
    u₁.lastLogin = 10 ∧ u₂.lastLogin = 30 ∧ u₁.toIdentity = u₂.toIdentity := by
  obtain ⟨b, hrun⟩ : ∃ b, run step (migrated 0) annThrice = some (b,
      [.loaded ann (some ⟨⟨1, 5, "ann", .encodes ⟨31⟩, .encodes ⟨⟨31⟩, 1⟩⟩, 10⟩),
        .loaded ann none,
        .loaded ann (some ⟨⟨1, 5, "ann", .encodes ⟨31⟩, .encodes ⟨⟨31⟩, 1⟩⟩, 30⟩)]) := ⟨_, rfl⟩
  refine ⟨b, _, _, hrun, rfl, rfl, ?_⟩
  exact (users_once hrun (.head _) (.tail _ (.tail _ (.head _)))).2.1 rfl

-- ── Group chats ─────────────────────────────────────────────────────────────

/-- The sender of a private message; the ids of Telegram's users are positive, and only those
    of groups are negative. -/
def Input.PrivateIdsPositive : Input → Prop
  | .command message _ => message.chat.isPrivate = true →
      ∀ user, message.user = some user → 0 ≤ chatIdOf user
  | _ => True

/-- What has a negative id bears the name of all groups. -/
structure GroupsNamed (b : Bot) : Prop where
  rows  : ∀ row ∈ b.users.rows, row.chatId < 0 → row.tgName = "GroupChat"
  loads : ∀ load ∈ b.loads, chatIdOf load.user < 0 → load.user.username = some "GroupChat"

section Groups

variable {b b' : Bot} {i : Input} {out : List Output}

theorem groupChat_of_negative {message : Message} {user : TelegramUser} {answers : Bool}
    (hpositive : (Input.command message answers).PrivateIdsPositive)
    (hdto : getUserFromUserMessage message = some user) (hneg : chatIdOf user < 0) :
    user.username = some "GroupChat" := by
  obtain ⟨sender, hsender, hdto⟩ := Option.bind_eq_some_iff.mp hdto
  split at hdto
  · split at hdto
    · next hprivate =>
        obtain rfl := Option.some.inj hdto
        have hpos := hpositive hprivate sender hsender
        omega
    · obtain rfl := Option.some.inj hdto
      rfl
  · cases hdto

theorem groupsNamed_login {users : Table usersSchema} {id : Int} {now : Instant}
    (h : ∀ row ∈ users.rows, row.chatId < 0 → row.tgName = "GroupChat") :
    ∀ row ∈ (login users id now).rows, row.chatId < 0 → row.tgName = "GroupChat" := by
  intro row hrow
  obtain ⟨r, hr, hid⟩ := mem_login hrow
  rw [hid]
  exact h r hr

theorem groupsNamed_updateOrInsert {load : Load} {keypair : Keypair} {now : Instant}
    (h : ∀ row ∈ b.users.rows, row.chatId < 0 → row.tgName = "GroupChat")
    (hload : chatIdOf load.user < 0 → load.user.username = some "GroupChat") :
    ∀ row ∈ (b.updateOrInsert load keypair now).1.users.rows,
      row.chatId < 0 → row.tgName = "GroupChat" := by
  rw [Bot.updateOrInsert]
  split
  · exact groupsNamed_login h
  · obtain heq | ⟨users, hrows, -, heq⟩ := @insertUser_cases b load.user keypair now
    · rw [heq]
      exact h
    · rw [heq]
      intro row hrow hneg
      rcases List.mem_append.mp (hrows ▸ hrow) with hrow | hrow
      · exact h row hrow hneg
      · rw [List.mem_singleton.mp hrow] at hneg ⊢
        show load.user.username.getD "" = _
        rw [hload hneg]
        rfl

theorem groupsNamed_step (h : GroupsNamed b) (hi : i.PrivateIdsPositive)
    (hs : step b i = some (b', out)) : GroupsNamed b' := by
  cases i with
  | command message answers =>
      rw [step] at hs
      split at hs
      · next user hdto =>
          have hselect : ∀ existing,
              GroupsNamed { b with loads := b.loads ++ [⟨user, existing⟩] } := by
            refine fun existing => ⟨h.rows, fun load hload => ?_⟩
            rcases List.mem_append.mp hload with hload | hload
            · exact h.loads load hload
            · rw [List.mem_singleton.mp hload]
              exact groupChat_of_negative hi hdto
          obtain heq | heq | ⟨row, -, -, -, heq⟩ := @select_cases b user answers
          · rw [heq] at hs
            cases hs
            exact hselect none
          · rw [heq] at hs
            cases hs
            exact h
          · rw [heq] at hs
            cases hs
            exact hselect (some row)
      · cases hs
        exact h
  | finish k keypair now reply =>
      rw [step, Bot.finish] at hs
      cases hload : b.loads[k]? with
      | none =>
          rw [hload] at hs
          cases hs
          exact h
      | some load =>
          have hrest : ∀ load ∈ b.loads.eraseIdx k, chatIdOf load.user < 0 →
              load.user.username = some "GroupChat" := fun load hload =>
            h.loads load (List.mem_of_mem_eraseIdx hload)
          have hwrites : GroupsNamed (Bot.updateOrInsert
              { b with loads := b.loads.eraseIdx k } load keypair now).1 := by
            have hnamed := h.loads load (List.mem_of_getElem? hload)
            refine ⟨groupsNamed_updateOrInsert h.rows hnamed, ?_⟩
            rw [updateOrInsert_loads]
            exact hrest
          simp only [hload] at hs
          cases reply with
          | failed =>
              cases hs
              exact ⟨h.rows, hrest⟩
          | answered =>
              cases hs
              exact hwrites
          | lost =>
              cases hs
              exact hwrites
  | event event env =>
      obtain ⟨husers, hloads, -⟩ := @processEvent_frame b event env
      rw [step] at hs
      rw [Option.some.inj hs] at husers hloads
      exact ⟨husers ▸ h.rows, hloads ▸ h.loads⟩

/-- **ONLY ONE GROUP CHAT.**  Every group chat that a command comes from is called "GroupChat",
    the column of the names is unique, and an insertion that it rejects is an error: whatever
    groups have used the bot, the calls that were answered are all for the same one. -/
theorem one_group_chat {now : Instant} {is : List Input} {b : Bot} {out : List Output}
    (hrun : run step (migrated now) is = some (b, out))
    (hpositive : ∀ i ∈ is, i.PrivateIdsPositive) {user₁ user₂ : TelegramUser} {u₁ u₂ : BotUser}
    (h₁ : .loaded user₁ (some u₁) ∈ out) (h₂ : .loaded user₂ (some u₂) ∈ out)
    (hgroup₁ : chatIdOf user₁ < 0) (hgroup₂ : chatIdOf user₂ < 0) :
    chatIdOf user₁ = chatIdOf user₂ := by
  have hnamed : GroupsNamed b := by
    refine run_history (J := fun past b => (∀ i ∈ past, i.PrivateIdsPositive) → GroupsNamed b)
      ?_ ?_ hrun hpositive
    · refine fun _ => ⟨fun row hrow hneg => ?_, fun load hload => by cases hload⟩
      rw [List.mem_singleton.mp hrow] at hneg
      exact absurd hneg (Int.lt_irrefl 0)
    · intro past b i b' out hpast hs hall
      exact groupsNamed_step (hpast fun j hj => hall j (List.mem_append_left _ hj))
        (hall i (List.mem_append_right _ List.mem_cons_self)) hs
  have hinv := inv_run hrun
  have hname : ∀ {user : TelegramUser} {u : BotUser}, .loaded user (some u) ∈ out →
      chatIdOf user < 0 → u.tgName = "GroupChat" := by
    intro user u hu hneg
    have hknown := hinv.answers user u hu
    obtain ⟨row, hrow, hid⟩ := hknown.row
    rw [← hid]
    refine hnamed.rows row hrow ?_
    rw [hid, hknown.chatId]
    exact hneg
  have hname₁ := hname h₁ hgroup₁
  have hname₂ := hname h₂ hgroup₂
  obtain ⟨row₁, hrow₁, hid₁⟩ := (hinv.answers user₁ u₁ h₁).row
  obtain ⟨row₂, hrow₂, hid₂⟩ := (hinv.answers user₂ u₂ h₂).row
  have hsame : row₁ = row₂ := by
    refine Table.unique (S := usersSchema) hrow₁ hrow₂ ?_
    show Identity.clash row₁.toIdentity row₂.toIdentity = true
    rw [hid₁, hid₂]
    simp only [Identity.clash, hname₁, hname₂, decide_true, Bool.or_true, Bool.true_or]
  rw [← (hinv.answers user₁ u₁ h₁).chatId, ← (hinv.answers user₂ u₂ h₂).chatId, ← hid₁, ← hid₂,
    hsame]

end Groups

def groupMessage (chat : Int) : Message := ⟨1, ⟨chat, false⟩, some ann, none⟩

/-- A group, another group, and the first one again. -/
def twoGroups : List Input :=
  [.command (groupMessage (-5)) true, .finish 0 ⟨⟨31⟩, 1⟩ 10 .answered,
    .command (groupMessage (-7)) true, .finish 0 ⟨⟨32⟩, 2⟩ 20 .answered,
    .command (groupMessage (-5)) true, .finish 0 ⟨⟨33⟩, 3⟩ 30 .answered]

/-- The other group is turned away. -/
theorem second_group_turned_away : ∃ b group₁ group₂ group₃ u₁ u₃,
    run step (migrated 0) twoGroups = some (b, [.loaded group₁ (some u₁), .loaded group₂ none,
      .loaded group₃ (some u₃)]) ∧
    chatIdOf group₂ = -7 ∧ chatIdOf group₁ = chatIdOf group₃ := by
  obtain ⟨b, group₁, group₂, group₃, u₁, u₃, hrun, h₁, h₂, h₃⟩ :
      ∃ b group₁ group₂ group₃ u₁ u₃,
        run step (migrated 0) twoGroups = some (b, [.loaded group₁ (some u₁),
          .loaded group₂ none, .loaded group₃ (some u₃)]) ∧
        chatIdOf group₁ < 0 ∧ chatIdOf group₂ = -7 ∧ chatIdOf group₃ < 0 :=
    ⟨_, ⟨UInt64.ofInt (-5), false, some "GroupChat"⟩, ⟨UInt64.ofInt (-7), false, some "GroupChat"⟩,
      ⟨UInt64.ofInt (-5), false, some "GroupChat"⟩, _, _, rfl, by decide, by decide, by decide⟩
  refine ⟨b, group₁, group₂, group₃, u₁, u₃, hrun, h₂, ?_⟩
  refine one_group_chat hrun ?_ (.head _) (.tail _ (.tail _ (.head _))) h₁ h₃
  intro i hi
  simp only [twoGroups, List.mem_cons, List.not_mem_nil, or_false] at hi
  rcases hi with rfl | rfl | rfl | rfl | rfl | rfl
  · exact fun h => by cases h
  · trivial
  · exact fun h => by cases h
  · trivial
  · exact fun h => by cases h
  · trivial

end FoxfireUsers
