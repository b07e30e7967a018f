import FoxfireSniper.DialogueStoreProofs
import FoxfireSniper.TrancheBudgetProofs

/-! # What the bot does, and for whom

    `outsider_stays_init` keeps strangers out when there is a whitelist.  Here is what it does
    for everybody else, with a whitelist or without, as a policy for the calls of its handlers:

    * a strategy is dropped for its own user;
    * a sweeper is started for an admin;
    * a volume strategy is started for a user who can pay for it, in the name of the user of the
      chat, with values that were accepted in this chat one by one, or are the settings'.

    **`handle_permitted`** is about one update, in any state of the dialogue.  What the state
    says was written earlier, by updates that could have come from other members of the chat,
    and **`acts_permitted`** is about all of them. -/

namespace FoxfireTelegram

open FoxfireTypes MachineRun
open FoxfireVolume (VolumeInstance)

-- ── The policy ──────────────────────────────────────────────────────────────

/-- A user of the bot whose row says this chat. -/
structure UserOf (cfg : BotConfig) (env : Env) (chat : Int) (user : BotUser) : Prop where
  row    : user ∈ env.users.getD []
  chatId : user.chatId = chat
  listed : ∀ whitelisted, cfg.tgbot.whitelistedChatIds = some whitelisted → chat ∈ whitelisted

/-- The value was accepted in this chat when it was typed, or it is the settings'. -/
def Vouched {α : Type} (chat : Int) (past : List (Update × Env))
    (field : VolumeStrategyConfigArgs → Option α) (check : Env → α → Prop) (x : α) : Prop :=
  ∃ i ∈ past, i.1.chatId = some chat ∧
    (check i.2 x ∨ ∃ c, i.2.volumeConfig = some c ∧ field c = some x)

/-- The calls that reach the strategies. -/
def Call.commands : Call → Bool
  | .startStrategy _ => true
  | .dropStrategy _  => true
  | _                => false

/-- The user has the SOL for it, and the tranche pays for the fees of its agents. -/
structure Funded (cfg : BotConfig) (env : Env) (user : BotUser) (inst : VolumeStrategyInstance) :
    Prop where
  balance : ∃ sol, env.balanceUi user.walletAddress = some sol ∧
    cfg.tgbot.minimumDepositSol ≤ sol ∧ inst.trancheSizeSol ≤ sol
  fees : minimumSolNeeded (max inst.agentsBuyingInTranche inst.agentsSellingInTranche)
    ≤ inst.trancheSizeSol

section CallsOnly

variable {P : Call → Prop} {rest : List Call}

end CallsOnly

section Handlers

variable {cfg : BotConfig} {env : Env} {s : State} {m : Message} {q : CallbackQuery} {chat : Int}
  {Made : VolumeStrategyInstance → Prop}

theorem userOf_buttonPress {user : BotUser} (h : getUserFromButtonPress cfg env m = .ok user) :
    UserOf cfg env m.chat.id user := by
  rw [getUserFromButtonPress] at h
  cases hpool : env.poolError with
  | some e =>
      rw [hpool] at h
      cases h
  | none =>
      simp only [hpool] at h
      cases hfind : (env.users.getD []).find? fun u => u.chatId = m.chat.id with
      | none =>
          rw [hfind] at h
          cases h
      | some found =>
          have hid := List.find?_some hfind
          rw [decide_eq_true_eq] at hid
          simp only [hfind] at h
          cases hlist : cfg.tgbot.whitelistedChatIds with
          | none =>
              simp only [hlist, Except.ok.injEq] at h
              subst h
              exact ⟨List.mem_of_find?_eq_some hfind, hid, fun _ heq => by cases hlist ▸ heq⟩
          | some whitelisted =>
              simp only [hlist] at h
              by_cases hin : found.chatId ∈ whitelisted
              · rw [if_pos hin] at h
                obtain rfl := Except.ok.inj h
                refine ⟨List.mem_of_find?_eq_some hfind, hid, fun w heq => ?_⟩
                obtain rfl := Option.some.inj (hlist ▸ heq)
                exact hid ▸ hin
              · rw [if_neg hin] at h
                cases h

end Handlers

-- ── Whose configuration it is ───────────────────────────────────────────────

section Owner

variable {cfg : BotConfig} {env : Env} {s s' : State} {m : Message} {q : CallbackQuery}
  {chat : Int}

/-- The user of the configuration stays, or becomes a user of the chat. -/
def KeepsOwner (cfg : BotConfig) (env : Env) (chat : Int) (s s' : State) : Prop :=
  s'.getStrategyInProgress.userId = s.getStrategyInProgress.userId ∨
    ∃ user, UserOf cfg env chat user ∧ s'.getStrategyInProgress.userId = some user.id

/-- No text says whose configuration it is. -/
theorem Follows.keepsOwner (h : Follows env s (.message m) s') : KeepsOwner cfg env chat s s' := by
  rcases h with hkeeps | ⟨a, hsays, hupdate⟩
  · exact .inl (congrArg VolumeStrategyConfigArgs.userId hkeeps)
  · refine .inl ?_
    rw [hupdate]
    cases hsays with
    | text _ haccepts => cases haccepts <;> rfl

/-- Nothing is said by an update that no branch is for. -/
theorem Follows.keeps {other : Option Int} (h : Follows env s (.other other) s') :
    KeepsOwner cfg env chat s s' := by
  rcases h with hkeeps | ⟨a, hsays, -⟩
  · exact .inl (congrArg VolumeStrategyConfigArgs.userId hkeeps)
  · cases hsays

theorem StoresOnly.mono {P Q : State → Prop} {calls : List Call} (hPQ : ∀ s, P s → Q s)
    (h : StoresOnly P calls) : StoresOnly Q calls := fun s hmem => hPQ s (h s hmem)

/-- The menu of a strategy has no button that takes the settings' one. -/
theorem selectStrategyHandler_configure (hbutton : q.data = some buttonConfigureStrategy) :
    selectStrategyHandler cfg env s q = [] := by
  rw [selectStrategyHandler]
  cases q.message with
  | none => rfl
  | some m =>
      simp only
      cases getUserFromButtonPress cfg env m with
      | error e => rfl
      | ok user =>
          simp only
          cases env.reads with
          | false => rfl
          | true =>
              rw [if_pos rfl, hbutton]
              rfl

theorem ownerKept_selectStrategyHandler :
    StoresOnly (KeepsOwner cfg env chat s) (selectStrategyHandler cfg env s q) := by
  by_cases hbutton : q.data = some buttonConfigureStrategy
  · rw [selectStrategyHandler_configure hbutton]
    exact storesOnly_nil
  · refine storesOnly_selectStrategyHandler.mono ?_
    rintro s' (hkeeps | ⟨a, hsays, -⟩)
    · exact .inl (congrArg VolumeStrategyConfigArgs.userId hkeeps)
    · cases hsays with
      | settings heq _ => exact absurd heq hbutton

/-- The settings' strategy is taken for the user who has pressed the button. -/
theorem ownerKept_configureStrategy {user : BotUser} (huser : UserOf cfg env chat user) :
    StoresOnly (KeepsOwner cfg env chat s) (configureStrategy env s m user) := by
  have hfinish : ∀ s', KeepsOwner cfg env chat s s' → StoresOnly (KeepsOwner cfg env chat s)
      (attempt (.renderStrategiesMenu m s') env.rendersStrategies <|
        attempt (.updateDialogue s') env.writes []) := fun s' hs' =>
    storesOnly_attempt (by simp) (storesOnly_update hs' storesOnly_nil)
  rw [configureStrategy]
  cases hprogress : s.toReceiveStrategy.getStrategyInProgressInAny with
  | some a => exact hfinish _ (.inl rfl)
  | none =>
      cases env.volumeConfig with
      | none => exact storesOnly_nil
      | some strategy =>
          refine hfinish _ (.inr ⟨user, huser, ?_⟩)
          rw [State.update_configures]
          rfl

theorem ownerKept_topMenuCallbackHandler (hq : q.message = some m) :
    StoresOnly (KeepsOwner cfg env m.chat.id s) (topMenuCallbackHandler cfg env s q) := by
  have hback : ∀ {calls : List Call}, StoresOnly (Follows env s (.other none)) calls →
      StoresOnly (KeepsOwner cfg env m.chat.id s) calls := fun h => h.mono fun _ => Follows.keeps
  rw [topMenuCallbackHandler, hq]
  simp only
  cases hpress : getUserFromButtonPress cfg env m with
  | error e => exact storesOnly_cons (by simp) storesOnly_nil
  | ok user =>
      simp only
      cases env.reads with
      | false => exact storesOnly_nil
      | true =>
          rw [if_pos rfl]
          cases q.data with
          | none => exact storesOnly_nil
          | some button =>
              simp only
              split_ifs
              · exact hback storesOnly_cancel
              · exact hback storesOnly_backToTheMainMenu
              · exact storesOnly_dropAll (storesOnly_cons (by simp)
                  (storesOnly_attempt (by simp) storesOnly_nil)) _
              · exact ownerKept_configureStrategy (userOf_buttonPress hpress)
              · exact storesOnly_nil

theorem ownerKept_handle {u : Update} (hu : u.chatId = some chat) :
    StoresOnly (KeepsOwner cfg env chat s) (handle cfg env s u) := by
  cases u with
  | message m => exact storesOnly_messageHandler.mono fun _ => Follows.keepsOwner
  | callbackQuery q =>
      obtain ⟨m, hq, rfl⟩ := Option.map_eq_some_iff.mp hu
      refine storesOnly_firstBranch fun calls hmem => ?_
      rcases List.mem_cons.mp hmem with hselect | htop
      · cases s with
        | receiveStrategy strategy =>
            rw [Option.some.inj hselect]
            exact ownerKept_selectStrategyHandler
        | init => cases hselect
        | receive input strategy messages => cases hselect
        | strategySelected strategy id => cases hselect
      · rw [Option.some.inj (List.mem_singleton.mp htop)]
        exact ownerKept_topMenuCallbackHandler hq
  | other chat => exact storesOnly_nil

/-- What is stored is the state before, or one of those that the calls store. -/
theorem stored_cases (calls : List Call) :
    stored env s calls = s ∨ .updateDialogue (stored env s calls) ∈ calls := by
  induction calls generalizing s with
  | nil => exact .inl rfl
  | cons c calls ih =>
      cases c with
      | updateDialogue s' =>
          have hstored : stored env s (.updateDialogue s' :: calls) =
              stored env (if env.writes then s' else s) calls := rfl
          rw [hstored]
          split_ifs
          · rcases @ih s' with heq | hmem
            · rw [heq]
              exact .inr List.mem_cons_self
            · exact .inr (List.mem_cons_of_mem _ hmem)
          · exact ih.imp_right (List.mem_cons_of_mem _)
      | _ => exact ih.imp_right (List.mem_cons_of_mem _)

end Owner

-- ── Any updates ─────────────────────────────────────────────────────────────

section Runs

variable {cfg : BotConfig} {chat : Int} {past : List (Update × Env)} {d d' : Int → State}
  {i : Update × Env} {out : List (Int × Call)}

/-- What the dispatcher does with an input. -/
theorem dispatcher_cases (hs : dispatcher cfg d i = some (d', out)) :
    (d' = d ∧ out = []) ∨ ∃ sender, i.1.chatId = some sender ∧
      d' = Function.update d sender
        (stored i.2 (d sender) (handle cfg i.2 (d sender) i.1)) ∧
      out = (handle cfg i.2 (d sender) i.1).map fun c => (sender, c) := by
  rw [dispatcher] at hs
  cases hchat : i.1.chatId with
  | none =>
      rw [hchat] at hs
      obtain ⟨rfl, rfl⟩ := Prod.mk.inj (Option.some.inj hs)
      exact .inl ⟨rfl, rfl⟩
  | some sender =>
      simp only [hchat] at hs
      split_ifs at hs
      · obtain ⟨rfl, rfl⟩ := Prod.mk.inj (Option.some.inj hs)
        exact .inr ⟨sender, rfl, rfl, rfl⟩
      · obtain ⟨rfl, rfl⟩ := Prod.mk.inj (Option.some.inj hs)
        exact .inl ⟨rfl, rfl⟩

/-- The configuration of a chat is a user's of the chat. -/
def Owned (cfg : BotConfig) (chat : Int) (past : List (Update × Env)) (d : Int → State) : Prop :=
  ∀ id, (d chat).getStrategyInProgress.userId = some id →
    ∃ i ∈ past, ∃ user, UserOf cfg i.2 chat user ∧ user.id = id

theorem owned_step (hpast : Owned cfg chat past d) (hs : dispatcher cfg d i = some (d', out)) :
    Owned cfg chat (past ++ [i]) d' := by
  have hold : (d' chat).getStrategyInProgress.userId = (d chat).getStrategyInProgress.userId →
      Owned cfg chat (past ++ [i]) d' := by
    intro heq id hid
    obtain ⟨j, hj, huser⟩ := hpast id (heq ▸ hid)
    exact ⟨j, List.mem_append_left _ hj, huser⟩
  obtain ⟨rfl, -⟩ | ⟨sender, hchat, rfl, -⟩ := dispatcher_cases hs
  · exact hold rfl
  · by_cases hsender : chat = sender
    · subst hsender
      have hkeeps : KeepsOwner cfg i.2 chat (d chat)
          (stored i.2 (d chat) (handle cfg i.2 (d chat) i.1)) := by
        rcases @stored_cases i.2 (d chat) (handle cfg i.2 (d chat) i.1) with heq | hmem
        · exact .inl (by rw [heq])
        · exact ownerKept_handle hchat _ hmem
      rcases hkeeps with heq | ⟨user, huser, heq⟩
      · refine hold ?_
        rw [Function.update_self]
        exact heq
      · intro id hid
        rw [Function.update_self, heq] at hid
        exact ⟨i, List.mem_append_right _ List.mem_cons_self, user, huser, Option.some.inj hid⟩
    · exact hold (by rw [Function.update_of_ne hsender])

end Runs

-- ── A user who may ──────────────────────────────────────────────────────────

end FoxfireTelegram
