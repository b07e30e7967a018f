import FoxfireSniper.DialogueProofs
import FoxfireSniper.TelegramAccessProofs

/-! # What the handlers make of a configuration

    The transitions of a dialogue are one thing, and what the handlers store is another: a
    handler reads the state of its chat, makes calls that can fail, and writes a state in
    between.  Here the two are put together, for all handlers and for the dialogues of all
    chats.

    * **`follows_stored`** — one update stores the configuration that was there, or changes it
      by what its text or the settings say, once;
    * **`dialogue_last_write_wins`** — the configuration of a chat is the last write for each
      field of what was said in this chat. -/

namespace FoxfireTelegram

open FoxfireTypes MachineRun

-- ── What is said ────────────────────────────────────────────────────────────

/-- What a text says of the field that is asked for: a number in range, or a pool. -/
inductive TextInput.Accepts (env : Env) (text : String) :
    TextInput → VolumeStrategyConfigArgs → Prop where
  | tokenAddress {pool : Pubkey} : env.pubkeyFromStr text = some pool →
      env.isValidPool pool = true →
      Accepts env text .tokenAddress { targetPool := some (env.pubkeyToString pool) }
  | trancheSizeSol {x : ℚ} : env.parseF64 text = some x → 0 < x → swapFees ≤ x →
      Accepts env text .trancheSizeSol { trancheSizeSol := some x }
  | trancheFrequencyHbs {x : Int} : parseInt 64 text = some x → 0 < x →
      Accepts env text .trancheFrequencyHbs { trancheFrequencyHbs := some x }
  | trancheLengthHbs {x : Int} : parseInt 64 text = some x → 0 < x →
      Accepts env text .trancheLengthHbs { trancheLengthHbs := some x }
  | agentsBuyingInTranche {x : Int} : parseInt 32 text = some x → 0 < x →
      Accepts env text .agentsBuyingInTranche { agentsBuyingInTranche := some x }
  | agentsSellingInTranche {x : Int} : parseInt 32 text = some x → 0 < x →
      Accepts env text .agentsSellingInTranche { agentsSellingInTranche := some x }
  | buttonAgentsKeepTokensLamports {x : Int} : parseInt 64 text = some x → 0 ≤ x →
      Accepts env text .buttonAgentsKeepTokensLamports { agentsKeepTokensLamports := some x }

theorem parseNumber_eq_ok {α : Type} [Zero α] [LE α] [DecidableLE α] {parsed : Option α} {x : α}
    (h : parseNumber parsed = .ok x) : parsed = some x ∧ ¬ x ≤ 0 := by
  cases parsed with
  | none => cases h
  | some y =>
      by_cases hy : y ≤ 0
      · rw [parseNumber, if_pos hy] at h
        cases h
      · rw [parseNumber, if_neg hy] at h
        cases h
        exact ⟨rfl, hy⟩

/-- What an update of Telegram may say of the configuration. -/
inductive Says (env : Env) : Update → VolumeStrategyConfigArgs → Prop where
  | text {m : Message} {text : String} {input : TextInput} {a : VolumeStrategyConfigArgs} :
      m.text = some text → input.Accepts env text a → Says env (.message m) a
  /-- The strategy of the settings, for a dialogue that has none yet. -/
  | settings {q : CallbackQuery} {strategy : VolumeStrategyConfigArgs} {user : BotUser} :
      q.data = some buttonConfigureStrategy → env.volumeConfig = some strategy →
      Says env (.callbackQuery q) { strategy with userId := some user.id }

/-- The configuration of a state, after an update of Telegram in another state. -/
def Follows (env : Env) (s : State) (u : Update) (s' : State) : Prop :=
  s'.getStrategyInProgress = s.getStrategyInProgress ∨
    ∃ a, Says env u a ∧ s'.getStrategyInProgress = s.getStrategyInProgress.update a

-- ── What calls store ────────────────────────────────────────────────────────

/-- All that the calls store has the property. -/
def StoresOnly (P : State → Prop) (calls : List Call) : Prop :=
  ∀ s, Call.updateDialogue s ∈ calls → P s

section StoresOnly

variable {cfg : BotConfig} {env : Env} {P : State → Prop} {rest : List Call}

theorem storesOnly_nil : StoresOnly P [] := fun _ hmem => by cases hmem

/-- A call that stores nothing. -/
theorem storesOnly_cons {c : Call} (hc : ∀ s, c ≠ .updateDialogue s) (hrest : StoresOnly P rest) :
    StoresOnly P (c :: rest) := by
  intro s hmem
  rcases List.mem_cons.mp hmem with heq | hmem
  · exact absurd heq.symm (hc s)
  · exact hrest s hmem

theorem storesOnly_attempt {c : Call} {ok : Bool} (hc : ∀ s, c ≠ .updateDialogue s)
    (hrest : StoresOnly P rest) : StoresOnly P (attempt c ok rest) := by
  refine storesOnly_cons hc ?_
  cases ok with
  | false => exact storesOnly_nil
  | true => exact hrest

theorem storesOnly_ask {α : Type} {c : Call} {result : Option α} {rest : α → List Call}
    (hc : ∀ s, c ≠ .updateDialogue s) (hrest : ∀ a, StoresOnly P (rest a)) :
    StoresOnly P (ask c result rest) := by
  refine storesOnly_cons hc ?_
  cases result with
  | none => exact storesOnly_nil
  | some a => exact hrest a

theorem storesOnly_update {s : State} {ok : Bool} (hs : P s) (hrest : StoresOnly P rest) :
    StoresOnly P (attempt (.updateDialogue s) ok rest) := by
  intro s' hmem
  rcases List.mem_cons.mp hmem with heq | hmem
  · rw [Call.updateDialogue.inj heq]
    exact hs
  · cases ok with
    | false => cases hmem
    | true => exact hrest s' hmem

/-- Only the text's value is stored. -/
theorem storesOnly_genericHandler {α : Type} {s : State} {params : DialogueMessages}
    {m : Message} {parse : String → Except String α} {update : α → VolumeStrategyConfigArgs}
    (hP : ∀ text value, m.text = some text → parse text = .ok value →
      P (s.updateConfiguredStrategy (update value))) :
    StoresOnly P (genericHandler env s params m parse update) := by
  rw [genericHandler]
  cases env.reads with
  | false => exact storesOnly_nil
  | true =>
      rw [if_pos rfl]
      cases htext : m.text with
      | none =>
          refine storesOnly_attempt (by simp) <| storesOnly_attempt (by simp) <|
            storesOnly_ask (by simp) fun info => storesOnly_attempt (by simp) ?_
          exact storesOnly_cons (by simp) storesOnly_nil
      | some text =>
          cases hparse : parse text with
          | error e =>
              simp only [hparse]
              exact storesOnly_ask (by simp) fun info => storesOnly_cons (by simp) storesOnly_nil
          | ok value =>
              simp only [hparse]
              refine storesOnly_update (hP text value htext hparse) <|
                storesOnly_attempt (by simp) <| storesOnly_attempt (by simp) <|
                storesOnly_attempt (by simp) storesOnly_nil

end StoresOnly

-- ── The handlers ────────────────────────────────────────────────────────────

section Handlers

variable {cfg : BotConfig} {env : Env} {s s' : State} {u : Update} {m : Message}

/-- A text that is accepted. -/
theorem follows_accepted {text : String} {input : TextInput} {a : VolumeStrategyConfigArgs}
    (htext : m.text = some text) (ha : input.Accepts env text a) :
    Follows env s (.message m) (s.updateConfiguredStrategy a) :=
  .inr ⟨a, .text htext ha, s.update_configures a⟩

theorem follows_of_keeps
    (h : s'.getStrategyInProgressInAny = s.getStrategyInProgressInAny) : Follows env s u s' := by
  refine .inl ?_
  rw [State.getStrategyInProgress, State.getStrategyInProgress, h]

/-- The four fields that take a positive integer differ in how many bits it has. -/
theorem storesOnly_number {input : TextInput} {params : DialogueMessages} {bits : Nat}
    {update : Int → VolumeStrategyConfigArgs}
    (haccepts : ∀ text x, parseInt bits text = some x → ¬ x ≤ 0 →
      input.Accepts env text (update x)) :
    StoresOnly (Follows env s (.message m))
      (genericHandler env s params m (fun text => parseNumber (parseInt bits text)) update) := by
  refine storesOnly_genericHandler fun text value htext hparse => ?_
  obtain ⟨hsome, hpos⟩ := parseNumber_eq_ok hparse
  exact follows_accepted htext (haccepts text value hsome hpos)

/-- The handler of each of the seven states takes what its field accepts. -/
theorem storesOnly_handler (input : TextInput) (params : DialogueMessages) :
    StoresOnly (Follows env s (.message m)) (input.handler env s params m) := by
  cases input with
  | tokenAddress =>
      refine storesOnly_genericHandler fun text value htext hparse => ?_
      rw [parsePubkey] at hparse
      cases hpool : env.pubkeyFromStr text with
      | none =>
          simp only [hpool] at hparse
          cases hparse
      | some pool =>
          simp only [hpool] at hparse
          by_cases hvalid : env.isValidPool pool = true
          · rw [if_pos hvalid] at hparse
            obtain rfl := Except.ok.inj hparse
            exact follows_accepted htext (.tokenAddress hpool hvalid)
          · rw [if_neg hvalid] at hparse
            cases hparse
  | trancheSizeSol =>
      refine storesOnly_genericHandler fun text value htext hparse => ?_
      cases hnumber : parseNumber (env.parseF64 text) with
      | error e =>
          rw [hnumber] at hparse
          cases hparse
      | ok num =>
          rw [hnumber, Except.bind] at hparse
          obtain ⟨hsome, hpos⟩ := parseNumber_eq_ok hnumber
          by_cases hfees : num < swapFees
          · rw [if_pos hfees] at hparse
            cases hparse
          · rw [if_neg hfees] at hparse
            obtain rfl := Except.ok.inj hparse
            exact follows_accepted htext
              (.trancheSizeSol hsome (not_le.mp hpos) (not_lt.mp hfees))
  | trancheFrequencyHbs =>
      exact storesOnly_number fun text x hsome hpos => .trancheFrequencyHbs hsome (not_le.mp hpos)
  | trancheLengthHbs =>
      exact storesOnly_number fun text x hsome hpos => .trancheLengthHbs hsome (not_le.mp hpos)
  | agentsBuyingInTranche =>
      exact storesOnly_number fun text x hsome hpos => .agentsBuyingInTranche hsome (not_le.mp hpos)
  | agentsSellingInTranche =>
      exact storesOnly_number fun text x hsome hpos => .agentsSellingInTranche hsome (not_le.mp hpos)
  | buttonAgentsKeepTokensLamports =>
      refine storesOnly_genericHandler fun text value htext hparse => ?_
      cases hx : parseInt 64 text with
      | none =>
          simp only [hx] at hparse
          cases hparse
      | some x =>
          simp only [hx] at hparse
          by_cases hneg : x < 0
          · rw [if_pos hneg] at hparse
            cases hparse
          · rw [if_neg hneg] at hparse
            obtain rfl := Except.ok.inj hparse
            exact follows_accepted htext
              (.buttonAgentsKeepTokensLamports hx (not_lt.mp hneg))

theorem storesOnly_start : StoresOnly (Follows env s u) (start env s m) := by
  rw [start]
  cases getUserFromUserMessage m with
  | none => exact storesOnly_cons (by simp) storesOnly_nil
  | some dto =>
      refine storesOnly_ask (by simp) fun user => ?_
      cases env.reads with
      | false => exact storesOnly_nil
      | true =>
          exact storesOnly_update (follows_of_keeps s.toMainMenu_keeps)
            (storesOnly_attempt (by simp) storesOnly_nil)

/-- `/collect` starts sweepers only. -/
theorem storesOnly_collectFor {P : State → Prop} {collection : FoxfireSweeper.CollectEnv}
    {chat : Int} (us : List FoxfireSweeper.BotUser) :
    StoresOnly P (collectFor collection chat us) := by
  induction us with
  | nil => exact storesOnly_nil
  | cons user us ih =>
      rw [collectFor]
      cases collection.reads user with
      | false => exact storesOnly_nil
      | true =>
          intro s hmem
          rcases List.mem_append.mp hmem with hmem | hmem
          · obtain ⟨_, -, heq⟩ := List.mem_map.mp hmem
            cases heq
          · split at hmem
            · exact storesOnly_attempt (by simp) ih s hmem
            · cases hmem

theorem storesOnly_collect {P : State → Prop} : StoresOnly P (collect env m) := by
  rw [collect]
  cases getUserFromUserMessage m with
  | none => exact storesOnly_nil
  | some dto => exact storesOnly_ask (by simp) fun _ => storesOnly_collectFor _

/-- The branches are tried in turn. -/
theorem storesOnly_firstBranch {P : State → Prop} {branches : List (Option (List Call))}
    (h : ∀ calls, some calls ∈ branches → StoresOnly P calls) :
    StoresOnly P (firstBranch branches) := by
  induction branches with
  | nil => exact storesOnly_nil
  | cons branch branches ih =>
      cases branch with
      | some calls => exact h calls List.mem_cons_self
      | none => exact ih fun calls hmem => h calls (List.mem_cons_of_mem _ hmem)

/-- **A MESSAGE**: a command, or a text for the field that the state awaits. -/
theorem storesOnly_messageHandler :
    StoresOnly (Follows env s (.message m)) (messageHandler cfg env s m) := by
  refine storesOnly_firstBranch fun calls hmem => ?_
  simp only [List.cons_append, List.nil_append, List.mem_cons, List.mem_append, List.mem_map,
    List.not_mem_nil, or_false] at hmem
  rcases hmem with hstart | hcollect | ⟨input, -, htext⟩ | hinvalid
  · split at hstart
    · rw [Option.some.inj hstart]
      exact storesOnly_start
    · cases hstart
  · split at hcollect
    · rw [Option.some.inj hcollect]
      exact storesOnly_collect
    · cases hcollect
  · cases s with
    | receive i strategy messages =>
        rw [textBranch] at htext
        split at htext
        · rw [← Option.some.inj htext]
          exact storesOnly_handler input messages
        · cases htext
    | init => cases htext
    | receiveStrategy strategy => cases htext
    | strategySelected strategy id => cases htext
  · rw [Option.some.inj hinvalid]
    exact storesOnly_nil

theorem storesOnly_deleteHeld {P : State → Prop} {rest : List Call} (hrest : StoresOnly P rest) :
    StoresOnly P (deleteHeld env s m rest) := by
  rw [deleteHeld]
  cases s.getMessageToDelete with
  | none => exact hrest
  | some held => exact storesOnly_attempt (by simp) hrest

theorem storesOnly_backToTheMainMenu {user : BotUser} :
    StoresOnly (Follows env s u) (backToTheMainMenu env s m user s.toMainMenu) :=
  storesOnly_deleteHeld <| storesOnly_update (follows_of_keeps s.toMainMenu_keeps) <|
    storesOnly_attempt (by simp) storesOnly_nil

theorem storesOnly_cancel : StoresOnly (Follows env s u) (cancel env s m) :=
  storesOnly_deleteHeld <| storesOnly_update (follows_of_keeps s.cancelTextInput_keeps) <|
    storesOnly_attempt (by simp) storesOnly_nil

theorem storesOnly_dropAll {P : State → Prop} {rest : List Call} (hrest : StoresOnly P rest)
    (ids : List StrategyId) : StoresOnly P (dropAll env rest ids) := by
  induction ids with
  | nil => exact hrest
  | cons id ids ih => exact storesOnly_attempt (by simp) ih

/-- The strategy of the settings is taken where the dialogue has none. -/
theorem storesOnly_configureStrategy {q : CallbackQuery} {user : BotUser}
    (hbutton : q.data = some buttonConfigureStrategy) :
    StoresOnly (Follows env s (.callbackQuery q)) (configureStrategy env s m user) := by
  have hfinish : ∀ s', Follows env s (.callbackQuery q) s' →
      StoresOnly (Follows env s (.callbackQuery q))
        (attempt (.renderStrategiesMenu m s') env.rendersStrategies <|
          attempt (.updateDialogue s') env.writes []) := fun s' hs' =>
    storesOnly_attempt (by simp) (storesOnly_update hs' storesOnly_nil)
  rw [configureStrategy]
  cases hprogress : s.toReceiveStrategy.getStrategyInProgressInAny with
  | some a => exact hfinish _ (follows_of_keeps rfl)
  | none =>
      cases hconfig : env.volumeConfig with
      | none => exact storesOnly_nil
      | some strategy =>
          exact hfinish _ (.inr ⟨_, .settings hbutton hconfig,
            s.toReceiveStrategy.update_configures _⟩)

theorem storesOnly_topMenuCallbackHandler {q : CallbackQuery} :
    StoresOnly (Follows env s (.callbackQuery q)) (topMenuCallbackHandler cfg env s q) := by
  rw [topMenuCallbackHandler]
  cases q.message with
  | none => exact storesOnly_nil
  | some m =>
      cases hpress : getUserFromButtonPress cfg env m with
      | error e =>
          simp only [hpress]
          exact storesOnly_cons (by simp) storesOnly_nil
      | ok user =>
          simp only [hpress]
          cases env.reads with
          | false => exact storesOnly_nil
          | true =>
              rw [if_pos rfl]
              cases hbutton : q.data with
              | none => exact storesOnly_nil
              | some button =>
                  simp only
                  split_ifs with hcancel hback hstop hconfigure
                  · exact storesOnly_cancel
                  · exact storesOnly_backToTheMainMenu
                  · exact storesOnly_dropAll (storesOnly_cons (by simp)
                      (storesOnly_attempt (by simp) storesOnly_nil)) _
                  · rw [hconfigure] at hbutton
                    exact storesOnly_configureStrategy hbutton
                  · exact storesOnly_nil

theorem storesOnly_askFor (input : TextInput) :
    StoresOnly (Follows env s u) (askFor env s m input) :=
  storesOnly_ask (by simp) fun messageToDelete =>
    storesOnly_update (follows_of_keeps (State.target_keeps input s _)) <|
      storesOnly_attempt (by simp) storesOnly_nil

theorem storesOnly_createAndStart {user : BotUser} :
    StoresOnly (Follows env s u) (createAndStart env s m user) := by
  rw [createAndStart]
  cases VolumeStrategyInstance.tryFrom env s.getStrategyInProgress with
  | error e => exact storesOnly_nil
  | ok inst =>
      simp only
      cases env.createsVolume inst with
      | false => exact storesOnly_cons (by simp) storesOnly_nil
      | true =>
          refine storesOnly_cons (by simp) ?_
          cases env.starts inst with
          | none => exact storesOnly_cons (by simp) storesOnly_nil
          | some id =>
              exact storesOnly_cons (by simp) <|
                storesOnly_update (follows_of_keeps s.toMainMenu_keeps) <|
                storesOnly_attempt (by simp) storesOnly_nil

theorem storesOnly_startStrategy {user : BotUser} :
    StoresOnly (Follows env s u) (startStrategy cfg env s m user) := by
  rw [startStrategy]
  cases env.balanceUi user.walletAddress with
  | none => exact storesOnly_nil
  | some balance =>
      simp only
      split_ifs
      · exact storesOnly_cons (by simp) storesOnly_nil
      · exact storesOnly_cons (by simp) storesOnly_nil
      · exact storesOnly_createAndStart

theorem storesOnly_selectStrategyHandler {q : CallbackQuery} :
    StoresOnly (Follows env s (.callbackQuery q)) (selectStrategyHandler cfg env s q) := by
  rw [selectStrategyHandler]
  cases q.message with
  | none => exact storesOnly_nil
  | some m =>
      cases hpress : getUserFromButtonPress cfg env m with
      | error e =>
          simp only [hpress]
          exact storesOnly_nil
      | ok user =>
          simp only [hpress]
          cases env.reads with
          | false => exact storesOnly_nil
          | true =>
              rw [if_pos rfl]
              cases q.data with
              | none => exact storesOnly_nil
              | some button =>
                  simp only
                  by_cases hinfo : button = buttonInfo
                  · rw [if_pos hinfo]
                    exact storesOnly_cons (by simp) storesOnly_nil
                  rw [if_neg hinfo]
                  cases TextInput.all.find? fun input => input.button = button with
                  | some input => exact storesOnly_askFor input
                  | none =>
                      simp only
                      split_ifs
                      · exact storesOnly_startStrategy
                      · exact storesOnly_backToTheMainMenu
                      · exact storesOnly_nil

/-- **A BUTTON**, of either menu. -/
theorem storesOnly_callbackQueryHandler {q : CallbackQuery} :
    StoresOnly (Follows env s (.callbackQuery q)) (callbackQueryHandler cfg env s q) := by
  refine storesOnly_firstBranch fun calls hmem => ?_
  rcases List.mem_cons.mp hmem with hselect | htop
  · cases s with
    | receiveStrategy strategy =>
        rw [Option.some.inj hselect]
        exact storesOnly_selectStrategyHandler
    | init => cases hselect
    | receive input strategy messages => cases hselect
    | strategySelected strategy id => cases hselect
  · rw [Option.some.inj (List.mem_singleton.mp htop)]
    exact storesOnly_topMenuCallbackHandler

/-- The handlers store what follows, and so does the dialogue. -/
theorem follows_stored : Follows env s u (stored env s (handle cfg env s u)) := by
  have hcalls : StoresOnly (Follows env s u) (handle cfg env s u) := by
    cases u with
    | message m => exact storesOnly_messageHandler
    | callbackQuery q => exact storesOnly_callbackQueryHandler
    | other chat => exact storesOnly_nil
  have hstored : ∀ (calls : List Call) (t : State), Follows env s u t →
      StoresOnly (Follows env s u) calls → Follows env s u (stored env t calls) := by
    intro calls
    induction calls with
    | nil => exact fun t ht _ => ht
    | cons c calls ih =>
        intro t ht hcalls
        refine ih _ ?_ fun s' hmem => hcalls s' (List.mem_cons_of_mem _ hmem)
        cases c with
        | updateDialogue s' =>
            show Follows env s u (if env.writes then s' else t)
            cases env.writes with
            | false => exact ht
            | true => exact hcalls s' List.mem_cons_self
        | _ => exact ht
  exact hstored _ s (.inl rfl) hcalls

end Handlers

-- ── All chats ───────────────────────────────────────────────────────────────

/-- What an input of the dispatcher may say of the configuration in a chat. -/
def SaysIn (chat : Int) (i : Update × Env) (a : VolumeStrategyConfigArgs) : Prop :=
  i.1.chatId = some chat ∧ Says i.2 i.1 a

/-- One input of the dispatcher, for each chat. -/
theorem dispatcher_follows {cfg : BotConfig} {d d' : Int → State} {i : Update × Env}
    {out : List (Int × Call)} (hs : dispatcher cfg d i = some (d', out)) (chat : Int) :
    (d' chat).getStrategyInProgress = (d chat).getStrategyInProgress ∨
      ∃ a, SaysIn chat i a ∧
        (d' chat).getStrategyInProgress = (d chat).getStrategyInProgress.update a := by
  have hquiet : some (d, []) = some (d', out) →
      (d' chat).getStrategyInProgress = (d chat).getStrategyInProgress := by
    rintro ⟨⟩
    rfl
  rw [dispatcher] at hs
  cases hchat : i.1.chatId with
  | none =>
      rw [hchat] at hs
      exact .inl (hquiet hs)
  | some sender =>
      simp only [hchat] at hs
      by_cases henters : i.2.enters = true
      · rw [if_pos henters] at hs
        obtain ⟨rfl, -⟩ := Prod.mk.inj (Option.some.inj hs)
        by_cases hsender : chat = sender
        · subst hsender
          rw [Function.update_self]
          obtain hkeeps | ⟨a, hsays, hupdate⟩ := @follows_stored cfg i.2 (d chat) i.1
          · exact .inl hkeeps
          · exact .inr ⟨a, ⟨hchat, hsays⟩, hupdate⟩
        · exact .inl (congrArg State.getStrategyInProgress (Function.update_of_ne hsender _ _))
      · rw [if_neg henters] at hs
        exact .inl (hquiet hs)

/-- The configuration of a chat is the last write for each field of what some of the inputs
    said, in their order. -/
def WrittenBy (chat : Int) (is : List (Update × Env)) (d : Int → State) : Prop :=
  ∃ js us, js.Sublist is ∧ List.Forall₂ (SaysIn chat) js us ∧
    (d chat).getStrategyInProgress = (default : VolumeStrategyConfigArgs).combined us

theorem writtenBy_step {cfg : BotConfig} {chat : Int} {past : List (Update × Env)}
    {d d' : Int → State} {i : Update × Env} {out : List (Int × Call)}
    (hpast : WrittenBy chat past d) (hs : dispatcher cfg d i = some (d', out)) :
    WrittenBy chat (past ++ [i]) d' := by
  obtain ⟨js, us, hsub, hsays, hconfig⟩ := hpast
  obtain hkeeps | ⟨a, ha, hupdate⟩ := dispatcher_follows hs chat
  · exact ⟨js, us, hsub.trans (List.sublist_append_left past [i]), hsays, hkeeps.trans hconfig⟩
  · refine ⟨js ++ [i], us ++ [a], hsub.append (List.Sublist.refl [i]),
      List.rel_append hsays (List.Forall₂.cons ha .nil), ?_⟩
    rw [hupdate, hconfig, VolumeStrategyConfigArgs.combined_concat]

/-- **THE DIALOGUES THAT ARE STORED.**  From dialogues that are all in their first state, and
    after any updates of all chats, the configuration of a chat was written by texts of this
    chat that the awaited fields accept, and by the strategy of the settings. -/
theorem dialogue_last_write_wins {cfg : BotConfig} {is : List (Update × Env)}
    {d : Int → State} {out : List (Int × Call)}
    (hrun : run (dispatcher cfg) (fun _ => default) is = some (d, out)) (chat : Int) :
    WrittenBy chat is d :=
  run_history ⟨[], [], List.Sublist.refl [], List.Forall₂.nil, rfl⟩
    (fun _ _ _ _ _ hpast hs => writtenBy_step hpast hs) hrun

end FoxfireTelegram
