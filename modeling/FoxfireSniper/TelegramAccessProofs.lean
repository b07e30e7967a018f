import FoxfireSniper.DialogueTypes
import FoxfireSniper.TxParserProofs

/-! # Who may use the bot

    The updates of Telegram, from the dispatcher of `src/tg_bot/init.rs` down to the calls
    that the handlers make.  An update goes to the first branch whose filters pass; the
    branches are indexed by the command, by the button, and by the state of the chat's
    dialogue.  Some of them test who is asking, and those that read a text do not.

    A handler is the list of its calls; it ends at the first one that fails where the source
    has a `?`.  How the calls end, and what they return, is in `Env`, for each update anew.

    * **`handle_outsider`** — what an update from a chat without access can do in the first
      state of a dialogue: nothing that matters;
    * **`outsider_stays_init`** — so that such a chat never gets any further. -/

namespace FoxfireTelegram

open FoxfireTypes MachineRun
open FoxfireVolume (VolumeInstance)

-- ── The surroundings ────────────────────────────────────────────────────────

/-- A row of the table of users. -/
structure BotUser extends FoxfireSweeper.BotUser where
  chatId        : Int
  walletAddress : String

/-- `VolumeStrategyInstance`, with what a dialogue puts into it. -/
structure VolumeStrategyInstance extends VolumeInstance where
  targetPool       : Pubkey
  trancheLengthHbs : Int

inductive BCommand where
  | start
  | collect
  deriving DecidableEq, Repr

structure TgBotConfig where
  whitelistedChatIds : Option (List Int)
  adminChatIds       : Option (List Int)
  minimumDepositSol  : ℚ

/-- `BotConfig`: the settings, and how a command is read from a message. -/
structure BotConfig where
  tgbot        : TgBotConfig
  parseCommand : Message → Option BCommand

inductive Strategy where
  | volume (inst : VolumeStrategyInstance)
  | sweeper (inst : VolumeInstance)

/-- Messages whose text is computed. -/
inductive Notice where
  | notEnoughSol (balance needed : ℚ)
  | trancheTooSmall (needed : ℚ)
  | started (id : StrategyId)
  | stopped (ids : List StrategyId)
  | failedToCreate
  | failedToStart

inductive Call where
  | sendMessage (chat : Int) (text : String)
  | notifyUser (chat : Int) (notice : Notice)
  | notifyWithFadingMessage (chat : Int) (text : String)
  | deleteMessage (chat : Int) (id : Int)
  | renderStrategiesMenu (message : Message) (state : State)
  | renderMainMenu (user : BotUser) (state : State)
  | loadOrCreateUser (user : TelegramUser)
  | updateDialogue (state : State)
  | startStrategy (strategy : Strategy)
  | dropStrategy (id : StrategyId)

/-- How the calls of one update end. -/
structure Env where
  /-- The dialogue can be read when the update comes in, and later by its handler. -/
  enters            : Bool
  reads             : Bool
  writes            : Bool
  sends             : String → Option Message
  deletes           : Int → Bool
  rendersStrategies : Bool
  rendersMain       : Bool
  loadOrCreateUser  : TelegramUser → Option BotUser
  /-- The error of the connection pool. -/
  poolError         : Option String
  users             : Option (List BotUser)
  volumeConfig      : Option VolumeStrategyConfigArgs
  /-- The volume strategies that are active: their id and their user's. -/
  active            : List (StrategyId × Int)
  drops             : StrategyId → Bool
  balanceUi         : String → Option ℚ
  createsVolume     : VolumeStrategyInstance → Bool
  starts            : VolumeStrategyInstance → Option StrategyId
  pubkeyFromStr     : String → Option Pubkey
  pubkeyToString    : Pubkey → String
  isValidPool       : Pubkey → Bool
  parseF64          : String → Option ℚ
  collection        : FoxfireSweeper.CollectEnv

/-- A call that ends the handler if it fails. -/
def attempt (c : Call) (ok : Bool) (rest : List Call) : List Call := c :: if ok then rest else []

/-- A call whose result is used. -/
def ask {α : Type} (c : Call) (result : Option α) (rest : α → List Call) : List Call :=
  c :: result.elim [] rest

-- ── Who is asking ───────────────────────────────────────────────────────────

def getUserFromUserMessage (m : Message) : Option TelegramUser :=
  m.user.bind fun user =>
    if !user.isBot && user.username.isSome then
      if m.chat.isPrivate then some user
      else some ⟨UInt64.ofInt m.chat.id, false, some "GroupChat"⟩
    else none

def getUserFromButtonPress (cfg : BotConfig) (env : Env) (m : Message) : Except String BotUser :=
  match env.poolError with
  | some e => .error e
  | none =>
      match (env.users.getD []).find? fun u => u.chatId = m.chat.id with
      | some user =>
          match cfg.tgbot.whitelistedChatIds with
          | some whitelisted =>
              if user.chatId ∈ whitelisted then .ok user
              else .error "The system is currently only available to whitelisted users."
          | none => .ok user
      | none => .error ("User not found in the database, user chat id " ++ toString m.chat.id)

/-- The filter of `/start`. -/
def isWhitelisted (cfg : BotConfig) (m : Message) : Bool :=
  match cfg.tgbot.whitelistedChatIds with
  | none             => m.chat.isPrivate
  | some whitelisted => m.chat.id ∈ whitelisted

/-- The filter of `/collect`. -/
def isAdmin (cfg : BotConfig) (m : Message) : Bool :=
  match cfg.tgbot.adminChatIds with
  | none       => false
  | some admin => m.chat.id ∈ admin

-- ── The commands ────────────────────────────────────────────────────────────

def start (env : Env) (s : State) (m : Message) : List Call :=
  match getUserFromUserMessage m with
  | some dto =>
      ask (.loadOrCreateUser dto) (env.loadOrCreateUser dto) fun user =>
        if env.reads then
          attempt (.updateDialogue s.toMainMenu) env.writes <|
          attempt (.renderMainMenu user s.toMainMenu) env.rendersMain []
        else []
  | none => [.sendMessage m.chat.id "Please set a username in Telegram settings"]

/-- The loop of `/collect` over the users. -/
def collectFor (env : FoxfireSweeper.CollectEnv) (chat : Int) :
    List FoxfireSweeper.BotUser → List Call
  | []      => []
  | u :: us =>
      if env.reads u then
        let strategies := env.instances.filter fun i => i.userId = u.id
        let p := FoxfireSweeper.startSweepers { env with starts := fun _ => true } strategies
        p.1.map (fun s => .startStrategy (.sweeper s.inst)) ++
          if p.2 then
            attempt (.sendMessage chat ("User " ++ toString u.id ++ ", " ++
              toString strategies.length ++ " collections started")) (env.sends u)
              (collectFor env chat us)
          else []
      else []

/-- The sweeper that a call starts. -/
def Call.sweeper : Call → Option VolumeInstance
  | .startStrategy (.sweeper inst) => some inst
  | _                              => none

/-- The sweepers that are started are those of the command's loop. -/
theorem collectFor_sweepers (env : FoxfireSweeper.CollectEnv) (chat : Int)
    (us : List FoxfireSweeper.BotUser) : (collectFor env chat us).filterMap Call.sweeper =
      (FoxfireSweeper.collect { env with starts := fun _ => true } us).map fun s => s.inst := by
  induction us with
  | nil => rfl
  | cons u us ih =>
      rw [collectFor, FoxfireSweeper.collect]
      cases env.reads u with
      | false => rfl
      | true =>
          simp only [if_true, List.filterMap_append, List.map_append, List.filterMap_map]
          congr 1
          · rw [← List.filterMap_eq_map]
            rfl
          · split
            · next hend =>
                rw [attempt, List.filterMap_cons_none rfl, hend, Bool.true_and]
                cases env.sends u with
                | false => rfl
                | true => exact ih
            · next hend =>
                rw [Bool.eq_false_iff.mpr hend]
                rfl

def collect (env : Env) (m : Message) : List Call :=
  match getUserFromUserMessage m with
  | some dto =>
      ask (.loadOrCreateUser dto) (env.loadOrCreateUser dto) fun _ =>
        collectFor env.collection m.chat.id env.collection.users
  | none => []

-- ── The main menu ───────────────────────────────────────────────────────────

def buttonBackToTheMainMenu : String := "▲ Main menu"
def buttonCancel : String := "❌Cancel"
def buttonStopStrategies : String := "Strategies"
def buttonConfigureStrategy : String := "SelectStrategy"

/-- A message that the state holds is deleted first. -/
def deleteHeld (env : Env) (s : State) (m : Message) (rest : List Call) : List Call :=
  match s.getMessageToDelete with
  | some held => attempt (.deleteMessage m.chat.id held.id) (env.deletes held.id) rest
  | none      => rest

def cancel (env : Env) (s : State) (m : Message) : List Call :=
  let updatedState := s.cancelTextInput
  deleteHeld env s m <|
  attempt (.updateDialogue updatedState) env.writes <|
  attempt (.renderStrategiesMenu m updatedState) env.rendersStrategies []

/-- Back to the main menu, from either menu. -/
def backToTheMainMenu (env : Env) (s : State) (m : Message) (user : BotUser)
    (updatedState : State) : List Call :=
  deleteHeld env s m <|
  attempt (.updateDialogue updatedState) env.writes <|
  attempt (.renderMainMenu user updatedState) env.rendersMain []

/-- The strategies of the user are dropped, up to the first that cannot be. -/
def dropAll (env : Env) (rest : List Call) : List StrategyId → List Call
  | []        => rest
  | id :: ids => attempt (.dropStrategy id) (env.drops id) (dropAll env rest ids)

def stopStrategies (env : Env) (s : State) (m : Message) (user : BotUser) : List Call :=
  let userStrategies := (env.active.filter fun p => p.2 = user.id).map Prod.fst
  dropAll env
    (.notifyUser m.chat.id (.stopped userStrategies) ::
      attempt (.renderMainMenu user s) env.rendersMain [])
    userStrategies

def configureStrategy (env : Env) (s : State) (m : Message) (user : BotUser) : List Call :=
  let state := s.toReceiveStrategy
  let finish := fun state : State =>
    attempt (.renderStrategiesMenu m state) env.rendersStrategies <|
    attempt (.updateDialogue state) env.writes []
  match state.getStrategyInProgressInAny, env.volumeConfig with
  | some _, _ => finish state
  | none, some strategy =>
      finish (state.updateConfiguredStrategy { strategy with userId := some user.id })
  -- the settings hold no volume strategy, and `unwrap` panics
  | none, none => []

def topMenuCallbackHandler (cfg : BotConfig) (env : Env) (s : State) (q : CallbackQuery) :
    List Call :=
  match q.message with
  | none => []
  | some m =>
      match getUserFromButtonPress cfg env m with
      | .ok user =>
          if env.reads then
            match q.data with
            | some button =>
                if button = buttonCancel then cancel env s m
                else if button = buttonBackToTheMainMenu then
                  backToTheMainMenu env s m user s.toMainMenu
                else if button = buttonStopStrategies then stopStrategies env s m user
                else if button = buttonConfigureStrategy then configureStrategy env s m user
                else []
            | none => []
          else []
      | .error e => [.notifyWithFadingMessage m.chat.id e]

-- ── The menu of a strategy ──────────────────────────────────────────────────

def buttonInfo : String := "ℹ️"
def buttonStartStrategy : String := "🚀Start Strategy"

namespace TextInput

/-- In the order of the dispatcher's branches. -/
def all : List TextInput :=
  [.tokenAddress, .trancheSizeSol, .trancheFrequencyHbs, .trancheLengthHbs,
    .agentsBuyingInTranche, .agentsSellingInTranche, .buttonAgentsKeepTokensLamports]

/-- The button that asks for the field. -/
def button : TextInput → String
  | .tokenAddress                   => "Raydium Pool"
  | .trancheSizeSol                 => "Bundle Size"
  | .trancheFrequencyHbs            => "Bundle Frequency"
  | .trancheLengthHbs               => "Tranche Duration"
  | .agentsBuyingInTranche          => "Buys per bundle"
  | .agentsSellingInTranche         => "Sells per bundle"
  | .buttonAgentsKeepTokensLamports => "Number of Tokens to Keep"

def prompt : TextInput → String
  | .tokenAddress => "📝 Enter the Raydium pool address you wish to trade (NOT the token):"
  | .trancheSizeSol => "📝 Determine the total SOL to be traded per swap, divided randomly among " ++
      "the specified buys and sells:"
  | .trancheFrequencyHbs => "📝 Set the interval at which swap bundles are executed. Shorter " ++
      "intervals are optimal for rapid ranking improvements, while longer intervals sustain " ++
      "engagement and gradual rank enhancement: "
  | .trancheLengthHbs => "📝 Enter the tranche duration in seconds, which is an interval for all " ++
      "traders to complete their buys and sells:"
  | .agentsBuyingInTranche =>
      "📝  Specify the number of buy transactions per swap bundle (Minimum: 1, Maximum: TBD):"
  | .agentsSellingInTranche =>
      "📝 Specify the number of sell transactions per swap bundle (Minimum: XX, Maximum: TBD):"
  | .buttonAgentsKeepTokensLamports => "📝 Enter the amount of tokens (in lamports, the minimal " ++
      "denomination of the token) to keep on the agent's wallet after each tranche:"

end TextInput

def infoText : String :=
  "This strategy is designed to trade a specific token pair on Raydium\\. It will create " ++
  "buyers and sellers that buy and sell the token in bundles, with a specified frequency\\."

/-- One of the seven buttons that ask for a field. -/
def askFor (env : Env) (s : State) (m : Message) (input : TextInput) : List Call :=
  ask (.sendMessage m.chat.id input.prompt) (env.sends input.prompt) fun messageToDelete =>
    let updatedState := input.target s ⟨m, messageToDelete⟩
    attempt (.updateDialogue updatedState) env.writes <|
    attempt (.renderStrategiesMenu m updatedState) env.rendersStrategies []

def okOr {α : Type} (o : Option α) (e : String) : Except String α := o.elim (.error e) .ok

/-- `VolumeStrategyInstance::try_from`. -/
def VolumeStrategyInstance.tryFrom (env : Env) (value : VolumeStrategyConfigArgs) :
    Except String VolumeStrategyInstance := do
  let userId ← okOr value.userId "user_id is None"
  let pool ← okOr value.targetPool "target_pool is None"
  let targetPool ← okOr (env.pubkeyFromStr pool) "target_pool is not a valid Pubkey"
  let trancheSizeSol ← okOr value.trancheSizeSol "tranche_size_sol is None"
  let trancheFrequencyHbs ← okOr value.trancheFrequencyHbs "tranche_frequency_hbs is None"
  let trancheLengthHbs ← okOr value.trancheLengthHbs "tranche_length_hbs is None"
  let buying ← okOr value.agentsBuyingInTranche "agents_buying_in_tranche is None"
  let selling ← okOr value.agentsSellingInTranche "agents_selling_in_tranche is None"
  let keep ← okOr value.agentsKeepTokensLamports "agents_keep_tokens_lamports is None"
  return ⟨⟨⟨0, trancheSizeSol, buying, selling, keep⟩, userId, trancheFrequencyHbs⟩,
    targetPool, trancheLengthHbs⟩

/-- The fees of a swap. -/
def swapFees : ℚ := FoxfireParser.lamportsToSol (baseTxFeeSol + transferPriorityFeeSol)

/-- They are due for each agent. -/
def minimumSolNeeded (agents : Int) : ℚ := swapFees * agents

/-- The configuration becomes an instance, the instance a strategy, and this is started. -/
def createAndStart (env : Env) (s : State) (m : Message) (user : BotUser) : List Call :=
  match VolumeStrategyInstance.tryFrom env s.getStrategyInProgress with
  -- the message about it is never awaited, and not sent
  | .error _ => []
  | .ok inst =>
      if env.createsVolume inst then
        .startStrategy (.volume inst) ::
          match env.starts inst with
          | some id =>
              .notifyUser m.chat.id (.started id) ::
                attempt (.updateDialogue s.toMainMenu) env.writes
                  (attempt (.renderMainMenu user s.toMainMenu) env.rendersMain [])
          | none => [.notifyUser m.chat.id .failedToStart]
      else [.notifyUser m.chat.id .failedToCreate]

def startStrategy (cfg : BotConfig) (env : Env) (s : State) (m : Message) (user : BotUser) :
    List Call :=
  let args := s.getStrategyInProgress
  let strategyTrancheSize := args.trancheSizeSol.getD 0
  let minDeposit := max cfg.tgbot.minimumDepositSol strategyTrancheSize
  match env.balanceUi user.walletAddress with
  | none => []
  | some userSolBalance =>
      if userSolBalance < minDeposit then
        [.notifyUser m.chat.id (.notEnoughSol userSolBalance minDeposit)]
      else
        let agents := max (args.agentsBuyingInTranche.getD 1) (args.agentsSellingInTranche.getD 1)
        if strategyTrancheSize < minimumSolNeeded agents then
          [.notifyUser m.chat.id (.trancheTooSmall (minimumSolNeeded agents))]
        else createAndStart env s m user

def selectStrategyHandler (cfg : BotConfig) (env : Env) (s : State) (q : CallbackQuery) :
    List Call :=
  match q.message with
  | none => []
  | some m =>
      match getUserFromButtonPress cfg env m with
      | .error _ => []
      | .ok user =>
          if env.reads then
            match q.data with
            | none => []
            | some button =>
                if button = buttonInfo then [.notifyWithFadingMessage m.chat.id infoText]
                else
                  match TextInput.all.find? fun input => input.button = button with
                  | some input => askFor env s m input
                  | none =>
                      if button = buttonStartStrategy then startStrategy cfg env s m user
                      else if button = buttonBackToTheMainMenu then
                        backToTheMainMenu env s m user s.back
                      else []
          else []

-- ── The texts ───────────────────────────────────────────────────────────────

/-- `str::parse` to an integer of so many bits. -/
def parseInt (bits : Nat) (text : String) : Option Int :=
  let (negative, digits) := match text.toList with
    | '-' :: ds => (true, ds)
    | '+' :: ds => (false, ds)
    | ds        => (false, ds)
  if digits.isEmpty || !digits.all Char.isDigit then none
  else
    let n : Int := digits.foldl (fun n d => 10 * n + (d.toNat - '0'.toNat : Nat)) 0
    let x := if negative then -n else n
    if -(2 ^ (bits - 1)) ≤ x ∧ x < 2 ^ (bits - 1) then some x else none

def parseNumber {α : Type} [Zero α] [LE α] [DecidableLE α] (parsed : Option α) :
    Except String α :=
  match parsed with
  | some x => if x ≤ 0 then .error "The value must be greater than 0" else .ok x
  | none   => .error "The input is not a valid number"

def parsePubkey (env : Env) (text : String) : Except String String :=
  match env.pubkeyFromStr text with
  | some pool =>
      if env.isValidPool pool then .ok (env.pubkeyToString pool)
      else .error "The address is not a valid Raydium SOL pool"
  | none => .error "The input is not a valid Solana address"

/-- What the seven handlers share: the field is parsed and set, and the menu is shown again.
    There is no test of who has sent the text. -/
def genericHandler {α : Type} (env : Env) (s : State) (params : DialogueMessages) (m : Message)
    (parse : String → Except String α) (update : α → VolumeStrategyConfigArgs) : List Call :=
  let deleteBoth := fun rest =>
    attempt (.deleteMessage m.chat.id params.messageToDelete.id)
      (env.deletes params.messageToDelete.id)
      (attempt (.deleteMessage m.chat.id m.id) (env.deletes m.id) rest)
  -- an answer to the user is deleted later
  let inform := fun (text : String) (rest : List Call → List Call) =>
    ask (.sendMessage m.chat.id text) (env.sends text) fun info =>
      rest [.deleteMessage m.chat.id info.id]
  if env.reads then
    match m.text with
    | some text =>
        match parse text with
        | .ok value =>
            let updatedState := s.updateConfiguredStrategy (update value)
            attempt (.updateDialogue updatedState) env.writes <|
            deleteBoth <|
            attempt (.renderStrategiesMenu params.messageToEdit updatedState)
              env.rendersStrategies []
        | .error e => inform ("Error: " ++ e) id
    | none =>
        deleteBoth <| inform "Please enter a valid value" fun rest =>
          attempt (.renderStrategiesMenu params.messageToEdit s) env.rendersStrategies rest
  else []

def receiveTokenAddressHandler (env : Env) (s : State) (params : DialogueMessages)
    (m : Message) : List Call :=
  genericHandler env s params m (parsePubkey env) fun value => { targetPool := some value }

def receiveTrancheSizeSolHandler (env : Env) (s : State) (params : DialogueMessages)
    (m : Message) : List Call :=
  genericHandler env s params m
    (fun text => (parseNumber (env.parseF64 text)).bind fun num =>
      if num < swapFees then
        -- the fees, to four digits
        .error "The value must be greater than or equal to 0.0000 to cover swap fees per each trader"
      else .ok num)
    fun value => { trancheSizeSol := some value }

def receiveTrancheFrequencyHbsHandler (env : Env) (s : State) (params : DialogueMessages)
    (m : Message) : List Call :=
  genericHandler env s params m (fun text => parseNumber (parseInt 64 text))
    fun value => { trancheFrequencyHbs := some value }

def receiveTrancheLengthHbsHandler (env : Env) (s : State) (params : DialogueMessages)
    (m : Message) : List Call :=
  genericHandler env s params m (fun text => parseNumber (parseInt 64 text))
    fun value => { trancheLengthHbs := some value }

def receiveAgentsBuyingInTrancheHandler (env : Env) (s : State) (params : DialogueMessages)
    (m : Message) : List Call :=
  genericHandler env s params m (fun text => parseNumber (parseInt 32 text))
    fun value => { agentsBuyingInTranche := some value }

def receiveAgentsSellingInTrancheHandler (env : Env) (s : State) (params : DialogueMessages)
    (m : Message) : List Call :=
  genericHandler env s params m (fun text => parseNumber (parseInt 32 text))
    fun value => { agentsSellingInTranche := some value }

/-- Here 0 is allowed. -/
def receiveButtonAgentsKeepTokensLamportsHandler (env : Env) (s : State)
    (params : DialogueMessages) (m : Message) : List Call :=
  genericHandler env s params m
    (fun text => match parseInt 64 text with
      | some x => if x < 0 then .error "The value must be greater or equal than 0" else .ok x
      | none   => .error "The input is not a valid number")
    fun value => { agentsKeepTokensLamports := some value }

/-- The handler of a state that awaits a text. -/
def TextInput.handler : TextInput → Env → State → DialogueMessages → Message → List Call
  | .tokenAddress                   => receiveTokenAddressHandler
  | .trancheSizeSol                 => receiveTrancheSizeSolHandler
  | .trancheFrequencyHbs            => receiveTrancheFrequencyHbsHandler
  | .trancheLengthHbs               => receiveTrancheLengthHbsHandler
  | .agentsBuyingInTranche          => receiveAgentsBuyingInTrancheHandler
  | .agentsSellingInTranche         => receiveAgentsSellingInTrancheHandler
  | .buttonAgentsKeepTokensLamports => receiveButtonAgentsKeepTokensLamportsHandler

/-- Its body is commented out. -/
def invalidState : List Call := []

-- ── The dispatcher ──────────────────────────────────────────────────────────

inductive Update where
  | message (m : Message)
  | callbackQuery (q : CallbackQuery)
  /-- No branch is for these; some of them are about a chat. -/
  | other (chat : Option Int)

/-- The chat whose dialogue an update belongs to. -/
def Update.chatId : Update → Option Int
  | .message m       => some m.chat.id
  | .callbackQuery q => q.message.map fun m => m.chat.id
  | .other chat      => chat

/-- An update goes to the first branch whose filters pass. -/
def firstBranch : List (Option (List Call)) → List Call
  | []                   => []
  | some calls :: _      => calls
  | none :: branches     => firstBranch branches

/-- `State::Receive...` of one of the seven. -/
def textBranch (env : Env) (s : State) (m : Message) (input : TextInput) :
    Option (List Call) :=
  match s with
  | .receive i _ messages => if i = input then some (input.handler env s messages m) else none
  | _ => none

def messageHandler (cfg : BotConfig) (env : Env) (s : State) (m : Message) : List Call :=
  let command := cfg.parseCommand m
  firstBranch <|
    [if command = some .start ∧ isWhitelisted cfg m then some (start env s m) else none,
      if command = some .collect ∧ isAdmin cfg m then some (collect env m) else none] ++
    TextInput.all.map (textBranch env s m) ++ [some invalidState]

def callbackQueryHandler (cfg : BotConfig) (env : Env) (s : State) (q : CallbackQuery) :
    List Call :=
  firstBranch
    [match s with
      | .receiveStrategy _ => some (selectStrategyHandler cfg env s q)
      | _ => none,
     some (topMenuCallbackHandler cfg env s q)]

def handle (cfg : BotConfig) (env : Env) (s : State) : Update → List Call
  | .message m       => messageHandler cfg env s m
  | .callbackQuery q => callbackQueryHandler cfg env s q
  | .other _         => []

/-- What the storage holds for the chat after the calls. -/
def stored (env : Env) (s : State) (calls : List Call) : State :=
  calls.foldl (fun s c => match c with
    | .updateDialogue s' => if env.writes then s' else s
    | _ => s) s

/-- The dispatcher: the dialogues of all chats, and the calls with the chat that caused them. -/
def dispatcher (cfg : BotConfig) : Step (Int → State) (Update × Env) (Int × Call) :=
  fun dialogues i =>
    match i.1.chatId with
    | none => some (dialogues, [])
    | some chat =>
        if i.2.enters then
          let calls := handle cfg i.2 (dialogues chat) i.1
          some (Function.update dialogues chat (stored i.2 (dialogues chat) calls),
            calls.map fun c => (chat, c))
        else some (dialogues, [])

-- ── Chats without access ────────────────────────────────────────────────────

/-- The calls that change a dialogue or the strategies. -/
def Call.acts : Call → Bool
  | .updateDialogue _ => true
  | .startStrategy _  => true
  | .dropStrategy _   => true
  | _                 => false

/-- The chat is neither on the whitelist, which there is, nor one of an admin. -/
structure Outsider (cfg : BotConfig) (chat : Int) : Prop where
  listed : ∃ whitelisted, cfg.tgbot.whitelistedChatIds = some whitelisted ∧ chat ∉ whitelisted
  admin  : ∀ admins, cfg.tgbot.adminChatIds = some admins → chat ∉ admins

variable {cfg : BotConfig} {env : Env} {chat : Int}

theorem isWhitelisted_outsider {m : Message} (h : Outsider cfg m.chat.id) :
    isWhitelisted cfg m = false := by
  obtain ⟨whitelisted, hlist, hnot⟩ := h.listed
  rw [isWhitelisted, hlist]
  exact decide_eq_false hnot

theorem isAdmin_outsider {m : Message} (h : Outsider cfg m.chat.id) : isAdmin cfg m = false := by
  rw [isAdmin]
  cases hadmin : cfg.tgbot.adminChatIds with
  | none => rfl
  | some admins => exact decide_eq_false (h.admin admins hadmin)

/-- A user that is found has the chat's id, and this is not on the list. -/
theorem getUser_outsider {m : Message} (h : Outsider cfg m.chat.id) :
    ∃ e, getUserFromButtonPress cfg env m = .error e := by
  obtain ⟨whitelisted, hlist, hnot⟩ := h.listed
  rw [getUserFromButtonPress]
  cases env.poolError with
  | some e => exact ⟨e, rfl⟩
  | none =>
      cases hfind : (env.users.getD []).find? fun u => u.chatId = m.chat.id with
      | none => exact ⟨_, rfl⟩
      | some user =>
          have hid := List.find?_some hfind
          rw [decide_eq_true_eq] at hid
          rw [← hid] at hnot
          rw [hlist]
          exact ⟨_, if_neg hnot⟩

theorem topMenu_outsider {m : Message} {q : CallbackQuery} {s : State}
    (h : Outsider cfg m.chat.id) (hq : q.message = some m) :
    ∃ e, topMenuCallbackHandler cfg env s q = [.notifyWithFadingMessage m.chat.id e] := by
  obtain ⟨e, he⟩ := @getUser_outsider cfg env m h
  rw [topMenuCallbackHandler, hq]
  exact ⟨e, by simp only [he]⟩

/-- In the first state no text is awaited. -/
theorem messageHandler_outsider {m : Message} (h : Outsider cfg m.chat.id) :
    messageHandler cfg env .init m = [] := by
  rw [messageHandler, isWhitelisted_outsider h, isAdmin_outsider h, if_neg (fun h => by cases h.2),
    if_neg (fun h => by cases h.2)]
  rfl

/-- **AN UPDATE FROM OUTSIDE**, in the first state of the dialogue. -/
theorem handle_outsider {u : Update} (h : Outsider cfg chat) (hu : u.chatId = some chat) :
    ∀ c ∈ handle cfg env .init u, c.acts = false := by
  cases u with
  | message m =>
      obtain rfl : m.chat.id = chat := Option.some.inj hu
      rw [handle, messageHandler_outsider h]
      intro c hc
      cases hc
  | callbackQuery q =>
      obtain ⟨m, hq, rfl⟩ := Option.map_eq_some_iff.mp hu
      obtain ⟨e, he⟩ := @topMenu_outsider cfg env m q .init h hq
      intro c hc
      have hcalls : handle cfg env .init (.callbackQuery q) = topMenuCallbackHandler cfg env .init q :=
        rfl
      rw [hcalls, he] at hc
      rw [List.mem_singleton.mp hc]
      rfl
  | other _ =>
      intro c hc
      cases hc

/-- Calls that do not act leave the dialogue as it is. -/
theorem stored_quiet {s : State} {calls : List Call} (h : ∀ c ∈ calls, c.acts = false) :
    stored env s calls = s := by
  induction calls with
  | nil => rfl
  | cons c calls ih =>
      have hrest := ih fun c' hc' => h c' (List.mem_cons_of_mem _ hc')
      have hc := h c List.mem_cons_self
      cases c with
      | updateDialogue s' => cases hc
      | _ => exact hrest

/-- **ONE UPDATE**, of any chat. -/
theorem dispatcher_outsider {d d' : Int → State} {i : Update × Env} {out : List (Int × Call)}
    (h : Outsider cfg chat) (hd : d chat = .init) (hs : dispatcher cfg d i = some (d', out)) :
    d' chat = .init ∧ ∀ c, (chat, c) ∈ out → c.acts = false := by
  have hquiet : some (d, []) = some (d', out) →
      d' chat = .init ∧ ∀ c, (chat, c) ∈ out → c.acts = false := by
    rintro ⟨⟩
    exact ⟨hd, fun c hc => (by cases hc)⟩
  rw [dispatcher] at hs
  cases hchat : i.1.chatId with
  | none =>
      rw [hchat] at hs
      exact hquiet hs
  | some sender =>
      simp only [hchat] at hs
      by_cases henters : i.2.enters = true
      · rw [if_pos henters] at hs
        obtain ⟨rfl, rfl⟩ := Prod.mk.inj (Option.some.inj hs)
        by_cases hsender : sender = chat
        · subst hsender
          have hcalls := @handle_outsider cfg i.2 sender i.1 h hchat
          rw [hd, Function.update_self]
          refine ⟨stored_quiet hcalls, fun c hc => ?_⟩
          obtain ⟨c', hc', heq⟩ := List.mem_map.mp hc
          obtain ⟨-, rfl⟩ := Prod.mk.inj heq
          exact hcalls c' hc'
        · refine ⟨(Function.update_of_ne (Ne.symm hsender) _ _).trans hd, fun c hc => ?_⟩
          obtain ⟨c', -, heq⟩ := List.mem_map.mp hc
          exact absurd (Prod.mk.inj heq).1 hsender
      · rw [if_neg henters] at hs
        exact hquiet hs

/-- **ANY UPDATES** of any chats. -/
theorem run_outsider (h : Outsider cfg chat) : ∀ {is : List (Update × Env)} {d d' : Int → State}
    {out : List (Int × Call)}, d chat = .init → run (dispatcher cfg) d is = some (d', out) →
    d' chat = .init ∧ ∀ c, (chat, c) ∈ out → c.acts = false := by
  intro is
  induction is with
  | nil =>
      rintro d d' out hd ⟨⟩
      exact ⟨hd, fun c hc => (by cases hc)⟩
  | cons i is ih =>
      intro d d' out hd hrun
      obtain ⟨d₁, o₁, o₂, hfirst, hrest, rfl⟩ := run_cons_eq_some hrun
      obtain ⟨hd₁, hquiet₁⟩ := dispatcher_outsider h hd hfirst
      obtain ⟨hd₂, hquiet₂⟩ := ih hd₁ hrest
      refine ⟨hd₂, fun c hc => ?_⟩
      rcases List.mem_append.mp hc with hc | hc
      · exact hquiet₁ c hc
      · exact hquiet₂ c hc

/-- **A CHAT WITHOUT ACCESS STAYS OUTSIDE.**  With a whitelist, and from dialogues that are all
    in their first state, the dialogue of a chat that is neither on the list nor an admin's
    stays in it, and no update of the chat starts or drops a strategy, in whatever order the
    updates of all chats come and however the calls of their handlers end. -/
theorem outsider_stays_init {whitelisted : List Int} {is : List (Update × Env)}
    {d : Int → State} {out : List (Int × Call)}
    (hlist : cfg.tgbot.whitelistedChatIds = some whitelisted) (hnot : chat ∉ whitelisted)
    (hadmin : ∀ admins, cfg.tgbot.adminChatIds = some admins → chat ∉ admins)
    (hrun : run (dispatcher cfg) (fun _ => .init) is = some (d, out)) :
    d chat = .init ∧ (∀ strategy, (chat, Call.startStrategy strategy) ∉ out) ∧
      ∀ id, (chat, Call.dropStrategy id) ∉ out := by
  obtain ⟨hinit, hquiet⟩ := run_outsider ⟨⟨whitelisted, hlist, hnot⟩, hadmin⟩ rfl hrun
  refine ⟨hinit, fun strategy hmem => ?_, fun id hmem => ?_⟩
  · cases hquiet _ hmem
  · cases hquiet _ hmem

-- ── A former user ───────────────────────────────────────────────────────────

/-- Chat 1 is on the list, and chat 2 an admin's. -/
def listConfig : BotConfig where
  tgbot := ⟨some [1], some [2], 1⟩
  parseCommand := fun m =>
    if m.text = some "/start" then some .start
    else if m.text = some "/collect" then some .collect
    else none

/-- All calls succeed, and chat 5 has a row in the table of users. -/
def formerEnv : Env where
  enters := true
  reads := true
  writes := true
  sends := fun text => some ⟨9, ⟨5, true⟩, none, some text⟩
  deletes := fun _ => true
  rendersStrategies := true
  rendersMain := true
  loadOrCreateUser := fun _ => some ⟨⟨7, "key 7"⟩, 5, "wallet 7"⟩
  poolError := none
  users := some [⟨⟨7, "key 7"⟩, 5, "wallet 7"⟩]
  volumeConfig := some {}
  active := [(3, 7)]
  drops := fun _ => true
  balanceUi := fun _ => some 10
  createsVolume := fun _ => true
  starts := fun _ => some 4
  pubkeyFromStr := fun _ => some default
  pubkeyToString := fun _ => "pool"
  isValidPool := fun _ => true
  parseF64 := fun _ => some 1
  collection := FoxfireSweeper.oneUser

/-- A message of chat 5. -/
def formerMessage (text : String) : Message := ⟨8, ⟨5, true⟩, some ⟨5, false, some "x"⟩, some text⟩

/-- The user of chat 5 tries commands, texts and buttons. -/
def formerUpdates : List (Update × Env) :=
  [.message (formerMessage "/start"), .message (formerMessage "/collect"),
    .callbackQuery ⟨some (formerMessage "menu"), some buttonConfigureStrategy⟩,
    .message (formerMessage "1"),
    .callbackQuery ⟨some (formerMessage "menu"), some buttonStartStrategy⟩,
    .callbackQuery ⟨some (formerMessage "menu"), some buttonStopStrategies⟩].map
    fun u => (u, formerEnv)

theorem former_user_stays_init : ∃ d out,
    run (dispatcher listConfig) (fun _ => .init) formerUpdates = some (d, out) ∧
    d 5 = .init ∧ (∀ strategy, (5, Call.startStrategy strategy) ∉ out) ∧
      ∀ id, (5, Call.dropStrategy id) ∉ out := by
  obtain ⟨d, out, hrun⟩ : ∃ d out,
      run (dispatcher listConfig) (fun _ => .init) formerUpdates = some (d, out) := ⟨_, _, rfl⟩
  refine ⟨d, out, hrun, outsider_stays_init rfl (by decide) ?_ hrun⟩
  rintro admins ⟨⟩
  decide

end FoxfireTelegram
