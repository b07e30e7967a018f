import FoxfireSniper.CollectCommandProofs

/-! # The dialogue of a chat

    `src/tg_bot/state.rs` and the configuration that a dialogue puts together.  Seven of the
    ten states wait for a text, one for each field of the configuration, and carry the same
    data; they are one constructor, with the field as a parameter. -/

namespace FoxfireTelegram

open FoxfireTypes

-- ── Messages ────────────────────────────────────────────────────────────────

structure Chat where
  id        : Int
  isPrivate : Bool
  deriving DecidableEq, Repr

/-- Telegram's `User`. -/
structure TelegramUser where
  id       : UInt64
  isBot    : Bool
  username : Option String
  deriving DecidableEq, Repr

structure Message where
  id   : Int
  chat : Chat
  user : Option TelegramUser
  text : Option String
  deriving DecidableEq, Repr

structure CallbackQuery where
  message : Option Message
  data    : Option String
  deriving DecidableEq, Repr

structure DialogueMessages where
  messageToEdit   : Message
  messageToDelete : Message
  deriving DecidableEq, Repr

-- ── The configuration in progress ───────────────────────────────────────────

structure VolumeStrategyConfigArgs where
  userId                   : Option Int := none
  targetPool               : Option String := none
  trancheSizeSol           : Option ℚ := none
  trancheFrequencyHbs      : Option Int := none
  trancheLengthHbs         : Option Int := none
  agentsBuyingInTranche    : Option Int := none
  agentsSellingInTranche   : Option Int := none
  agentsKeepTokensLamports : Option Int := none
  deriving DecidableEq, Repr

namespace VolumeStrategyConfigArgs

/-- `VolumeStrategyConfigArgs::default()`. -/
instance : Inhabited VolumeStrategyConfigArgs := ⟨{}⟩

/-- Every field that is given replaces the old one. -/
def update (a new : VolumeStrategyConfigArgs) : VolumeStrategyConfigArgs where
  userId                   := new.userId <|> a.userId
  targetPool               := new.targetPool <|> a.targetPool
  trancheSizeSol           := new.trancheSizeSol <|> a.trancheSizeSol
  trancheFrequencyHbs      := new.trancheFrequencyHbs <|> a.trancheFrequencyHbs
  trancheLengthHbs         := new.trancheLengthHbs <|> a.trancheLengthHbs
  agentsBuyingInTranche    := new.agentsBuyingInTranche <|> a.agentsBuyingInTranche
  agentsSellingInTranche   := new.agentsSellingInTranche <|> a.agentsSellingInTranche
  agentsKeepTokensLamports := new.agentsKeepTokensLamports <|> a.agentsKeepTokensLamports

end VolumeStrategyConfigArgs

-- ── The states ──────────────────────────────────────────────────────────────

/-- The fields that are asked for: `ReceiveTokenAddress` and the six states after it. -/
inductive TextInput where
  | tokenAddress
  | trancheSizeSol
  | trancheFrequencyHbs
  | trancheLengthHbs
  | agentsBuyingInTranche
  | agentsSellingInTranche
  | buttonAgentsKeepTokensLamports
  deriving DecidableEq, Repr

inductive State where
  | init
  | receiveStrategy (strategyInProgress : Option VolumeStrategyConfigArgs)
  /-- Awaiting a text. -/
  | receive (input : TextInput) (strategyInProgress : Option VolumeStrategyConfigArgs)
      (strategyMenuMessage : DialogueMessages)
  | strategySelected (strategyInProgress : Option VolumeStrategyConfigArgs)
      (selectedStrategyId : Option Int)
  deriving DecidableEq, Repr

/-- `State::default()`. -/
instance : Inhabited State := ⟨.init⟩

namespace State

def getStrategyInProgressInAny : State → Option VolumeStrategyConfigArgs
  | .receiveStrategy s    => s
  | .receive _ s _        => s
  | .strategySelected s _ => s
  | .init                 => none

def getStrategyInProgress (s : State) : VolumeStrategyConfigArgs :=
  s.getStrategyInProgressInAny.getD default

def toMainMenu (s : State) : State :=
  match s.getStrategyInProgressInAny with
  | some a => .strategySelected (some a) none
  | none   => .init

def back (s : State) : State := s.toMainMenu

/-- The seven states that wait for a text keep the configuration. -/
def toReceive (s : State) (input : TextInput) (message : DialogueMessages) : State :=
  .receive input s.getStrategyInProgressInAny message

def toReceiveTokenAddress (s : State) : DialogueMessages → State := s.toReceive .tokenAddress

def toReceiveTrancheSize (s : State) : DialogueMessages → State := s.toReceive .trancheSizeSol

def toReceiveTrancheFrequencyHbs (s : State) : DialogueMessages → State :=
  s.toReceive .trancheFrequencyHbs

def toReceiveTrancheLengthHbs (s : State) : DialogueMessages → State :=
  s.toReceive .trancheLengthHbs

def toReceiveAgentsBuyingInTranche (s : State) : DialogueMessages → State :=
  s.toReceive .agentsBuyingInTranche

def toReceiveAgentsSellingInTranche (s : State) : DialogueMessages → State :=
  s.toReceive .agentsSellingInTranche

def toReceiveButtonAgentsKeepTokensLamports (s : State) : DialogueMessages → State :=
  s.toReceive .buttonAgentsKeepTokensLamports

def toReceiveStrategy (s : State) : State := .receiveStrategy s.getStrategyInProgressInAny

def toSelectedStrategy (s : State) (strategyId : Int) : State :=
  .strategySelected s.getStrategyInProgressInAny (some strategyId)

def reset (s : State) : State :=
  match s.getStrategyInProgressInAny with
  | some strat => .strategySelected (some strat) none
  | none       => .init

def toStrategiesList (s : State) : State := .receiveStrategy s.getStrategyInProgressInAny

def updateConfiguredStrategy (s : State) (strategyUpdate : VolumeStrategyConfigArgs) : State :=
  let strategy := s.getStrategyInProgress.update strategyUpdate
  match s with
  | .strategySelected _ selected => .strategySelected (some strategy) selected
  | _                            => .receiveStrategy (some strategy)

def awaitingTextInput : State → Bool
  | .receive _ _ _ => true
  | _              => false

def cancelTextInput (s : State) : State :=
  if s.awaitingTextInput then
    match s.getStrategyInProgressInAny with
    | some a => .receiveStrategy (some a)
    | none   => .init
  else s

def getMessageToDelete : State → Option Message
  | .receive _ _ m => some m.messageToDelete
  | _              => none

end State

/-- The state that waits for the field. -/
def TextInput.target : TextInput → State → DialogueMessages → State
  | .tokenAddress                   => State.toReceiveTokenAddress
  | .trancheSizeSol                 => State.toReceiveTrancheSize
  | .trancheFrequencyHbs            => State.toReceiveTrancheFrequencyHbs
  | .trancheLengthHbs               => State.toReceiveTrancheLengthHbs
  | .agentsBuyingInTranche          => State.toReceiveAgentsBuyingInTranche
  | .agentsSellingInTranche         => State.toReceiveAgentsSellingInTranche
  | .buttonAgentsKeepTokensLamports => State.toReceiveButtonAgentsKeepTokensLamports

end FoxfireTelegram
