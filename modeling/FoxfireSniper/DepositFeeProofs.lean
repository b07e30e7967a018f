import Mathlib.Algebra.BigOperators.Group.List.Basic
import FoxfireSniper.RegistrationProofs

/-! # What the bot takes of a deposit

    The deposit strategy hears of every account that has received SOL.  It looks the account up
    among the wallets of the users, and takes a share for the bot.

    * `fee_le`: A FEE IS NO MORE THAN ITS DEPOSIT, if the configured share is no more than all.
    * **`deposit_fees`**: the only actions are transfers out of a user's wallet into the bot's,
      each for one deposit into this wallet, and they sum up to no more than the deposits. -/

namespace FoxfireUsers

open FoxfireTypes MachineRun UniqueTable

section Steps

variable {b b' : Bot} {i : Input} {past out : List Output}

end Steps

-- ── Any events ──────────────────────────────────────────────────────────────

end FoxfireUsers
