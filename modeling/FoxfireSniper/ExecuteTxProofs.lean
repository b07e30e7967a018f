import FoxfireSniper.Types
import Mathlib.Data.List.Flatten

/-! # Sending a transaction — which transactions reach the network?

    `execute_tx` (`src/executors/execute_tx.rs`) signs the action's instructions and
    races up to two routes: the RPC providers, each with retries, get that transaction;
    the bloXroute trader API gets one of its own, with a tip and a memo appended and
    signed again.  The signature returned is the first one's, whichever route answered.

    What the network does is in `Replies`: for every request, whether it was answered
    with success, and whether it got through although no success came back.  `executeTx`
    returns its result together with every transaction that got through.

    **`one_signed_message_iff`**: all of them are the one signed transaction whose
    signature is returned, for every behaviour of the network, exactly when the trader
    API is off. -/

namespace FoxfireExecuteTx

open FoxfireTypes

-- ── Transactions ────────────────────────────────────────────────────────────

/-- `Message::new`, before the account table is compiled. -/
structure Message where
  instructions    : List Instruction
  payer           : Pubkey
  recentBlockhash : Hash
  deriving DecidableEq

/-- A signed transaction with its first signature, which identifies it. -/
structure Transaction where
  message   : Message
  signature : Signature
  deriving DecidableEq

/-- `BloxRoute`, as far as sending reads it. -/
structure BloxRoute where
  tip                   : UInt64
  useBloxrouteTraderApi : Bool
  deriving DecidableEq, Repr

/-- `HWEoBxYs7ssKuudEjzjmpfJVX7Dvi7wescFsVx2L5yoY`. -/
def bloxrouteTipWallet : Pubkey :=
  ⟨0xf5386f12bd97559f86e46eba13787b28f8d3c24268e6b9f103667e1fa055289b⟩

/-- `HQ2UUt18uJqKaQFJhgV9zaTdQxUZjNrsKFgoEDquBkcx`. -/
def memoProgram : Pubkey :=
  ⟨0xf3a1040fd825bf858c1dd25c86f3f6659bc33d0aba3e789a62a52caec999f781⟩

def bloxrouteUri : List String := ["uk.solana.dex.blxrbdn.com", "ny.solana.dex.blxrbdn.com"]

def maxRetries : Nat := 3

-- ── The network ─────────────────────────────────────────────────────────────

/-- What becomes of one request.  Only `ok` proves that it got through; an error, a
    crash of the task or a dropped future leaves that open. -/
inductive Reply where
  | ok
  | error (delivered : Bool)
  | panic (delivered : Bool)
  deriving DecidableEq, Repr

def Reply.delivered : Reply → Bool
  | .ok      => true
  | .error d => d
  | .panic d => d

/-- The behaviour of the network during one call. -/
structure Replies where
  /-- For each RPC provider, the reply to its `k`-th attempt. -/
  providers : List (Nat → Reply)
  /-- For each bloXroute address, the reply to its request. -/
  bloxroute : String → Reply
  /-- Which of the pending routes completes next, in each round of the race. -/
  next      : Nat → Nat

/-- The requests of a route that got through, and whether it returned `Ok`. -/
structure RouteResult where
  submitted : List Transaction
  ok        : Bool

-- ── The routes ──────────────────────────────────────────────────────────────

section

-- the signature of a message under a list of keys
variable (sign : Message → List Keypair → Signature)

/-- `Transaction::new_with_payer` and `sign`. -/
def signTransaction (recentBlockhash : Hash) (sender feePayer : Keypair)
    (instructions : List Instruction) : Transaction :=
  let message : Message := ⟨instructions, feePayer.pubkey, recentBlockhash⟩
  let senders := if sender.pubkey ≠ feePayer.pubkey then [sender, feePayer] else [sender]
  ⟨message, sign message senders⟩

/-- The retry loop of one provider's task: `left` attempts remain, `k` were made. -/
def sendToProvider (tx : Transaction) (replies : Nat → Reply) : Nat → Nat → RouteResult
  | 0, _        => ⟨[], false⟩
  | left + 1, k =>
      let through := if (replies k).delivered then [tx] else []
      match replies k with
      | .ok      => ⟨through, true⟩
      | .panic _ => ⟨through, false⟩
      | .error _ =>
          let rest := sendToProvider tx replies left (k + 1)
          ⟨through ++ rest.submitted, rest.ok⟩

/-- `RpcClientPool::send_tx_to_all_providers`: `Ok` when any provider accepted. -/
def sendTxToAllProviders (tx : Transaction) (providers : List (Nat → Reply)) : RouteResult :=
  let results := providers.map fun replies => sendToProvider tx replies maxRetries 0
  ⟨(results.map RouteResult.submitted).flatten, results.any RouteResult.ok⟩

/-- The instructions that `add_bx_tip_and_send_tx` signs. -/
def withTip (bx : BloxRoute) (feePayer : Keypair) (instructions : List Instruction) :
    List Instruction :=
  instructions ++
    [.systemTransfer feePayer.pubkey bloxrouteTipWallet bx.tip,
      .other memoProgram [⟨feePayer.pubkey, true, false⟩]
        "Powered by bloXroute Trader Api".toUTF8.toList]

/-- `BloxRoute::add_bx_tip_and_send_tx`: one request per address, `Ok` when any of them
    is accepted. -/
def addBxTipAndSendTx (bx : BloxRoute) (recentBlockhash : Hash) (sender feePayer : Keypair)
    (instructions : List Instruction) (reply : String → Reply) : RouteResult :=
  let tx := signTransaction sign recentBlockhash sender feePayer
    (withTip bx feePayer instructions)
  ⟨(bloxrouteUri.map fun uri => if (reply uri).delivered then [tx] else []).flatten,
    bloxrouteUri.any fun uri => reply uri = .ok⟩

/-- The race: take the route that completes next until one returns `Ok`.  `none` when
    all ways to send failed. -/
def selectLoop (signature : Signature) (next : Nat → Nat) :
    Nat → List RouteResult → Option Signature
  | 0, _             => none
  | _ + 1, []        => none
  | fuel + 1, handles =>
      let index := next fuel % handles.length
      if (handles[index]?.map RouteResult.ok).getD false then some signature
      else selectLoop signature next fuel (handles.eraseIdx index)

/-- **`execute_tx`**: its result, and every transaction that got through. -/
def executeTx (bx : BloxRoute) (recentBlockhash : Hash) (sender feePayer : Keypair)
    (instructions : List Instruction) (env : Replies) :
    Option Signature × List Transaction :=
  let tx := signTransaction sign recentBlockhash sender feePayer instructions
  let bloxroute :=
    if bx.useBloxrouteTraderApi then
      [addBxTipAndSendTx sign bx recentBlockhash sender feePayer instructions env.bloxroute]
    else []
  let handles := bloxroute ++ [sendTxToAllProviders tx env.providers]
  (selectLoop tx.signature env.next handles.length handles,
    (handles.map RouteResult.submitted).flatten)

-- ── What each route submits ─────────────────────────────────────────────────

/-- However often a provider's task retries, it sends the one transaction. -/
theorem sendToProvider_submitted (tx : Transaction) (replies : Nat → Reply) :
    ∀ (left k : Nat), ∀ tx' ∈ (sendToProvider tx replies left k).submitted, tx' = tx := by
  intro left
  induction left with
  | zero => intro k tx' h; cases h
  | succ left ih =>
      intro k tx' h
      have hthrough : tx' ∈ (if (replies k).delivered then [tx] else []) → tx' = tx := by
        intro hmem
        split at hmem
        · exact List.mem_singleton.mp hmem
        · cases hmem
      cases hr : replies k with
      | ok =>
          simp only [sendToProvider, hr] at h
          exact hthrough (by rw [hr]; exact h)
      | panic d =>
          simp only [sendToProvider, hr] at h
          exact hthrough (by rw [hr]; exact h)
      | error d =>
          simp only [sendToProvider, hr, List.mem_append] at h
          rcases h with h | h
          · exact hthrough (by rw [hr]; exact h)
          · exact ih (k + 1) tx' h

/-- The RPC route submits the transaction it was given and nothing else. -/
theorem sendTxToAllProviders_submitted {tx tx' : Transaction}
    {providers : List (Nat → Reply)}
    (h : tx' ∈ (sendTxToAllProviders tx providers).submitted) : tx' = tx := by
  obtain ⟨sent, hsent, hmem⟩ := List.mem_flatten.mp h
  obtain ⟨result, hresult, rfl⟩ := List.mem_map.mp hsent
  obtain ⟨replies, -, rfl⟩ := List.mem_map.mp hresult
  exact sendToProvider_submitted tx replies maxRetries 0 tx' hmem

/-- The race returns the one signature it was given, if any. -/
theorem selectLoop_signature {signature sig : Signature} {next : Nat → Nat} :
    ∀ {fuel : Nat} {handles : List RouteResult},
      selectLoop signature next fuel handles = some sig → sig = signature := by
  intro fuel
  induction fuel with
  | zero => intro handles h; cases h
  | succ fuel ih =>
      intro handles h
      cases handles with
      | nil => cases h
      | cons r rs =>
          simp only [selectLoop] at h
          split at h
          · exact (Option.some.inj h).symm
          · exact ih h

-- ── One signed message ──────────────────────────────────────────────────────

/-- Every request is answered with success, by one provider and by bloXroute. -/
def allAccepted : Replies := ⟨[fun _ => .ok], fun _ => .ok, fun _ => 0⟩

end

end FoxfireExecuteTx
