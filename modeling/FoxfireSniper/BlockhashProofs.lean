import Mathlib.Data.List.Nodup

/-! # The latest blockhash — which client is asked next?

    `get_latest_blockhash` of `src/solana/geyser_pool.rs` asks the clients of the pool until
    one answers, warns about each failure, and gives up with an error.  Every round takes the
    first client of a new iteration over the map.  The executor waits for the result before it
    signs a transaction.

    The loop of the RPC pool, for the same purpose, goes on to the next client.

    * `till_first_success`: THE RPC POOL FAILS OVER, unless an account is not found.
    * `getLatestBlockhash_eq_some`: the only client that is ever asked is the first one.
    * **`fails_over_iff`**: the loop ends, and does what it should, exactly when there is no
      client or the first one succeeds. -/

namespace FoxfireBlockhash

abbrev ProviderName := String

/-- The keys of the map of clients, in the order of its iteration. -/
structure ClientPool where
  clients : List ProviderName
  nodup   : clients.Nodup

variable {Response Status : Type}

/-- What each client answers, persistently. -/
abbrev Answers (Status Response : Type) := ProviderName → Except Status Response

def Succeeds (answers : Answers Status Response) (client : ProviderName) : Prop :=
  ∃ response, answers client = .ok response

-- ── The Geyser pool ─────────────────────────────────────────────────────────

/-- `get_latest_blockhash`; `none` after this many rounds without a result. -/
def getLatestBlockhash (pool : ClientPool) (answers : Answers Status Response) :
    Nat → Option (Except String Response)
  | 0        => none
  | fuel + 1 =>
      -- a new iterator in every round
      match pool.clients.head? with
      | some client =>
          match answers client with
          | .ok response => some (.ok response)
          | .error _     => getLatestBlockhash pool answers fuel
      | none => some (.error "No Geyser clients available")

-- ── The RPC pool ────────────────────────────────────────────────────────────

/-- `execute_rpc_method_consequently_till_first_success`, from these clients on. -/
def executeTillFirstSuccess (accountNotFound : Status → Bool)
    (answers : Answers Status Response) : List ProviderName → Except String Response
  | []                => .error "Failed to execute method on all providers"
  | client :: clients =>
      match answers client with
      | .ok response => .ok response
      | .error e     =>
          if accountNotFound e then .error "Account not found"
          else executeTillFirstSuccess accountNotFound answers clients

/-- The loop over the clients ends with the first success, if no account is missing. -/
theorem till_first_success {accountNotFound : Status → Bool} {answers : Answers Status Response}
    {clients : List ProviderName}
    (hfound : ∀ client ∈ clients, ∀ e, answers client = .error e → accountNotFound e = false) :
    (∃ response, executeTillFirstSuccess accountNotFound answers clients = .ok response) ↔
      ∃ client ∈ clients, Succeeds answers client := by
  induction clients with
  | nil =>
      constructor
      · rintro ⟨response, h⟩
        cases h
      · rintro ⟨client, hmem, -⟩
        cases hmem
  | cons client clients ih =>
      have ih := ih fun c hc => hfound c (List.mem_cons_of_mem client hc)
      rw [executeTillFirstSuccess]
      cases hanswer : answers client with
      | ok response =>
          exact ⟨fun _ => ⟨client, List.mem_cons_self, response, hanswer⟩, fun _ => ⟨response, rfl⟩⟩
      | error e =>
          show (∃ response, (if accountNotFound e = true then _ else _) = _) ↔ _
          rw [hfound client List.mem_cons_self e hanswer, if_neg Bool.false_ne_true, ih]
          constructor
          · rintro ⟨c, hc, hsuccess⟩
            exact ⟨c, List.mem_cons_of_mem client hc, hsuccess⟩
          · rintro ⟨c, hc, response, hresponse⟩
            rcases List.mem_cons.mp hc with rfl | hc
            · rw [hanswer] at hresponse
              cases hresponse
            · exact ⟨c, hc, response, hresponse⟩

-- ── What the loop should do ─────────────────────────────────────────────────

/-- Enough rounds give a result: an answer if some client succeeds, else an error. -/
structure FailsOver (pool : ClientPool) (answers : Answers Status Response) : Prop where
  terminates : ∃ fuel result, getLatestBlockhash pool answers fuel = some result
  succeeds   : (∃ client ∈ pool.clients, Succeeds answers client) →
    ∃ fuel response, getLatestBlockhash pool answers fuel = some (.ok response)
  fails      : (∀ client ∈ pool.clients, ¬ Succeeds answers client) →
    ∃ fuel e, getLatestBlockhash pool answers fuel = some (.error e)

/-- There is no client, or the first one succeeds. -/
def FirstSucceeds (pool : ClientPool) (answers : Answers Status Response) : Prop :=
  ∀ client, pool.clients.head? = some client → Succeeds answers client

variable {pool : ClientPool} {answers : Answers Status Response}

/-- If the first client succeeds, one round is enough. -/
theorem round_ok {client : ProviderName} {response : Response} (fuel : Nat)
    (hfirst : pool.clients.head? = some client) (h : answers client = .ok response) :
    getLatestBlockhash pool answers (fuel + 1) = some (.ok response) := by
  simp only [getLatestBlockhash, hfirst, h]

/-- If it fails, the next round is the same again. -/
theorem round_error {client : ProviderName} {e : Status} (fuel : Nat)
    (hfirst : pool.clients.head? = some client) (h : answers client = .error e) :
    getLatestBlockhash pool answers (fuel + 1) = getLatestBlockhash pool answers fuel := by
  simp only [getLatestBlockhash, hfirst, h]

/-- **ONLY THE FIRST CLIENT IS ASKED**: while it fails, there is no result. -/
theorem getLatestBlockhash_eq_some {fuel : Nat} {result : Except String Response}
    (h : getLatestBlockhash pool answers fuel = some result) : FirstSucceeds pool answers := by
  intro client hfirst
  induction fuel with
  | zero => cases h
  | succ fuel ih =>
      cases hanswer : answers client with
      | ok response => exact ⟨response, hanswer⟩
      | error e =>
          rw [round_error fuel hfirst hanswer] at h
          exact ih h

/-- **THE LOOP FAILS OVER EXACTLY WHEN IT NEED NOT**: it ends, with an answer if some client
    succeeds and with an error if none does, if and only if the pool is empty or the first
    client succeeds.  Otherwise it asks the first client for ever. -/
theorem fails_over_iff (pool : ClientPool) (answers : Answers Status Response) :
    FailsOver pool answers ↔ FirstSucceeds pool answers := by
  constructor
  · rintro ⟨⟨fuel, result, h⟩, -, -⟩
    exact getLatestBlockhash_eq_some h
  · intro hfirst
    cases hhead : pool.clients.head? with
    | none =>
        have hempty := List.head?_eq_none_iff.mp hhead
        have hresult : getLatestBlockhash pool answers 1 =
            some (.error "No Geyser clients available") := by
          rw [getLatestBlockhash, hhead]
        refine ⟨⟨1, _, hresult⟩, ?_, fun _ => ⟨1, _, hresult⟩⟩
        rintro ⟨client, hmem, -⟩
        rw [hempty] at hmem
        cases hmem
    | some client =>
        obtain ⟨response, hanswer⟩ := hfirst client hhead
        have hresult := round_ok 0 hhead hanswer
        refine ⟨⟨1, _, hresult⟩, fun _ => ⟨1, response, hresult⟩, ?_⟩
        intro hnone
        exact absurd ⟨response, hanswer⟩ (hnone client (List.mem_of_head? hhead))

-- ── A first client that is down ─────────────────────────────────────────────

def twoClients : ClientPool := ⟨["first", "second"], by decide⟩

/-- The second one would answer. -/
def firstDown : Answers Unit Nat
  | "first" => .error ()
  | _       => .ok 7

/-- **A CLIENT THAT IS DOWN BLOCKS THE NEXT ONE**, for ever. -/
theorem first_down_blocks : ¬ FailsOver twoClients firstDown := by
  rintro ⟨⟨fuel, result, h⟩, -, -⟩
  obtain ⟨response, hfirst⟩ := getLatestBlockhash_eq_some h "first" rfl
  cases hfirst

end FoxfireBlockhash
