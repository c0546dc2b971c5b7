import EthereumSettlement.CheckedCalls
import EthereumSettlement.PacedGates
import EthereumSettlement.TransitionRuns

/-!
# The shared Ethereum transport

Every Ethereum provider of the gateway posts through one transport: a semaphore bounds
the posts in flight, an instant paces them, and only reads are retried. Operations are
tasks that interleave at every await, and each may be dropped by its deadline or its
caller wherever it stands. The model is a step function over the instant, the permits
and the tasks; a run is any list of events. The duration arithmetic in floating point,
the reading of dates and the delay in an error's data are parameters. Instants and
durations are nanoseconds.
-/

namespace EthereumSettlement.RpcPacing

open CheckedCalls PacedGates TransitionRuns

/-- `RpcConfig`. -/
structure RpcConfig where
  /-- Posts that may start in a second. -/
  requestsPerSecond : ℕ
  /-- Posts that may be underway. -/
  maxConcurrent : ℕ
  /-- Retries of a read. -/
  maxRetries : ℕ
  /-- Delay before the first retry. -/
  initialBackoff : ℕ
  /-- Longest delay. -/
  maxBackoff : ℕ
  /-- Time that one post may take. -/
  requestTimeout : ℕ
  /-- Time that all attempts may take. -/
  operationTimeout : ℕ
  deriving DecidableEq

/-- `RpcConfig::validate`. -/
def RpcConfig.validate (config : RpcConfig) : Except String Unit := do
  require (0 < config.requestsPerSecond ∧ 0 < config.maxConcurrent)
    "Ethereum RPC rate and concurrency limits must be positive"
  require (config.initialBackoff ≠ 0 ∧ config.initialBackoff ≤ config.maxBackoff)
    "invalid Ethereum RPC backoff bounds"
  require (config.requestTimeout ≠ 0 ∧ config.requestTimeout ≤ config.operationTimeout)
    "invalid Ethereum RPC timeout bounds"

/-- A request packet: the methods of its calls. -/
structure Request where
  /-- Method of each call. -/
  methodNames : List String
  deriving DecidableEq

/-- `is_read_method`. -/
def isReadMethod (method : String) : Bool :=
  ["eth_call", "eth_estimateGas", "eth_chainId", "eth_blockNumber", "eth_gasPrice",
    "eth_maxPriorityFeePerGas", "eth_feeHistory", "net_version", "eth_getBlockByNumber",
    "eth_getBlockByHash", "eth_getTransactionByHash", "eth_getTransactionReceipt",
    "eth_getTransactionCount", "eth_getLogs", "eth_getBalance", "eth_getCode",
    "eth_getStorageAt", "eth_getProof", "eth_getBlockReceipts"].contains method

/-- `read_only`: every call of the packet reads. -/
def Request.readOnly (request : Request) : Bool := request.methodNames.all isReadMethod

/-- `cost`: the number of calls, as far as 32 bits count it, and at least one. -/
def Request.cost (request : Request) : ℕ := max (min request.methodNames.length 4294967295) 1

/-- An error of a response packet. `backoff` is the delay that its data asks for at
`/rate/backoff_seconds`, if it is one of at most a day. -/
structure RpcError where
  /-- JSON-RPC error code. -/
  code : ℤ
  /-- Its text. -/
  message : String
  /-- Delay that the error asks for. -/
  backoff : Option ℕ
  deriving DecidableEq

/-- `contains` on text. -/
def containsText (text pattern : List Char) : Bool :=
  text.tails.any fun rest => pattern.isPrefixOf rest

/-- `transient_rpc_error`. -/
def transientRpcError (code : ℤ) (message : String) : Bool :=
  let message := message.toList.map Char.toLower
  [429, -32005, -32007].contains code
    || containsText message "rate limit".toList
    || containsText message "too many requests".toList
    || containsText message "temporarily unavailable".toList

/-- `transient_http_status`. -/
def transientHttpStatus (status : ℕ) : Bool := [408, 429, 500, 502, 503, 504].contains status

/-- How a post can end. The hint is the delay of the `Retry-After` header. -/
inductive Reply
  /-- The post itself fails. -/
  | failed (isTimeout isConnect isRequest isBody : Bool)
  /-- The body cannot be read. -/
  | unreadable (hint : Option ℕ)
  /-- The status is no success. -/
  | refused (status : ℕ) (hint : Option ℕ)
  /-- The body of a success is no response packet. -/
  | undecodable (hint : Option ℕ)
  /-- A response packet, with the errors in it. -/
  | answered (errors : List RpcError) (hint : Option ℕ)
  deriving DecidableEq

/-- `transient` of a reply. -/
def Reply.transient : Reply → Bool
  | .failed isTimeout isConnect isRequest isBody => isTimeout || isConnect || isRequest || isBody
  | .unreadable _ => true
  | .refused status _ => transientHttpStatus status
  | .undecodable _ => false
  | .answered errors _ => errors.any fun error => transientRpcError error.code error.message

/-- `hint` of a reply: the header's delay, or else the longest one in the errors. -/
def Reply.hint : Reply → Option ℕ
  | .failed _ _ _ _ => none
  | .unreadable hint => hint
  | .refused _ hint => hint
  | .undecodable hint => hint
  | .answered errors hint => hint.or (errors.filterMap RpcError.backoff).max?

/-- The error that `RpcUnavailable` keeps. -/
inductive Cause
  | transport (reply : Reply)
  | response (error : RpcError)
  deriving DecidableEq

/-- `cause` of the reply to the last attempt. -/
def Reply.cause : Reply → Option Cause
  | .answered errors _ => errors.head?.map .response
  | reply => some (.transport reply)

/-- How an operation ends. -/
inductive Outcome
  | returned (reply : Reply)
  /-- `RpcUnavailable`: retries exhausted, or the deadline passed. -/
  | unavailable (cause : Option Cause)
  /-- The caller drops the operation. -/
  | dropped
  deriving DecidableEq

/-- Where a task stands: it waits for a permit, waits for its turn with the permit, has
posted, is about to share a cooldown, or has ended. -/
inductive Phase
  | acquiring (attempt : ℕ)
  | pacing (attempt wakeAt : ℕ)
  | sending (attempt : ℕ)
  | cooling (attempt delay : ℕ) (reply : Reply)
  | finished (outcome : Outcome)
  deriving DecidableEq

/-- A task. `posts` and `replies` record what it has done. -/
structure Operation where
  /-- What it posts. -/
  request : Request
  /-- When it started. -/
  startedAt : ℕ
  /-- What it is doing. -/
  phase : Phase
  /-- How often it posted. -/
  posts : ℕ
  /-- What the posts returned. -/
  replies : List Reply
  deriving DecidableEq

/-- The state of the transport. `passages` records the posts and the cooldowns. -/
structure Transport where
  /-- Present time. -/
  clock : ℕ
  /-- When the next post may start. -/
  nextRequest : ℕ
  /-- Posts that may still start. -/
  permits : ℕ
  /-- State of the jitter. -/
  jitter : BitVec 64
  /-- All tasks. -/
  operations : List Operation
  /-- Posts and cooldowns so far. -/
  passages : List (Passage (ℕ × ℕ))
  deriving DecidableEq

/-- The arithmetic in floating point. -/
structure Durations where
  /-- `Duration::from_secs_f64(cost / requests_per_second)`. -/
  gap : ℕ → ℕ → ℕ
  /-- `ceiling.mul_f64((mixed / u64::MAX) / 2.0)`. -/
  jittered : ℕ → BitVec 64 → ℕ

/-- `RpcTransport`: a valid configuration and the arithmetic it runs on. -/
structure RpcTransport where
  /-- The configuration. -/
  config : RpcConfig
  /-- The arithmetic of delays. -/
  durations : Durations
  /-- The configuration is valid. -/
  valid : config.validate = .ok ()

variable (t : RpcTransport)

/-- The longest `Duration`. -/
def maxDuration : ℕ := 18446744073709551615999999999

/-- `ceiling` of a backoff. -/
def RpcTransport.ceiling (retry : ℕ) : ℕ :=
  let factor := if retry < 32 then 2 ^ retry else 4294967295
  min (min (t.config.initialBackoff * factor) maxDuration) t.config.maxBackoff

/-- `mixed` of a seed. -/
def mixed (seed : BitVec 64) : BitVec 64 := (seed ^^^ (seed >>> 30)) * 0xbf58476d1ce4e5b9#64

/-- `backoff`. -/
def RpcTransport.backoff (seed : BitVec 64) (retry : ℕ) : ℕ :=
  t.ceiling retry / 2 + t.durations.jittered (t.ceiling retry) (mixed seed)

/-- `RpcTransport::new` at an instant, with a seed. -/
def RpcTransport.new (now : ℕ) (seed : BitVec 64) : Transport where
  clock := now
  nextRequest := now
  permits := t.config.maxConcurrent
  jitter := seed
  operations := []
  passages := []

/-- What happens next, anywhere in the transport. -/
inductive Event
  /-- Time passes. -/
  | tick (duration : ℕ)
  /-- `call`. -/
  | call (request : Request)
  /-- The semaphore grants a permit. -/
  | acquire (task : ℕ)
  /-- One turn of the loop of `pace`. -/
  | pace (task : ℕ)
  /-- The post ends. -/
  | reply (task : ℕ) (reply : Reply)
  /-- `cooldown`, and what `execute` decides after it. -/
  | cooldown (task : ℕ)
  /-- The deadline of the operation passes. -/
  | expire (task : ℕ)
  /-- The caller drops the operation. -/
  | drop (task : ℕ)
  deriving DecidableEq

/-- The task holds a permit. -/
def Phase.holds : Phase → Bool
  | .pacing _ _ => true
  | .sending _ => true
  | _ => false

/-- The task has ended. -/
def Phase.ended : Phase → Bool
  | .finished _ => true
  | _ => false

/-- Replace a task. -/
def Transport.put (s : Transport) (task : ℕ) (operation : Operation) : Transport :=
  { s with operations := s.operations.set task operation }

/-- A task takes a permit. -/
def admitted (s : Transport) (task attempt : ℕ) (o : Operation) : Transport :=
  { s.put task { o with phase := .pacing attempt s.clock } with permits := s.permits - 1 }

/-- The semaphore grants a permit to a waiting task. -/
def acquirePermit (s : Transport) (task : ℕ) (o : Operation) : Option Transport :=
  match o.phase with
  | .acquiring attempt =>
    if 0 < s.permits then some (admitted s task attempt o) else none
  | _ => none

/-- A task passes: it posts, and pushes the instant by the gap of its cost. -/
def posted (s : Transport) (task attempt : ℕ) (o : Operation) : Transport :=
  let gap := t.durations.gap o.request.cost t.config.requestsPerSecond
  { s.put task { o with phase := .sending attempt, posts := o.posts + 1 } with
    nextRequest := s.clock + gap
    passages := s.passages ++ [.grant (task, attempt) s.clock gap] }

/-- One turn of `pace`: pass and push the instant, or sleep until it. -/
def paceTurn (s : Transport) (task : ℕ) (o : Operation) : Option Transport :=
  match o.phase with
  | .pacing attempt wakeAt =>
    if wakeAt ≤ s.clock then
      if s.nextRequest ≤ s.clock then
        some (posted t s task attempt o)
      else some (s.put task { o with phase := .pacing attempt s.nextRequest })
    else none
  | _ => none

/-- A post ends and returns its permit. A transient failure goes on to a cooldown. -/
def receive (s : Transport) (task : ℕ) (o : Operation) (reply : Reply) : Option Transport :=
  match o.phase with
  | .sending attempt =>
    let answered := { o with replies := o.replies ++ [reply] }
    let released := { s with permits := s.permits + 1 }
    if reply.transient = true then
      match reply.hint with
      | some delay =>
        some (released.put task { answered with phase := .cooling attempt delay reply })
      | none =>
        some { released.put task { answered with
            phase := .cooling attempt (t.backoff s.jitter attempt) reply } with
          jitter := s.jitter + 0x9e3779b97f4a7c15#64 }
    else some (released.put task { answered with phase := .finished (.returned reply) })
  | _ => none

/-- What `execute` does after the cooldown of a transient failure. -/
def afterCooldown (o : Operation) (attempt : ℕ) (reply : Reply) : Phase :=
  if o.request.readOnly = true then
    if attempt = t.config.maxRetries then .finished (.unavailable reply.cause)
    else .acquiring (attempt + 1)
  else .finished (.returned reply)

/-- A task shares a cooldown and goes on. -/
def cooled (s : Transport) (task attempt delay : ℕ) (reply : Reply) (o : Operation) : Transport :=
  { s.put task { o with phase := afterCooldown t o attempt reply } with
    nextRequest := max s.nextRequest (s.clock + delay)
    passages := s.passages ++ [.hold (s.clock + delay)] }

/-- `cooldown`. -/
def cool (s : Transport) (task : ℕ) (o : Operation) : Option Transport :=
  match o.phase with
  | .cooling attempt delay reply => some (cooled t s task attempt delay reply o)
  | _ => none

/-- A task that is dropped returns its permit. -/
def stop (s : Transport) (task : ℕ) (o : Operation) (outcome : Outcome) : Option Transport :=
  if o.phase.ended = true then none
  else some { s.put task { o with phase := .finished outcome } with
    permits := if o.phase.holds = true then s.permits + 1 else s.permits }

/-- One event, if it can happen. -/
def advance (s : Transport) : Event → Option Transport
  | .tick duration => some { s with clock := s.clock + duration }
  | .call request =>
    some { s with operations := s.operations ++ [⟨request, s.clock, .acquiring 0, 0, []⟩] }
  | .acquire task => s.operations[task]?.bind (acquirePermit s task)
  | .pace task => s.operations[task]?.bind (paceTurn t s task)
  | .reply task reply => s.operations[task]?.bind fun o => receive t s task o reply
  | .cooldown task => s.operations[task]?.bind (cool t s task)
  | .expire task => s.operations[task]?.bind fun o =>
    if o.startedAt + t.config.operationTimeout ≤ s.clock then
      stop s task o (.unavailable none) else none
  | .drop task => s.operations[task]?.bind fun o => stop s task o .dropped

/-- One event; one that cannot happen changes nothing. -/
def step (s : Transport) (event : Event) : Except Unit Transport :=
  match advance t s event with
  | some next => .ok next
  | none => .error ()

/-- The state after the events, in order, from a fresh transport. -/
def RpcTransport.reached (now : ℕ) (seed : BitVec 64) (events : List Event) : Transport :=
  run (step t) (t.new now seed) events

/-- What a task's event does to the task and to what the tasks share. -/
inductive Moved (s : Transport) (task : ℕ) (o : Operation) : Operation → Transport → Prop
  | acquired {next : Transport} {attempt : ℕ} (waiting : o.phase = .acquiring attempt)
      (permits_eq : next.permits + 1 = s.permits)
      (nextRequest_eq : next.nextRequest = s.nextRequest)
      (passages_eq : next.passages = s.passages) :
      Moved s task o { o with phase := .pacing attempt s.clock } next
  | slept {next : Transport} {attempt wakeAt : ℕ} (paced : o.phase = .pacing attempt wakeAt)
      (permits_eq : next.permits = s.permits) (nextRequest_eq : next.nextRequest = s.nextRequest)
      (passages_eq : next.passages = s.passages) :
      Moved s task o { o with phase := .pacing attempt s.nextRequest } next
  | granted {next : Transport} {attempt wakeAt : ℕ} (paced : o.phase = .pacing attempt wakeAt)
      (opened : s.nextRequest ≤ s.clock) (permits_eq : next.permits = s.permits)
      (nextRequest_eq : next.nextRequest =
        s.clock + t.durations.gap o.request.cost t.config.requestsPerSecond)
      (passages_eq : next.passages = s.passages ++ [.grant (task, attempt) s.clock
        (t.durations.gap o.request.cost t.config.requestsPerSecond)]) :
      Moved s task o { o with phase := .sending attempt, posts := o.posts + 1 } next
  | answered {next : Transport} {attempt : ℕ} {reply : Reply} (sent : o.phase = .sending attempt)
      (lasting : reply.transient = false) (permits_eq : next.permits = s.permits + 1)
      (nextRequest_eq : next.nextRequest = s.nextRequest)
      (passages_eq : next.passages = s.passages) :
      Moved s task o
        { o with replies := o.replies ++ [reply], phase := .finished (.returned reply) } next
  | failed {next : Transport} {attempt delay : ℕ} {reply : Reply}
      (sent : o.phase = .sending attempt) (transient : reply.transient = true)
      (permits_eq : next.permits = s.permits + 1)
      (nextRequest_eq : next.nextRequest = s.nextRequest)
      (passages_eq : next.passages = s.passages) :
      Moved s task o
        { o with replies := o.replies ++ [reply], phase := .cooling attempt delay reply } next
  | cooled {next : Transport} {attempt delay : ℕ} {reply : Reply}
      (failed : o.phase = .cooling attempt delay reply) (permits_eq : next.permits = s.permits)
      (nextRequest_eq : next.nextRequest = max s.nextRequest (s.clock + delay))
      (passages_eq : next.passages = s.passages ++ [.hold (s.clock + delay)]) :
      Moved s task o { o with phase := afterCooldown t o attempt reply } next
  | stopped {next : Transport} {outcome : Outcome} (running : o.phase.ended = false)
      (early : outcome = .unavailable none ∨ outcome = .dropped)
      (permits_eq : next.permits = if o.phase.holds = true then s.permits + 1 else s.permits)
      (nextRequest_eq : next.nextRequest = s.nextRequest)
      (passages_eq : next.passages = s.passages) :
      Moved s task o { o with phase := .finished outcome } next

/-- What an event does: time passes, a task begins, or a task moves. -/
inductive Effect (s : Transport) : Transport → Prop
  | ticked (duration : ℕ) : Effect s { s with clock := s.clock + duration }
  | called (request : Request) :
      Effect s
        { s with operations := s.operations ++ [⟨request, s.clock, .acquiring 0, 0, []⟩] }
  | moved {next : Transport} {task : ℕ} {o o' : Operation} (found : s.operations[task]? = some o)
      (operations_eq : next.operations = s.operations.set task o')
      (moved : Moved t s task o o' next) : Effect s next

/-- A permit is granted. -/
theorem acquirePermit_effect {s next : Transport} {task : ℕ} {o : Operation}
    (found : s.operations[task]? = some o) (h : acquirePermit s task o = some next) :
    Effect t s next := by
  unfold acquirePermit at h
  split at h
  case h_1 attempt hphase =>
    split at h
    · rename_i hpermits
      cases h
      exact .moved found rfl (.acquired hphase (Nat.sub_add_cancel hpermits) rfl rfl)
    · cases h
  case h_2 => cases h

/-- A turn of the pacing loop. -/
theorem paceTurn_effect {s next : Transport} {task : ℕ} {o : Operation}
    (found : s.operations[task]? = some o) (h : paceTurn t s task o = some next) :
    Effect t s next := by
  unfold paceTurn at h
  split at h
  case h_1 attempt wakeAt hphase =>
    split at h
    · split at h
      · rename_i hopen
        cases h
        exact .moved found rfl (.granted hphase hopen rfl rfl rfl)
      · cases h
        exact .moved found rfl (.slept hphase rfl rfl rfl)
    · cases h
  case h_2 => cases h

/-- A post ends. -/
theorem receive_effect {s next : Transport} {task : ℕ} {o : Operation} {reply : Reply}
    (found : s.operations[task]? = some o) (h : receive t s task o reply = some next) :
    Effect t s next := by
  unfold receive at h
  split at h
  case h_1 attempt hphase =>
    dsimp only at h
    split at h
    · rename_i htransient
      split at h
      all_goals
        cases h
        exact .moved found rfl (.failed hphase htransient rfl rfl rfl)
    · rename_i hlasting
      cases h
      exact .moved found rfl (.answered hphase (Bool.not_eq_true _ ▸ hlasting) rfl rfl rfl)
  case h_2 => cases h

/-- A cooldown is shared. -/
theorem cool_effect {s next : Transport} {task : ℕ} {o : Operation}
    (found : s.operations[task]? = some o) (h : cool t s task o = some next) :
    Effect t s next := by
  unfold cool at h
  split at h
  case h_1 attempt delay reply hphase =>
    cases h
    exact .moved found rfl (.cooled hphase rfl rfl rfl)
  case h_2 => cases h

/-- A task is dropped. -/
theorem stop_effect {s next : Transport} {task : ℕ} {o : Operation} {outcome : Outcome}
    (early : outcome = .unavailable none ∨ outcome = .dropped)
    (found : s.operations[task]? = some o) (h : stop s task o outcome = some next) :
    Effect t s next := by
  unfold stop at h
  split at h
  · cases h
  · rename_i hrunning
    cases h
    exact .moved found rfl (.stopped (Bool.not_eq_true _ ▸ hrunning) early rfl rfl rfl)

/-- An event of a task is one of the task that is there. -/
theorem bind_task {s next : Transport} {task : ℕ} {act : Operation → Option Transport}
    (h : s.operations[task]?.bind act = some next) :
    ∃ o, s.operations[task]? = some o ∧ act o = some next :=
  Option.bind_eq_some_iff.mp h

/-- Every event that happens has one of the effects. -/
theorem advance_effect {s next : Transport} {event : Event}
    (hadvance : advance t s event = some next) : Effect t s next := by
  cases event with
  | tick duration =>
    cases hadvance
    exact .ticked duration
  | call request =>
    cases hadvance
    exact .called request
  | acquire task =>
    have ⟨o, found, hact⟩ := bind_task hadvance
    exact acquirePermit_effect t found hact
  | pace task =>
    have ⟨o, found, hact⟩ := bind_task hadvance
    exact paceTurn_effect t found hact
  | reply task reply =>
    have ⟨o, found, hact⟩ := bind_task hadvance
    exact receive_effect t found hact
  | cooldown task =>
    have ⟨o, found, hact⟩ := bind_task hadvance
    exact cool_effect t found hact
  | expire task =>
    have ⟨o, found, hact⟩ := bind_task hadvance
    split at hact
    · exact stop_effect t (.inl rfl) found hact
    · cases hact
  | drop task =>
    have ⟨o, found, hact⟩ := bind_task hadvance
    exact stop_effect t (.inr rfl) found hact

/-- An accepted event has one of the effects. -/
theorem step_effect {s next : Transport} {event : Event} (h : step t s event = .ok next) :
    Effect t s next := by
  unfold step at h
  split at h
  · rename_i other hother
    rw [Except.ok.inj h] at hother
    exact advance_effect t hother
  · cases h

/-- What every effect keeps holds in every state that the transport reaches. -/
theorem reached_invariant {I : Transport → Prop} (now : ℕ) (seed : BitVec 64)
    (hnew : I (t.new now seed)) (hstep : ∀ s next, I s → Effect t s next → I next)
    (events : List Event) : I (t.reached now seed events) :=
  run_invariant (fun s _ next hs h => hstep s next hs (step_effect t h)) hnew events

/-- The number of tasks that hold a permit. -/
def Transport.holders (s : Transport) : ℕ := s.operations.countP fun o => o.phase.holds

/-- Every permit is free or held by one task. -/
def Conserved (s : Transport) : Prop := s.permits + s.holders = t.config.maxConcurrent

/-- How the number of holders changes when a task moves. -/
theorem holders_set {s next : Transport} {task : ℕ} {o o' : Operation}
    (found : s.operations[task]? = some o)
    (operations_eq : next.operations = s.operations.set task o') :
    next.holders + (if o.phase.holds = true then 1 else 0) =
      s.holders + (if o'.phase.holds = true then 1 else 0) := by
  have ⟨hlt, hget⟩ := List.getElem?_eq_some_iff.mp found
  have hcount : o.phase.holds = true → 0 < s.holders := by
    intro hholds
    exact List.countP_pos_iff.mpr ⟨o, List.mem_of_getElem? found, hholds⟩
  rw [Transport.holders, operations_eq, List.countP_set hlt, hget]
  change s.holders - _ + _ + _ = _
  by_cases hholds : o.phase.holds = true
  · have hpos := hcount hholds
    rw [if_pos hholds]
    omega
  · rw [if_neg hholds]
    omega

/-- After a cooldown a task tries again or ends. -/
theorem afterCooldown_cases (o : Operation) (attempt : ℕ) (reply : Reply) :
    (∃ next, afterCooldown t o attempt reply = .acquiring next) ∨
      (afterCooldown t o attempt reply).ended = true := by
  unfold afterCooldown
  by_cases hread : o.request.readOnly = true
  · rw [if_pos hread]
    by_cases hlast : attempt = t.config.maxRetries
    · rw [if_pos hlast]
      exact .inr rfl
    · rw [if_neg hlast]
      exact .inl ⟨_, rfl⟩
  · rw [if_neg hread]
    exact .inr rfl

/-- A task that tries again or has ended holds no permit. -/
theorem afterCooldown_holds (o : Operation) (attempt : ℕ) (reply : Reply) :
    (afterCooldown t o attempt reply).holds = false := by
  cases afterCooldown_cases t o attempt reply with
  | inl hwaiting =>
    have ⟨next, hnext⟩ := hwaiting
    rw [hnext]
    rfl
  | inr hended =>
    cases hphase : afterCooldown t o attempt reply with
    | finished outcome => rfl
    | acquiring _ => rfl
    | cooling _ _ _ => rfl
    | pacing _ _ => rw [hphase] at hended; cases hended
    | sending _ => rw [hphase] at hended; cases hended

/-- A task that moves keeps the permits together. -/
theorem Moved.permits {s next : Transport} {task : ℕ} {o o' : Operation}
    (h : Moved t s task o o' next) :
    next.permits + (if o'.phase.holds = true then 1 else 0) =
      s.permits + (if o.phase.holds = true then 1 else 0) := by
  cases h with
  | acquired waiting permits_eq => simp [waiting, Phase.holds, permits_eq]
  | slept paced permits_eq => simp [paced, Phase.holds, permits_eq]
  | granted paced _ permits_eq => simp [paced, Phase.holds, permits_eq]
  | answered sent _ permits_eq => simp [sent, Phase.holds, permits_eq]
  | failed sent _ permits_eq => simp [sent, Phase.holds, permits_eq]
  | cooled failed permits_eq =>
    simp only [failed, afterCooldown_holds, permits_eq]
    rfl
  | stopped running early permits_eq =>
    have hended : ∀ outcome : Outcome, (Phase.finished outcome).holds = false := fun _ => rfl
    simp only [hended, permits_eq]
    split <;> rfl

/-- Every event keeps the permits together. -/
theorem conserved_step {s next : Transport} (h : Conserved t s) (effect : Effect t s next) :
    Conserved t next := by
  unfold Conserved at h ⊢
  cases effect with
  | ticked duration => exact h
  | called request =>
    rw [Transport.holders, List.countP_append]
    exact h
  | moved found operations_eq moved =>
    have hholders := holders_set found operations_eq
    have hpermits := moved.permits
    omega

/-- The instant of the next request is a gate over all posts and cooldowns. -/
theorem gate_step {s next : Transport} (h : Gate s.nextRequest s.passages)
    (effect : Effect t s next) : Gate next.nextRequest next.passages := by
  cases effect with
  | ticked duration => exact h
  | called request => exact h
  | moved found operations_eq moved =>
    cases moved with
    | acquired _ _ nextRequest_eq passages_eq => rw [nextRequest_eq, passages_eq]; exact h
    | slept _ _ nextRequest_eq passages_eq => rw [nextRequest_eq, passages_eq]; exact h
    | granted _ opened _ nextRequest_eq passages_eq =>
      rw [nextRequest_eq, passages_eq]
      exact h.grant opened _ _
    | answered _ _ _ nextRequest_eq passages_eq => rw [nextRequest_eq, passages_eq]; exact h
    | failed _ _ _ nextRequest_eq passages_eq => rw [nextRequest_eq, passages_eq]; exact h
    | cooled _ _ nextRequest_eq passages_eq =>
      rw [nextRequest_eq, passages_eq]
      exact h.hold _
    | stopped _ _ _ nextRequest_eq passages_eq => rw [nextRequest_eq, passages_eq]; exact h

/-- A request in its attempt of this number: every earlier attempt failed transiently,
and only a read has earlier attempts. -/
structure Underway (request : Request) (replies : List Reply) (attempt : ℕ) : Prop where
  /-- Every earlier attempt had a reply. -/
  replies_length : replies.length = attempt
  /-- Every reply was a transient failure. -/
  transient : ∀ reply ∈ replies, reply.transient = true
  /-- The retries are not used up. -/
  attempt_le : attempt ≤ t.config.maxRetries
  /-- Only a read is retried. -/
  retried : request.readOnly = false → attempt = 0

/-- What an ended task has done. A returned reply is that of the last post; all before
it failed transiently. Retries are exhausted only by a read, in all its attempts. -/
def Concluded (o : Operation) : Outcome → Prop
  | .returned reply => ∃ earlier, o.replies = earlier ++ [reply] ∧
      o.posts = earlier.length + 1 ∧ earlier.length ≤ t.config.maxRetries ∧
      (∀ failure ∈ earlier, failure.transient = true) ∧
      (o.request.readOnly = false → earlier = []) ∧
      (o.request.readOnly = true → reply.transient = false)
  | .unavailable (some cause) => o.request.readOnly = true ∧ o.posts = t.config.maxRetries + 1 ∧
      ∃ earlier last, o.replies = earlier ++ [last] ∧ earlier.length = t.config.maxRetries ∧
        (∀ failure ∈ o.replies, failure.transient = true) ∧ last.cause = some cause
  | .unavailable none | .dropped =>
      o.posts ≤ t.config.maxRetries + 1 ∧ (o.request.readOnly = false → o.posts ≤ 1)

/-- A task's posts and replies agree with where it stands. -/
def Accounted (o : Operation) : Prop :=
  match o.phase with
  | .acquiring attempt => Underway t o.request o.replies attempt ∧ o.posts = attempt
  | .pacing attempt _ => Underway t o.request o.replies attempt ∧ o.posts = attempt
  | .sending attempt => Underway t o.request o.replies attempt ∧ o.posts = attempt + 1
  | .cooling attempt _ reply => reply.transient = true ∧ o.posts = attempt + 1 ∧
      ∃ earlier, o.replies = earlier ++ [reply] ∧ Underway t o.request earlier attempt
  | .finished outcome => Concluded t o outcome

/-- A transient reply has a cause. -/
theorem cause_of_transient {reply : Reply} (h : reply.transient = true) :
    ∃ cause, reply.cause = some cause := by
  cases reply with
  | answered errors hint =>
    cases errors with
    | nil => cases h
    | cons error errors => exact ⟨_, rfl⟩
  | failed isTimeout isConnect isRequest isBody => exact ⟨_, rfl⟩
  | unreadable hint => exact ⟨_, rfl⟩
  | refused status hint => exact ⟨_, rfl⟩
  | undecodable hint => exact ⟨_, rfl⟩

/-- A task that has posted no more than its attempts allow may stop anywhere. -/
theorem Accounted.posts_le {o : Operation} (h : Accounted t o) (running : o.phase.ended = false) :
    o.posts ≤ t.config.maxRetries + 1 ∧ (o.request.readOnly = false → o.posts ≤ 1) := by
  have hbound : ∀ attempt replies, Underway t o.request replies attempt →
      o.posts ≤ attempt + 1 →
      o.posts ≤ t.config.maxRetries + 1 ∧ (o.request.readOnly = false → o.posts ≤ 1) := by
    intro attempt replies hunderway hposts
    have hle := hunderway.attempt_le
    refine ⟨by omega, ?_⟩
    intro hreads
    have hzero := hunderway.retried hreads
    omega
  unfold Accounted at h
  split at h
  · exact hbound _ _ h.1 (by omega)
  · exact hbound _ _ h.1 (by omega)
  · exact hbound _ _ h.1 (by omega)
  · have ⟨_, hposts, earlier, _, hunderway⟩ := h
    exact hbound _ earlier hunderway (by omega)
  · rename_i outcome hphase
    rw [hphase] at running
    cases running

/-- An ended task has posted no more than its attempts allow. -/
theorem Concluded.posts_le {o : Operation} {outcome : Outcome} (h : Concluded t o outcome) :
    o.posts ≤ t.config.maxRetries + 1 ∧ (o.request.readOnly = false → o.posts ≤ 1) := by
  cases outcome with
  | returned reply =>
    have ⟨earlier, _, hposts, hle, _, hwrites, _⟩ := h
    refine ⟨by omega, ?_⟩
    intro hreads
    rw [hwrites hreads] at hposts
    exact le_of_eq hposts
  | unavailable cause =>
    cases cause with
    | none => exact h
    | some cause =>
      refine ⟨le_of_eq h.2.1, ?_⟩
      intro hreads
      rw [h.1] at hreads
      cases hreads
  | dropped => exact h

/-- A failed attempt together with those before it. -/
theorem forall_transient {earlier replies : List Reply} {reply : Reply}
    (hreplies : replies = earlier ++ [reply])
    (hearlier : ∀ failure ∈ earlier, failure.transient = true)
    (hreply : reply.transient = true) : ∀ failure ∈ replies, failure.transient = true := by
  intro failure hfailure
  rw [hreplies] at hfailure
  cases List.mem_append.mp hfailure with
  | inl hbefore => exact hearlier failure hbefore
  | inr hlast =>
    rw [List.mem_singleton.mp hlast]
    exact hreply

/-- What follows a cooldown agrees with what the task has done. -/
theorem accounted_afterCooldown {o : Operation} {attempt delay : ℕ} {reply : Reply}
    (hphase : o.phase = .cooling attempt delay reply) (h : Accounted t o) :
    Accounted t { o with phase := afterCooldown t o attempt reply } := by
  rw [Accounted, hphase] at h
  have ⟨htransient, hposts, earlier, hreplies, hunderway⟩ := h
  have hlength := hunderway.replies_length
  have hle := hunderway.attempt_le
  have hall := forall_transient hreplies hunderway.transient htransient
  unfold afterCooldown
  by_cases hread : o.request.readOnly = true
  · rw [if_pos hread]
    by_cases hlast : attempt = t.config.maxRetries
    · have ⟨cause, hcause⟩ := cause_of_transient htransient
      rw [if_pos hlast, hcause]
      rw [hlast] at hposts hlength
      exact ⟨hread, hposts, earlier, reply, hreplies, hlength, hall, hcause⟩
    · rw [if_neg hlast]
      refine ⟨⟨?_, hall, by omega, ?_⟩, hposts⟩
      · change o.replies.length = attempt + 1
        rw [hreplies, List.length_append, hlength]
        rfl
      · intro hwrites
        exact absurd hread (Bool.eq_false_iff.mp hwrites)
  · rw [if_neg hread]
    have hwrites : o.request.readOnly = false := Bool.eq_false_iff.mpr hread
    have hzero := hunderway.retried hwrites
    refine ⟨earlier, hreplies, ?_, by omega, hunderway.transient, ?_, ?_⟩
    · rw [hlength]
      exact hposts
    · intro _
      exact List.eq_nil_of_length_eq_zero (by omega)
    · intro hreads
      exact absurd hreads hread

/-- A task that moves stays accounted for. -/
theorem Moved.accounted {s next : Transport} {task : ℕ} {o o' : Operation}
    (h : Moved t s task o o' next) (ho : Accounted t o) : Accounted t o' := by
  cases h with
  | acquired waiting =>
    rw [Accounted, waiting] at ho
    exact ho
  | slept paced =>
    rw [Accounted, paced] at ho
    exact ho
  | granted paced =>
    rw [Accounted, paced] at ho
    exact ⟨ho.1, congrArg (· + 1) ho.2⟩
  | answered sent lasting =>
    rw [Accounted, sent] at ho
    have ⟨hunderway, hposts⟩ := ho
    have hlength := hunderway.replies_length
    have hle := hunderway.attempt_le
    refine ⟨o.replies, rfl, ?_, by omega, hunderway.transient, ?_, ?_⟩
    · rw [hlength]
      exact hposts
    · intro hwrites
      have hzero := hunderway.retried hwrites
      exact List.eq_nil_of_length_eq_zero (by omega)
    · intro _
      exact lasting
  | failed sent transient =>
    rw [Accounted, sent] at ho
    exact ⟨transient, ho.2, o.replies, rfl, ho.1⟩
  | cooled failed => exact accounted_afterCooldown t failed ho
  | stopped running early =>
    have hbound := ho.posts_le t running
    cases early with
    | inl hexpired =>
      rw [hexpired]
      exact hbound
    | inr hdropped =>
      rw [hdropped]
      exact hbound

/-- Every task is accounted for. -/
def AllAccounted (s : Transport) : Prop := ∀ o ∈ s.operations, Accounted t o

/-- Every event keeps all tasks accounted for. -/
theorem allAccounted_step {s next : Transport} (h : AllAccounted t s) (effect : Effect t s next) :
    AllAccounted t next := by
  cases effect with
  | ticked duration => exact h
  | called request =>
    intro o ho
    cases List.mem_append.mp ho with
    | inl hold => exact h o hold
    | inr hnew =>
      rw [List.mem_singleton.mp hnew]
      have hnone : ∀ reply ∈ ([] : List Reply), reply.transient = true :=
        fun _ hreply => absurd hreply List.not_mem_nil
      exact ⟨⟨rfl, hnone, Nat.zero_le _, fun _ => rfl⟩, rfl⟩
  | moved found operations_eq moved =>
    intro other hother
    rw [operations_eq] at hother
    cases List.mem_or_eq_of_mem_set hother with
    | inl hold => exact h other hold
    | inr hsame =>
      rw [hsame]
      exact moved.accounted t (h _ (List.mem_of_getElem? found))

/-- The attempt of a post of this task. -/
def attemptOf (task : ℕ) : Passage (ℕ × ℕ) → Option ℕ
  | .grant label _ _ => if label.1 = task then some label.2 else none
  | .hold _ => none

/-- The attempts of a task that were posted, in order. -/
def attemptsOf (task : ℕ) (passages : List (Passage (ℕ × ℕ))) : List ℕ :=
  passages.filterMap (attemptOf task)

/-- The number of posts of a task. -/
def Transport.postsOf (s : Transport) (task : ℕ) : ℕ :=
  (s.operations[task]?.map Operation.posts).getD 0

/-- The passages record each task's attempts, counted up from zero, and nothing else. -/
def Recorded (s : Transport) : Prop :=
  ∀ task, attemptsOf task s.passages = List.range (s.postsOf task)

/-- The posts of every task after one was replaced. -/
theorem postsOf_set {s next : Transport} {task : ℕ} {o o' : Operation}
    (found : s.operations[task]? = some o)
    (operations_eq : next.operations = s.operations.set task o') (other : ℕ) :
    next.postsOf other = if other = task then o'.posts else s.postsOf other := by
  have ⟨hlt, _⟩ := List.getElem?_eq_some_iff.mp found
  rw [Transport.postsOf, operations_eq, List.getElem?_set]
  by_cases hsame : other = task
  · rw [if_pos hsame, if_pos hsame.symm, if_pos hlt]
    rfl
  · rw [if_neg hsame, if_neg (Ne.symm hsame)]
    rfl

/-- The recorded attempts after a passage of no task's post. -/
theorem attemptsOf_hold (task : ℕ) (passages : List (Passage (ℕ × ℕ))) (release : ℕ) :
    attemptsOf task (passages ++ [.hold release]) = attemptsOf task passages := by
  rw [attemptsOf, List.filterMap_append]
  exact List.append_nil _

/-- The recorded attempts after a post. -/
theorem attemptsOf_grant (task other attempt instant gap : ℕ)
    (passages : List (Passage (ℕ × ℕ))) :
    attemptsOf other (passages ++ [.grant (task, attempt) instant gap]) =
      attemptsOf other passages ++ if other = task then [attempt] else [] := by
  rw [attemptsOf, List.filterMap_append]
  congr 1
  by_cases hsame : other = task
  · have hpost : attemptOf other (.grant (task, attempt) instant gap) = some attempt :=
      if_pos hsame.symm
    rw [if_pos hsame, List.filterMap_cons_some hpost, List.filterMap_nil]
  · have hpost : attemptOf other (.grant (task, attempt) instant gap) = none :=
      if_neg (Ne.symm hsame)
    rw [if_neg hsame, List.filterMap_cons_none hpost, List.filterMap_nil]

/-- A move that neither posts nor records leaves the record as it is. -/
theorem recorded_quiet {s next : Transport} {task : ℕ} {o o' : Operation} (h : Recorded s)
    (found : s.operations[task]? = some o)
    (operations_eq : next.operations = s.operations.set task o') (hposts : o'.posts = o.posts)
    (hattempts : ∀ other, attemptsOf other next.passages = attemptsOf other s.passages) :
    Recorded next := by
  intro other
  rw [hattempts other, h other, postsOf_set found operations_eq]
  by_cases hsame : other = task
  · rw [if_pos hsame, hsame, Transport.postsOf, found, hposts]
    rfl
  · rw [if_neg hsame]

/-- Every event keeps the record of the posts. -/
theorem recorded_step {s next : Transport} (h : Recorded s) (haccounted : AllAccounted t s)
    (effect : Effect t s next) : Recorded next := by
  cases effect with
  | ticked duration => exact h
  | called request =>
    intro task
    refine (h task).trans (congrArg List.range ?_)
    rw [Transport.postsOf, Transport.postsOf]
    by_cases hlt : task < s.operations.length
    · rw [List.getElem?_append_left hlt]
    · have hnone : s.operations[task]? = none := List.getElem?_eq_none (by omega)
      rw [hnone, List.getElem?_append_right (by omega)]
      cases task - s.operations.length with
      | zero => rfl
      | succ n => rfl
  | moved found operations_eq moved =>
    cases moved with
    | acquired _ _ _ passages_eq =>
      exact recorded_quiet h found operations_eq rfl fun _ => by rw [passages_eq]
    | slept _ _ _ passages_eq =>
      exact recorded_quiet h found operations_eq rfl fun _ => by rw [passages_eq]
    | granted paced opened permits_eq nextRequest_eq passages_eq =>
      rename_i task o attempt wakeAt
      have haccount := haccounted o (List.mem_of_getElem? found)
      rw [Accounted, paced] at haccount
      intro other
      rw [passages_eq, attemptsOf_grant, h other, postsOf_set found operations_eq]
      by_cases hsame : other = task
      · have hposts : s.postsOf task = o.posts := by
          rw [Transport.postsOf, found]
          rfl
        rw [if_pos hsame, if_pos hsame, hsame, hposts, haccount.2, List.range_succ]
      · rw [if_neg hsame, if_neg hsame, List.append_nil]
    | answered _ _ _ _ passages_eq =>
      exact recorded_quiet h found operations_eq rfl fun _ => by rw [passages_eq]
    | failed _ _ _ _ passages_eq =>
      exact recorded_quiet h found operations_eq rfl fun _ => by rw [passages_eq]
    | cooled _ _ _ passages_eq =>
      exact recorded_quiet h found operations_eq rfl fun _ => by rw [passages_eq, attemptsOf_hold]
    | stopped _ _ _ _ passages_eq =>
      exact recorded_quiet h found operations_eq rfl fun _ => by rw [passages_eq]

/-- All invariants of the transport. -/
structure Sound (s : Transport) : Prop where
  /-- Every permit is free or in use. -/
  conserved : Conserved t s
  /-- The gate opens when the next post may start. -/
  gate : Gate s.nextRequest s.passages
  /-- Every task is where its replies put it. -/
  accounted : AllAccounted t s
  /-- Every post is in the log. -/
  recorded : Recorded s

/-- A fresh transport is sound. -/
theorem sound_new (now : ℕ) (seed : BitVec 64) : Sound t (t.new now seed) where
  conserved := rfl
  gate := Gate.nil now
  accounted := fun _ ho => absurd ho List.not_mem_nil
  recorded := fun _ => rfl

/-- Every event keeps the transport sound. -/
theorem sound_step {s next : Transport} (h : Sound t s) (effect : Effect t s next) :
    Sound t next :=
  ⟨conserved_step t h.conserved effect, gate_step t h.gate effect,
    allAccounted_step t h.accounted effect, recorded_step t h.recorded h.accounted effect⟩

/-- Every reached state is sound. -/
theorem sound_reached (now : ℕ) (seed : BitVec 64) (events : List Event) :
    Sound t (t.reached now seed events) :=
  reached_invariant t now seed (sound_new t now seed) (fun _ _ => sound_step t) events

/-- In every interleaving the permits and the posts in flight add up to the limit, no
post comes before the gaps of all earlier posts and all shared cooldowns allow it, and in
every window of time the gaps of the posts, the last one's excepted, fit the window. -/
theorem transport_paced (now : ℕ) (seed : BitVec 64) (events : List Event) :
    (t.reached now seed events).permits + (t.reached now seed events).holders =
        t.config.maxConcurrent ∧
      Orderly (t.reached now seed events).passages ∧
      ∀ start stop,
        ((within start stop (grants (t.reached now seed events).passages)).dropLast.map
          Prod.snd).sum ≤ stop - start := by
  have hsound := sound_reached t now seed events
  exact ⟨hsound.conserved, hsound.gate.orderly, hsound.gate.orderly.spaced.within_sum_le⟩

/-- In every interleaving each operation posts its attempts in order, a read at most once
more than the retries and anything else at most once; a returned reply is that of the last
post after transient failures only, and retries are exhausted only by a read. -/
theorem transport_retries (now : ℕ) (seed : BitVec 64) (events : List Event) {task : ℕ}
    {o : Operation} (found : (t.reached now seed events).operations[task]? = some o) :
    attemptsOf task (t.reached now seed events).passages = List.range o.posts ∧
      o.posts ≤ t.config.maxRetries + 1 ∧ (o.request.readOnly = false → o.posts ≤ 1) ∧
      ∀ outcome, o.phase = .finished outcome → Concluded t o outcome := by
  have hsound := sound_reached t now seed events
  have haccounted := hsound.accounted o (List.mem_of_getElem? found)
  have hrecorded := hsound.recorded task
  rw [Transport.postsOf, found] at hrecorded
  have hconcluded : ∀ outcome, o.phase = .finished outcome → Concluded t o outcome := by
    intro outcome hphase
    rw [Accounted, hphase] at haccounted
    exact haccounted
  have hposts : o.posts ≤ t.config.maxRetries + 1 ∧
      (o.request.readOnly = false → o.posts ≤ 1) := by
    cases hphase : o.phase with
    | finished outcome => exact (hconcluded outcome hphase).posts_le
    | acquiring attempt => exact haccounted.posts_le t (by rw [hphase]; rfl)
    | pacing attempt wakeAt => exact haccounted.posts_le t (by rw [hphase]; rfl)
    | sending attempt => exact haccounted.posts_le t (by rw [hphase]; rfl)
    | cooling attempt delay reply => exact haccounted.posts_le t (by rw [hphase]; rfl)
  exact ⟨hrecorded, hposts.1, hposts.2, hconcluded⟩

/-- The configuration that the environment gives by default. -/
def defaultTransport : RpcTransport where
  config := ⟨8, 4, 5, 500000000, 10000000000, 30000000000, 90000000000⟩
  durations := ⟨fun cost rate => cost * 1000000000 / rate, fun ceiling _ => ceiling / 4⟩
  valid := rfl

/-- A read that is rate limited once, waits out the delay that the server asked for, and
is answered. -/
def limitedRead : List Event :=
  [.call ⟨["eth_chainId"]⟩, .acquire 0, .pace 0, .reply 0 (.refused 429 (some 1000000000)),
    .cooldown 0, .acquire 0, .pace 0, .tick 1000000000, .pace 0, .reply 0 (.answered [] none)]

/-- The read in the end. -/
def answeredRead : Operation :=
  ⟨⟨["eth_chainId"]⟩, 0, .finished (.returned (.answered [] none)), 2,
    [.refused 429 (some 1000000000), .answered [] none]⟩

/-- The rate-limited read posts twice and returns the second reply. -/
theorem transport_retries_limited :
    attemptsOf 0 (defaultTransport.reached 0 0 limitedRead).passages = List.range 2 ∧
      Concluded defaultTransport answeredRead (.returned (.answered [] none)) := by
  have hfound : (defaultTransport.reached 0 0 limitedRead).operations[0]? =
      some answeredRead := by decide
  have hretries := transport_retries defaultTransport 0 0 limitedRead hfound
  exact ⟨hretries.1, hretries.2.2.2 _ rfl⟩

/-- An event other than a deadline or a caller that drops its operation. -/
def Event.progress : Event → Bool
  | .expire _ | .drop _ => false
  | _ => true

/-- A reply that ends an operation whatever it asked for. -/
def lasting : Reply := .undecodable none

/-- Some events without deadlines lead on to a state with this property. -/
def Leads (s : Transport) (P : Transport → Prop) : Prop :=
  ∃ events : List Event,
    (∀ event ∈ events, event.progress = true) ∧ P (run (step t) s events)

/-- A state leads to itself. -/
theorem Leads.here {s : Transport} {P : Transport → Prop} (h : P s) : Leads t s P :=
  ⟨[], fun _ hevent => absurd hevent List.not_mem_nil, h⟩

/-- An event leads on to where its result leads. -/
theorem Leads.event {s next : Transport} {P : Transport → Prop} (event : Event)
    (hprogress : event.progress = true) (hadvance : advance t s event = some next)
    (h : Leads t next P) : Leads t s P := by
  have ⟨events, hevents, hrun⟩ := h
  have hstep : step t s event = .ok next := by
    unfold step
    rw [hadvance]
  refine ⟨event :: events, List.forall_mem_cons.mpr ⟨hprogress, hevents⟩, ?_⟩
  rw [run_cons, exec_of_ok hstep]
  exact hrun

/-- What one state leads to may lead further. -/
theorem Leads.trans {s : Transport} {P Q : Transport → Prop} (h : Leads t s P)
    (hnext : ∀ next, P next → Leads t next Q) : Leads t s Q := by
  have ⟨events, hevents, hrun⟩ := h
  have ⟨later, hlater, hdone⟩ := hnext _ hrun
  refine ⟨events ++ later, ?_, ?_⟩
  · intro event hevent
    cases List.mem_append.mp hevent with
    | inl hfirst => exact hevents event hfirst
    | inr hsecond => exact hlater event hsecond
  · rw [run_append]
    exact hdone

/-- The task that moved is replaced. -/
theorem getElem?_moved {s next : Transport} {task : ℕ} {o o' : Operation}
    (found : s.operations[task]? = some o)
    (operations_eq : next.operations = s.operations.set task o') :
    next.operations[task]? = some o' := by
  have ⟨hlt, _⟩ := List.getElem?_eq_some_iff.mp found
  rw [operations_eq, List.getElem?_set, if_pos rfl, if_pos hlt]

/-- The other tasks stay as they are. -/
theorem getElem?_others {s next : Transport} {task other : ℕ} {o' : Operation}
    (operations_eq : next.operations = s.operations.set task o') (hother : other ≠ task) :
    next.operations[other]? = s.operations[other]? := by
  rw [operations_eq, List.getElem?_set, if_neg (Ne.symm hother)]

/-- The task has ended. -/
def Ended (task : ℕ) (s : Transport) : Prop :=
  ∃ o, s.operations[task]? = some o ∧ o.phase.ended = true

/-- The task has ended, a permit is free, and the other tasks are as they were. -/
structure Released (s : Transport) (task : ℕ) (next : Transport) : Prop where
  /-- The task has ended. -/
  ended : Ended task next
  /-- A permit is free. -/
  free : 0 < next.permits
  /-- The other tasks are as they were. -/
  others : ∀ other, other ≠ task → next.operations[other]? = s.operations[other]?

/-- A task that has posted can be answered. -/
theorem leads_sending {s : Transport} {task attempt : ℕ} {o : Operation}
    (found : s.operations[task]? = some o) (hphase : o.phase = .sending attempt) :
    Leads t s (Released s task) := by
  have hanswer : ∃ next o', advance t s (.reply task lasting) = some next ∧
      next.operations = s.operations.set task o' ∧ o'.phase = .finished (.returned lasting) ∧
      next.permits = s.permits + 1 := by
    refine ⟨{ s with permits := s.permits + 1 }.put task
        { o with replies := o.replies ++ [lasting], phase := .finished (.returned lasting) }, _,
      ?_, rfl, rfl, rfl⟩
    rw [advance, found, Option.bind_some, receive, hphase]
    rfl
  have ⟨next, o', hadvance, hoperations, hended, hpermits⟩ := hanswer
  refine Leads.event t (.reply task lasting) rfl hadvance
    (Leads.here t ⟨⟨o', ?_, ?_⟩, by omega, ?_⟩)
  · exact getElem?_moved found hoperations
  · rw [hended]
    rfl
  · intro other hother
    exact getElem?_others hoperations hother

/-- A task that waits for its turn gets it, once time has passed. -/
theorem leads_pacing {s : Transport} {task attempt wakeAt : ℕ} {o : Operation}
    (found : s.operations[task]? = some o) (hphase : o.phase = .pacing attempt wakeAt) :
    Leads t s (Released s task) := by
  have hpost : paceTurn t { s with clock := s.clock + (wakeAt + s.nextRequest) } task o =
      some (posted t { s with clock := s.clock + (wakeAt + s.nextRequest) } task attempt o) := by
    rw [paceTurn, hphase]
    dsimp only
    rw [if_pos (by omega), if_pos (by omega)]
  have hadvance : advance t { s with clock := s.clock + (wakeAt + s.nextRequest) } (.pace task) =
      some (posted t { s with clock := s.clock + (wakeAt + s.nextRequest) } task attempt o) := by
    rw [advance, found]
    exact hpost
  have hoperations : (posted t { s with clock := s.clock + (wakeAt + s.nextRequest) } task attempt
      o).operations = s.operations.set task
        { o with phase := .sending attempt, posts := o.posts + 1 } := rfl
  have hposted := leads_sending t (getElem?_moved found hoperations) rfl
  refine Leads.event t (.tick (wakeAt + s.nextRequest)) rfl rfl
    (Leads.event t (.pace task) rfl hadvance (hposted.trans t ?_))
  intro later hreleased
  refine Leads.here t ⟨hreleased.ended, hreleased.free, ?_⟩
  intro other hother
  exact (hreleased.others other hother).trans (getElem?_others hoperations hother)

/-- A task that holds a permit can end and free it. -/
theorem leads_holder {s : Transport} {task : ℕ} {o : Operation}
    (found : s.operations[task]? = some o) (hholds : o.phase.holds = true) :
    Leads t s (Released s task) := by
  cases hphase : o.phase with
  | pacing attempt wakeAt => exact leads_pacing t found hphase
  | sending attempt => exact leads_sending t found hphase
  | acquiring attempt => rw [hphase] at hholds; cases hholds
  | cooling attempt delay reply => rw [hphase] at hholds; cases hholds
  | finished outcome => rw [hphase] at hholds; cases hholds

/-- A waiting task gets a permit once one is free. -/
theorem leads_free {s : Transport} {task attempt : ℕ} {o : Operation}
    (found : s.operations[task]? = some o) (hphase : o.phase = .acquiring attempt)
    (hfree : 0 < s.permits) : Leads t s (Ended task) := by
  have hadvance : advance t s (.acquire task) = some (admitted s task attempt o) := by
    rw [advance, found, Option.bind_some, acquirePermit, hphase]
    exact if_pos hfree
  have hoperations : (admitted s task attempt o).operations =
      s.operations.set task { o with phase := .pacing attempt s.clock } := rfl
  have hpaced := leads_pacing t (getElem?_moved found hoperations) rfl
  refine Leads.event t (.acquire task) rfl hadvance (hpaced.trans t ?_)
  intro next hreleased
  exact Leads.here t hreleased.ended

/-- A waiting task gets a permit: one is free, or a holder can end and free one. -/
theorem leads_acquiring {s : Transport} (hconserved : Conserved t s)
    (hpositive : 0 < t.config.maxConcurrent) {task attempt : ℕ} {o : Operation}
    (found : s.operations[task]? = some o) (hphase : o.phase = .acquiring attempt) :
    Leads t s (Ended task) := by
  by_cases hfree : 0 < s.permits
  · exact leads_free t found hphase hfree
  · unfold Conserved at hconserved
    have hheld : 0 < s.holders := by omega
    have ⟨holder, hmem, hholds⟩ := List.countP_pos_iff.mp hheld
    have ⟨other, hother⟩ := List.getElem?_of_mem hmem
    have hdistinct : task ≠ other := by
      intro hsame
      rw [hsame, hother] at found
      rw [Option.some.inj found, hphase] at hholds
      cases hholds
    refine (leads_holder t hother hholds).trans t ?_
    intro next hreleased
    exact leads_free t ((hreleased.others task hdistinct).trans found) hphase hreleased.free

/-- No interleaving strands an operation: from every reached state, without any deadline
and without dropping anything, events lead to the end of any operation that began. -/
theorem transport_completes (now : ℕ) (seed : BitVec 64) (events : List Event) {task : ℕ}
    {o : Operation} (found : (t.reached now seed events).operations[task]? = some o) :
    Leads t (t.reached now seed events) (Ended task) := by
  have hconserved := (sound_reached t now seed events).conserved
  have hpositive : 0 < t.config.maxConcurrent := by
    have hvalid := t.valid
    simp only [RpcConfig.validate, require_bind_eq_ok] at hvalid
    exact hvalid.1.2
  cases hphase : o.phase with
  | acquiring attempt => exact leads_acquiring t hconserved hpositive found hphase
  | pacing attempt wakeAt =>
    exact (leads_pacing t found hphase).trans t fun _ hreleased => Leads.here t hreleased.ended
  | sending attempt =>
    exact (leads_sending t found hphase).trans t fun _ hreleased => Leads.here t hreleased.ended
  | cooling attempt delay reply =>
    have hadvance : advance t (t.reached now seed events) (.cooldown task) =
        some (cooled t (t.reached now seed events) task attempt delay reply o) := by
      rw [advance, found, Option.bind_some, cool, hphase]
    have hoperations :
        (cooled t (t.reached now seed events) task attempt delay reply o).operations =
        (t.reached now seed events).operations.set task
          { o with phase := afterCooldown t o attempt reply } := rfl
    have hnext := getElem?_moved found hoperations
    refine Leads.event t (.cooldown task) rfl hadvance ?_
    cases afterCooldown_cases t o attempt reply with
    | inl hwaiting =>
      obtain ⟨later, hlater⟩ := hwaiting
      have hkept := conserved_step t hconserved (advance_effect t hadvance)
      exact leads_acquiring t hkept hpositive hnext hlater
    | inr hended =>
      exact Leads.here t ⟨_, hnext, hended⟩
  | finished outcome =>
    refine Leads.here t ⟨o, found, ?_⟩
    rw [hphase]
    rfl

/-- A read that waits behind four others is not stranded. -/
theorem transport_completes_waiting :
    Leads defaultTransport (defaultTransport.reached 0 0
      [.call ⟨["eth_chainId"]⟩, .call ⟨["eth_chainId"]⟩, .call ⟨["eth_chainId"]⟩,
        .call ⟨["eth_chainId"]⟩, .call ⟨["eth_blockNumber"]⟩, .acquire 0, .acquire 1,
        .acquire 2, .acquire 3]) (Ended 4) :=
  transport_completes defaultTransport 0 0 _
    (o := ⟨⟨["eth_blockNumber"]⟩, 0, .acquiring 0, 0, []⟩) (by decide)

end EthereumSettlement.RpcPacing
