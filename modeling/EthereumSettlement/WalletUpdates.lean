import Mathlib.Logic.Function.Basic
import Mathlib.Algebra.Order.Ring.Nat
import EthereumSettlement.CheckedCalls
import EthereumSettlement.TransitionRuns

/-!
# Overlapping requests of the wallet

The wallet keeps one document. A request that changes it reads the whole document,
waits for the user or the network, changes its own copy and writes the whole copy
back. Reads and writes are single calls; everything between them may be interleaved
with other requests. A write is safe as long as the copy still agrees with the document
in everything that the request does not change itself.
-/

namespace EthereumSettlement.WalletUpdates

open CheckedCalls TransitionRuns

/-- The symbol of a `NativeCurrency`, which always has nine decimals. -/
inductive NativeSymbol
  | eth
  | mina
  deriving DecidableEq

/-- An approved endpoint of a network. -/
structure Chain where
  /-- Where it is reached. -/
  url : String
  /-- What it is called. -/
  name : String
  /-- Symbol of its currency. -/
  nativeCurrency : Option NativeSymbol
  deriving DecidableEq

/-- `MinaSnapState`. An origin is a site as MetaMask names it. -/
structure MinaSnapState (Origin : Type) where
  /-- Sites with access, and the stamp of each grant. -/
  origins : Origin → Option ℕ
  /-- Network that is in use. -/
  selectedNetwork : String
  /-- Endpoints by network. -/
  chains : String → Option Chain
  /-- Private credentials by name. -/
  credentials : String → Option (List String)

/-- The paths of the stored document that the wallet reads; a path of another type is
absent. -/
structure StoredState (Origin : Type) where
  /-- Version of the document. -/
  version : Option ℕ
  /-- Sites with access, and the stamp of each grant. -/
  origins : Option (Origin → Option ℕ)
  /-- Network that is in use. -/
  selectedNetwork : Option String
  /-- Endpoints by network. -/
  chains : Option (String → Option Chain)
  /-- Private credentials by name. -/
  credentials : Option (String → Option (List String))

variable {Origin : Type}

/-- `initialState`. -/
def initialState : MinaSnapState Origin where
  origins := fun _ => none
  selectedNetwork := "zeko:testnet"
  chains := fun _ => none
  credentials := fun _ => none

/-- The first version trusted one endpoint that is dropped from its documents. -/
def droppedChains (version : ℕ) (chains : String → Option Chain) : String → Option Chain :=
  if version = 1 ∧ (chains "zeko:testnet").map Chain.url = some "https://testnet.zeko.io/graphql" then
    Function.update chains "zeko:testnet" none
  else chains

/-- `getState`. -/
def getState : Option (StoredState Origin) → MinaSnapState Origin
  | some ⟨some version, some origins, some selectedNetwork, chains, credentials⟩ =>
    if version = 1 ∨ version = 2 then
      { origins := origins
        selectedNetwork := selectedNetwork
        chains := droppedChains version (chains.getD fun _ => none)
        credentials := credentials.getD fun _ => none }
    else initialState
  | _ => initialState

/-- `setState`. -/
def setState (state : MinaSnapState Origin) : Option (StoredState Origin) :=
  some ⟨some 2, some state.origins, some state.selectedNetwork, some state.chains,
    some state.credentials⟩

section Changes

variable [DecidableEq Origin]

/-- An assignment to `state.chains`. The property named `__proto__` is the prototype of the object
and is not stored. -/
def assignChain (chains : String → Option Chain) (networkID : String) (chain : Chain) :
    String → Option Chain :=
  if networkID = "__proto__" then chains else Function.update chains networkID (some chain)

/-- What a request does to its copy of the document. -/
inductive Change (Origin : Type)
  | connect (origin : Origin)
  | disconnect (origin : Origin)
  | select (networkID : String)
  | add (networkID : String) (chain : Chain)
  | store (publicKey credential : String)

/-- The copy after a change. -/
def Change.apply : Change Origin → MinaSnapState Origin → MinaSnapState Origin
  | .connect origin, state => { state with origins := Function.update state.origins origin (some 0) }
  | .disconnect origin, state => { state with origins := Function.update state.origins origin none }
  | .select networkID, state => { state with selectedNetwork := networkID }
  | .add networkID chain, state =>
    { state with
      chains := assignChain state.chains networkID chain
      selectedNetwork := networkID }
  | .store publicKey credential, state =>
    let credentials := (state.credentials publicKey).getD []
    { state with
      credentials := Function.update state.credentials publicKey
        (some (if credential ∈ credentials then credentials else credentials ++ [credential])) }

/-- One entry of the document. -/
inductive Entry (Origin : Type)
  | connection (origin : Origin)
  | network
  | endpoint (networkID : String)
  | held (publicKey credential : String)

/-- Two documents have the same entry. -/
def Entry.Agree : Entry Origin → MinaSnapState Origin → MinaSnapState Origin → Prop
  | .connection origin, first, second => first.origins origin = second.origins origin
  | .network, first, second => first.selectedNetwork = second.selectedNetwork
  | .endpoint networkID, first, second => first.chains networkID = second.chains networkID
  | .held publicKey credential, first, second =>
    (credential ∈ (first.credentials publicKey).getD [] ↔
      credential ∈ (second.credentials publicKey).getD [])

/-- The change is made to the entry. -/
def Change.Targets : Change Origin → Entry Origin → Prop
  | .connect origin, .connection target => origin = target
  | .disconnect origin, .connection target => origin = target
  | .select _, .network => True
  | .add _ _, .network => True
  | .add networkID _, .endpoint target => networkID = target ∧ networkID ≠ "__proto__"
  | .store publicKey credential, .held targetKey target =>
    publicKey = targetKey ∧ credential = target
  | _, _ => False

end Changes

/-- The requests that may write the document. Parameters that are refused are absent. -/
inductive WalletRequest (Origin : Type)
  | requestAccounts (origin : Origin)
  | revokePermissions (origin : Origin)
  | switchChain (origin : Origin) (networkID : String)
  | addChain (origin : Origin) (chain : Option Chain)
  | storePrivateCredential (origin : Origin) (credential : Option String)

/-- The site that a request comes from. -/
def WalletRequest.origin : WalletRequest Origin → Origin
  | .requestAccounts origin => origin
  | .revokePermissions origin => origin
  | .switchChain origin _ => origin
  | .addChain origin _ => origin
  | .storePrivateCredential origin _ => origin

/-- How far a request has run, with its copy of the document. A request that writes next
also knows how often its site had revoked its permissions when it got that far. -/
inductive Phase (Origin : Type)
  | reading
  | asking (copy : MinaSnapState Origin)
  | fetching (copy : MinaSnapState Origin) (chain : Chain)
  | confirming (copy : MinaSnapState Origin) (networkID : String) (chain : Chain)
  | writing (copy : MinaSnapState Origin) (seen : ℕ) (change : Change Origin)

/-- The wallet: its document, the requests that run, and how often each site has revoked
its permissions. The counts are not stored by the program. -/
structure Wallet (Origin : Type) where
  /-- The document, once it is written. -/
  stored : Option (StoredState Origin)
  /-- Requests that run. -/
  running : ℕ → Option (WalletRequest Origin × Phase Origin)
  /-- How often each site was revoked. -/
  revocations : Origin → ℕ

/-- A wallet without requests. -/
def start (stored : Option (StoredState Origin)) : Wallet Origin :=
  ⟨stored, fun _ => none, fun _ => 0⟩

/-- `BUILT_IN_NETWORKS`. -/
def builtInNetworks : List String :=
  ["mina:mainnet", "mina:devnet", "zeko:mainnet", "zeko:testnet", "testnet"]

/-- The properties that every JavaScript object inherits, which a lookup finds too. -/
def inheritedProperties : List String :=
  ["constructor", "__defineGetter__", "__defineSetter__", "hasOwnProperty", "__lookupGetter__",
    "__lookupSetter__", "isPrototypeOf", "propertyIsEnumerable", "toString", "valueOf", "__proto__",
    "toLocaleString"]

/-- `String.prototype.length`. -/
def utf16Length (text : String) : ℕ :=
  (text.toList.map fun c => if c.toNat < 0x10000 then 1 else 2).sum

/-- `nativeTokenSymbol` of a network without currency metadata. -/
def nativeTokenSymbol (networkID : String) : Option NativeSymbol :=
  if networkID ∈ ["mina:mainnet", "mina:devnet", "zeko:mainnet"] then some .mina else none

/-- The phase after the document is read, unless the request ends. -/
def afterRead (copy : MinaSnapState Origin) (seen : ℕ) : WalletRequest Origin → Option (Phase Origin)
  | .requestAccounts origin => if (copy.origins origin).isSome then none else some (.asking copy)
  | .revokePermissions origin => some (.writing copy seen (.disconnect origin))
  | .switchChain origin networkID =>
    if (copy.origins origin).isSome ∧
        (networkID ∈ builtInNetworks ∨ (copy.chains networkID).isSome ∨
          networkID ∈ inheritedProperties) ∧
        copy.selectedNetwork ≠ networkID then
      some (.asking copy)
    else none
  | .addChain origin chain =>
    if (copy.origins origin).isSome ∧ chain.isSome then some (.asking copy) else none
  | .storePrivateCredential origin credential =>
    if (copy.origins origin).isSome ∧ credential.any fun text => utf16Length text ≤ 100000 then
      some (.asking copy)
    else none

/-- The phase after the user approves the first dialog, unless the request ends. -/
def afterApproval (walletKey : String) (copy : MinaSnapState Origin) (seen : ℕ) :
    WalletRequest Origin → Option (Phase Origin)
  | .requestAccounts origin => some (.writing copy seen (.connect origin))
  | .revokePermissions _ => none
  | .switchChain _ networkID => some (.writing copy seen (.select networkID))
  | .addChain _ chain => chain.map fun chain => .fetching copy chain
  | .storePrivateCredential _ credential =>
    credential.map fun credential => .writing copy seen (.store walletKey credential)

/-- The phase after the endpoint named its network, unless the request ends. -/
def afterReport (copy : MinaSnapState Origin) (chain : Chain) (networkID : Option String) :
    Option (Phase Origin) :=
  networkID.bind fun networkID =>
    if networkID ≠ "" ∧ ∀ symbol ∈ chain.nativeCurrency, ∀ known ∈ nativeTokenSymbol networkID,
        symbol = known then
      some (.confirming copy networkID chain)
    else none

/-- One call of a request, or its end at any time. -/
inductive WalletAction (Origin : Type)
  | receive (id : ℕ) (request : WalletRequest Origin)
  | read (id : ℕ)
  | answer (id : ℕ) (approved : Bool)
  | report (id : ℕ) (networkID : Option String)
  | update (id : ℕ)
  | terminate (id : ℕ)

variable [DecidableEq Origin]

/-- The wallet with one request in another phase, or without it. -/
def Wallet.advance (wallet : Wallet Origin) (id : ℕ) (request : WalletRequest Origin)
    (phase : Option (Phase Origin)) : Wallet Origin :=
  { wallet with running := Function.update wallet.running id (phase.map fun phase => (request, phase)) }

/-- The revocations after a change is written. -/
def countRevocation (revocations : Origin → ℕ) : Change Origin → Origin → ℕ
  | .disconnect origin => Function.update revocations origin (revocations origin + 1)
  | _ => revocations

/-- One step of the wallet. -/
def step (walletKey : String) (wallet : Wallet Origin) :
    WalletAction Origin → Except String (Wallet Origin)
  | .receive id request =>
    match wallet.running id with
    | none => pure (wallet.advance id request (some .reading))
    | some _ => throw "request identifier is in use"
  | .read id =>
    match wallet.running id with
    | some (request, .reading) =>
      pure (wallet.advance id request
        (afterRead (getState wallet.stored) (wallet.revocations request.origin) request))
    | _ => throw "out of order"
  | .answer id approved =>
    match wallet.running id with
    | some (request, .asking copy) =>
      pure (wallet.advance id request
        (if approved then afterApproval walletKey copy (wallet.revocations request.origin) request
        else none))
    | some (request, .confirming copy networkID chain) =>
      pure (wallet.advance id request
        (if approved then
          some (.writing copy (wallet.revocations request.origin) (.add networkID chain))
        else none))
    | _ => throw "out of order"
  | .report id networkID =>
    match wallet.running id with
    | some (request, .fetching copy chain) =>
      pure (wallet.advance id request (afterReport copy chain networkID))
    | _ => throw "out of order"
  | .update id =>
    match wallet.running id with
    | some (request, .writing copy _ change) =>
      pure { wallet.advance id request none with
        stored := setState (change.apply copy)
        revocations := countRevocation wallet.revocations change }
    | _ => throw "out of order"
  | .terminate id => pure { wallet with running := Function.update wallet.running id none }

omit [DecidableEq Origin] in
/-- A document has its own entries. -/
theorem Entry.Agree.refl (e : Entry Origin) (state : MinaSnapState Origin) : e.Agree state state := by
  cases e with
  | connection origin => exact Eq.refl _
  | network => exact Eq.refl _
  | endpoint networkID => exact Eq.refl _
  | held publicKey credential => exact Iff.rfl

omit [DecidableEq Origin] in
/-- Agreement can be read from both sides. -/
theorem Entry.Agree.symm {e : Entry Origin} {first second : MinaSnapState Origin}
    (h : e.Agree first second) : e.Agree second first := by
  cases e with
  | connection origin => exact Eq.symm h
  | network => exact Eq.symm h
  | endpoint networkID => exact Eq.symm h
  | held publicKey credential => exact Iff.symm h

omit [DecidableEq Origin] in
/-- Agreement passes on. -/
theorem Entry.Agree.trans {e : Entry Origin} {first second third : MinaSnapState Origin}
    (h₁ : e.Agree first second) (h₂ : e.Agree second third) : e.Agree first third := by
  cases e with
  | connection origin => exact Eq.trans h₁ h₂
  | network => exact Eq.trans h₁ h₂
  | endpoint networkID => exact Eq.trans h₁ h₂
  | held publicKey credential => exact Iff.trans h₁ h₂

/-- Endpoints of other networks are kept by an assignment. -/
theorem assignChain_other {chains : String → Option Chain} {networkID target : String} {chain : Chain}
    (h : ¬ (networkID = target ∧ networkID ≠ "__proto__")) :
    assignChain chains networkID chain target = chains target := by
  unfold assignChain
  by_cases hproto : networkID = "__proto__"
  · rw [if_pos hproto]
  · rw [if_neg hproto, Function.update_of_ne]
    intro hsame
    exact h ⟨hsame.symm, hproto⟩

/-- An assignment under an ordinary name stores the endpoint. -/
theorem assignChain_same {chains : String → Option Chain} {networkID : String} {chain : Chain}
    (h : networkID ≠ "__proto__") : assignChain chains networkID chain networkID = some chain := by
  rw [assignChain, if_neg h, Function.update_self]

/-- The credentials after storing one. -/
theorem mem_stored {credentials : List String} {credential other : String} :
    other ∈ (if credential ∈ credentials then credentials else credentials ++ [credential]) ↔
      other ∈ credentials ∨ other = credential := by
  by_cases hmem : credential ∈ credentials
  · rw [if_pos hmem]
    constructor
    · exact Or.inl
    · intro h
      rcases h with hold | hnew
      · exact hold
      · rw [hnew]
        exact hmem
  · rw [if_neg hmem, List.mem_append, List.mem_singleton]

/-- A change leaves the entries that it does not target. -/
theorem Change.apply_other {change : Change Origin} {e : Entry Origin} (h : ¬ change.Targets e)
    (state : MinaSnapState Origin) : e.Agree (change.apply state) state := by
  cases change with
  | connect origin =>
    cases e with
    | connection target => exact Function.update_of_ne (fun hsame => h hsame.symm) _ _
    | network => exact rfl
    | endpoint networkID => exact rfl
    | held publicKey credential => exact Iff.rfl
  | disconnect origin =>
    cases e with
    | connection target => exact Function.update_of_ne (fun hsame => h hsame.symm) _ _
    | network => exact rfl
    | endpoint networkID => exact rfl
    | held publicKey credential => exact Iff.rfl
  | select networkID =>
    cases e with
    | connection target => exact rfl
    | network => exact absurd trivial h
    | endpoint networkID => exact rfl
    | held publicKey credential => exact Iff.rfl
  | add networkID chain =>
    cases e with
    | connection target => exact rfl
    | network => exact absurd trivial h
    | endpoint target => exact assignChain_other h
    | held publicKey credential => exact Iff.rfl
  | store publicKey credential =>
    cases e with
    | connection target => exact rfl
    | network => exact rfl
    | endpoint target => exact rfl
    | held targetKey target =>
      dsimp only [Entry.Agree, Change.apply]
      by_cases hkey : targetKey = publicKey
      · have hother : target ≠ credential := fun hsame => h ⟨hkey.symm, hsame.symm⟩
        rw [hkey, Function.update_self, Option.getD_some, mem_stored]
        exact or_iff_left hother
      · rw [Function.update_of_ne hkey]

/-- What a change makes of its target does not depend on the document. -/
theorem Change.apply_target {change : Change Origin} {e : Entry Origin} (h : change.Targets e)
    (first second : MinaSnapState Origin) : e.Agree (change.apply first) (change.apply second) := by
  cases change with
  | connect origin =>
    cases e with
    | connection target =>
      have hsame : origin = target := h
      dsimp only [Entry.Agree, Change.apply]
      rw [hsame, Function.update_self, Function.update_self]
    | network => exact h.elim
    | endpoint networkID => exact h.elim
    | held publicKey credential => exact h.elim
  | disconnect origin =>
    cases e with
    | connection target =>
      have hsame : origin = target := h
      dsimp only [Entry.Agree, Change.apply]
      rw [hsame, Function.update_self, Function.update_self]
    | network => exact h.elim
    | endpoint networkID => exact h.elim
    | held publicKey credential => exact h.elim
  | select networkID =>
    cases e with
    | connection target => exact h.elim
    | network => exact rfl
    | endpoint networkID => exact h.elim
    | held publicKey credential => exact h.elim
  | add networkID chain =>
    cases e with
    | connection target => exact h.elim
    | network => exact rfl
    | endpoint target =>
      have hname : networkID = target ∧ networkID ≠ "__proto__" := h
      dsimp only [Entry.Agree, Change.apply]
      rw [← hname.1, assignChain_same hname.2, assignChain_same hname.2]
    | held publicKey credential => exact h.elim
  | store publicKey credential =>
    cases e with
    | connection target => exact h.elim
    | network => exact h.elim
    | endpoint target => exact h.elim
    | held targetKey target =>
      have hname : publicKey = targetKey ∧ credential = target := h
      dsimp only [Entry.Agree, Change.apply]
      rw [hname.1, Function.update_self, Function.update_self, Option.getD_some, Option.getD_some,
        mem_stored, mem_stored, hname.2]
      exact iff_of_true (Or.inr rfl) (Or.inr rfl)

/-- One successful step. -/
inductive WalletMove (walletKey : String) (wallet : Wallet Origin) :
    WalletAction Origin → Wallet Origin → Prop
  | received (id : ℕ) (request : WalletRequest Origin) (hfree : wallet.running id = none) :
      WalletMove walletKey wallet (.receive id request) (wallet.advance id request (some .reading))
  | read (id : ℕ) {request : WalletRequest Origin}
      (hrunning : wallet.running id = some (request, .reading)) :
      WalletMove walletKey wallet (.read id)
        (wallet.advance id request
          (afterRead (getState wallet.stored) (wallet.revocations request.origin) request))
  | answered (id : ℕ) (approved : Bool) {request : WalletRequest Origin}
      {copy : MinaSnapState Origin} (hrunning : wallet.running id = some (request, .asking copy)) :
      WalletMove walletKey wallet (.answer id approved) (wallet.advance id request
        (if approved then afterApproval walletKey copy (wallet.revocations request.origin) request
        else none))
  | confirmed (id : ℕ) (approved : Bool) {request : WalletRequest Origin}
      {copy : MinaSnapState Origin} {networkID : String} {chain : Chain}
      (hrunning : wallet.running id = some (request, .confirming copy networkID chain)) :
      WalletMove walletKey wallet (.answer id approved) (wallet.advance id request
        (if approved then
          some (.writing copy (wallet.revocations request.origin) (.add networkID chain))
        else none))
  | reported (id : ℕ) (networkID : Option String) {request : WalletRequest Origin}
      {copy : MinaSnapState Origin} {chain : Chain}
      (hrunning : wallet.running id = some (request, .fetching copy chain)) :
      WalletMove walletKey wallet (.report id networkID)
        (wallet.advance id request (afterReport copy chain networkID))
  | updated (id : ℕ) {request : WalletRequest Origin} {copy : MinaSnapState Origin} {seen : ℕ}
      {change : Change Origin} (hrunning : wallet.running id = some (request, .writing copy seen change)) :
      WalletMove walletKey wallet (.update id)
        { wallet.advance id request none with
          stored := setState (change.apply copy)
          revocations := countRevocation wallet.revocations change }
  | terminated (id : ℕ) :
      WalletMove walletKey wallet (.terminate id)
        { wallet with running := Function.update wallet.running id none }

variable {walletKey : String} {wallet next : Wallet Origin}

/-- A successful step is one of the moves. -/
theorem step_move {action : WalletAction Origin} (h : step walletKey wallet action = .ok next) :
    WalletMove walletKey wallet action next := by
  cases action with
  | receive id request =>
    dsimp only [step] at h
    split at h
    · rename_i hfree
      rw [pure_eq_ok] at h
      exact h ▸ WalletMove.received id request hfree
    · exact (throw_eq_ok.mp h).elim
  | read id =>
    dsimp only [step] at h
    split at h
    · rename_i hrunning
      rw [pure_eq_ok] at h
      exact h ▸ WalletMove.read id hrunning
    · exact (throw_eq_ok.mp h).elim
  | answer id approved =>
    dsimp only [step] at h
    split at h
    · rename_i hrunning
      rw [pure_eq_ok] at h
      exact h ▸ WalletMove.answered id approved hrunning
    · rename_i hrunning
      rw [pure_eq_ok] at h
      exact h ▸ WalletMove.confirmed id approved hrunning
    · exact (throw_eq_ok.mp h).elim
  | report id networkID =>
    dsimp only [step] at h
    split at h
    · rename_i hrunning
      rw [pure_eq_ok] at h
      exact h ▸ WalletMove.reported id networkID hrunning
    · exact (throw_eq_ok.mp h).elim
  | update id =>
    dsimp only [step] at h
    split at h
    · rename_i hrunning
      rw [pure_eq_ok] at h
      exact h ▸ WalletMove.updated id hrunning
    · exact (throw_eq_ok.mp h).elim
  | terminate id =>
    dsimp only [step] at h
    rw [pure_eq_ok] at h
    exact h ▸ WalletMove.terminated id

/-- The change that a request makes. -/
def WalletRequest.Makes (walletKey : String) : WalletRequest Origin → Change Origin → Prop
  | .requestAccounts origin, .connect target => origin = target
  | .revokePermissions origin, .disconnect target => origin = target
  | .switchChain _ networkID, .select target => networkID = target
  | .addChain _ requested, .add _ chain => requested = some chain
  | .storePrivateCredential _ requested, .store publicKey credential =>
    publicKey = walletKey ∧ requested = some credential
  | _, _ => False

/-- A phase is one that the request gets to. -/
def Phase.Fits (walletKey : String) (revocations : Origin → ℕ) (request : WalletRequest Origin) :
    Phase Origin → Prop
  | .reading => True
  | .asking _ => True
  | .fetching _ chain => ∃ origin, request = .addChain origin (some chain)
  | .confirming _ _ chain => ∃ origin, request = .addChain origin (some chain)
  | .writing _ seen change => request.Makes walletKey change ∧ seen ≤ revocations request.origin

/-- A property of requests and phases holds of all requests that run. -/
def AllRunning (running : ℕ → Option (WalletRequest Origin × Phase Origin))
    (p : WalletRequest Origin → Phase Origin → Prop) : Prop :=
  ∀ id request phase, running id = some (request, phase) → p request phase

omit [DecidableEq Origin] in
/-- What holds of all requests is kept when one of them is replaced by another such request or by
none. -/
theorem AllRunning.replace {running : ℕ → Option (WalletRequest Origin × Phase Origin)}
    {p : WalletRequest Origin → Phase Origin → Prop} (hall : AllRunning running p) (id : ℕ)
    {entry : Option (WalletRequest Origin × Phase Origin)}
    (hentry : ∀ request phase, entry = some (request, phase) → p request phase) :
    AllRunning (Function.update running id entry) p := by
  intro other request phase hrunning
  by_cases hid : other = id
  · rw [hid, Function.update_self] at hrunning
    exact hentry request phase hrunning
  · rw [Function.update_of_ne hid] at hrunning
    exact hall other request phase hrunning

omit [DecidableEq Origin] in
/-- What holds of all requests is kept when one of them moves on to such a phase or ends. -/
theorem AllRunning.advance {p : WalletRequest Origin → Phase Origin → Prop}
    (hall : AllRunning wallet.running p) (id : ℕ) {request : WalletRequest Origin}
    {phase : Option (Phase Origin)} (hphase : ∀ reached, phase = some reached → p request reached) :
    AllRunning (wallet.advance id request phase).running p := by
  apply hall.replace id
  intro requested reached hentry
  have hpair := Option.map_eq_some_iff.mp hentry
  rcases hpair with ⟨found, hfound, hsame⟩
  rw [Prod.mk.injEq] at hsame
  rw [← hsame.1, ← hsame.2]
  exact hphase found hfound

omit [DecidableEq Origin] in
/-- The phase after the read fits. -/
theorem afterRead_fits {copy : MinaSnapState Origin} {revocations : Origin → ℕ}
    {request : WalletRequest Origin} {reached : Phase Origin}
    (h : afterRead copy (revocations request.origin) request = some reached) :
    reached.Fits walletKey revocations request := by
  cases request with
  | revokePermissions origin =>
    have hsame := Option.some.inj h
    rw [← hsame]
    exact ⟨rfl, Nat.le_refl _⟩
  | requestAccounts origin =>
    dsimp only [afterRead] at h
    split at h
    · exact absurd h (by simp)
    · rw [← Option.some.inj h]
      trivial
  | switchChain origin networkID =>
    dsimp only [afterRead] at h
    split at h
    · rw [← Option.some.inj h]
      trivial
    · exact absurd h (by simp)
  | addChain origin chain =>
    dsimp only [afterRead] at h
    split at h
    · rw [← Option.some.inj h]
      trivial
    · exact absurd h (by simp)
  | storePrivateCredential origin credential =>
    dsimp only [afterRead] at h
    split at h
    · rw [← Option.some.inj h]
      trivial
    · exact absurd h (by simp)

omit [DecidableEq Origin] in
/-- The phase after the first dialog fits. -/
theorem afterApproval_fits {copy : MinaSnapState Origin} {revocations : Origin → ℕ}
    {request : WalletRequest Origin} {reached : Phase Origin}
    (h : afterApproval walletKey copy (revocations request.origin) request = some reached) :
    reached.Fits walletKey revocations request := by
  cases request with
  | revokePermissions origin => exact absurd h (by simp [afterApproval])
  | requestAccounts origin =>
    rw [← Option.some.inj h]
    exact ⟨rfl, Nat.le_refl _⟩
  | switchChain origin networkID =>
    rw [← Option.some.inj h]
    exact ⟨rfl, Nat.le_refl _⟩
  | addChain origin chain =>
    have hchain := Option.map_eq_some_iff.mp h
    rcases hchain with ⟨requested, hrequested, hsame⟩
    rw [← hsame]
    exact ⟨origin, by rw [hrequested]⟩
  | storePrivateCredential origin credential =>
    have hcredential := Option.map_eq_some_iff.mp h
    rcases hcredential with ⟨requested, hrequested, hsame⟩
    rw [← hsame]
    exact ⟨⟨rfl, hrequested⟩, Nat.le_refl _⟩

omit [DecidableEq Origin] in
/-- The endpoint does not change what the request adds. -/
theorem afterReport_fits {copy : MinaSnapState Origin} {revocations : Origin → ℕ} {chain : Chain}
    {networkID : Option String} {request : WalletRequest Origin} {reached : Phase Origin}
    (hfits : (Phase.fetching copy chain).Fits walletKey revocations request)
    (h : afterReport copy chain networkID = some reached) :
    reached.Fits walletKey revocations request := by
  have hnamed := Option.bind_eq_some_iff.mp h
  rcases hnamed with ⟨name, -, hname⟩
  split at hname
  · rw [← Option.some.inj hname]
    exact hfits
  · exact absurd hname (by simp)

/-- No count of revocations falls. -/
theorem le_countRevocation (revocations : Origin → ℕ) (change : Change Origin) (origin : Origin) :
    revocations origin ≤ countRevocation revocations change origin := by
  cases change with
  | disconnect target =>
    by_cases hsame : origin = target
    · subst hsame
      have hcount : countRevocation revocations (.disconnect origin) origin =
          revocations origin + 1 := Function.update_self ..
      omega
    · have hcount : countRevocation revocations (.disconnect target) origin =
          revocations origin := Function.update_of_ne hsame ..
      omega
  | connect target => exact Nat.le_refl _
  | select networkID => exact Nat.le_refl _
  | add networkID chain => exact Nat.le_refl _
  | store publicKey credential => exact Nat.le_refl _

omit [DecidableEq Origin] in
/-- A phase still fits after more revocations. -/
theorem Phase.Fits.mono {revocations later : Origin → ℕ} {request : WalletRequest Origin}
    {phase : Phase Origin} (h : phase.Fits walletKey revocations request)
    (hle : revocations request.origin ≤ later request.origin) : phase.Fits walletKey later request := by
  cases phase with
  | reading => trivial
  | asking copy => trivial
  | fetching copy chain => exact h
  | confirming copy networkID chain => exact h
  | writing copy seen change => exact ⟨h.1, Nat.le_trans h.2 hle⟩

/-- Every request that runs is in a phase it gets to. -/
def InPhase (walletKey : String) (wallet : Wallet Origin) : Prop :=
  AllRunning wallet.running fun request phase => phase.Fits walletKey wallet.revocations request

/-- A step keeps every request in a phase it gets to. -/
theorem WalletMove.inPhase {action : WalletAction Origin} (hmove : WalletMove walletKey wallet action next)
    (h : InPhase walletKey wallet) : InPhase walletKey next := by
  cases hmove with
  | received id request hfree =>
    exact h.advance id fun reached hreached => by
      rw [← Option.some.inj hreached]
      trivial
  | read id hrunning => exact h.advance id fun reached hreached => afterRead_fits hreached
  | answered id approved hrunning =>
    apply h.advance id
    intro reached hreached
    cases approved with
    | false => exact absurd hreached (by simp)
    | true => exact afterApproval_fits hreached
  | @confirmed id approved request copy networkID chain hrunning =>
    apply h.advance id
    intro reached hreached
    cases approved with
    | false => exact absurd hreached (by simp)
    | true =>
      have hadds := h id _ _ hrunning
      rcases hadds with ⟨origin, hadds⟩
      rw [← Option.some.inj hreached, hadds]
      exact ⟨rfl, Nat.le_refl _⟩
  | reported id networkID hrunning =>
    exact h.advance id fun reached hreached => afterReport_fits (h id _ _ hrunning) hreached
  | @updated id request copy seen change hrunning =>
    have hkept : AllRunning (wallet.advance id request none).running fun request phase =>
        phase.Fits walletKey wallet.revocations request :=
      h.advance id fun reached hreached => absurd hreached (by simp)
    intro other requested phase hother
    exact (hkept other requested phase hother).mono (le_countRevocation _ _ _)
  | terminated id => exact h.replace id fun request phase hentry => absurd hentry (by simp)

/-- Every request that runs in a reachable wallet is in a phase it gets to. -/
theorem run_inPhase (stored : Option (StoredState Origin)) (actions : List (WalletAction Origin)) :
    InPhase walletKey (run (step walletKey) (start stored) actions) := by
  apply run_invariant
  · intro before action after h hstep
    exact (step_move hstep).inPhase h
  · intro id request phase hrunning
    exact absurd hrunning (by simp [start])

/-- If the step writes, the copy still agrees with the document in every entry that the
change is not made to, and a grant was approved after every revocation by its site. -/
def KeepsOthers : Wallet Origin × WalletAction Origin → Prop
  | (wallet, .update id) => ∀ request copy seen change,
      wallet.running id = some (request, .writing copy seen change) →
      (∀ e, ¬ change.Targets e → e.Agree copy (getState wallet.stored)) ∧
        ∀ origin, change = .connect origin → seen = wallet.revocations origin
  | _ => True

/-- The step writes a change to the entry. -/
def WritesTo (e : Entry Origin) : Wallet Origin × WalletAction Origin → Prop
  | (wallet, .update id) => ∃ request copy seen change,
      wallet.running id = some (request, .writing copy seen change) ∧ change.Targets e
  | _ => False

/-- The step is the user's approval of an account request from the site. -/
def ApprovesAccounts (origin : Origin) : Wallet Origin × WalletAction Origin → Prop
  | (wallet, .answer id true) => ∃ copy,
      wallet.running id = some (.requestAccounts origin, .asking copy)
  | _ => False

/-- A step that does not write to an entry keeps it. -/
theorem WalletMove.agree {action : WalletAction Origin} {e : Entry Origin} {state : MinaSnapState Origin}
    (hmove : WalletMove walletKey wallet action next) (hkeeps : KeepsOthers (wallet, action))
    (hother : ¬ WritesTo e (wallet, action)) (h : e.Agree state (getState wallet.stored)) :
    e.Agree state (getState next.stored) := by
  cases hmove with
  | received id request hfree => exact h
  | read id hrunning => exact h
  | answered id approved hrunning => exact h
  | confirmed id approved hrunning => exact h
  | reported id networkID hrunning => exact h
  | terminated id => exact h
  | @updated id request copy seen change hrunning =>
    have htarget : ¬ change.Targets e := fun htarget => hother ⟨request, copy, seen, change, hrunning, htarget⟩
    have hcopy := (hkeeps request copy seen change hrunning).1 e htarget
    have hwritten := change.apply_other htarget copy
    exact (h.trans hcopy.symm).trans hwritten.symm

/-- The site is not connected, and it was revoked again since the approval of every grant
that is still to be written. -/
structure Revoked (origin : Origin) (revoked : ℕ) (wallet : Wallet Origin) : Prop where
  /-- The site has no access. -/
  unconnected : (getState wallet.stored).origins origin = none
  /-- It was revoked at least so often. -/
  counted : revoked ≤ wallet.revocations origin
  /-- Every grant that is still to be written was approved before. -/
  stale : AllRunning wallet.running fun request phase =>
    request = .requestAccounts origin →
      ∀ copy seen change, phase = .writing copy seen change → seen < revoked

/-- Without an approval the site stays unconnected. -/
theorem WalletMove.revoked {action : WalletAction Origin} {origin : Origin} {revoked : ℕ}
    (hmove : WalletMove walletKey wallet action next) (hphase : InPhase walletKey wallet)
    (hkeeps : KeepsOthers (wallet, action)) (hother : ¬ ApprovesAccounts origin (wallet, action))
    (h : Revoked origin revoked wallet) : Revoked origin revoked next := by
  cases hmove with
  | received id request hfree =>
    refine ⟨h.unconnected, h.counted, h.stale.advance id ?_⟩
    intro reached hreached hrequest copy seen change hwriting
    rw [← Option.some.inj hreached] at hwriting
    exact absurd hwriting (by simp)
  | @read id request hrunning =>
    refine ⟨h.unconnected, h.counted, h.stale.advance id ?_⟩
    intro reached hreached hrequest copy seen change hwriting
    rw [hrequest, hwriting, afterRead] at hreached
    split at hreached
    · exact absurd hreached (by simp)
    · exact absurd hreached (by simp)
  | @answered id approved request copy hrunning =>
    refine ⟨h.unconnected, h.counted, h.stale.advance id ?_⟩
    intro reached hreached hrequest copied seen change hwriting
    cases approved with
    | false => exact absurd hreached (by simp)
    | true =>
      rw [hrequest] at hrunning
      exact absurd ⟨copy, hrunning⟩ hother
  | @confirmed id approved request copy networkID chain hrunning =>
    refine ⟨h.unconnected, h.counted, h.stale.advance id ?_⟩
    intro reached hreached hrequest copied seen change hwriting
    have hadds := hphase id _ _ hrunning
    rcases hadds with ⟨site, hadds⟩
    rw [hrequest] at hadds
    exact absurd hadds (by simp)
  | reported id networkID hrunning =>
    refine ⟨h.unconnected, h.counted, h.stale.advance id ?_⟩
    intro reached hreached hrequest copy seen change hwriting
    have hnamed := Option.bind_eq_some_iff.mp hreached
    rcases hnamed with ⟨name, -, hname⟩
    rw [hwriting] at hname
    split at hname
    · exact absurd hname (by simp)
    · exact absurd hname (by simp)
  | @updated id request copy seen change hrunning =>
    have hfits := hphase id _ _ hrunning
    have hfresh := hkeeps request copy seen change hrunning
    refine ⟨?_, Nat.le_trans h.counted (le_countRevocation _ _ _),
      h.stale.advance id fun reached hreached => absurd hreached (by simp)⟩
    by_cases htarget : change.Targets (.connection origin)
    · cases change with
      | connect target =>
        have hsame : target = origin := htarget
        cases request with
        | requestAccounts site =>
          have hsite : site = target := hfits.1
          have hstale := h.stale id _ _ hrunning (by rw [hsite, hsame]) copy seen _ rfl
          have hseen := hfresh.2 target rfl
          have hcounted := h.counted
          rw [hseen, hsame] at hstale
          omega
        | revokePermissions site => exact hfits.1.elim
        | switchChain site networkID => exact hfits.1.elim
        | addChain site chain => exact hfits.1.elim
        | storePrivateCredential site credential => exact hfits.1.elim
      | disconnect target =>
        have hsame : target = origin := htarget
        rw [hsame]
        exact Function.update_self _ _ _
      | select networkID => exact htarget.elim
      | add networkID chain => exact htarget.elim
      | store publicKey credential => exact htarget.elim
    · have hwritten : (change.apply copy).origins origin = copy.origins origin :=
        change.apply_other htarget copy
      have hcopy : copy.origins origin = (getState wallet.stored).origins origin :=
        hfresh.1 _ htarget
      calc (change.apply copy).origins origin = copy.origins origin := hwritten
        _ = (getState wallet.stored).origins origin := hcopy
        _ = none := h.unconnected
  | terminated id =>
    exact ⟨h.unconnected, h.counted,
      h.stale.replace id fun request phase hentry => absurd hentry (by simp)⟩

/-- A site is unconnected when its revocation completes. -/
theorem revoked_completed {id : ℕ} {request : WalletRequest Origin} {copy : MinaSnapState Origin}
    {seen : ℕ} {change : Change Origin} {origin : Origin} (hphase : InPhase walletKey wallet)
    (hrunning : wallet.running id = some (request, .writing copy seen change))
    (hrequest : request = .revokePermissions origin) :
    Revoked origin (wallet.revocations origin + 1)
      { wallet.advance id request none with
        stored := setState (change.apply copy)
        revocations := countRevocation wallet.revocations change } := by
  have hfits := hphase id _ _ hrunning
  have hchange : change = .disconnect origin := by
    cases change with
    | disconnect target =>
      rw [hrequest] at hfits
      have hsame : origin = target := hfits.1
      rw [hsame]
    | connect target =>
      rw [hrequest] at hfits
      exact hfits.1.elim
    | select networkID =>
      rw [hrequest] at hfits
      exact hfits.1.elim
    | add networkID chain =>
      rw [hrequest] at hfits
      exact hfits.1.elim
    | store publicKey credential =>
      rw [hrequest] at hfits
      exact hfits.1.elim
  refine ⟨?_, ?_, ?_⟩
  · rw [hchange]
    exact Function.update_self _ _ _
  · have hcount : countRevocation wallet.revocations (.disconnect origin) origin =
        wallet.revocations origin + 1 := Function.update_self _ _ _
    rw [hchange]
    exact Nat.le_of_eq hcount.symm
  · have hkept : AllRunning (wallet.advance id request none).running fun request phase =>
        phase.Fits walletKey wallet.revocations request :=
      hphase.advance id fun reached hreached => absurd hreached (by simp)
    intro other requested phase hother hsite copied earlier made hwriting
    have hearlier := hkept other requested phase hother
    rw [hsite, hwriting] at hearlier
    have hseen : earlier ≤ wallet.revocations origin := hearlier.2
    omega

/-- An entry is kept by a run that does not write to it. -/
theorem run_agree {e : Entry Origin} {state : MinaSnapState Origin} {actions : List (WalletAction Origin)}
    (h : e.Agree state (getState wallet.stored))
    (hkeeps : ∀ entry ∈ accepted (step walletKey) wallet actions, KeepsOthers entry)
    (hother : ∀ entry ∈ accepted (step walletKey) wallet actions, ¬ WritesTo e entry) :
    e.Agree state (getState (run (step walletKey) wallet actions).stored) :=
  run_invariant_of (I := fun reached => e.Agree state (getState reached.stored))
    (Q := fun entry => KeepsOthers entry ∧ ¬ WritesTo e entry)
    (fun _ _ _ h hentry hstep => (step_move hstep).agree hentry.1 hentry.2 h) h
    fun entry hentry => ⟨hkeeps entry hentry, hother entry hentry⟩

/-- A revoked site stays so in a run without an approval. -/
theorem run_revoked {origin : Origin} {revoked : ℕ} {actions : List (WalletAction Origin)}
    (hphase : InPhase walletKey wallet) (h : Revoked origin revoked wallet)
    (hkeeps : ∀ entry ∈ accepted (step walletKey) wallet actions, KeepsOthers entry)
    (hother : ∀ entry ∈ accepted (step walletKey) wallet actions, ¬ ApprovesAccounts origin entry) :
    Revoked origin revoked (run (step walletKey) wallet actions) := by
  have hboth := run_invariant_of (I := fun reached => InPhase walletKey reached ∧ Revoked origin revoked reached)
    (Q := fun entry => KeepsOthers entry ∧ ¬ ApprovesAccounts origin entry)
    (fun _ _ _ h hentry hstep => ⟨(step_move hstep).inPhase h.1,
      (step_move hstep).revoked h.1 hentry.1 hentry.2 h.2⟩)
    ⟨hphase, h⟩ fun entry hentry => ⟨hkeeps entry hentry, hother entry hentry⟩
  exact hboth.2

/-- In a run in which every write keeps the entries of others, a completed change stays until
another write to its entry, and a revoked site stays unconnected until an approval. -/
theorem completed_kept (stored : Option (StoredState Origin)) {before after : List (WalletAction Origin)}
    {id : ℕ} {request : WalletRequest Origin} {copy : MinaSnapState Origin} {seen : ℕ}
    {change : Change Origin}
    (hrunning : (run (step walletKey) (start stored) before).running id =
      some (request, .writing copy seen change))
    (hkeeps : ∀ entry ∈ accepted (step walletKey) (start stored) (before ++ [.update id] ++ after),
      KeepsOthers entry) :
    let completed := run (step walletKey) (start stored) (before ++ [.update id])
    let final := run (step walletKey) completed after
    (∀ e, change.Targets e →
      (∀ entry ∈ accepted (step walletKey) completed after, ¬ WritesTo e entry) →
      e.Agree (change.apply initialState) (getState final.stored)) ∧
    ∀ origin, request = .revokePermissions origin →
      (∀ entry ∈ accepted (step walletKey) completed after, ¬ ApprovesAccounts origin entry) →
      (getState final.stored).origins origin = none := by
  intro completed final
  have hphase : InPhase walletKey (run (step walletKey) (start stored) before) := run_inPhase stored before
  have hcompleted : completed =
      { (run (step walletKey) (start stored) before).advance id request none with
        stored := setState (change.apply copy)
        revocations := countRevocation (run (step walletKey) (start stored) before).revocations
          change } := by
    dsimp only [completed]
    rw [run_append, run_cons]
    apply exec_of_ok
    rw [step, hrunning]
    rfl
  rw [accepted_append] at hkeeps
  have hlater : ∀ entry ∈ accepted (step walletKey) completed after, KeepsOthers entry :=
    fun entry hentry => hkeeps entry (List.mem_append_right _ hentry)
  constructor
  · intro e htarget hother
    have hwritten : e.Agree (change.apply initialState) (getState completed.stored) := by
      rw [hcompleted]
      exact change.apply_target htarget _ _
    exact run_agree hwritten hlater hother
  · intro origin hrequest hother
    have hrevoked : Revoked origin
        ((run (step walletKey) (start stored) before).revocations origin + 1) completed := by
      rw [hcompleted]
      exact revoked_completed hphase hrunning hrequest
    exact (run_revoked (run_inPhase stored _) hrevoked hlater hother).unconnected

omit [DecidableEq Origin] in
/-- A request that writes a copy of the current document keeps the entries of others. -/
theorem keepsOthers_current {id : ℕ} {request : WalletRequest Origin} {seen : ℕ} {change : Change Origin}
    (hrunning : wallet.running id = some (request, .writing (getState wallet.stored) seen change))
    (hseen : ∀ origin, change = .connect origin → seen = wallet.revocations origin) :
    KeepsOthers (wallet, .update id) := by
  intro other copy earlier made h
  rw [hrunning, Option.some.injEq, Prod.mk.injEq, Phase.writing.injEq] at h
  rw [← h.2.1, ← h.2.2.1, ← h.2.2.2]
  exact ⟨fun e _ => Entry.Agree.refl e _, hseen⟩

/-- A site revokes its permissions while another one connects. -/
theorem completed_kept_revoked :
    let before : List (WalletAction String) :=
      [.receive 0 (.requestAccounts "b"), .read 0, .answer 0 true, .update 0,
        .receive 1 (.revokePermissions "b"), .receive 2 (.requestAccounts "a"), .read 1]
    let after : List (WalletAction String) := [.read 2, .answer 2 true, .update 2]
    let completed := run (step "B62q") (start none) (before ++ [.update 1])
    let final := run (step "B62q") completed after
    (getState final.stored).origins "b" = none := by
  intro before after completed final
  have hkeeps : ∀ entry ∈ accepted (step "B62q") (start none) (before ++ [.update 1] ++ after),
      KeepsOthers entry := by
    refine forall_accepted_cons rfl trivial ?_
    refine forall_accepted_cons rfl trivial ?_
    refine forall_accepted_cons rfl trivial ?_
    refine forall_accepted_cons rfl (keepsOthers_current rfl fun _ _ => rfl) ?_
    refine forall_accepted_cons rfl trivial ?_
    refine forall_accepted_cons rfl trivial ?_
    refine forall_accepted_cons rfl trivial ?_
    refine forall_accepted_cons rfl (keepsOthers_current rfl nofun) ?_
    refine forall_accepted_cons rfl trivial ?_
    refine forall_accepted_cons rfl trivial ?_
    refine forall_accepted_cons rfl (keepsOthers_current rfl fun origin h => ?_) ?_
    · cases h
      rfl
    · exact List.forall_mem_nil _
  have hquiet : ∀ entry ∈ accepted (step "B62q") completed after, ¬ ApprovesAccounts "b" entry := by
    refine forall_accepted_cons rfl id ?_
    refine forall_accepted_cons rfl (fun h => ?_) ?_
    · rcases h with ⟨copy, h⟩
      have hsite : some "a" = some "b" :=
        congrArg (Option.map fun entry : WalletRequest String × Phase String => entry.1.origin) h
      exact absurd hsite (by decide)
    refine forall_accepted_cons rfl id ?_
    exact List.forall_mem_nil _
  exact (completed_kept none rfl hkeeps).2 "b" rfl hquiet

/-- A request that waits for its dialogs since before a revocation connects the site again. -/
theorem revocation_undone :
    let before : List (WalletAction String) :=
      [.receive 0 (.requestAccounts "b"), .read 0, .answer 0 true, .update 0,
        .receive 1 (.requestAccounts "a"), .read 1, .answer 1 true, .update 1,
        .receive 2 (.addChain "a" (some ⟨"https://node.example/graphql", "node", none⟩)), .read 2,
        .answer 2 true, .report 2 (some "zeko:devnet"), .answer 2 true,
        .receive 3 (.revokePermissions "b"), .read 3]
    let completed := run (step "B62q") (start none) (before ++ [.update 3])
    (∃ copy seen, (run (step "B62q") (start none) before).running 3 =
      some (.revokePermissions "b", .writing copy seen (.disconnect "b"))) ∧
    (∀ entry ∈ accepted (step "B62q") completed [.update 2], ¬ ApprovesAccounts "b" entry) ∧
    (getState completed.stored).origins "b" = none ∧
    (getState (run (step "B62q") completed [.update 2]).stored).origins "b" = some 0 := by
  intro before completed
  refine ⟨⟨_, _, rfl⟩, ?_, ?_⟩
  · exact forall_accepted_cons rfl id (List.forall_mem_nil _)
  · decide

end EthereumSettlement.WalletUpdates
