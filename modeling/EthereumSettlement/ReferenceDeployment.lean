import Mathlib.Algebra.BigOperators.Group.Finset.Basic
import Mathlib.Algebra.Order.BigOperators.Group.Finset
import Mathlib.Data.BitVec
import EthereumSettlement.BridgeSystem
import EthereumSettlement.ReferenceHashes
import EthereumSettlement.SettlementReceipt

/-!
# A concrete deployment

A token ledger with bounded supply, and a deployment with real hash functions
that settles one guest-emitted receipt, activates the asset that the receipt
registers, and takes one deposit of ether and one of tokens. The results about
all runs are evaluated on it. The ledger lemmas hold of every ledger.
-/

namespace EthereumSettlement.ReferenceDeployment

open ByteWords CheckedCalls HashCommitments TransitionRuns PastaPoseidon InnerActionCommitment
open RegistryCheckpoint SettlementCodec SettlementReceipt BridgeCodec BridgeGuest ZekoSettlement
open EthereumZekoBridge ZekoAssetRegistry BridgeSystem ReferenceHashes OpenZeppelin

/-- The balances and allowances of a token whose supply fits a word. -/
structure Ledger where
  /-- Balance of each account. -/
  balances : Address → ℕ
  /-- Allowances, by owner and spender. -/
  allowances : Address → Address → ℕ
  /-- The balances add up to less than a word. -/
  bounded : ∀ accounts : Finset Address, ∑ account ∈ accounts, balances account < 2 ^ 256

/-- The balances after an amount moved. -/
def moveBalance (balances : Address → ℕ) (owner receiver : Address) (amount : ℕ) : Address → ℕ :=
  Function.update (Function.update balances owner (balances owner - amount)) receiver
    (Function.update balances owner (balances owner - amount) receiver + amount)

/-- A covered move changes the sender's and the receiver's balance only. -/
theorem moveBalance_add {balances : Address → ℕ} {owner receiver : Address} {amount : ℕ}
    (h : amount ≤ balances owner) (account : Address) :
    moveBalance balances owner receiver amount account + (if account = owner then amount else 0) =
      balances account + (if account = receiver then amount else 0) := by
  unfold moveBalance
  by_cases hreceiver : account = receiver
  · rw [hreceiver, Function.update_self, if_pos rfl]
    by_cases howner : receiver = owner
    · rw [howner, Function.update_self, if_pos rfl]
      omega
    · rw [Function.update_of_ne howner, if_neg howner]
      omega
  · rw [Function.update_of_ne hreceiver, if_neg hreceiver]
    by_cases howner : account = owner
    · rw [howner, Function.update_self, if_pos rfl]
      omega
    · rw [Function.update_of_ne howner, if_neg howner]

/-- A covered move keeps the supply bounded. -/
theorem moveBalance_bounded {balances : Address → ℕ} {owner receiver : Address} {amount : ℕ}
    (h : amount ≤ balances owner)
    (hbounded : ∀ accounts : Finset Address, ∑ account ∈ accounts, balances account < 2 ^ 256)
    (accounts : Finset Address) :
    ∑ account ∈ accounts, moveBalance balances owner receiver amount account < 2 ^ 256 := by
  let all := insert owner (insert receiver accounts)
  have howner : owner ∈ all := Finset.mem_insert_self _ _
  have hreceiver : receiver ∈ all := Finset.mem_insert_of_mem (Finset.mem_insert_self _ _)
  have hsubset : accounts ⊆ all := fun account haccount =>
    Finset.mem_insert_of_mem (Finset.mem_insert_of_mem haccount)
  have hle : ∑ account ∈ accounts, moveBalance balances owner receiver amount account ≤
      ∑ account ∈ all, moveBalance balances owner receiver amount account :=
    Finset.sum_le_sum_of_subset hsubset
  have hsum : ∑ account ∈ all, (moveBalance balances owner receiver amount account +
        (if account = owner then amount else 0)) =
      ∑ account ∈ all, (balances account + (if account = receiver then amount else 0)) :=
    Finset.sum_congr rfl fun account _ => moveBalance_add h account
  rw [Finset.sum_add_distrib, Finset.sum_add_distrib, Finset.sum_ite_eq', Finset.sum_ite_eq',
    if_pos howner, if_pos hreceiver] at hsum
  have hall := hbounded all
  omega

/-- A transfer of a ledger. -/
def Ledger.transfer (ledger : Ledger) (sender receiver : Address) (amount : BitVec 256) :
    Option Ledger :=
  if h : receiver ≠ 0 ∧ amount.toNat ≤ ledger.balances sender then
    some ⟨moveBalance ledger.balances sender receiver amount.toNat, ledger.allowances,
      moveBalance_bounded h.2 ledger.bounded⟩
  else none

/-- A transfer of a ledger on an allowance. -/
def Ledger.transferFrom (ledger : Ledger) (spender owner receiver : Address)
    (amount : BitVec 256) : Option Ledger :=
  if amount.toNat ≤ ledger.allowances owner spender then
    ({ ledger with
      allowances := Function.update ledger.allowances owner (Function.update
        (ledger.allowances owner) spender (ledger.allowances owner spender - amount.toNat)) }
      ).transfer owner receiver amount
  else none

/-- Every token is a ledger with six decimals. -/
def ledgerWorld : TokenWorld where
  State := Address → Ledger
  balanceOf := fun ledgers token account =>
    some (BitVec.ofNat 256 ((ledgers token).balances account))
  transfer := fun ledgers token sender receiver amount =>
    ((ledgers token).transfer sender receiver amount).map (Function.update ledgers token)
  transferFrom := fun ledgers token spender owner receiver amount =>
    ((ledgers token).transferFrom spender owner receiver amount).map
      (Function.update ledgers token)
  decimals := fun _ _ => some 6

/-- A single balance fits a word. -/
theorem Ledger.balance_lt (ledger : Ledger) (account : Address) :
    ledger.balances account < 2 ^ 256 := by
  have h := ledger.bounded {account}
  rwa [Finset.sum_singleton] at h

/-- A ledger in which one account holds a small supply and has approved every
spender for all of it. -/
def singleHolder (holder : Address) (supply : BitVec 64) : Ledger where
  balances := fun account => if account = holder then supply.toNat else 0
  allowances := fun _ _ => supply.toNat
  bounded := by
    intro accounts
    have hlt := supply.isLt
    rw [Finset.sum_ite_eq']
    split
    · omega
    · omega

/-- The address of the bridge. -/
def bridgeAddress : Address := 0xb41d9e

/-- The address of the settlement contract. -/
def settlementAddress : Address := 0x5e771e

/-- The registered token. -/
def token : Address := 0x70ce4

/-- The recipient of all withdrawals. -/
def recipient : Address := 0x4ec1

/-- The record of the registered token. -/
def assetRecord : CanonicalAssetRecordV1 where
  schemaVersion := 1
  registryIndex := 0
  assetId := 0xdfe2e8ed6649c3f677e496335f5d8d802ffce1e0f81a59d004f192992a215616
  ethereumToken := token
  tokenOwnerL2 := 5
  tokenIdL2 := 6
  decimals := 6
  inventoryCap := 1000
  mftStandardVkId := 7
  vaultPublicKey := 8
  universalBridgeVkId := 9

/-- The registry leaf of the record. -/
def recordCommitment : Bytes32 :=
  0x2c29a59391ad3f9f8e4108cf2c753e503456c27d29e16d2e2f855ead07d1cff4

/-- The registry root with the record at its first place and nothing else. -/
def registryRoot : Bytes32 := 0x1c3a7600d70c15b92871f00f9b5ce26cca7cd057810a4f1248498901939e9914

/-- The registry checkpoint that appends the record. -/
def checkpoint : AssetRegistryCheckpointV3 where
  checkpointVersion := 2
  registryPublicKey := 10
  root := registryRoot
  count := 1
  schemaVersion := 1
  recordHash := 0xcd2059b36740a5aeda90990395a34bf71f0a4653ed500fc28a93b1d47ecdfe2b
  record := assetRecord
  appendPath := List.replicate 8 0
  oldRoot := 0x0b0ae0df8eb94e665aa5a5e5369049e52aeaa03069f5521577d2c64d9f339995
  oldCount := 0

/-- The child call that authenticates the checkpoint. -/
def checkpointCall : CallForestNodeV3 :=
  .node ⟨List.replicate 16 0 ++
    [0x292d9899b7c51ddd2bc9cafdb6baf11ae8630c224615db87bed9bb7e9cea115a], []⟩ []

/-- A native withdrawal of one gwei, one of two, and a token withdrawal of three
units, all to the same recipient. -/
def innerActions : List InnerActionWitnessV2 :=
  [⟨[0, 0x0495b8472a68859b8573ab8c6568383959739270d59e5e3cba3318e10555452d, 0], some ⟨recipient, 1⟩,
    none⟩,
   ⟨[0, 0x29c2491bdd00e1e9d19f60640447086dd171c99959295f4748fd39d08f720082, 0], some ⟨recipient, 2⟩,
    none⟩,
   ⟨[0, 0x27d313b8db8617e69e9c71037a387bceebb337b931d255f5992c76632f4ac08d, 0], none,
    some ⟨2, 0, recordCommitment, token, assetRecord.assetId, recipient, 3,
      [2, 0, recordCommitment, highLimb assetRecord.assetId, lowLimb assetRecord.assetId, 0, 3,
        toWord recipient, 0]⟩⟩]

/-- The inner action state that the batch reaches. -/
def innerActionState : Bytes32 := 0x0771114d827d79e909bba9d0485dba737df5ebd9019dfc84367cfbfa9b55c03f

/-- The account update of the commit: the hash of its one action, the reached
inner state and length, and the outer action state before it. -/
def accountUpdateBody : List Bytes32 :=
  List.replicate 5 0 ++ [innerActionState, 3] ++ List.replicate 8 0 ++
    [0x0d311a432bf9a3460db9fded28e064f0b384e2bbb4c736c8f9f70ae9a538a0c3] ++ List.replicate 20 0 ++ [1]

/-- The witness of the settlement guest. -/
def settlementWitness : SettlementWitnessV1 where
  binding := {
    minaSignatureKind := .testnet
    accountUpdateBody := ⟨accountUpdateBody, []⟩
    actions := [[0, 0, innerActionState, 3, 1, 0, 0, 0]]
    stateBefore := ⟨fun _ => 0⟩
    callForest := [checkpointCall] }
  context := ⟨1, settlementAddress, 1, 0, 0⟩
  innerActionBatch := some ⟨bridgeAddress, innerActions⟩
  assetRegistryCheckpoint := some checkpoint
  assetRegistryBatch := none

/-- The body and calls digests of the proof's statement. -/
def appState : List StepField :=
  [0x3963ab208cdda3f3d2c215f8bcaf9c0591a6cfcba655cb09129580629edf539d,
   0x2c12e9060231cc42b37bab34edef9b088daedd096cfbc2f4d079e3169eb91dca]

/-- A verdict on one proof, which carries the statement. -/
def picklesVerdict : PicklesVerdict := ⟨Unit, fun _ => appState, fun _ => true⟩

/-- The input of the settlement guest. -/
def settlementInput : SettlementGuestInput picklesVerdict := ⟨(), some settlementWitness⟩

/-- The verification-key hash that the guest reports. -/
def vkHash : Bytes32 := 77

/-- The root of the claim tree of the batch. -/
def claimRoot : Bytes32 := 0xfc85fd609180accea9c3c2b074ceb251c1f3afb3a5c8d790a120c95744d4d1f8

/-- The outer action state behind the receipt. -/
def settledActionState : Bytes32 := 0x385f5c938a0570025dd616341b3c4487715cc72a0423204cd18df2cadef7e646

/-- The receipt that the guest emits. -/
def settlementReceipt : Bytes :=
  SettlementPublicValues.encode (.v3 {
    settlement := {
      settlement := {
        daMode := .multisig
        chainId := 1
        settlementContract := settlementAddress
        batchSequence := 1
        vkHash := vkHash
        appStatement := 0x3963ab208cdda3f3d2c215f8bcaf9c0591a6cfcba655cb09129580629edf539d
        minaTransactionHash := 0
        stateBefore := ⟨fun _ => 0⟩
        stateAfter := ⟨fun index => [0, 0, 0, innerActionState, 3, 0, 0, 0].getD index 0⟩
        outerActionStateBefore := 1
        outerActionStateAfter := settledActionState
        outerActionStateLengthBefore := 0
        outerActionStateLengthAfter := 1
        synchronizedOuterActionState := 1
        synchronizedOuterActionStateLength := 0
        slotLower := 0
        slotUpper := 0 }
      bridgeAddress := bridgeAddress
      innerActionRoot := claimRoot
      innerActionStartIndex := 0
      innerActionCount := 3 }
    assetRegistryRoot := registryRoot
    assetRegistryCount := 1
    assetRegistrySchemaVersion := 1
    assetRecordHash := checkpoint.recordHash
    assetRecordCommitment := recordCommitment })

/-- The guest emits the receipt. -/
theorem settlementGuest_emits :
    settlementGuest referenceHashes picklesVerdict vkHash settlementInput = .ok settlementReceipt := by
  decide +kernel

/-- The deposits behind the receipt: five gwei, and four units of the token. -/
def bridgeInput : BridgeTransitionInput where
  ethereum := ⟨1, bridgeAddress, 0,
    0x0e853655d32789e76a8a1c986d5d43f01574175788f742cfd067c4bd68ca0bf9⟩
  zeko := ⟨settledActionState, 1⟩
  deposits := [⟨0, 0, 0, 0, 0, 5000000000, none, 3, 4294967295⟩,
    ⟨token, assetRecord.assetId, 2, 0, recordCommitment, 4, some 4, 2 ^ 255 + 3, 4294967295⟩]

/-- The receipt that the bridge guest emits for them. -/
def bridgeValues : BridgeTransitionPublicValuesV2 where
  ethereumStateBefore := 0x0e853655d32789e76a8a1c986d5d43f01574175788f742cfd067c4bd68ca0bf9
  ethereumStateAfter := 0x61b331a5bf2be277af7a8f9a5d3fc1d61682dcab4ad40bf31a1514dd611615e6
  ethereumNonceBefore := 0
  ethereumNonceAfter := 2
  zekoActionStateBefore := settledActionState
  zekoActionStateAfter := 0x2954bed5a9f92e27dbaa8738008cf17a704966bc7970386b0f69bae44cab50c5
  zekoActionStateLengthBefore := 1
  zekoActionStateLengthAfter := 3
  actions := [
    ⟨fun index => [1, 0x02a4d5e22da59f502e8bc64dd581c7a414e4b4a8cc3f5ffa0cb08acee6bfa990, 0, 0,
        4294967295].getD index 0,
      0x3395db2b087be52b603ac445fa174859199606533d126a56883d6b56fc214949⟩,
    ⟨fun index => [1, 0x2664a977567f1e4f84816faf4dd21e2bae904d7068d30de6313b9bb0822f0749, 0, 0,
        4294967295].getD index 0,
      0x2954bed5a9f92e27dbaa8738008cf17a704966bc7970386b0f69bae44cab50c5⟩]

/-- The bytes of the bridge receipt. -/
def bridgeReceipt : Bytes := bridgeValues.header 2 ++ bridgeValues.actions.flatMap (·.encode)

/-- The bridge guest emits the bytes. -/
theorem bridgeGuest_emits : bridgeGuest referenceHashes bridgeInput = .ok bridgeReceipt := by
  decide +kernel

/-- The account that administers both contracts and submits receipts. -/
def admin : Address := 0xad

/-- The account that deposits. -/
def depositor : Address := 0xd0

/-- The verifier of both programs. -/
def verifier : Address := 0x5b1

/-- The verification key of the settlement guest. -/
def settlementVKey : Bytes32 := 1

/-- The verification key of the bridge guest. -/
def bridgeVKey : Bytes32 := 2

/-- The surroundings: real hashes, and a verifier that accepts one receipt of
each guest. -/
def environment : Environment where
  hashes := referenceHashes
  chainId := 1
  settlementAddress := settlementAddress
  bridgeAddress := bridgeAddress
  accessControl := tableAccessControl
  pausable := flagPausable
  verifyProof := fun _ programVKey publicValues _ =>
    (programVKey = settlementVKey ∧ publicValues = settlementReceipt) ∨
    (programVKey = bridgeVKey ∧ publicValues = bridgeReceipt)

/-- The genesis of the virtual slots, which last one second. -/
def genesis : BitVec 64 := 1000

/-- The arguments of the settlement initializer. -/
def settlementParameters : SettlementParameters where
  initialAdmin := admin
  verifier := verifier
  programVKey := settlementVKey
  initialVkHash := vkHash
  initialOuterState := fun _ => 0
  initialOuterActionState := 1
  initialOuterActionStateLength := 0
  genesisTimestamp := genesis
  slotDuration := 1
  forkSlot := 0

/-- A result that is there is the one that was returned. -/
theorem eq_ok_get {ε α : Type} {result : Except ε α} (h : result.toOption.isSome = true) :
    result = .ok (result.toOption.get h) := by
  cases result with
  | ok value => rfl
  | error e => cases h

/-- A deployment whose initializers both succeed. -/
def deployed {env : Environment} {W : TokenWorld} (ctx : CallContext)
    (settlement : SettlementParameters) (bridge : BridgeParameters) (tokens : W.State) (ether : ℕ)
    (h : (deploy env ctx settlement bridge tokens ether).toOption.isSome = true) :
    Deployment env W where
  ctx := ctx
  settlement := settlement
  bridge := bridge
  tokens := tokens
  ether := ether
  start := (deploy env ctx settlement bridge tokens ether).toOption.get h
  deployed := eq_ok_get h

/-- The deployment, with ten units of every token at the depositor. -/
def deployment : Deployment environment ledgerWorld :=
  deployed ⟨admin, 1000⟩ settlementParameters ⟨admin, verifier, bridgeVKey⟩
    (fun _ => singleHolder depositor 10) 0 (by decide +kernel)

/-- Configure the contracts, settle the receipt, register the token and take both
deposits. -/
def setup : List Transaction :=
  [⟨⟨admin, 1000⟩, .setBridgeContract bridgeAddress⟩,
   ⟨⟨admin, 1000⟩, .settlementGrantRole (bridgeRole environment) bridgeAddress⟩,
   ⟨⟨admin, 1000⟩, .verifyAndUpdateRoot settlementReceipt []⟩,
   ⟨⟨admin, 1000⟩, .proposeAsset assetRecord⟩,
   ⟨⟨admin, 1000⟩, .activateAsset token registryRoot 1⟩,
   ⟨⟨depositor, 1000⟩, .depositETH 5000000000 3⟩,
   ⟨⟨depositor, 1000⟩, .submitDeposit token 4 (2 ^ 255 + 3)⟩]

/-- The upper siblings of every leaf of the batch. -/
def upperSiblings : List Bytes32 :=
  [0x985116a577b32e90f5576ad23a345c8bb272cec4edd6a9099ee3fcd647411351,
   0x4d3dc89ecdcaf5324cbaa8cc8f549291048ae9cc7503bdfe6ed88105b3a323fa,
   0xb17e9c6eba69a4f51ea4806493374c00184a9952326079fc57ae2ab45edc52b4,
   0xe0d462c406db4ffc994e3c5bae89d040176edcdd7a9a58d54775396dacf3bff5,
   0x020c2b70455d1984b283ddb75dcafdfbe0e515ce43b38343a21890b110fa143d,
   0xd01f2bb23ec23096aa69bdf8bb5d7d867ec24c0f5c0435085f0ed13dcc8b28a0,
   0x8c86f1906e462f8016a38b54cf2c186a2156a8aa47dfa2f47abc663fd0dc9804,
   0x5ee2d833eae125463447dae9bc1a19a4999facb844749a10102c84e355fe9d73,
   0xfa28d45b4445f25023be44bc2398525e0f59d64a603a3601ed55d06ef93f36c6,
   0x18c7e0e76bba18db8480bbadf04a3b68ecccf93a0b1e6138db37d2e30f3bd3b3,
   0x8b67dfbc14d2dc89b1e379bd9fe8f15eac47d31f2323910aea10a2f2debac4a5,
   0x8592af628d0ad9e4941884e1524173418b14ec9b255265679a966e9429631d80,
   0x5294520dc53d72bf582ea184a82b46f09d14eb856a95775da4f8fa339910f6c2,
   0x36a200f6d74e88e87ba859a1f753ba97c396e230e982afbf291f48b596e204eb]

/-- The claim of the withdrawal at an offset of the batch. -/
def claimAt (offset : BitVec 32) (amount : BitVec 64) (fieldsHash : Bytes32)
    (lower : List Bytes32) : ClaimArguments where
  settlementSequence := 1
  offset := offset
  recipient := recipient
  amount := amount
  actionFieldsHash := fieldsHash
  merkleProof := fun level => (lower ++ upperSiblings).getD level 0

/-- The claim of the first native withdrawal. -/
def firstClaim : ClaimArguments :=
  claimAt 0 1 0xeb09c5d0b8a6ed75b16c0ca4eba8d0155231953de070d33fe630cecc07c908e9
    [0x916bc6ffa117a091863ea0d2920fb70ee65a40acfaa09dbe43a842b432d3f00c,
     0x5f9232bb87efc040007f206e8dddffe2a8146c2a46ee8eeec2cc3a3d28d88d68]

/-- The claim of the second native withdrawal. -/
def secondClaim : ClaimArguments :=
  claimAt 1 2 0xc4ca31923799ea4d185c3016c4ebfe30636bd394be1f81cc1f4023d13a10e762
    [0x8b8df158873d14fc779c99da8e8cfff4344d50e830108e658eb47afbaee90898,
     0x5f9232bb87efc040007f206e8dddffe2a8146c2a46ee8eeec2cc3a3d28d88d68]

/-- The claim of the token withdrawal. -/
def tokenClaim : ClaimArguments :=
  claimAt 2 3 0x9fd483a29e1df0e61a9160869e5b8a27b319112b2df9527c97ca341df10c82fe
    [0, 0x2052df3428324a3dcbbcad2420bdd679e3df49d3c73a676fc33737b34554e020]

/-- A third party, who claims once the delay has passed. -/
def claimant : CallContext := ⟨0xc1a1, 1020⟩

/-- Evaluate a number before it is used further. -/
def evaluated {α : Type} (value : ℕ) (use : ℕ → α) : α :=
  match value with
  | 0 => use 0
  | rest + 1 => use (rest + 1)

/-- Using the evaluated number is using the number. -/
theorem evaluated_eq {α : Type} (value : ℕ) (use : ℕ → α) : evaluated value use = use value := by
  cases value with
  | zero => rfl
  | succ rest => rfl

/-- Hash strings one after the other and compare each digest with the earlier
ones. An earlier digest without a string must not occur at all. -/
def digestsDistinct (hash : Bytes → Bytes32) : List Bytes → List (ℕ × Option Bytes) → Bool
  | [], _ => true
  | string :: strings, seen => evaluated (hash string).toNat fun digest =>
    (seen.all fun earlier => earlier.1 != digest || earlier.2 == some string) &&
      digestsDistinct hash strings ((digest, some string) :: seen)

/-- Distinct digests leave no collision, neither among the strings nor with the
earlier digests. -/
theorem digestsDistinct_spec {hash : Bytes → Bytes32} {strings : List Bytes}
    {seen : List (ℕ × Option Bytes)} (h : digestsDistinct hash strings seen = true) :
    CollisionFree hash strings ∧ ∀ earlier ∈ seen, ∀ string ∈ strings,
      earlier.1 = (hash string).toNat → earlier.2 = some string := by
  induction strings generalizing seen with
  | nil => exact ⟨fun x hx => absurd hx List.not_mem_nil, fun _ _ x hx => absurd hx List.not_mem_nil⟩
  | cons first strings ih =>
    rw [digestsDistinct, evaluated_eq, Bool.and_eq_true, List.all_eq_true] at h
    obtain ⟨hfirst, hrest⟩ := h
    obtain ⟨hcf, hcross⟩ := ih hrest
    have hhead : ∀ earlier ∈ seen, earlier.1 = (hash first).toNat → earlier.2 = some first := by
      intro earlier hearlier hsame
      have hchecked := hfirst earlier hearlier
      rw [hsame, bne_self_eq_false, Bool.false_or] at hchecked
      exact eq_of_beq hchecked
    have htail : ∀ string ∈ strings, hash first = hash string → first = string := by
      intro string hstring hsame
      exact Option.some.inj (hcross ((hash first).toNat, some first) List.mem_cons_self string hstring
        (congrArg BitVec.toNat hsame))
    constructor
    · intro x hx y hy hsame
      rcases List.mem_cons.mp hx with hxf | hxs
      · rw [hxf] at hsame ⊢
        rcases List.mem_cons.mp hy with hyf | hys
        · exact hyf.symm
        · exact htail y hys hsame
      · rcases List.mem_cons.mp hy with hyf | hys
        · rw [hyf] at hsame ⊢
          exact (htail x hxs hsame.symm).symm
        · exact hcf x hxs y hys hsame
    · intro earlier hearlier string hstring hsame
      rcases List.mem_cons.mp hstring with rfl | hstring
      · exact hhead earlier hearlier hsame
      · exact hcross earlier (List.mem_cons_of_mem _ hearlier) string hstring hsame

/-- Strings with distinct digests are collision-free. -/
theorem collisionFree_of_digests {hash : Bytes → Bytes32} {strings : List Bytes}
    (h : digestsDistinct hash strings [] = true) : CollisionFree hash strings :=
  (digestsDistinct_spec h).1

/-- Strings with distinct digests, all different from the origin, are
collision-free from it. -/
theorem collisionFreeFrom_of_digests {hash : Bytes → Bytes32} {origin : Bytes32}
    {strings : List Bytes} (h : digestsDistinct hash strings [(origin.toNat, none)] = true) :
    CollisionFreeFrom hash origin strings := by
  obtain ⟨hcf, horigin⟩ := digestsDistinct_spec h
  refine ⟨hcf, ?_⟩
  intro string hstring hsame
  have hnone := horigin (origin.toNat, none) List.mem_cons_self string hstring
    (congrArg BitVec.toNat hsame.symm)
  cases hnone

/-- The first native withdrawal can be claimed. -/
theorem firstClaim_open : (claimNativeWithdrawal environment (deployment.reached setup) claimant
    firstClaim true).toOption.isSome = true := by
  decide +kernel

/-- So can the second. -/
theorem secondClaim_open : (claimNativeWithdrawal environment (deployment.reached setup) claimant
    secondClaim true).toOption.isSome = true := by
  decide +kernel

/-- So can the token withdrawal. -/
theorem tokenClaim_open : (claimERC20Withdrawal environment (deployment.reached setup) claimant
    token tokenClaim).toOption.isSome = true := by
  decide +kernel

end EthereumSettlement.ReferenceDeployment
