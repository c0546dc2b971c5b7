import Mathlib.Data.List.ReduceOption
import EthereumSettlement.InnerActionRows

/-!
# The listing of archived withdrawals

The gateway reads the inner actions of the virtual ledger from an archive, each
with the parameters of the withdrawal that its transaction carries, and lists the
withdrawals that no settlement has confirmed yet. The parameters are whatever the
user of the virtual ledger emitted. The listing is right when it shows every
well-formed withdrawal and passes over everything else; it is right exactly as
long as no archived action carries anything else.

The decimal columns are read by a given function, and the answers of Ethereum at
the pinned block are those of the bridge's storage.
-/

namespace EthereumSettlement.ArchiveListing

open ByteWords CheckedCalls PastaPoseidon InnerActionCommitment InnerActionRows
open EthereumZekoBridge StepEffects

/-- A row of the archive query: an inner action with its place in the virtual
ledger, and the parameters of the withdrawal in its transaction. -/
structure ArchiveRow where
  /-- Position among all inner actions. -/
  globalActionIndex : ℤ
  /-- Hash of the Mina transaction. -/
  hash : String
  /-- Height of the Mina block. -/
  height : ℤ
  /-- Time of the Mina block. -/
  timestamp : String
  /-- The decimal fields of the action. -/
  fields : List String
  /-- The decimal withdrawal parameters, if the transaction has them. -/
  withdrawalFields : Option (List String)

/-- `ArchiveInnerAction` with its place in the virtual ledger. -/
structure PlacedInnerAction extends ArchiveInnerAction where
  /-- Hash of the Mina transaction. -/
  transactionHash : String
  /-- Height of the Mina block. -/
  blockHeight : BitVec 64
  /-- Time of the Mina block. -/
  timestamp : String
  deriving DecidableEq

/-- `u64::try_from` of a signed number. -/
def toU64 (value : ℤ) : Except String (BitVec 64) := do
  require (0 ≤ value ∧ value < 2 ^ 64) tryFromIntError
  pure (BitVec.ofInt 64 value)

section Reading

variable (decimal : String → Except String Bytes32)

/-- `parse_fields`. -/
def parseFields (fields : List String) : Except String (List Bytes32) :=
  fields.mapM fun field =>
    match decimal field with
    | .ok value => pure value
    | .error _ => throw ("invalid archive action field " ++ field)

/-- `parse_native_withdrawal`. -/
def parseNativeWithdrawal (fields : List String) : Except String ArchiveNativeWithdrawal := do
  require (fields.length = 3) "withdrawal action must have three fields"
  let recipient ← decimal (fields.getD 0 "")
  let parity ← decimal (fields.getD 1 "")
  let amount ← decimal (fields.getD 2 "")
  require (parity = 0) "Ethereum withdrawal recipient must use even parity"
  require (recipient.extractLsb' 160 96 = 0) "withdrawal recipient does not fit 160 bits"
  require (0 < amount ∧ amount ≤ BitVec.ofNat 256 (2 ^ 64 - 1))
    "withdrawal amount is outside UInt64"
  pure ⟨recipient.setWidth 160, amount.setWidth 64⟩

/-- An asset identifier from its two halves. -/
def assetIdOf (high low : BitVec 128) : Bytes32 := high ++ low

/-- `parse_token_withdrawal`. -/
def parseTokenWithdrawal (fields : List String) : Except String ArchiveTokenWithdrawal := do
  require (fields.length = 14) "invalid ERC20 withdrawal parameter width"
  let fields ← fields.mapM decimal
  require (fields.getD 0 0 = toWord erc20ActionEncodingV2)
    "unsupported ERC20 withdrawal encoding version"
  let registryIndex := fields.getD 1 0
  require (registryIndex.toNat < 2 ^ 32) "ERC20 registry index is outside UInt32"
  let recordCommitment := fields.getD 2 0
  require (recordCommitment ≠ 0) "ERC20 record commitment is zero"
  let assetHigh := fields.getD 3 0
  let assetLow := fields.getD 4 0
  require (assetHigh.extractLsb' 128 128 = 0 ∧ assetLow.extractLsb' 128 128 = 0)
    "ERC20 asset limbs exceed 128 bits"
  let assetId := assetIdOf (assetHigh.setWidth 128) (assetLow.setWidth 128)
  require (assetId ≠ 0) "ERC20 asset id is zero"
  let amount := fields.getD 11 0
  let recipient := fields.getD 12 0
  let parity := fields.getD 13 0
  require (parity = 0) "Ethereum withdrawal recipient must use even parity"
  require (recipient.extractLsb' 160 96 = 0) "withdrawal recipient does not fit 160 bits"
  require (recipient.setWidth 160 ≠ 0) "withdrawal recipient is zero"
  require (0 < amount ∧ amount ≤ BitVec.ofNat 256 (2 ^ 64 - 1))
    "withdrawal amount is outside UInt64"
  pure ⟨erc20ActionEncodingV2, registryIndex.setWidth 32, recordCommitment, assetId,
    recipient.setWidth 160, amount.setWidth 64⟩

/-- `parse_withdrawal`. -/
def parseWithdrawal (fields : List String) : Except String ArchiveWithdrawal :=
  if fields.length = 3 then ArchiveWithdrawal.native <$> parseNativeWithdrawal decimal fields
  else ArchiveWithdrawal.token <$> parseTokenWithdrawal decimal fields

/-- The withdrawal of a row that has parameters of one. -/
def attachedWithdrawal : Option (List String) → Except String (Option ArchiveWithdrawal)
  | none => pure none
  | some fields => some <$> parseWithdrawal decimal fields

/-- The closure that `load_archive_inner_actions` maps over the rows. -/
def archivedAction (row : ArchiveRow) : Except String PlacedInnerAction := do
  let fields ← parseFields decimal row.fields
  let withdrawal ← attachedWithdrawal decimal row.withdrawalFields
  let globalActionIndex ← toU32 row.globalActionIndex
  let blockHeight ← toU64 row.height
  pure {
    globalActionIndex := globalActionIndex
    transactionHash := row.hash
    blockHeight := blockHeight
    timestamp := row.timestamp
    fields := fields
    withdrawal := withdrawal }

/-- `load_archive_inner_actions`, from the rows of the archive query. -/
def loadArchiveInnerActions (rows : List ArchiveRow) : Except String (List PlacedInnerAction) :=
  rows.mapM (archivedAction decimal)

end Reading

/-- The parameters spell a withdrawal: a recipient other than zero and an amount
that is not zero, and for a token the registry's identity of it, in the words that
the virtual ledger uses for them. The six words of a token in between are hashed
with the others and carry nothing that is paid out. -/
inductive Spells (decimal : String → Except String Bytes32) : List String → ArchiveWithdrawal → Prop
  | native {fields : List String} {recipient : Address} {amount : BitVec 64}
      (words : fields.mapM decimal = .ok [toWord recipient, 0, toWord amount])
      (recipient_ne : recipient ≠ 0) (amount_ne : amount ≠ 0) :
      Spells decimal fields (.native ⟨recipient, amount⟩)
  | token {fields : List String} {registryIndex : BitVec 32} {recordCommitment : Bytes32}
      {assetHigh assetLow : BitVec 128} {middle : List Bytes32} {recipient : Address}
      {amount : BitVec 64}
      (words : fields.mapM decimal = .ok ([toWord erc20ActionEncodingV2, toWord registryIndex,
        recordCommitment, toWord assetHigh, toWord assetLow] ++ middle ++
        [toWord amount, toWord recipient, 0]))
      (width : middle.length = 6) (commitment_ne : recordCommitment ≠ 0)
      (asset_ne : assetIdOf assetHigh assetLow ≠ 0) (recipient_ne : recipient ≠ 0)
      (amount_ne : amount ≠ 0) :
      Spells decimal fields (.token ⟨erc20ActionEncodingV2, registryIndex, recordCommitment,
        assetIdOf assetHigh assetLow, recipient, amount⟩)

/-- The recipient of a withdrawal. -/
def recipientOf : ArchiveWithdrawal → Address
  | .native withdrawal => withdrawal.recipient
  | .token withdrawal => withdrawal.recipient

section Words

variable {x : Bytes32}

/-- A word is that of a shorter value exactly when it fits and has its low bits. -/
theorem eq_toWord_iff {w : ℕ} (hw : w ≤ 256) {value : BitVec w} :
    x = toWord value ↔ x.toNat < 2 ^ w ∧ x.setWidth w = value := by
  constructor
  · intro h
    have hnat : x.toNat = value.toNat := by rw [h, toWord_toNat hw]
    refine ⟨by rw [hnat]; exact value.isLt, ?_⟩
    apply BitVec.eq_of_toNat_eq
    rw [BitVec.toNat_setWidth, hnat, Nat.mod_eq_of_lt value.isLt]
  · intro h
    apply BitVec.eq_of_toNat_eq
    rw [toWord_toNat hw, ← h.2, BitVec.toNat_setWidth, Nat.mod_eq_of_lt h.1]

/-- A word that fits is that of a shorter value. -/
theorem exists_toWord {w : ℕ} (hw : w ≤ 256) (h : x.toNat < 2 ^ w) :
    ∃ value : BitVec w, x = toWord value := ⟨x.setWidth w, (eq_toWord_iff hw).mpr ⟨h, rfl⟩⟩

/-- The word of a shorter value fits. -/
theorem toWord_lt {w : ℕ} (hw : w ≤ 256) (value : BitVec w) : (toWord value).toNat < 2 ^ w :=
  ((eq_toWord_iff hw).mp rfl).1

/-- The low bits of the word of a shorter value are the value. -/
theorem setWidth_toWord {w : ℕ} (hw : w ≤ 256) (value : BitVec w) :
    (toWord value).setWidth w = value := ((eq_toWord_iff hw).mp rfl).2

/-- The high bits of a word are zero exactly when the word fits the low ones. -/
theorem extract_eq_zero_iff {w k : ℕ} (hw : w + k = 256) :
    x.extractLsb' w k = 0 ↔ x.toNat < 2 ^ w := by
  have hx : x.toNat < 2 ^ w * 2 ^ k := by
    rw [← pow_add, hw]
    exact x.isLt
  have hhigh : x.toNat / 2 ^ w < 2 ^ k := Nat.div_lt_of_lt_mul hx
  rw [← BitVec.toNat_inj, BitVec.extractLsb'_toNat, Nat.shiftRight_eq_div_pow,
    Nat.mod_eq_of_lt hhigh]
  exact Nat.div_eq_zero_iff_lt (Nat.two_pow_pos w)

/-- An amount is in range exactly when it is a number of 64 bits other than zero. -/
theorem amount_in_range_iff :
    (0 < x ∧ x ≤ BitVec.ofNat 256 (2 ^ 64 - 1)) ↔ x.toNat < 2 ^ 64 ∧ x.setWidth 64 ≠ (0 : BitVec 64) := by
  have hlimit : (BitVec.ofNat 256 (2 ^ 64 - 1)).toNat = 2 ^ 64 - 1 := by decide
  rw [BitVec.lt_def, BitVec.le_def, hlimit, Ne, ← BitVec.toNat_inj, BitVec.toNat_setWidth]
  have hzero : (0 : BitVec 256).toNat = 0 := rfl
  have hzero64 : (0 : BitVec 64).toNat = 0 := rfl
  rw [hzero, hzero64]
  omega

end Words

section Parsing

variable {decimal : String → Except String Bytes32} {fields : List String}

/-- A native withdrawal is parsed from its three words. -/
theorem parseNativeWithdrawal_eq_ok {withdrawal : ArchiveNativeWithdrawal} :
    parseNativeWithdrawal decimal fields = .ok withdrawal ↔
      fields.mapM decimal = .ok [toWord withdrawal.recipient, 0, toWord withdrawal.amount] ∧
        withdrawal.amount ≠ 0 := by
  simp only [parseNativeWithdrawal, bind_eq_ok, require_eq_ok, exists_const, pure_eq_ok]
  constructor
  · rintro ⟨hlength, recipient, hrecipient, parity, hparity, amount, hamount, hzero, hfits, hrange, rfl⟩
    obtain ⟨first, second, third, rfl⟩ := List.length_eq_three.mp hlength
    obtain ⟨hsmall, hnonzero⟩ := amount_in_range_iff.mp hrange
    obtain ⟨recipient, rfl⟩ := exists_toWord (by decide) ((extract_eq_zero_iff (by decide)).mp hfits)
    obtain ⟨amount, rfl⟩ := exists_toWord (by decide) hsmall
    rw [setWidth_toWord (by decide)] at hnonzero
    rw [setWidth_toWord (by decide), setWidth_toWord (by decide), mapM_eq_ok, ← hzero]
    exact ⟨.cons hrecipient (.cons hparity (.cons hamount .nil)), hnonzero⟩
  · intro h
    obtain ⟨hwords, hnonzero⟩ := h
    have hread := mapM_eq_ok.mp hwords
    have hlength : fields.length = 3 := hread.length_eq
    obtain ⟨first, second, third, rfl⟩ := List.length_eq_three.mp hlength
    simp only [List.forall₂_cons, List.Forall₂.nil, and_true] at hread
    obtain ⟨hrecipient, hparity, hamount⟩ := hread
    refine ⟨rfl, _, hrecipient, _, hparity, _, hamount, rfl,
      (extract_eq_zero_iff (by decide)).mpr (toWord_lt (by decide) _), ?_, ?_⟩
    · rw [amount_in_range_iff, setWidth_toWord (by decide)]
      exact ⟨toWord_lt (by decide) _, hnonzero⟩
    · rw [setWidth_toWord (by decide), setWidth_toWord (by decide)]

/-- Fourteen words are the parameters of a token withdrawal. -/
theorem exists_of_length_fourteen {α : Type} {words : List α} (h : words.length = 14) :
    ∃ version registryIndex recordCommitment assetHigh assetLow m n o p q r amount recipient parity,
      words = [version, registryIndex, recordCommitment, assetHigh, assetLow, m, n, o, p, q, r,
        amount, recipient, parity] := by
  match words, h with
  | [_, _, _, _, _, _, _, _, _, _, _, _, _, _], _ =>
    exact ⟨_, _, _, _, _, _, _, _, _, _, _, _, _, _, rfl⟩

/-- The six words in the middle. -/
theorem exists_of_length_six {words : List Bytes32} (h : words.length = 6) :
    ∃ m n o p q r, words = [m, n, o, p, q, r] := by
  match words, h with
  | [_, _, _, _, _, _], _ => exact ⟨_, _, _, _, _, _, rfl⟩

/-- What `parse_token_withdrawal` checks of the fourteen words and returns. -/
theorem tokenWords_iff {version registryIndex recordCommitment assetHigh assetLow amount recipient
      parity : Bytes32} {withdrawal : ArchiveTokenWithdrawal} :
    (version = toWord erc20ActionEncodingV2 ∧ registryIndex.toNat < 2 ^ 32 ∧ recordCommitment ≠ 0 ∧
      (assetHigh.extractLsb' 128 128 = 0 ∧ assetLow.extractLsb' 128 128 = 0) ∧
      assetIdOf (assetHigh.setWidth 128) (assetLow.setWidth 128) ≠ 0 ∧ parity = 0 ∧
      recipient.extractLsb' 160 96 = 0 ∧ recipient.setWidth 160 ≠ (0 : Address) ∧
      (0 < amount ∧ amount ≤ BitVec.ofNat 256 (2 ^ 64 - 1)) ∧
      (⟨erc20ActionEncodingV2, registryIndex.setWidth 32, recordCommitment,
        assetIdOf (assetHigh.setWidth 128) (assetLow.setWidth 128), recipient.setWidth 160,
        amount.setWidth 64⟩ : ArchiveTokenWithdrawal) = withdrawal) ↔
    ∃ (index : BitVec 32) (high low : BitVec 128) (address : Address) (value : BitVec 64),
      version = toWord erc20ActionEncodingV2 ∧ registryIndex = toWord index ∧
      assetHigh = toWord high ∧ assetLow = toWord low ∧ amount = toWord value ∧
      recipient = toWord address ∧ parity = 0 ∧ recordCommitment ≠ 0 ∧ assetIdOf high low ≠ 0 ∧
      address ≠ 0 ∧ value ≠ 0 ∧
      withdrawal = ⟨erc20ActionEncodingV2, index, recordCommitment, assetIdOf high low, address,
        value⟩ := by
  constructor
  · rintro ⟨hversion, hindex, hcommitment, ⟨hhigh, hlow⟩, hasset, hzero, hfits, hrecipient, hrange, rfl⟩
    obtain ⟨hsmall, hnonzero⟩ := amount_in_range_iff.mp hrange
    obtain ⟨index, rfl⟩ := exists_toWord (by decide) hindex
    obtain ⟨high, rfl⟩ := exists_toWord (by decide) ((extract_eq_zero_iff (by decide)).mp hhigh)
    obtain ⟨low, rfl⟩ := exists_toWord (by decide) ((extract_eq_zero_iff (by decide)).mp hlow)
    obtain ⟨address, rfl⟩ := exists_toWord (by decide) ((extract_eq_zero_iff (by decide)).mp hfits)
    obtain ⟨value, rfl⟩ := exists_toWord (by decide) hsmall
    simp only [setWidth_toWord (w := 32) (by decide), setWidth_toWord (w := 128) (by decide),
      setWidth_toWord (w := 160) (by decide), setWidth_toWord (w := 64) (by decide)]
      at hasset hrecipient hnonzero ⊢
    exact ⟨index, high, low, address, value, hversion, rfl, rfl, rfl, rfl, rfl, hzero, hcommitment,
      hasset, hrecipient, hnonzero, rfl⟩
  · rintro ⟨index, high, low, address, value, hversion, rfl, rfl, rfl, rfl, rfl, hzero, hcommitment,
      hasset, hrecipient, hnonzero, rfl⟩
    simp only [setWidth_toWord (w := 32) (by decide), setWidth_toWord (w := 128) (by decide),
      setWidth_toWord (w := 160) (by decide), setWidth_toWord (w := 64) (by decide),
      amount_in_range_iff]
    exact ⟨hversion, toWord_lt (by decide) _, hcommitment,
      ⟨(extract_eq_zero_iff (by decide)).mpr (toWord_lt (by decide) _),
        (extract_eq_zero_iff (by decide)).mpr (toWord_lt (by decide) _)⟩, hasset, hzero,
      (extract_eq_zero_iff (by decide)).mpr (toWord_lt (by decide) _), hrecipient,
      ⟨toWord_lt (by decide) _, hnonzero⟩, trivial⟩

/-- A token withdrawal is parsed exactly from well-formed parameters. -/
theorem parseTokenWithdrawal_eq_ok {withdrawal : ArchiveTokenWithdrawal} :
    parseTokenWithdrawal decimal fields = .ok withdrawal ↔
      Spells decimal fields (.token withdrawal) := by
  simp only [parseTokenWithdrawal, bind_eq_ok, require_eq_ok, exists_const, pure_eq_ok]
  constructor
  · rintro ⟨hlength, words, hwords, h⟩
    have hcount : words.length = 14 := by
      rw [← (mapM_eq_ok.mp hwords).length_eq, hlength]
    obtain ⟨version, registryIndex, recordCommitment, assetHigh, assetLow, m, n, o, p, q, r, amount,
      recipient, parity, rfl⟩ := exists_of_length_fourteen hcount
    obtain ⟨index, high, low, address, value, rfl, rfl, rfl, rfl, rfl, rfl, rfl, hcommitment, hasset,
      hrecipient, hnonzero, rfl⟩ := tokenWords_iff.mp h
    have hwidth : [m, n, o, p, q, r].length = 6 := rfl
    exact .token hwords hwidth hcommitment hasset hrecipient hnonzero
  · intro h
    cases h with
    | @token index commitment high low middle address value words width hcommitment hasset
        hrecipient hnonzero =>
      have hcount := (mapM_eq_ok.mp words).length_eq
      have hlength : fields.length = 14 := by
        rw [hcount, List.length_append, List.length_append, width]
        rfl
      obtain ⟨m, n, o, p, q, r, rfl⟩ := exists_of_length_six width
      exact ⟨hlength, _, words, tokenWords_iff.mpr ⟨index, high, low, address, value, rfl, rfl, rfl,
        rfl, rfl, rfl, rfl, hcommitment, hasset, hrecipient, hnonzero, rfl⟩⟩

/-- Parameters are parsed to a withdrawal with a recipient exactly when they are
well formed. -/
theorem parseWithdrawal_eq_ok {withdrawal : ArchiveWithdrawal} :
    parseWithdrawal decimal fields = .ok withdrawal ∧ recipientOf withdrawal ≠ 0 ↔
      Spells decimal fields withdrawal := by
  have hthree : ∀ {words : List Bytes32}, fields.mapM decimal = .ok words →
      fields.length = words.length := fun h => (mapM_eq_ok.mp h).length_eq
  rw [parseWithdrawal]
  constructor
  · intro h
    obtain ⟨hparsed, hrecipient⟩ := h
    by_cases hlength : fields.length = 3
    · rw [if_pos hlength] at hparsed
      obtain ⟨native, hnative, rfl⟩ := map_eq_ok.mp hparsed
      obtain ⟨hwords, hnonzero⟩ := parseNativeWithdrawal_eq_ok.mp hnative
      exact .native hwords hrecipient hnonzero
    · rw [if_neg hlength] at hparsed
      obtain ⟨token, htoken, rfl⟩ := map_eq_ok.mp hparsed
      exact parseTokenWithdrawal_eq_ok.mp htoken
  · intro h
    cases h with
    | native words recipient_ne amount_ne =>
      have hlength : fields.length = 3 := hthree words
      rw [if_pos hlength]
      exact ⟨map_eq_ok.mpr ⟨_, parseNativeWithdrawal_eq_ok.mpr ⟨words, amount_ne⟩, rfl⟩, recipient_ne⟩
    | token words width commitment_ne asset_ne recipient_ne amount_ne =>
      have hfourteen : fields.length ≠ 3 := by
        have hcount := hthree words
        simp only [List.length_append, List.length_cons, List.length_nil, width] at hcount
        omega
      rw [if_neg hfourteen]
      exact ⟨map_eq_ok.mpr ⟨_, parseTokenWithdrawal_eq_ok.mpr
        (.token words width commitment_ne asset_ne recipient_ne amount_ne), rfl⟩, recipient_ne⟩

end Parsing

/-- What a listing asks for. -/
structure ListingRequest where
  /-- Token withdrawals are asked for, else native ones. -/
  tokens : Bool
  /-- Only withdrawals to this account. -/
  recipient : Option Address
  /-- Only actions after this index. -/
  after : Option (BitVec 32)
  /-- Most withdrawals on the page. -/
  limit : ℕ

/-- `PendingWithdrawal`. -/
structure PendingWithdrawal where
  /-- The token, for a token withdrawal. -/
  token : Option Address
  /-- The asset, for a token withdrawal. -/
  assetId : Option Bytes32
  /-- Position among all inner actions. -/
  globalActionIndex : BitVec 32
  /-- Hash of the Mina transaction. -/
  transactionHash : String
  /-- Height of the Mina block. -/
  blockHeight : BitVec 64
  /-- Time of the Mina block. -/
  timestamp : String
  /-- Who is paid. -/
  recipient : Address
  /-- Amount in the units of the asset on Zeko. -/
  amount : BitVec 64
  /-- Progress that the client is shown. -/
  status : String
  /-- What the user can do next. -/
  nextAction : String
  deriving DecidableEq

/-- The filter of `pending_action_page`. -/
def pendingAction (settled : List ℤ) (request : ListingRequest) (action : PlacedInnerAction) : Bool :=
  if (action.globalActionIndex.toNat : ℤ) ∈ settled ∨
      request.after.any (action.globalActionIndex ≤ ·) = true then false
  else
    match action.withdrawal with
    | some (.token withdrawal) =>
      request.tokens && request.recipient.all (· = withdrawal.recipient)
    | some (.native withdrawal) =>
      !request.tokens && request.recipient.all (· = withdrawal.recipient)
    | none => false

/-- `pending_action_page`. -/
def pendingActionPage (actions : List PlacedInnerAction) (settled : List ℤ)
    (request : ListingRequest) : List PlacedInnerAction :=
  (actions.filter (pendingAction settled request)).take request.limit

/-- The token withdrawal of an action. -/
def tokenOf (action : PlacedInnerAction) : Option ArchiveTokenWithdrawal :=
  match action.withdrawal with
  | some (.token withdrawal) => some withdrawal
  | _ => none

/-- `unique_token_withdrawal_identities`. -/
def uniqueTokenWithdrawalIdentities (withdrawals : List ArchiveTokenWithdrawal) :
    List TokenWithdrawalIdentity := (withdrawals.map tokenWithdrawalIdentity).eraseDups

section Ethereum

variable (bridge : BridgeStorage) (registry : RegistryLayout)

/-- The body of the loop of `resolve_token_withdrawal_identities`. -/
def resolveIdentity (identity : TokenWithdrawalIdentity) : Except String Address := do
  require (identity.encodingVersion = erc20ActionEncodingV2)
    "unsupported ERC20 withdrawal encoding version"
  require (identity.recordCommitment ≠ 0) "archived ERC20 registry identity is zero"
  let token := registry.assetTokenByRegistryIndex identity.registryIndex
  require (token ≠ 0) "archived ERC20 token is zero"
  require (bridge.canonicalTokenRegistered token = true)
    "archived ERC20 token is not canonically registered"
  require (bridge.assetIdByToken token = identity.assetId)
    "archived ERC20 asset id does not match Ethereum"
  require (bridge.registryIndexByToken token = identity.registryIndex ∧
      bridge.recordCommitmentByToken token = identity.recordCommitment)
    "archived ERC20 registry identity does not match Ethereum"
  pure token

/-- `resolve_token_withdrawal_identities`, for identities in the order in which
they are looked up. -/
def resolveTokenWithdrawalIdentities (identities : List TokenWithdrawalIdentity) :
    Except String (TokenWithdrawalIdentity → Option Address) := do
  let tokens ← identities.mapM (resolveIdentity bridge registry)
  pure fun identity => (identities.zip tokens).lookup identity

/-- The closure that `pending_withdrawals` maps over the page. -/
def pendingWithdrawal (resolved : TokenWithdrawalIdentity → Option Address)
    (action : PlacedInnerAction) : Except String (Option PendingWithdrawal) :=
  match action.withdrawal with
  | none => pure none
  | some (.native withdrawal) =>
    pure (some ⟨none, none, action.globalActionIndex, action.transactionHash, action.blockHeight,
      action.timestamp, withdrawal.recipient, withdrawal.amount, "pendingSettlement",
      "waitForSettlement"⟩)
  | some (.token withdrawal) =>
    match resolved (tokenWithdrawalIdentity withdrawal) with
    | none => throw "archived ERC20 identity was not resolved"
    | some token =>
      pure (some ⟨some token, some withdrawal.assetId, action.globalActionIndex,
        action.transactionHash, action.blockHeight, action.timestamp, withdrawal.recipient,
        withdrawal.amount, "pendingSettlement", "waitForSettlement"⟩)

/-- `pending_withdrawals`, from the rows of the archive query and the indices of
the settled actions. -/
def pendingWithdrawals (decimal : String → Except String Bytes32) (rows : List ArchiveRow)
    (settled : List ℤ) (request : ListingRequest) : Except String (List PendingWithdrawal) := do
  let actions ← loadArchiveInnerActions decimal rows
  let page := pendingActionPage actions settled request
  let identities := uniqueTokenWithdrawalIdentities (page.filterMap tokenOf)
  let resolved ← resolveTokenWithdrawalIdentities bridge registry identities
  let listed ← page.mapM (pendingWithdrawal resolved)
  pure listed.reduceOption

end Ethereum

section Purpose

variable (decimal : String → Except String Bytes32) (bridge : BridgeStorage)
  (registry : RegistryLayout)

/-- An action is what its row says, and is a withdrawal exactly when the parameters
in the row are well formed. -/
structure Archived (row : ArchiveRow) (action : PlacedInnerAction) : Prop where
  /-- The fields spell those of the action. -/
  fields : parseFields decimal row.fields = .ok action.fields
  /-- The index is that of the row. -/
  globalActionIndex : toU32 row.globalActionIndex = .ok action.globalActionIndex
  /-- The height is that of the row. -/
  blockHeight : toU64 row.height = .ok action.blockHeight
  /-- The transaction is that of the row. -/
  transactionHash : action.transactionHash = row.hash
  /-- The time is that of the row. -/
  timestamp : action.timestamp = row.timestamp
  /-- The withdrawal is the one that the parameters spell. -/
  withdrawal : ∀ withdrawal, action.withdrawal = some withdrawal ↔
    ∃ fields, row.withdrawalFields = some fields ∧ Spells decimal fields withdrawal

/-- The line of an action in the listing, none for an action that is no withdrawal
or whose asset Ethereum does not know. -/
def listedAs (action : PlacedInnerAction) : Option PendingWithdrawal :=
  (pendingWithdrawal (fun identity => (resolveIdentity bridge registry identity).toOption)
    action).toOption.join

/-- The lines that a request asks for. -/
def expectedPage (settled : List ℤ) (request : ListingRequest) (actions : List PlacedInnerAction) :
    List PendingWithdrawal :=
  ((actions.filter (pendingAction settled request)).filterMap (listedAs bridge registry)).take
    request.limit

/-- The archive is read, with every action a withdrawal exactly when it spells one,
and every request is answered with the lines that it asks for. -/
def ListsWellFormed (rows : List ArchiveRow) (settled : List ℤ) : Prop :=
  ∃ actions, List.Forall₂ (Archived decimal) rows actions ∧
    loadArchiveInnerActions decimal rows = .ok actions ∧
    ∀ request, pendingWithdrawals bridge registry decimal rows settled request =
      .ok (expectedPage bridge registry settled request actions)

/-- No row holds anything else than well-formed parameters, and Ethereum knows the
asset of every token withdrawal that is not settled. -/
structure NothingMalformed (rows : List ArchiveRow) (settled : List ℤ) : Prop where
  /-- The columns of the action itself are numbers in their ranges. -/
  columns : ∀ row ∈ rows, Succeeds (parseFields decimal row.fields) ∧
    Succeeds (toU32 row.globalActionIndex) ∧ Succeeds (toU64 row.height)
  /-- The parameters in a row spell a withdrawal. -/
  preimages : ∀ row ∈ rows, ∀ fields, row.withdrawalFields = some fields →
    ∃ withdrawal, Spells decimal fields withdrawal
  /-- The asset of a token withdrawal is registered on Ethereum. -/
  registered : ∀ row ∈ rows, ∀ fields, row.withdrawalFields = some fields →
    ∀ withdrawal, Spells decimal fields (.token withdrawal) → row.globalActionIndex ∉ settled →
      Succeeds (resolveIdentity bridge registry (tokenWithdrawalIdentity withdrawal))

end Purpose

section Lists

variable {α β : Type}

/-- Every element of a list is related to one of the list beside it. -/
theorem exists_of_mem_left {R : α → β → Prop} {as : List α} {bs : List β}
    (h : List.Forall₂ R as bs) {a : α} (ha : a ∈ as) : ∃ b ∈ bs, R a b := by
  induction h with
  | nil => exact absurd ha List.not_mem_nil
  | cons hrelated _ ih =>
    rcases List.mem_cons.mp ha with rfl | hlater
    · exact ⟨_, List.mem_cons_self, hrelated⟩
    · obtain ⟨b, hb, hmore⟩ := ih hlater
      exact ⟨b, List.mem_cons_of_mem _ hb, hmore⟩

/-- A key is looked up to a value related to it. -/
theorem lookup_zip [DecidableEq α] {R : α → β → Prop} {keys : List α} {values : List β}
    (h : List.Forall₂ R keys values) {key : α} (hkey : key ∈ keys) :
    ∃ value, R key value ∧ (keys.zip values).lookup key = some value := by
  induction h with
  | nil => exact absurd hkey List.not_mem_nil
  | @cons first value _ _ hfirst _ ih =>
    rw [List.zip_cons_cons, List.lookup_cons]
    by_cases hsame : key = first
    · rw [hsame, beq_self_eq_true]
      exact ⟨value, hfirst, rfl⟩
    · rw [beq_false_of_ne hsame]
      rcases List.mem_cons.mp hkey with hhere | hlater
      · exact absurd hhere hsame
      · exact ih hlater

/-- Dropping elements without a line does not change the first lines when the first
elements all have one. -/
theorem take_filterMap {f : α → Option β} {n : ℕ} {as : List α}
    (h : ∀ a ∈ as.take n, (f a).isSome) : (as.filterMap f).take n = (as.take n).filterMap f := by
  induction as generalizing n with
  | nil => simp only [List.filterMap_nil, List.take_nil]
  | cons a as ih =>
    cases n with
    | zero => simp only [List.take_zero, List.filterMap_nil]
    | succ n =>
      rw [List.take_succ_cons] at h ⊢
      obtain ⟨b, hb⟩ := Option.isSome_iff_exists.mp (h a List.mem_cons_self)
      have hrest := ih fun other hother => h other (List.mem_cons_of_mem _ hother)
      rw [List.filterMap_cons_some hb, List.filterMap_cons_some hb, List.take_succ_cons, hrest]

end Lists

section Equivalence

variable {decimal : String → Except String Bytes32} {bridge : BridgeStorage}
variable {registry : RegistryLayout} {rows : List ArchiveRow} {settled : List ℤ}
variable {row : ArchiveRow} {action : PlacedInnerAction}

/-- What reading a row takes and returns. -/
theorem archivedAction_eq_ok :
    archivedAction decimal row = .ok action ↔
      parseFields decimal row.fields = .ok action.fields ∧
      attachedWithdrawal decimal row.withdrawalFields = .ok action.withdrawal ∧
      toU32 row.globalActionIndex = .ok action.globalActionIndex ∧
      toU64 row.height = .ok action.blockHeight ∧
      action.transactionHash = row.hash ∧ action.timestamp = row.timestamp := by
  simp only [archivedAction, bind_eq_ok, pure_eq_ok]
  constructor
  · rintro ⟨fields, hfields, withdrawal, hwithdrawal, index, hindex, height, hheight, rfl⟩
    exact ⟨hfields, hwithdrawal, hindex, hheight, rfl, rfl⟩
  · rintro ⟨hfields, hwithdrawal, hindex, hheight, hhash, htimestamp⟩
    refine ⟨_, hfields, _, hwithdrawal, _, hindex, _, hheight, ?_⟩
    rw [← hhash, ← htimestamp]

/-- A row whose parameters are well formed is read as it is meant. -/
theorem archived_of_read (h : archivedAction decimal row = .ok action)
    (hwell : ∀ fields, row.withdrawalFields = some fields →
      ∃ withdrawal, Spells decimal fields withdrawal) : Archived decimal row action := by
  obtain ⟨hfields, hattached, hindex, hheight, hhash, htimestamp⟩ := archivedAction_eq_ok.mp h
  refine ⟨hfields, hindex, hheight, hhash, htimestamp, ?_⟩
  intro withdrawal
  cases hparameters : row.withdrawalFields with
  | none =>
    rw [hparameters, attachedWithdrawal, pure_eq_ok] at hattached
    rw [← hattached]
    simp only [reduceCtorEq, false_and, exists_const]
  | some fields =>
    rw [hparameters, attachedWithdrawal, map_eq_ok] at hattached
    obtain ⟨parsed, hparsed, hread⟩ := hattached
    obtain ⟨meant, hmeant⟩ := hwell fields hparameters
    have hspelled := parseWithdrawal_eq_ok.mpr hmeant
    rw [← hread, Option.some.injEq]
    constructor
    · rintro rfl
      have hsame : meant = parsed := Except.ok.inj (hspelled.1.symm.trans hparsed)
      exact ⟨fields, rfl, hsame ▸ hmeant⟩
    · rintro ⟨other, hother, hspells⟩
      obtain rfl := Option.some.inj hother
      exact Except.ok.inj (hparsed.symm.trans (parseWithdrawal_eq_ok.mpr hspells).1)

/-- The identities are resolved exactly when each one is, and then to its token. -/
theorem resolveTokenWithdrawalIdentities_eq_ok {identities : List TokenWithdrawalIdentity}
    {resolved : TokenWithdrawalIdentity → Option Address}
    (h : resolveTokenWithdrawalIdentities bridge registry identities = .ok resolved) :
    ∀ identity ∈ identities, ∃ token, resolveIdentity bridge registry identity = .ok token ∧
      resolved identity = some token := by
  simp only [resolveTokenWithdrawalIdentities, bind_eq_ok, pure_eq_ok] at h
  obtain ⟨tokens, htokens, rfl⟩ := h
  exact fun identity hmem => lookup_zip (mapM_eq_ok.mp htokens) hmem

/-- The identities are resolved exactly when each one is. -/
theorem succeeds_resolveTokenWithdrawalIdentities {identities : List TokenWithdrawalIdentity} :
    Succeeds (resolveTokenWithdrawalIdentities bridge registry identities) ↔
      ∀ identity ∈ identities, Succeeds (resolveIdentity bridge registry identity) := by
  rw [← succeeds_mapM, resolveTokenWithdrawalIdentities, succeeds_bind]
  simp only [succeeds_pure, and_true]
  rfl

/-- An action of a page is a withdrawal that is not settled. -/
theorem pendingAction_spec {request : ListingRequest}
    (h : pendingAction settled request action = true) :
    (action.globalActionIndex.toNat : ℤ) ∉ settled ∧ ∃ withdrawal, action.withdrawal = some withdrawal := by
  unfold pendingAction at h
  by_cases hpast : (action.globalActionIndex.toNat : ℤ) ∈ settled ∨
      request.after.any (action.globalActionIndex ≤ ·) = true
  · rw [if_pos hpast] at h
    cases h
  · rw [if_neg hpast] at h
    refine ⟨fun hsettled => hpast (Or.inl hsettled), ?_⟩
    cases hwithdrawal : action.withdrawal with
    | none =>
      rw [hwithdrawal] at h
      cases h
    | some withdrawal => exact ⟨withdrawal, rfl⟩

/-- The token withdrawal of an action is its withdrawal. -/
theorem tokenOf_eq_some {withdrawal : ArchiveTokenWithdrawal} :
    tokenOf action = some withdrawal ↔ action.withdrawal = some (.token withdrawal) := by
  unfold tokenOf
  split
  · rename_i other hother
    rw [hother, Option.some.injEq, Option.some.injEq, ArchiveWithdrawal.token.injEq]
  · rename_i hother
    constructor
    · intro h
      cases h
    · intro h
      exact absurd h (hother withdrawal)

/-- The line of an action whose asset is known. -/
theorem pendingWithdrawal_listed {resolved : TokenWithdrawalIdentity → Option Address}
    (h : ∀ withdrawal, action.withdrawal = some (.token withdrawal) → ∃ token,
      resolveIdentity bridge registry (tokenWithdrawalIdentity withdrawal) = .ok token ∧
        resolved (tokenWithdrawalIdentity withdrawal) = some token) :
    pendingWithdrawal resolved action = .ok (listedAs bridge registry action) ∧
      (action.withdrawal ≠ none → (listedAs bridge registry action).isSome) := by
  unfold listedAs pendingWithdrawal
  cases hwithdrawal : action.withdrawal with
  | none => exact ⟨rfl, fun hsome => absurd rfl hsome⟩
  | some withdrawal =>
    cases withdrawal with
    | native withdrawal => exact ⟨rfl, fun _ => rfl⟩
    | token withdrawal =>
      obtain ⟨token, htoken, hresolved⟩ := h withdrawal hwithdrawal
      simp only [htoken, hresolved]
      exact ⟨rfl, fun _ => rfl⟩

/-- The lines of a page whose assets are all known are the lines asked for. -/
theorem pendingWithdrawals_listed {request : ListingRequest} {actions : List PlacedInnerAction}
    (hload : loadArchiveInnerActions decimal rows = .ok actions)
    (hknown : ∀ action ∈ actions, ∀ withdrawal, action.withdrawal = some (.token withdrawal) →
      (action.globalActionIndex.toNat : ℤ) ∉ settled →
      Succeeds (resolveIdentity bridge registry (tokenWithdrawalIdentity withdrawal))) :
    pendingWithdrawals bridge registry decimal rows settled request =
      .ok (expectedPage bridge registry settled request actions) := by
  have hpage : ∀ action ∈ pendingActionPage actions settled request, action ∈ actions ∧
      pendingAction settled request action = true := fun action haction =>
    List.mem_filter.mp (List.mem_of_mem_take haction)
  have hidentities : ∀ identity ∈ uniqueTokenWithdrawalIdentities
      ((pendingActionPage actions settled request).filterMap tokenOf),
      Succeeds (resolveIdentity bridge registry identity) := by
    intro identity hidentity
    rw [uniqueTokenWithdrawalIdentities, List.mem_eraseDups, List.mem_map] at hidentity
    obtain ⟨withdrawal, hwithdrawal, rfl⟩ := hidentity
    obtain ⟨action, haction, htoken⟩ := List.mem_filterMap.mp hwithdrawal
    obtain ⟨hmem, hpending⟩ := hpage action haction
    exact hknown action hmem withdrawal (tokenOf_eq_some.mp htoken) (pendingAction_spec hpending).1
  obtain ⟨resolved, hresolve⟩ := succeeds_resolveTokenWithdrawalIdentities.mpr hidentities
  have hlines : ∀ action ∈ pendingActionPage actions settled request,
      pendingWithdrawal resolved action = .ok (listedAs bridge registry action) ∧
        (listedAs bridge registry action).isSome := by
    intro action haction
    obtain ⟨-, hpending⟩ := hpage action haction
    obtain ⟨withdrawal, hwithdrawal⟩ := (pendingAction_spec hpending).2
    have htokens : ∀ withdrawal, action.withdrawal = some (.token withdrawal) → ∃ token,
        resolveIdentity bridge registry (tokenWithdrawalIdentity withdrawal) = .ok token ∧
          resolved (tokenWithdrawalIdentity withdrawal) = some token := by
      intro withdrawal hwithdrawal
      apply resolveTokenWithdrawalIdentities_eq_ok hresolve
      rw [uniqueTokenWithdrawalIdentities, List.mem_eraseDups]
      exact List.mem_map_of_mem (List.mem_filterMap.mpr
        ⟨action, haction, tokenOf_eq_some.mpr hwithdrawal⟩)
    obtain ⟨hline, hsome⟩ := pendingWithdrawal_listed htokens
    refine ⟨hline, hsome ?_⟩
    rw [hwithdrawal]
    exact Option.some_ne_none _
  have hmapped : (pendingActionPage actions settled request).mapM (pendingWithdrawal resolved) =
      .ok ((pendingActionPage actions settled request).map (listedAs bridge registry)) := by
    rw [mapM_eq_ok, List.forall₂_map_right_iff, List.forall₂_same]
    exact fun action haction => (hlines action haction).1
  have hexpected : expectedPage bridge registry settled request actions =
      ((pendingActionPage actions settled request).map (listedAs bridge registry)).reduceOption := by
    rw [expectedPage, take_filterMap fun action haction => (hlines action haction).2,
      List.reduceOption, List.filterMap_map]
    rfl
  simp only [pendingWithdrawals, bind_eq_ok, pure_eq_ok]
  exact ⟨actions, hload, _, hresolve, _, hmapped, hexpected.symm⟩

/-- The listing is right exactly when no row holds anything else than well-formed
parameters and Ethereum knows every asset that is not settled. -/
theorem lists_well_formed_iff (decimal : String → Except String Bytes32) (bridge : BridgeStorage)
    (registry : RegistryLayout) (rows : List ArchiveRow) (settled : List ℤ) :
    ListsWellFormed decimal bridge registry rows settled ↔
      NothingMalformed decimal bridge registry rows settled := by
  constructor
  · rintro ⟨actions, harchived, hload, hlisted⟩
    have hrows : ∀ row ∈ rows, ∃ action ∈ actions, archivedAction decimal row = .ok action ∧
        Archived decimal row action := by
      intro row hrow
      have hboth : List.Forall₂ (fun row action => archivedAction decimal row = .ok action ∧
          Archived decimal row action) rows actions :=
        List.Forall₂.mp (fun _ _ hread hmeant => ⟨hread, hmeant⟩) (mapM_eq_ok.mp hload) harchived
      exact exists_of_mem_left hboth hrow
    have hpreimages : ∀ row ∈ rows, ∀ fields, row.withdrawalFields = some fields →
        ∃ withdrawal, Spells decimal fields withdrawal := by
      intro row hrow fields hfields
      obtain ⟨action, -, hread, hmeant⟩ := hrows row hrow
      obtain ⟨-, hattached, -⟩ := archivedAction_eq_ok.mp hread
      rw [hfields, attachedWithdrawal, map_eq_ok] at hattached
      obtain ⟨withdrawal, -, hsome⟩ := hattached
      obtain ⟨other, hother, hspells⟩ := (hmeant.withdrawal withdrawal).mp hsome.symm
      obtain rfl := Option.some.inj (hfields.symm.trans hother)
      exact ⟨withdrawal, hspells⟩
    refine ⟨?_, hpreimages, ?_⟩
    · intro row hrow
      obtain ⟨action, -, -, hmeant⟩ := hrows row hrow
      exact ⟨⟨_, hmeant.fields⟩, ⟨_, hmeant.globalActionIndex⟩, ⟨_, hmeant.blockHeight⟩⟩
    · intro row hrow fields hfields withdrawal hspells hopen
      obtain ⟨action, haction, -, hmeant⟩ := hrows row hrow
      have hwithdrawal := (hmeant.withdrawal (.token withdrawal)).mpr ⟨fields, hfields, hspells⟩
      have hlist := hlisted ⟨true, none, none, actions.length⟩
      simp only [pendingWithdrawals, hload, bind_eq_ok, Except.ok.injEq, exists_eq_left'] at hlist
      obtain ⟨resolved, hresolved, -⟩ := hlist
      have hindex : (action.globalActionIndex.toNat : ℤ) = row.globalActionIndex :=
        (toU32_eq_ok.mp hmeant.globalActionIndex).symm
      have hpending : pendingAction settled ⟨true, none, none, actions.length⟩ action = true := by
        have hpast : ¬((action.globalActionIndex.toNat : ℤ) ∈ settled ∨
            (none : Option (BitVec 32)).any (action.globalActionIndex ≤ ·) = true) := by
          intro hsettled
          rcases hsettled with hsettled | hafter
          · exact hopen (hindex ▸ hsettled)
          · cases hafter
        rw [pendingAction, if_neg hpast, hwithdrawal]
        rfl
      have hpage : action ∈ pendingActionPage actions settled ⟨true, none, none, actions.length⟩ := by
        rw [pendingActionPage, List.take_of_length_le (List.length_filter_le _ _)]
        exact List.mem_filter.mpr ⟨haction, hpending⟩
      refine succeeds_resolveTokenWithdrawalIdentities.mp ⟨resolved, hresolved⟩ _ ?_
      rw [uniqueTokenWithdrawalIdentities, List.mem_eraseDups]
      exact List.mem_map_of_mem (List.mem_filterMap.mpr
        ⟨action, hpage, tokenOf_eq_some.mpr hwithdrawal⟩)
  · intro h
    have hread : ∀ row ∈ rows, Succeeds (archivedAction decimal row) := by
      intro row hrow
      obtain ⟨⟨fields, hfields⟩, ⟨index, hindex⟩, ⟨height, hheight⟩⟩ := h.columns row hrow
      have hattached : Succeeds (attachedWithdrawal decimal row.withdrawalFields) := by
        cases hparameters : row.withdrawalFields with
        | none => exact succeeds_pure
        | some parameters =>
          obtain ⟨withdrawal, hspells⟩ := h.preimages row hrow parameters hparameters
          exact ⟨some withdrawal,
            map_eq_ok.mpr ⟨withdrawal, (parseWithdrawal_eq_ok.mpr hspells).1, rfl⟩⟩
      obtain ⟨withdrawal, hwithdrawal⟩ := hattached
      exact ⟨⟨⟨index, fields, withdrawal⟩, row.hash, height, row.timestamp⟩,
        archivedAction_eq_ok.mpr ⟨hfields, hwithdrawal, hindex, hheight, rfl, rfl⟩⟩
    obtain ⟨actions, hload⟩ := succeeds_mapM.mpr hread
    have hrows := mapM_eq_ok.mp hload
    have harchived : List.Forall₂ (Archived decimal) rows actions :=
      List.forall₂_iff_zip.mpr ⟨hrows.length_eq, fun hpair =>
        archived_of_read (List.forall₂_zip hrows hpair)
          (h.preimages _ (List.of_mem_zip hpair).1)⟩
    refine ⟨actions, harchived, hload, fun request => pendingWithdrawals_listed hload ?_⟩
    intro action haction withdrawal hwithdrawal hopen
    have hflipped : List.Forall₂ (flip (Archived decimal)) actions rows :=
      List.Forall₂.flip harchived
    obtain ⟨row, hrow, hmeant⟩ := exists_of_mem_left hflipped haction
    obtain ⟨fields, hfields, hspells⟩ := (hmeant.withdrawal _).mp hwithdrawal
    refine h.registered row hrow fields hfields withdrawal hspells ?_
    rw [toU32_eq_ok.mp hmeant.globalActionIndex]
    exact hopen

end Equivalence

/-- The number of at most 256 bits that decimal digits spell. -/
def decimalWord (field : String) : Except String Bytes32 := do
  let value ← field.toList.foldlM (fun (value : ℕ) (digit : Char) =>
    if digit.isDigit then pure (value * 10 + (digit.toNat - 48))
    else throw "invalid digit") 0
  require (value < 2 ^ 256) "number too large to fit in target type"
  pure (BitVec.ofNat 256 value)

/-- A withdrawal of five units. -/
def plainRow : ArchiveRow := ⟨0, "5Jplain", 1, "1700000000000", ["0", "11", "0"],
  some ["17", "0", "5"]⟩

/-- The same parameters of another user, with an odd parity. -/
def oddRow : ArchiveRow := ⟨1, "5Jodd", 2, "1700000060000", ["0", "12", "0"],
  some ["18", "1", "5"]⟩

/-- A withdrawal of a token that no one registered. -/
def unknownTokenRow : ArchiveRow := ⟨0, "5Jtoken", 1, "1700000000000", ["0", "13", "0"],
  some ["2", "0", "9", "0", "7", "0", "0", "0", "0", "0", "0", "5", "17", "0"]⟩

/-- A well-formed withdrawal is hidden by another action whose parity is odd: the
archive is not read at all. A well-formed withdrawal of a token that Ethereum does
not know fails the whole listing of token withdrawals instead of staying out of
it. -/
theorem odd_parity_hides_withdrawals :
    Spells decimalWord ["17", "0", "5"] (.native ⟨17, 5⟩) ∧
    loadArchiveInnerActions decimalWord [plainRow, oddRow] =
      .error "Ethereum withdrawal recipient must use even parity" ∧
    ¬ ListsWellFormed decimalWord BridgeStorage.zero RegistryLayout.zero [plainRow, oddRow] [] ∧
    pendingWithdrawals BridgeStorage.zero RegistryLayout.zero decimalWord [unknownTokenRow] []
      ⟨true, none, none, 20⟩ = .error "archived ERC20 token is zero" ∧
    ¬ ListsWellFormed decimalWord BridgeStorage.zero RegistryLayout.zero [unknownTokenRow] [] := by
  have hload : loadArchiveInnerActions decimalWord [plainRow, oddRow] =
      .error "Ethereum withdrawal recipient must use even parity" := by decide
  have hlist : pendingWithdrawals BridgeStorage.zero RegistryLayout.zero decimalWord
      [unknownTokenRow] [] ⟨true, none, none, 20⟩ = .error "archived ERC20 token is zero" := by
    decide
  have hwords : ["17", "0", "5"].mapM decimalWord =
      .ok [toWord (17 : Address), 0, toWord (5 : BitVec 64)] := by decide
  refine ⟨.native hwords (by decide) (by decide), hload, ?_, hlist, ?_⟩
  · rintro ⟨actions, -, hread, -⟩
    rw [hload] at hread
    cases hread
  · rintro ⟨actions, -, -, hlisted⟩
    have hlines := hlisted ⟨true, none, none, 20⟩
    rw [hlist] at hlines
    cases hlines

end EthereumSettlement.ArchiveListing
