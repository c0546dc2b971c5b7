import EthereumSettlement.ArchiveListing
import EthereumSettlement.RegistryAppends
import EthereumSettlement.WithdrawalPreimages

/-!
# Parsed and proved withdrawals

The gateway's parser reads the parameters of a withdrawal backwards, and the guest
checks metadata forwards against the same parameters. On the fourteen words of a
token withdrawal and on the three of a native one both draw every boundary at the
same place: what the one reads off is what the other accepts, and nothing else. The
parameters are field elements, and the parser's decimal columns read as them.
-/

namespace EthereumSettlement.WithdrawalParsing

open ByteWords CheckedCalls PastaPoseidon InnerActionCommitment InnerActionRows RegistryCheckpoint
open SettlementReceipt HashCommitments ReceiptBinding RegistryAppends ArchiveListing
open WithdrawalPreimages StepEffects ReferenceHashes

section Words

/-- The element of a short value is encoded by the value's word. -/
theorem fieldToBytes_natCast {w : ℕ} (hw : w ≤ 160) (value : BitVec w) :
    fieldToBytes (value.toNat : StepField) = toWord value := by
  have hlt := canonical_iff_lt.mp (canonical_toWord hw value)
  rw [toWord_toNat (by omega)] at hlt
  apply BitVec.eq_of_toNat_eq
  rw [fieldToBytes_toNat, ZMod.val_natCast, Nat.mod_eq_of_lt hlt, toWord_toNat (by omega)]

/-- An element is that of a short value exactly when its word is the value's. -/
theorem eq_natCast_iff {w : ℕ} (hw : w ≤ 160) {value : BitVec w} {element : StepField} :
    element = (value.toNat : StepField) ↔ fieldToBytes element = toWord value := by
  rw [← fieldToBytes_natCast hw]
  constructor
  · intro h
    rw [h]
  · intro h
    exact fieldToBytes_injective h

/-- An address is read as the element of its number. -/
theorem fieldFromAddress_eq (address : Address) :
    fieldFromAddress address = .ok (address.toNat : StepField) :=
  fieldFromBytes_eq_ok.mpr (fieldToBytes_natCast (by decide) address)

/-- An element is the one read from a word exactly when the word encodes it. -/
theorem read_eq_iff {word : Bytes32} {element : StepField} {rest : Prop} :
    (∃ value, fieldFromBytes word = .ok value ∧ element = value ∧ rest) ↔
      fieldToBytes element = word ∧ rest := by
  constructor
  · intro h
    obtain ⟨value, hvalue, heq, hrest⟩ := h
    rw [heq]
    exact ⟨fieldFromBytes_eq_ok.mp hvalue, hrest⟩
  · intro h
    exact ⟨element, fieldFromBytes_eq_ok.mpr h.1, rfl, h.2⟩

/-- Only zero is encoded by the zero word. -/
theorem eq_zero_iff {element : StepField} : element = 0 ↔ fieldToBytes element = 0 := by
  have hzero : fieldToBytes (0 : StepField) = 0 := rfl
  constructor
  · intro h
    rw [h, hzero]
  · intro h
    exact fieldToBytes_injective (h.trans hzero.symm)

/-- Amounts above zero are those other than zero. -/
theorem amount_pos_iff {amount : BitVec 64} : 0 < amount ↔ amount ≠ 0 :=
  BitVec.pos_iff_ne_zero amount

/-- The high limb of an asset identifier made of two halves. -/
theorem highLimb_assetIdOf (high low : BitVec 128) : highLimb (assetIdOf high low) = toWord high :=
  congrArg toWord BitVec.extractLsb'_append_eq_left

/-- The low limb of an asset identifier made of two halves. -/
theorem lowLimb_assetIdOf (high low : BitVec 128) : lowLimb (assetIdOf high low) = toWord low :=
  congrArg toWord BitVec.extractLsb'_append_eq_right

/-- An asset identifier is made of its two halves. -/
theorem assetIdOf_halves (assetId : Bytes32) :
    assetIdOf (assetId.extractLsb' 128 128) (assetId.extractLsb' 0 128) = assetId := by
  have hhigh := highLimb_assetIdOf (assetId.extractLsb' 128 128) (assetId.extractLsb' 0 128)
  have hlow := lowLimb_assetIdOf (assetId.extractLsb' 128 128) (assetId.extractLsb' 0 128)
  exact limbs_injective hhigh hlow

end Words

section Tokens

variable {H : Hashes} {decimal : String → Except String Bytes32} {fields : List String}

/-- The guest's metadata for a parsed token withdrawal: its own values, a token
contract and the parameters. -/
def tokenMetadataOf (token : Address) (params : List StepField)
    (withdrawal : ArchiveTokenWithdrawal) : TokenWithdrawalV3 where
  encodingVersion := withdrawal.encodingVersion
  registryIndex := withdrawal.registryIndex
  recordCommitment := withdrawal.recordCommitment
  token := token
  assetId := withdrawal.assetId
  recipient := withdrawal.recipient
  amount := withdrawal.amount
  paramsFields := params.map fieldToBytes

/-- The parameters carry the values of a token withdrawal. -/
structure TokenParameters (params : List StepField) (withdrawal : ArchiveTokenWithdrawal) : Prop where
  /-- It has the second encoding. -/
  encodingVersion_eq : withdrawal.encodingVersion = erc20ActionEncodingV2
  /-- The first parameter is the encoding version. -/
  version : fieldToBytes (params.getD 0 0) = toWord erc20ActionEncodingV2
  /-- The second is the registry index. -/
  registryIndex : fieldToBytes (params.getD 1 0) = toWord withdrawal.registryIndex
  /-- The third is the record commitment. -/
  recordCommitment : fieldToBytes (params.getD 2 0) = withdrawal.recordCommitment
  /-- The fourth is the upper half of the asset. -/
  assetHigh : fieldToBytes (params.getD 3 0) = highLimb withdrawal.assetId
  /-- The fifth is the lower half of the asset. -/
  assetLow : fieldToBytes (params.getD 4 0) = lowLimb withdrawal.assetId
  /-- The twelfth is the amount. -/
  amount : fieldToBytes (params.getD 11 0) = toWord withdrawal.amount
  /-- The thirteenth is the recipient. -/
  recipient : fieldToBytes (params.getD 12 0) = toWord withdrawal.recipient
  /-- The last is zero. -/
  parity : fieldToBytes (params.getD 13 0) = 0
  /-- The record's commitment is not zero. -/
  commitment_ne : withdrawal.recordCommitment ≠ 0
  /-- The asset is not zero. -/
  asset_ne : withdrawal.assetId ≠ 0
  /-- Something is paid. -/
  amount_ne : withdrawal.amount ≠ 0

/-- The parser returns a token withdrawal exactly from parameters that carry it and
name a recipient. -/
theorem parseTokenWithdrawal_iff {params : List StepField} (hlength : params.length = 14)
    (hread : fields.mapM decimal = .ok (params.map fieldToBytes))
    {withdrawal : ArchiveTokenWithdrawal} :
    parseTokenWithdrawal decimal fields = .ok withdrawal ↔
      withdrawal.recipient ≠ 0 ∧ TokenParameters params withdrawal := by
  obtain ⟨a, b, c, d, e, m, n, o, p, q, r, x, y, z, rfl⟩ := exists_of_length_fourteen hlength
  rw [parseTokenWithdrawal_eq_ok]
  constructor
  · intro h
    cases h with
    | @token index commitment high low middle address value words width hcommitment hasset hrecipient
        hamount =>
      have hwords := Except.ok.inj (hread.symm.trans words)
      obtain ⟨_, _, _, _, _, _, rfl⟩ := exists_of_length_six width
      simp only [List.map_cons, List.map_nil, List.cons_append, List.nil_append, List.cons.injEq,
        and_true] at hwords
      obtain ⟨ha, hb, hc, hd, he, -, -, -, -, -, -, hx, hy, hz⟩ := hwords
      exact ⟨hrecipient, {
        encodingVersion_eq := rfl
        version := ha
        registryIndex := hb
        recordCommitment := hc
        assetHigh := hd.trans (highLimb_assetIdOf high low).symm
        assetLow := he.trans (lowLimb_assetIdOf high low).symm
        amount := hx
        recipient := hy
        parity := hz
        commitment_ne := hcommitment
        asset_ne := hasset
        amount_ne := hamount }⟩
  · intro h
    obtain ⟨hrecipient, hparams⟩ := h
    obtain ⟨version, index, commitment, assetId, address, value⟩ := withdrawal
    have hversion : version = erc20ActionEncodingV2 := hparams.encodingVersion_eq
    have hcommitment : fieldToBytes c = commitment := hparams.recordCommitment
    have hwords : [a, b, c, d, e, m, n, o, p, q, r, x, y, z].map fieldToBytes =
        [toWord erc20ActionEncodingV2, toWord index, commitment,
          toWord (assetId.extractLsb' 128 128), toWord (assetId.extractLsb' 0 128)] ++
          [m, n, o, p, q, r].map fieldToBytes ++ [toWord value, toWord address, 0] := by
      simp only [List.map_cons, List.map_nil, List.cons_append, List.nil_append, List.cons.injEq,
        and_true, true_and]
      exact ⟨hparams.version, hparams.registryIndex, hcommitment, hparams.assetHigh,
        hparams.assetLow, hparams.amount, hparams.recipient, hparams.parity⟩
    have hspells := Spells.token (hread.trans (congrArg Except.ok hwords)) rfl
      hparams.commitment_ne (by rw [assetIdOf_halves]; exact hparams.asset_ne) hrecipient
      hparams.amount_ne
    rw [assetIdOf_halves] at hspells
    rw [hversion]
    exact hspells

/-- The guest accepts metadata with the parameters exactly when they carry it and the
action's auxiliary field is their hash. -/
theorem assertErc20WithdrawalPreimage_iff {params : List StepField} (hlength : params.length = 14)
    {action : List StepField} {token : Address} (htoken : token ≠ 0)
    {withdrawal : ArchiveTokenWithdrawal} :
    assertErc20WithdrawalPreimage H action (tokenMetadataOf token params withdrawal) = .ok () ↔
      TokenParameters params withdrawal ∧
        action.getD 1 0 = hashWithPrefix H "Ethereum ERC20 withdrawal V2" params := by
  have hread : (tokenMetadataOf token params withdrawal).paramsFields.mapM fieldFromBytes =
      .ok params := mapM_fieldToBytes params
  simp only [assertErc20WithdrawalPreimage, hread, bind_eq_ok, require_eq_ok, exists_const,
    Except.ok.injEq, exists_eq_left', hlength, fieldFromAddress_eq]
  rw [read_eq_iff, read_eq_iff, read_eq_iff, eq_natCast_iff (by decide),
    eq_natCast_iff (by decide), eq_natCast_iff (by decide), eq_natCast_iff (by decide),
    eq_zero_iff, amount_pos_iff]
  constructor
  · intro h
    obtain ⟨-, hasset, hamount, -, hencoding, hcommitment, hversion, hindex, hrecord, hhigh, hlow,
      hvalue, hrecipient, hparity, haux⟩ := h
    exact ⟨{
      encodingVersion_eq := hencoding
      version := hversion
      registryIndex := hindex
      recordCommitment := hrecord
      assetHigh := hhigh
      assetLow := hlow
      amount := hvalue
      recipient := hrecipient
      parity := hparity
      commitment_ne := hcommitment
      asset_ne := hasset
      amount_ne := hamount }, haux⟩
  · intro h
    obtain ⟨hparams, haux⟩ := h
    exact ⟨htoken, hparams.asset_ne, hparams.amount_ne, by decide, hparams.encodingVersion_eq,
      hparams.commitment_ne, hparams.version, hparams.registryIndex, hparams.recordCommitment,
      hparams.assetHigh, hparams.assetLow, hparams.amount, hparams.recipient, hparams.parity, haux⟩

end Tokens

section Natives

variable {H : Hashes} {decimal : String → Except String Bytes32} {fields : List String}

/-- The domain text of native withdrawal parameters. -/
def nativePrefix : String := "Withdrawal_params - qFB3jXP*)"

/-- The preimage of a native withdrawal's auxiliary field: no children, the amount and
the compressed recipient. -/
def nativeParams (recipient parity amount : StepField) : List StepField :=
  [0, amount, recipient, parity]

/-- The elements of a parsed native withdrawal. -/
def nativeParamsOf (withdrawal : ArchiveNativeWithdrawal) : List StepField :=
  nativeParams withdrawal.recipient.toNat 0 withdrawal.amount.toNat

/-- The parser returns a native withdrawal exactly from its own parameters. -/
theorem parseNativeWithdrawal_iff {recipient parity amount : StepField}
    (hread : fields.mapM decimal =
      .ok [fieldToBytes recipient, fieldToBytes parity, fieldToBytes amount])
    {withdrawal : ArchiveNativeWithdrawal} :
    parseNativeWithdrawal decimal fields = .ok withdrawal ↔
      withdrawal.amount ≠ 0 ∧ nativeParams recipient parity amount = nativeParamsOf withdrawal := by
  have heven : parity = 0 ↔ fieldToBytes parity = 0 := eq_zero_iff
  rw [parseNativeWithdrawal_eq_ok, hread]
  simp only [Except.ok.injEq, List.cons.injEq, and_true, nativeParamsOf, nativeParams, true_and,
    eq_natCast_iff (show 160 ≤ 160 by decide), eq_natCast_iff (show 64 ≤ 160 by decide),
    heven]
  constructor
  · intro h
    obtain ⟨⟨hrecipient, hparity, hamount⟩, hnonzero⟩ := h
    exact ⟨hnonzero, hamount, hrecipient, hparity⟩
  · intro h
    obtain ⟨hnonzero, hamount, hrecipient, hparity⟩ := h
    exact ⟨⟨hrecipient, hparity, hamount⟩, hnonzero⟩

/-- The guest accepts a native withdrawal exactly when the action's auxiliary field is
the hash of its parameters. -/
theorem assertNativeWithdrawalPreimage_iff {action : List StepField}
    {withdrawal : ArchiveNativeWithdrawal} :
    assertNativeWithdrawalPreimage H action ⟨withdrawal.recipient, withdrawal.amount⟩ = .ok () ↔
      withdrawal.amount ≠ 0 ∧
        action.getD 1 0 = hashWithPrefix H nativePrefix (nativeParamsOf withdrawal) := by
  simp only [assertNativeWithdrawalPreimage, bind_eq_ok, require_eq_ok, exists_const,
    fieldFromAddress_eq, Except.ok.injEq, exists_eq_left', amount_pos_iff]
  rfl

/-- Parameters of native withdrawals with one hash are equal, if the hash does not
collide on them. -/
theorem nativeParams_injective {first second : List StepField} (hfirst : first.length = 4)
    (hsecond : second.length = 4)
    (hcf : PrefixedCollisionFree H [(nativePrefix, first), (nativePrefix, second)])
    (h : hashWithPrefix H nativePrefix first = hashWithPrefix H nativePrefix second) :
    first = second := by
  have heven : ∀ input : List StepField, input.length = 4 → evenInput input = input := by
    intro input hlength
    rw [evenInput, if_neg (by omega)]
  have hpair := hcf (nativePrefix, evenInput first) (by simp) (nativePrefix, evenInput second)
    (by simp) (by rw [heven first hfirst, heven second hsecond]; exact h)
  rw [heven first hfirst, heven second hsecond] at hpair
  exact (Prod.mk.inj hpair).2

end Natives

section Agreement

variable {H : Hashes} {decimal : String → Except String Bytes32} {fields : List String}

/-- What metadata of the guest says of a token withdrawal, the contract apart. -/
def archivedToken (withdrawal : TokenWithdrawalV3) : ArchiveTokenWithdrawal :=
  ⟨withdrawal.encodingVersion, withdrawal.registryIndex, withdrawal.recordCommitment,
    withdrawal.assetId, withdrawal.recipient, withdrawal.amount⟩

/-- What metadata of the guest says of a native withdrawal. -/
def archivedNative (withdrawal : NativeWithdrawalV2) : ArchiveNativeWithdrawal :=
  ⟨withdrawal.recipient, withdrawal.amount⟩

/-- A token withdrawal that the guest accepts with fourteen parameters and a recipient
is listed as itself. -/
theorem listed_of_token {action : List StepField} {withdrawal : TokenWithdrawalV3}
    (haccepted : assertErc20WithdrawalPreimage H action withdrawal = .ok ())
    (hrecipient : withdrawal.recipient ≠ 0) (hlength : withdrawal.paramsFields.length = 14)
    (hread : fields.mapM decimal = .ok withdrawal.paramsFields) :
    parseWithdrawal decimal fields = .ok (.token (archivedToken withdrawal)) := by
  obtain ⟨params, hpreimage⟩ := tokenPreimage_input haccepted
  have hwords := mapM_eq_ok.mp hpreimage.params_eq
  have hparams : params.map fieldToBytes = withdrawal.paramsFields := by
    have hencoded : ∀ {words : List Bytes32} {elements : List StepField},
        List.Forall₂ (fun word element => fieldFromBytes word = .ok element) words elements →
          elements.map fieldToBytes = words := by
      intro words elements h
      induction h with
      | nil => rfl
      | cons hhead _ ih => rw [List.map_cons, ih, fieldFromBytes_eq_ok.mp hhead]
    exact hencoded hwords
  have hfourteen : params.length = 14 := by
    rw [← hwords.length_eq]
    exact hlength
  have hmetadata : withdrawal =
      tokenMetadataOf withdrawal.token params (archivedToken withdrawal) := by
    rw [tokenMetadataOf, hparams]
    rfl
  have htoken : withdrawal.token ≠ 0 := by
    simp only [assertErc20WithdrawalPreimage, bind_eq_ok, require_eq_ok, exists_const] at haccepted
    exact haccepted.1
  rw [hmetadata] at haccepted
  rw [← hparams] at hread
  have hcarried := ((assertErc20WithdrawalPreimage_iff hfourteen htoken).mp haccepted).1
  have hparsed := (parseTokenWithdrawal_iff hfourteen hread).mpr ⟨hrecipient, hcarried⟩
  have hfields : fields.length = 14 := by
    rw [(mapM_eq_ok.mp hread).length_eq, List.length_map]
    exact hfourteen
  rw [parseWithdrawal, if_neg (by omega), hparsed]
  rfl

/-- A native withdrawal that the guest accepts is listed as itself. -/
theorem listed_of_native {action : List StepField} {withdrawal : NativeWithdrawalV2}
    (haccepted : assertNativeWithdrawalPreimage H action withdrawal = .ok ())
    (hread : fields.mapM decimal = .ok [toWord withdrawal.recipient, 0, toWord withdrawal.amount]) :
    parseWithdrawal decimal fields = .ok (.native (archivedNative withdrawal)) := by
  have harchived : assertNativeWithdrawalPreimage H action
      ⟨(archivedNative withdrawal).recipient, (archivedNative withdrawal).amount⟩ = .ok () := haccepted
  have hamount : withdrawal.amount ≠ 0 := (assertNativeWithdrawalPreimage_iff.mp harchived).1
  have hparsed : parseNativeWithdrawal decimal fields = .ok (archivedNative withdrawal) :=
    parseNativeWithdrawal_eq_ok.mpr ⟨hread, hamount⟩
  have hfields : fields.length = 3 := (mapM_eq_ok.mp hread).length_eq
  rw [parseWithdrawal, if_pos hfields, hparsed]
  rfl

/-- The archive's parser agrees with the guest. On strings that read as fourteen field
elements the parser returns a token withdrawal exactly when it has a recipient and the
guest accepts it with these elements as parameters, whatever the token contract, for
the action whose auxiliary field is their hash. On strings that read as a recipient, a
parity and an amount it returns a native withdrawal exactly when the guest accepts it
for the action whose auxiliary field is their hash, unless that hash collides. So what
the guest accepts is listed as itself. -/
theorem parser_agrees (H : Hashes) (decimal : String → Except String Bytes32) :
    (∀ params : List StepField, params.length = 14 →
      ∀ fields : List String, fields.mapM decimal = .ok (params.map fieldToBytes) →
      ∀ action : List StepField,
        action.getD 1 0 = hashWithPrefix H "Ethereum ERC20 withdrawal V2" params →
      ∀ token : Address, token ≠ 0 → ∀ withdrawal : ArchiveTokenWithdrawal,
        (parseTokenWithdrawal decimal fields = .ok withdrawal ↔
          withdrawal.recipient ≠ 0 ∧
          assertErc20WithdrawalPreimage H action (tokenMetadataOf token params withdrawal) =
            .ok ())) ∧
    (∀ (recipient parity amount : StepField) (fields : List String),
      fields.mapM decimal =
        .ok [fieldToBytes recipient, fieldToBytes parity, fieldToBytes amount] →
      ∀ action : List StepField,
        action.getD 1 0 =
          hashWithPrefix H nativePrefix (nativeParams recipient parity amount) →
      ∀ withdrawal : ArchiveNativeWithdrawal,
        PrefixedCollisionFree H [(nativePrefix, nativeParams recipient parity amount),
          (nativePrefix, nativeParamsOf withdrawal)] →
        (parseNativeWithdrawal decimal fields = .ok withdrawal ↔
          assertNativeWithdrawalPreimage H action ⟨withdrawal.recipient, withdrawal.amount⟩ =
            .ok ())) ∧
    (∀ (action : List StepField) (withdrawal : TokenWithdrawalV3) (fields : List String),
      assertErc20WithdrawalPreimage H action withdrawal = .ok () → withdrawal.recipient ≠ 0 →
      withdrawal.paramsFields.length = 14 → fields.mapM decimal = .ok withdrawal.paramsFields →
        parseWithdrawal decimal fields = .ok (.token (archivedToken withdrawal))) ∧
    ∀ (action : List StepField) (withdrawal : NativeWithdrawalV2) (fields : List String),
      assertNativeWithdrawalPreimage H action withdrawal = .ok () →
      fields.mapM decimal = .ok [toWord withdrawal.recipient, 0, toWord withdrawal.amount] →
        parseWithdrawal decimal fields = .ok (.native (archivedNative withdrawal)) := by
  refine ⟨?_, ?_, fun _ _ _ => listed_of_token, fun _ _ _ => listed_of_native⟩
  · intro params hlength fields hread action haux token htoken withdrawal
    rw [parseTokenWithdrawal_iff hlength hread, assertErc20WithdrawalPreimage_iff hlength htoken]
    constructor
    · intro h
      exact ⟨h.1, h.2, haux⟩
    · intro h
      exact ⟨h.1, h.2.1⟩
  · intro recipient parity amount fields hread action haux withdrawal hcf
    rw [parseNativeWithdrawal_iff hread, assertNativeWithdrawalPreimage_iff, haux]
    constructor
    · intro h
      exact ⟨h.1, congrArg _ h.2⟩
    · intro h
      exact ⟨h.1, nativeParams_injective rfl rfl hcf h.2⟩

/-- `U256::from_str_radix` in base ten: underscores are passed over, and every other
character is a digit. -/
def fromDecimal (text : String) : Except String Bytes32 := do
  let value ← text.toList.foldlM (fun (value : ℕ) character =>
    if character = '_' then pure value
    else if character.isDigit then pure (10 * value + (character.toNat - 48))
    else throw "invalid digit") 0
  require (value < 2 ^ 256) "number too large"
  pure (BitVec.ofNat 256 value)

/-- Fourteen parameters of a token withdrawal. -/
def tokenParams : List StepField :=
  [2, 0, 9, 1, 4, 0, 0, 0, 0, 0, 0, 3, 5, 0].map Nat.cast

/-- The withdrawal that they carry. -/
def carriedToken : ArchiveTokenWithdrawal := ⟨2, 0, 9, assetIdOf 1 4, 5, 3⟩

/-- A token and a native withdrawal are read off their decimal columns and accepted by
the guest for the actions that commit to them. -/
theorem parser_agrees_small :
    parseTokenWithdrawal fromDecimal
        ["2", "0", "9", "1", "4", "0", "0", "0", "0", "0", "0", "3", "5", "0"] =
      .ok carriedToken ∧
    assertErc20WithdrawalPreimage referenceHashes
        [0, hashWithPrefix referenceHashes "Ethereum ERC20 withdrawal V2" tokenParams, 0]
        (tokenMetadataOf 10 tokenParams carriedToken) = .ok () ∧
    parseNativeWithdrawal fromDecimal ["5", "0", "7"] = .ok ⟨5, 7⟩ ∧
    assertNativeWithdrawalPreimage referenceHashes
        [0, hashWithPrefix referenceHashes nativePrefix (nativeParams 5 0 7), 0] ⟨5, 7⟩ =
      .ok () ∧
    parseWithdrawal fromDecimal ["5", "0", "7"] = .ok (.native ⟨5, 7⟩) := by
  obtain ⟨htokens, hnatives, -, hlisted⟩ := parser_agrees referenceHashes fromDecimal
  have hreads : ["2", "0", "9", "1", "4", "0", "0", "0", "0", "0", "0", "3", "5", "0"].mapM fromDecimal =
        .ok (tokenParams.map fieldToBytes) ∧
      ["5", "0", "7"].mapM fromDecimal = .ok [fieldToBytes 5, fieldToBytes 0, fieldToBytes 7] ∧
      parseTokenWithdrawal fromDecimal
        ["2", "0", "9", "1", "4", "0", "0", "0", "0", "0", "0", "3", "5", "0"] =
          .ok carriedToken ∧
      parseNativeWithdrawal fromDecimal ["5", "0", "7"] = .ok ⟨5, 7⟩ := by
    decide
  obtain ⟨htokenRead, hnativeRead, htoken, hnative⟩ := hreads
  have hcf : PrefixedCollisionFree referenceHashes [(nativePrefix, nativeParams 5 0 7),
      (nativePrefix, nativeParamsOf ⟨5, 7⟩)] := by
    decide +kernel
  have htokenAccepted := (htokens tokenParams rfl _ htokenRead
    [0, hashWithPrefix referenceHashes "Ethereum ERC20 withdrawal V2" tokenParams, 0] rfl 10
    (by decide) carriedToken).mp htoken
  have hnativeAccepted := (hnatives 5 0 7 _ hnativeRead
    [0, hashWithPrefix referenceHashes nativePrefix (nativeParams 5 0 7), 0] rfl ⟨5, 7⟩ hcf).mp
    hnative
  exact ⟨htoken, htokenAccepted.2, hnative, hnativeAccepted,
    hlisted _ ⟨5, 7⟩ _ hnativeAccepted hnativeRead⟩

end Agreement

end EthereumSettlement.WithdrawalParsing
