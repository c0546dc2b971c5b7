import EthereumSettlement.CanonicalJson
import EthereumSettlement.PastaPoseidon

/-!
# Digests of what the wallet approves

The wallet hashes the UTF-8 bytes of the canonical text of an approval. `TextEncoder`
replaces unpaired surrogates, but a canonical text has none, so its bytes determine it,
and with it the approval up to the order of keys and the sign of zero. The digest is a
parameter.
-/

namespace EthereumSettlement.ApprovalHashes

open ByteWords CanonicalJson CheckedCalls ExplorerPages FixedBytesText HashCommitments HexTexts
  JsStrings JsonTexts PastaPoseidon

/-- The character of a code unit that is not half of a pair. -/
def loneChar (c : CodeUnit) : Char := if isHigh c || isLow c then '\ufffd' else Char.ofNat c.toNat

/-- The character of a surrogate pair. -/
def pairChar (high low : CodeUnit) : Char :=
  Char.ofNat (0x10000 + (high.toNat - 0xd800) * 1024 + (low.toNat - 0xdc00))

/-- The characters that `TextEncoder` encodes. -/
def scalarValues : JsString → List Char
  | [] => []
  | [c] => [loneChar c]
  | high :: low :: rest =>
    if isHigh high && isLow low then pairChar high low :: scalarValues rest
    else loneChar high :: scalarValues (low :: rest)

/-- `TextEncoder.encode`. -/
def utf8Encode (text : JsString) : Bytes := textBytes (scalarValues text)

section

variable (sha256 : Bytes → Bytes32)

/-- `sha256Hex`. -/
def sha256Hex (value : JsString) : JsString :=
  (lowerHex (bytesOf (sha256 (utf8Encode value)))).flatMap unitsOf

/-- What is put into an approval. -/
structure Approval where
  /-- Whether the transaction is only signed. -/
  onlySign : Bool
  /-- The selected network. -/
  networkId : JsString
  /-- The connected account. -/
  signingPublicKey : JsString
  /-- The zkApp command. -/
  command : JsValue
  /-- The account that pays the fee. -/
  feePayer : JsString
  /-- The fee in nanomina. -/
  fee : JsString
  /-- The nonce of the fee payer. -/
  nonce : JsString
  /-- The last slot, if there is one. -/
  validUntil : Option JsString
  /-- The memo. -/
  memo : JsString

/-- `signingDomain`. -/
def signingDomain (networkID : JsString) : JsString :=
  if networkID = jsText "mina:mainnet" then jsText "mainnet"
  else if networkID = jsText "zeko:mainnet" then jsText "zeko-mainnet"
  else jsText "testnet"

/-- `signingPayload`. -/
def Approval.signingPayload (approval : Approval) : JsValue :=
  .object [(jsText "zkappCommand", approval.command),
    (jsText "feePayer", .object [(jsText "feePayer", .string approval.feePayer),
      (jsText "fee", .string approval.fee), (jsText "nonce", .string approval.nonce),
      (jsText "validUntil", approval.validUntil.elim .null .string),
      (jsText "memo", .string approval.memo)])]

/-- `approvalPayload`. -/
def Approval.approvalPayload (approval : Approval) : JsValue :=
  .object [(jsText "onlySign", .boolean approval.onlySign),
    (jsText "networkId", .string approval.networkId),
    (jsText "signatureDomain", .string (signingDomain approval.networkId)),
    (jsText "signingPublicKey", .string approval.signingPublicKey),
    (jsText "transaction", approval.signingPayload)]

/-- `payloadHash`. -/
def Approval.payloadHash (shortest : JsNumber → ℕ × ℤ) (approval : Approval) :
    Except String JsString := do
  let text ← canonicalJson shortest approval.approvalPayload
  pure (sha256Hex sha256 text)

end

/-- A text of characters. -/
def WellFormed (text : JsString) : Prop := ∃ chars : List Char, text = chars.flatMap unitsOf

/-- A code unit that is no surrogate is no half of a pair. -/
theorem surrogate_iff (c : CodeUnit) :
    isHigh c = false ∧ isLow c = false ↔ c.toNat < 0xd800 ∨ 0xdfff < c.toNat := by
  rw [← Bool.not_eq_true, ← Bool.not_eq_true, isHigh, isLow, Bool.and_eq_true, Bool.and_eq_true,
    decide_eq_true_eq, decide_eq_true_eq, decide_eq_true_eq, decide_eq_true_eq]
  omega

/-- The number of the character of a code unit that is no surrogate. -/
theorem toNat_ofNat_unit {c : CodeUnit} (h : isHigh c = false ∧ isLow c = false) :
    (Char.ofNat c.toNat).toNat = c.toNat := by
  have hrange := (surrogate_iff c).mp h
  have hlt := c.isLt
  have hvalid : c.toNat.isValidChar := by
    rcases hrange with hsmall | hlarge
    · exact Or.inl hsmall
    · exact Or.inr ⟨hlarge, by omega⟩
  rw [Char.ofNat, dif_pos hvalid]
  rfl

/-- The code units of the character of a code unit that is no surrogate. -/
theorem unitsOf_ofNat {c : CodeUnit} (h : isHigh c = false ∧ isLow c = false) :
    unitsOf (Char.ofNat c.toNat) = [c] := by
  have hlt := c.isLt
  rw [unitsOf, unitOf, toNat_ofNat_unit h, if_pos hlt, BitVec.ofNat_toNat, BitVec.setWidth_eq]

/-- A character of the basic plane is read from its code unit. -/
theorem loneChar_unitOf {c : Char} (h : c.toNat < 0x10000) :
    (isHigh (unitOf c) = false ∧ isLow (unitOf c) = false) ∧ loneChar (unitOf c) = c := by
  have hunit : (unitOf c).toNat = c.toNat := by
    rw [unitOf, BitVec.toNat_ofNat]
    omega
  have hvalid := c.valid
  have hrange : c.toNat < 0xd800 ∨ 0xdfff < c.toNat := by
    rcases hvalid with hsmall | hlarge
    · exact Or.inl hsmall
    · exact Or.inr hlarge.1
  have hnone := (surrogate_iff (unitOf c)).mpr (by rw [hunit]; exact hrange)
  refine ⟨hnone, ?_⟩
  rw [loneChar, hnone.1, hnone.2, hunit, Char.ofNat_toNat]
  rfl

/-- A code unit that is not the first half of a pair is read alone. -/
theorem scalarValues_cons {c : CodeUnit} (h : isHigh c = false) (rest : JsString) :
    scalarValues (c :: rest) = loneChar c :: scalarValues rest := by
  cases rest with
  | nil => rfl
  | cons low rest =>
    have hpair : ¬ (isHigh c && isLow low) = true := by
      rw [h]
      exact Bool.false_ne_true
    rw [scalarValues, if_neg hpair]

/-- A character above the basic plane is read from its pair. -/
theorem scalarValues_pair {c : Char} (h : ¬ c.toNat < 0x10000) (rest : JsString) :
    scalarValues (unitsOf c ++ rest) = c :: scalarValues rest := by
  have hmax : c.toNat < 0x110000 := by
    rcases c.valid with hsmall | hlarge
    · have hless : c.toNat < 0xd800 := hsmall
      omega
    · exact hlarge.2
  have hhigh : (BitVec.ofNat 16 (0xd800 + (c.toNat - 0x10000) / 1024)).toNat =
      0xd800 + (c.toNat - 0x10000) / 1024 := by
    rw [BitVec.toNat_ofNat]
    omega
  have hlow : (BitVec.ofNat 16 (0xdc00 + (c.toNat - 0x10000) % 1024)).toNat =
      0xdc00 + (c.toNat - 0x10000) % 1024 := by
    rw [BitVec.toNat_ofNat]
    omega
  have hpair : (isHigh (BitVec.ofNat 16 (0xd800 + (c.toNat - 0x10000) / 1024)) &&
      isLow (BitVec.ofNat 16 (0xdc00 + (c.toNat - 0x10000) % 1024))) = true := by
    rw [isHigh, isLow, hhigh, hlow, Bool.and_eq_true, Bool.and_eq_true, Bool.and_eq_true,
      decide_eq_true_eq, decide_eq_true_eq, decide_eq_true_eq, decide_eq_true_eq]
    omega
  have hsum : 0x10000 + (0xd800 + (c.toNat - 0x10000) / 1024 - 0xd800) * 1024 +
      (0xdc00 + (c.toNat - 0x10000) % 1024 - 0xdc00) = c.toNat := by
    omega
  rw [unitsOf, if_neg h, List.cons_append, List.cons_append, List.nil_append, scalarValues,
    if_pos hpair, pairChar, hhigh, hlow, hsum, Char.ofNat_toNat]

/-- The characters of a text of characters. -/
theorem scalarValues_flatMap (chars : List Char) : scalarValues (chars.flatMap unitsOf) = chars := by
  induction chars with
  | nil => rfl
  | cons c chars ih =>
    rw [List.flatMap_cons]
    by_cases hplane : c.toNat < 0x10000
    · obtain ⟨hnone, hchar⟩ := loneChar_unitOf hplane
      rw [unitsOf, if_pos hplane, List.singleton_append, scalarValues_cons hnone.1, ih, hchar]
    · rw [scalarValues_pair hplane, ih]

/-- Texts of characters one after the other. -/
theorem WellFormed.append {first second : JsString} (hfirst : WellFormed first)
    (hsecond : WellFormed second) : WellFormed (first ++ second) := by
  obtain ⟨chars, hchars⟩ := hfirst
  obtain ⟨more, hmore⟩ := hsecond
  exact ⟨chars ++ more, by rw [hchars, hmore, List.flatMap_append]⟩

/-- Code units that are no surrogates are a text of characters. -/
theorem wellFormed_of_forall {text : JsString}
    (h : ∀ c ∈ text, isHigh c = false ∧ isLow c = false) : WellFormed text := by
  induction text with
  | nil => exact ⟨[], rfl⟩
  | cons c text ih =>
    obtain ⟨chars, hchars⟩ := ih fun d hd => h d (List.mem_cons_of_mem c hd)
    refine ⟨Char.ofNat c.toNat :: chars, ?_⟩
    rw [List.flatMap_cons, unitsOf_ofNat (h c List.mem_cons_self), hchars]
    rfl

/-- One code unit in front of a text of characters. -/
theorem WellFormed.cons {c : CodeUnit} {text : JsString} (hc : isHigh c = false ∧ isLow c = false)
    (h : WellFormed text) : WellFormed (c :: text) :=
  (wellFormed_of_forall (List.forall_mem_singleton.mpr hc)).append h

/-- An ASCII code unit is no surrogate. -/
theorem ascii_unit {c : CodeUnit} (h : c.toNat < 128) : isHigh c = false ∧ isLow c = false :=
  (surrogate_iff c).mpr (Or.inl (by omega))

/-- A surrogate pair is a text of one character. -/
theorem wellFormed_pair {high low : CodeUnit} (hhigh : isHigh high = true) (hlow : isLow low = true) :
    WellFormed [high, low] := by
  rw [isHigh, Bool.and_eq_true, decide_eq_true_eq, decide_eq_true_eq] at hhigh
  rw [isLow, Bool.and_eq_true, decide_eq_true_eq, decide_eq_true_eq] at hlow
  have hvalid : (0x10000 + (high.toNat - 0xd800) * 1024 + (low.toNat - 0xdc00)).isValidChar :=
    Or.inr ⟨by omega, by omega⟩
  have hnumber : (pairChar high low).toNat =
      0x10000 + (high.toNat - 0xd800) * 1024 + (low.toNat - 0xdc00) := by
    rw [pairChar, Char.ofNat, dif_pos hvalid]
    rfl
  have hfirst : BitVec.ofNat 16 (0xd800 + ((pairChar high low).toNat - 0x10000) / 1024) = high := by
    apply BitVec.eq_of_toNat_eq
    rw [BitVec.toNat_ofNat, hnumber]
    omega
  have hsecond : BitVec.ofNat 16 (0xdc00 + ((pairChar high low).toNat - 0x10000) % 1024) = low := by
    apply BitVec.eq_of_toNat_eq
    rw [BitVec.toNat_ofNat, hnumber]
    omega
  have hplane : ¬ (pairChar high low).toNat < 0x10000 := by omega
  refine ⟨[pairChar high low], ?_⟩
  rw [List.flatMap_singleton, unitsOf, if_neg hplane, hfirst, hsecond]

/-- A quoted code unit is a text of characters. -/
theorem wellFormed_quoteUnit (c : CodeUnit) : WellFormed (quoteUnit c) := by
  have hshort : ∀ e : Char, e.toNat < 128 → WellFormed [unitOf '\x5c', unitOf e] := by
    intro e he
    have hunit : (unitOf e).toNat < 128 := by
      rw [unitOf, BitVec.toNat_ofNat]
      omega
    exact wellFormed_of_forall (List.forall_mem_cons.mpr ⟨ascii_unit (by decide),
      List.forall_mem_singleton.mpr (ascii_unit hunit)⟩)
  have hhex : ∀ n < 16, (hexUnit n).toNat < 128 := by decide
  have hc := c.isLt
  rw [quoteUnit]
  by_cases hb : c.toNat = 0x08
  · rw [if_pos hb]
    exact hshort 'b' (by decide)
  rw [if_neg hb]
  by_cases ht : c.toNat = 0x09
  · rw [if_pos ht]
    exact hshort 't' (by decide)
  rw [if_neg ht]
  by_cases hn : c.toNat = 0x0a
  · rw [if_pos hn]
    exact hshort 'n' (by decide)
  rw [if_neg hn]
  by_cases hf : c.toNat = 0x0c
  · rw [if_pos hf]
    exact hshort 'f' (by decide)
  rw [if_neg hf]
  by_cases hr : c.toNat = 0x0d
  · rw [if_pos hr]
    exact hshort 'r' (by decide)
  rw [if_neg hr]
  by_cases hquote : c.toNat = 0x22
  · rw [if_pos hquote]
    exact hshort '\x22' (by decide)
  rw [if_neg hquote]
  by_cases hescape : c.toNat = 0x5c
  · rw [if_pos hescape]
    exact hshort '\x5c' (by decide)
  rw [if_neg hescape]
  by_cases hspecial : c.toNat < 0x20 ∨ isHigh c ∨ isLow c
  · rw [if_pos hspecial, unicodeEscape]
    have hdigit : ∀ n < 16, isHigh (hexUnit n) = false ∧ isLow (hexUnit n) = false :=
      fun n hn => ascii_unit (hhex n hn)
    refine wellFormed_of_forall ?_
    rw [List.forall_mem_cons, List.forall_mem_cons, List.forall_mem_cons, List.forall_mem_cons,
      List.forall_mem_cons, List.forall_mem_singleton]
    exact ⟨ascii_unit (by decide), ascii_unit (by decide), hdigit _ (by omega), hdigit _ (by omega),
      hdigit _ (by omega), hdigit _ (by omega)⟩
  · rw [if_neg hspecial]
    push Not at hspecial
    exact wellFormed_of_forall (List.forall_mem_singleton.mpr
      ⟨Bool.eq_false_of_not_eq_true hspecial.2.1, Bool.eq_false_of_not_eq_true hspecial.2.2⟩)

/-- A quoted string is a text of characters. -/
theorem wellFormed_quoteJson (text : JsString) : WellFormed (quoteJson text) := by
  have hunits : WellFormed (quoteUnits text) := by
    induction text using quoteUnits.induct with
    | case1 => exact ⟨[], rfl⟩
    | case2 c =>
      rw [quoteUnits]
      exact wellFormed_quoteUnit c
    | case3 high low tail hpair ih =>
      rw [quoteUnits, if_pos hpair]
      rw [Bool.and_eq_true] at hpair
      exact (wellFormed_pair hpair.1 hpair.2).append ih
    | case4 high low tail hpair ih =>
      rw [quoteUnits, if_neg hpair]
      exact (wellFormed_quoteUnit high).append ih
  have hquote : WellFormed [unitOf '\x22'] :=
    wellFormed_of_forall (List.forall_mem_singleton.mpr (ascii_unit (by decide)))
  rw [quoteJson]
  exact (hunits.append hquote).cons (ascii_unit (by decide))

/-- Joined texts of characters are one. -/
theorem wellFormed_join {texts : List JsString} (h : ∀ text ∈ texts, WellFormed text) :
    WellFormed (join texts) := by
  induction texts with
  | nil => exact ⟨[], rfl⟩
  | cons text texts ih =>
    have htexts := ih fun other hother => h other (List.mem_cons_of_mem text hother)
    cases texts with
    | nil =>
      have hone : join [text] = text := List.intercalate_singleton
      rw [hone]
      exact h text List.mem_cons_self
    | cons second texts =>
      have htwo : join (text :: second :: texts) = text ++ ([unitOf ','] ++ join (second :: texts)) := by
        rw [join, List.intercalate_cons_cons, ← List.append_assoc]
        rfl
      rw [htwo]
      exact (h text List.mem_cons_self).append (htexts.cons (ascii_unit (by decide)))

/-- A number's text is a text of characters. -/
theorem wellFormed_numberToString (shortest : JsNumber → ℕ × ℤ) (n : JsNumber) :
    WellFormed (numberToString shortest n) := by
  refine wellFormed_of_forall fun c hc => ascii_unit ?_
  have hunit := (numberToString_units shortest n).1 c hc
  rw [isNumberUnit, Bool.or_eq_true, Bool.or_eq_true, Bool.or_eq_true, Bool.or_eq_true,
    decide_eq_true_eq, decide_eq_true_eq, decide_eq_true_eq, decide_eq_true_eq] at hunit
  rcases hunit with (((hdigit | hpoint) | hmark) | hplus) | hminus
  · have hrange := (isDigit_iff c).mp hdigit
    omega
  · rw [hpoint]
    decide
  · rw [hmark]
    decide
  · rw [hplus]
    decide
  · rw [hminus]
    decide

/-- The text of a value is a text of characters. -/
theorem wellFormed_render (shortest : JsNumber → ℕ × ℤ) (value : JsValue) :
    WellFormed (render shortest value) := by
  have hclose : ∀ c : Char, c.toNat < 128 → WellFormed [unitOf c] := by
    intro c hc
    have hunit : (unitOf c).toNat < 128 := by
      rw [unitOf, BitVec.toNat_ofNat]
      omega
    exact wellFormed_of_forall (List.forall_mem_singleton.mpr (ascii_unit hunit))
  induction value using JsValue.induct with
  | null => exact ⟨_, rfl⟩
  | boolean b => exact ⟨_, rfl⟩
  | number n => exact wellFormed_numberToString shortest n
  | string s => exact wellFormed_quoteJson s
  | array items ih =>
    rw [render, renderItems_eq, arrayText]
    exact ((wellFormed_join (List.forall_mem_map.mpr ih)).append (hclose ']' (by decide))).cons
      (ascii_unit (by decide))
  | object entries ih =>
    rw [render, renderEntries_eq, objectText, List.map_map]
    refine ((wellFormed_join (List.forall_mem_map.mpr fun entry hentry => ?_)).append
      (hclose '\x7d' (by decide))).cons (ascii_unit (by decide))
    exact (wellFormed_quoteJson entry.1).append ((ih entry hentry).cons (ascii_unit (by decide)))
  | undefined => exact ⟨[], rfl⟩

/-- The bytes of a text of characters determine it. -/
theorem utf8Encode_injective {first second : JsString} (hfirst : WellFormed first)
    (hsecond : WellFormed second) (h : utf8Encode first = utf8Encode second) : first = second := by
  obtain ⟨chars, hchars⟩ := hfirst
  obtain ⟨more, hmore⟩ := hsecond
  rw [utf8Encode, utf8Encode, hchars, hmore, scalarValues_flatMap, scalarValues_flatMap] at h
  have hread := fromUtf8_textBytes chars
  rw [h, fromUtf8_textBytes] at hread
  rw [hchars, hmore, Option.some.inj hread]

/-- The text of a digest determines the digest. -/
theorem digest_of_sha256Hex {sha256 : Bytes → Bytes32} {first second : JsString}
    (h : sha256Hex sha256 first = sha256Hex sha256 second) :
    sha256 (utf8Encode first) = sha256 (utf8Encode second) := by
  have hchars := congrArg scalarValues h
  rw [sha256Hex, sha256Hex, scalarValues_flatMap, scalarValues_flatMap] at hchars
  exact bytesOf_injective (by decide) (lowerHex_injective hchars)

/-- What is signed is a JSON value, if the command is. -/
theorem Approval.isJson_signingPayload {approval : Approval} (h : isJson approval.command = true) :
    isJson approval.signingPayload = true := by
  have houter : [jsText "zkappCommand", jsText "feePayer"].Nodup := by decide
  have hinner : [jsText "feePayer", jsText "fee", jsText "nonce", jsText "validUntil",
      jsText "memo"].Nodup := by decide
  have hslot : isJson (approval.validUntil.elim .null .string) = true := by
    cases approval.validUntil with
    | none => rfl
    | some slot => rfl
  rw [signingPayload, isJson_object]
  refine ⟨houter, List.forall_mem_cons.mpr ⟨h, List.forall_mem_singleton.mpr ?_⟩⟩
  rw [isJson_object]
  refine ⟨hinner, ?_⟩
  rw [List.forall_mem_cons, List.forall_mem_cons, List.forall_mem_cons, List.forall_mem_cons,
    List.forall_mem_singleton]
  exact ⟨rfl, rfl, rfl, hslot, rfl⟩

/-- The keys of an approval are different. -/
theorem approvalKeys_nodup : [jsText "onlySign", jsText "networkId", jsText "signatureDomain",
    jsText "signingPublicKey", jsText "transaction"].Nodup := by
  decide

/-- An approval is a JSON value, if the command is. -/
theorem Approval.isJson_approvalPayload {approval : Approval} (h : isJson approval.command = true) :
    isJson approval.approvalPayload = true := by
  rw [approvalPayload, isJson_object]
  refine ⟨approvalKeys_nodup, ?_⟩
  rw [List.forall_mem_cons, List.forall_mem_cons, List.forall_mem_cons, List.forall_mem_cons,
    List.forall_mem_singleton]
  exact ⟨rfl, rfl, rfl, rfl, isJson_signingPayload h⟩

/-- Canonical JSON is canonical and injective. Where the engine writes different numbers
differently, zero apart, every JSON value has a canonical text, two have the same one
exactly when they are equal up to the order of keys and the sign of zero, and approvals
with one digest are equal in that sense, and so is what they sign, unless SHA-256 has a
collision on their texts. -/
theorem canonicalJson_injective (shortest : JsNumber → ℕ × ℤ)
    (hnumbers : ∀ m n, isFinite m = true → isFinite n = true →
      numberToString shortest m = numberToString shortest n → unsignedZero m = unsignedZero n) :
    (∀ value, isJson value = true → ∃ text, canonicalJson shortest value = .ok text) ∧
    (∀ first second, isJson first = true → isJson second = true →
      (canonicalJson shortest first = canonicalJson shortest second ↔ SameJson first second)) ∧
    ∀ (sha256 : Bytes → Bytes32) (first second : Approval) (text other : JsString),
      isJson first.command = true → isJson second.command = true →
      canonicalJson shortest first.approvalPayload = .ok text →
      canonicalJson shortest second.approvalPayload = .ok other →
      CollisionFree sha256 [utf8Encode text, utf8Encode other] →
      first.payloadHash sha256 shortest = second.payloadHash sha256 shortest →
      SameJson first.approvalPayload second.approvalPayload ∧
        SameJson first.signingPayload second.signingPayload := by
  refine ⟨?_, ?_, ?_⟩
  · intro value h
    exact ⟨_, canonicalJson_eq shortest h⟩
  · intro first second hfirst hsecond
    exact canonicalJson_inj hnumbers hfirst hsecond
  · intro sha256 first second text other hfirst hsecond htext hother hcf hhash
    have hjson := Approval.isJson_approvalPayload hfirst
    have hjson' := Approval.isJson_approvalPayload hsecond
    have hform : render shortest (normalForm first.approvalPayload) = text :=
      Except.ok.inj ((canonicalJson_eq shortest hjson).symm.trans htext)
    have hform' : render shortest (normalForm second.approvalPayload) = other :=
      Except.ok.inj ((canonicalJson_eq shortest hjson').symm.trans hother)
    rw [Approval.payloadHash, Approval.payloadHash, htext, hother] at hhash
    have hdigest := digest_of_sha256Hex (Except.ok.inj hhash)
    have hbytes := hcf _ (List.mem_cons_self) _ (List.mem_cons_of_mem _ (List.mem_singleton_self _)) hdigest
    have hsame : text = other := by
      refine utf8Encode_injective ?_ ?_ hbytes
      · rw [← hform]
        exact wellFormed_render shortest _
      · rw [← hform']
        exact wellFormed_render shortest _
    have hpayload : SameJson first.approvalPayload second.approvalPayload := by
      rw [← canonicalJson_inj hnumbers hjson hjson', htext, hother, hsame]
    refine ⟨hpayload, ?_⟩
    refine sameJson_item (jsText "transaction") hpayload approvalKeys_nodup ?_ ?_
    · rw [List.mem_cons, List.mem_cons, List.mem_cons, List.mem_cons, List.mem_singleton]
      exact Or.inr (Or.inr (Or.inr (Or.inr rfl)))
    · rw [List.mem_cons, List.mem_cons, List.mem_cons, List.mem_cons, List.mem_singleton]
      exact Or.inr (Or.inr (Or.inr (Or.inr rfl)))

/-- An engine that writes one as it should, and other numbers by their bits. -/
def sampleShortest (n : JsNumber) : ℕ × ℤ :=
  if n = 0x3ff0000000000000 then (1, 1) else (1, 23 + (n.toNat : ℤ))

/-- The text of a positive number of that engine. -/
def sampleText (n : JsNumber) : JsString := numberText (sampleShortest n).1 (sampleShortest n).2

/-- One is written as one digit. -/
theorem sampleText_one : sampleText 0x3ff0000000000000 = [unitOf '1'] := by decide

/-- Other numbers are written with an exponent. -/
theorem sampleText_other {n : JsNumber} (h : n ≠ 0x3ff0000000000000) :
    sampleText n = unitOf '1' :: unitOf 'e' :: unitOf '+' :: decimalText (22 + n.toNat) := by
  have hone : decimalText 1 = [unitOf '1'] := by decide
  have hlarge : ¬ (-5 ≤ 23 + (n.toNat : ℤ) ∧ 23 + (n.toNat : ℤ) ≤ 21) := by omega
  have hpositive : ¬ 23 + (n.toNat : ℤ) - 1 < 0 := by omega
  have hexponent : (23 + (n.toNat : ℤ) - 1).natAbs = 22 + n.toNat := by omega
  have hlength : ([unitOf '1'] : JsString).length = 1 := rfl
  have htext : numberText 1 (23 + (n.toNat : ℤ)) =
      unitOf '1' :: unitOf 'e' :: unitOf '+' :: decimalText (22 + n.toNat) := by
    rw [numberText, if_neg hlarge, hone, if_pos hlength, if_neg hpositive, hexponent]
    rfl
  rw [sampleText, sampleShortest, if_neg h, htext]

/-- Different numbers have different texts. -/
theorem sampleText_injective {m n : JsNumber} (h : sampleText m = sampleText n) : m = n := by
  by_cases hm : m = 0x3ff0000000000000
  · by_cases hn : n = 0x3ff0000000000000
    · rw [hm, hn]
    · rw [hm, sampleText_one, sampleText_other hn] at h
      exact absurd (List.cons.inj h).2.symm (List.cons_ne_nil _ _)
  · by_cases hn : n = 0x3ff0000000000000
    · rw [hn, sampleText_one, sampleText_other hm] at h
      exact absurd (List.cons.inj h).2 (List.cons_ne_nil _ _)
    · rw [sampleText_other hm, sampleText_other hn, List.cons.injEq, List.cons.injEq,
        List.cons.injEq] at h
      have hvalue := congrArg JsStrings.decimalValue h.2.2.2
      rw [decimalValue_decimalText, decimalValue_decimalText] at hvalue
      exact BitVec.eq_of_toNat_eq (by omega)

/-- Texts start with a one. -/
theorem sampleText_start (n : JsNumber) : ∃ tail, sampleText n = unitOf '1' :: tail := by
  by_cases hn : n = 0x3ff0000000000000
  · rw [hn, sampleText_one]
    exact ⟨[], rfl⟩
  · rw [sampleText_other hn]
    exact ⟨_, rfl⟩

/-- The texts of that engine by the kind of number. -/
theorem sample_numberToString (n : JsNumber) : numberToString sampleShortest n =
    if isZero n then [unitOf '0']
    else if isNegative n then unitOf '-' :: sampleText (n - 9223372036854775808)
    else sampleText n := rfl

/-- That engine writes different numbers differently, zero apart. -/
theorem sampleShortest_injective (m n : JsNumber)
    (h : numberToString sampleShortest m = numberToString sampleShortest n) :
    unsignedZero m = unsignedZero n := by
  obtain ⟨tail, htail⟩ := sampleText_start m
  obtain ⟨more, hmore⟩ := sampleText_start n
  rw [sample_numberToString, sample_numberToString] at h
  rw [unsignedZero, unsignedZero]
  by_cases hm : isZero m = true
  · by_cases hn : isZero n = true
    · rw [if_pos hm, if_pos hn]
    · rw [if_pos hm, if_neg hn] at h
      by_cases hsign : isNegative n = true
      · rw [if_pos hsign] at h
        exact absurd (List.cons.inj h).1 (by decide)
      · rw [if_neg hsign, hmore] at h
        exact absurd (List.cons.inj h).1 (by decide)
  · rw [if_neg hm] at h ⊢
    by_cases hn : isZero n = true
    · rw [if_pos hn] at h
      by_cases hsign : isNegative m = true
      · rw [if_pos hsign] at h
        exact absurd (List.cons.inj h).1 (by decide)
      · rw [if_neg hsign, htail] at h
        exact absurd (List.cons.inj h).1 (by decide)
    · rw [if_neg hn] at h ⊢
      by_cases hleft : isNegative m = true
      · by_cases hright : isNegative n = true
        · rw [if_pos hleft, if_pos hright, List.cons.injEq] at h
          have hsame := sampleText_injective h.2
          exact (BitVec.sub_left_inj _).mp hsame
        · rw [if_pos hleft, if_neg hright, hmore] at h
          exact absurd (List.cons.inj h).1 (by decide)
      · by_cases hright : isNegative n = true
        · rw [if_neg hleft, if_pos hright, htail] at h
          exact absurd (List.cons.inj h).1 (by decide)
        · rw [if_neg hleft, if_neg hright] at h
          exact sampleText_injective h

/-- Two objects with their keys in different orders and zeros of different signs have
one canonical text. -/
theorem canonicalJson_injective_objects :
    canonicalJson sampleShortest (.object [(jsText "b", .number 0x3ff0000000000000),
        (jsText "a", .array [.number 0, .string (jsText "x")])]) =
      canonicalJson sampleShortest (.object [(jsText "a",
        .array [.number 0x8000000000000000, .string (jsText "x")]),
        (jsText "b", .number 0x3ff0000000000000)]) := by
  refine ((canonicalJson_injective sampleShortest fun m n _ _ => sampleShortest_injective m n).2.1 _ _
    (by decide) (by decide)).mpr ⟨rfl, ⟨_, List.mem_cons_of_mem _ List.mem_cons_self, ?_⟩,
      ⟨_, List.mem_cons_self, ?_⟩, trivial⟩
  · exact (rfl : unsignedZero _ = unsignedZero _)
  · exact ⟨(by decide : unsignedZero _ = unsignedZero _), (rfl : jsText "x" = jsText "x"), trivial⟩

end EthereumSettlement.ApprovalHashes
