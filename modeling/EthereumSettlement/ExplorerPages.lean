import EthereumSettlement.CivilDates
import EthereumSettlement.HexTexts
import EthereumSettlement.KeysetPages

/-!
# Lists of the explorer

The explorer lists blocks, transactions, settlements and withdrawals page by page. A
page names the key of its last row in an opaque cursor, and the next page continues
below that key: the height of a block, the time of a settlement, the index of a
withdrawal. The rows are ordered by more than that key, so following the cursors shows
every row once exactly if no page ends among rows of one key.
-/

namespace EthereumSettlement.ExplorerPages

open ByteWords CheckedCalls CivilDates FixedBytesText HexTexts KeysetPages

/-- `String::from_utf8`. -/
def fromUtf8 (bytes : Bytes) : Option (List Char) :=
  (String.fromUTF8? ⟨(bytes.map UInt8.ofBitVec).toArray⟩).map String.toList

/-- `encode_cursor`. -/
def encodeCursor [HexCrate] (value : List Char) : List Char := HexCrate.encode (textBytes value)

/-- `decode_cursor`. -/
def decodeCursor [HexCrate] (value : List Char) : Except String (List Char) := do
  let bytes ← context (HexCrate.decode (textBytes value)).toOption "cursor must be hexadecimal"
  context (fromUtf8 bytes) "cursor must contain UTF-8"

/-- `i64`. -/
abbrev I64 := {n : ℤ // -9223372036854775808 ≤ n ∧ n < 9223372036854775808}

/-- The decimal text of an integer. -/
def i64Text (n : I64) : List Char := (Int.repr n.1).toList

/-- The digits of `parse`. -/
def parseDigits (text : List Char) : Option ℕ :=
  if text ≠ [] ∧ text.all Char.isDigit then some (Nat.ofDigitChars 10 text 0) else none

/-- The optional sign and the digits of `parse`. -/
def parseSigned (text : List Char) : Option ℤ :=
  if text.head? = some '-' then (parseDigits text.tail).map fun n : ℕ => -(n : ℤ)
  else if text.head? = some '+' then (parseDigits text.tail).map fun n : ℕ => (n : ℤ)
  else (parseDigits text).map fun n : ℕ => (n : ℤ)

/-- `parse::<i64>`. -/
def parseI64 (text : List Char) : Option I64 := do
  let n ← parseSigned text
  if h : -9223372036854775808 ≤ n ∧ n < 9223372036854775808 then some ⟨n, h⟩ else none

/-- `decode_i64_cursor`. -/
def decodeI64Cursor [HexCrate] (value : Option (List Char)) : Except String (Option I64) :=
  match value with
  | none => pure none
  | some cursor => do
    let text ← decodeCursor cursor
    let n ← context (parseI64 text) "cursor is not numeric"
    pure (some n)

/-- `DateTime<Utc>` of the years 0 to 9999, in microseconds. -/
abbrev Timestamp := {n : ℤ // -62167219200000000 ≤ n ∧ n < 253402300800000000}

/-- The texts of timestamps, and that they are read back. -/
structure Rfc3339 where
  /-- Text of a timestamp. -/
  toRfc3339 : Timestamp → List Char
  /-- Timestamp of a text. -/
  parse : List Char → Option Timestamp
  /-- Written texts are read back. -/
  parse_toRfc3339 : ∀ time, parse (toRfc3339 time) = some time

/-- `decode_time_cursor`. -/
def decodeTimeCursor [HexCrate] (chrono : Rfc3339) (value : Option (List Char)) :
    Except String (Option Timestamp) :=
  match value with
  | none => pure none
  | some cursor => do
    let text ← decodeCursor cursor
    let time ← context (chrono.parse text) "cursor is not an RFC3339 timestamp"
    pure (some time)

/-- `ListQuery`. -/
structure ListQuery where
  /-- Where the last page ended. -/
  cursor : Option (List Char)
  /-- Most rows on the page. -/
  limit : Option I64
  /-- Only rows with this status. -/
  status : Option String
  /-- Only rows of this kind. -/
  kind : Option String
  /-- Only rows about this account. -/
  account : Option String

/-- `list_limit`. -/
def listLimit (limit : Option I64) : ℕ := (max 1 (min ((limit.map Subtype.val).getD 20) 100)).toNat

/-- `page`. -/
structure Page (ι : Type) where
  /-- The rows of the page. -/
  items : List ι
  /-- Where the next page starts, if there is one. -/
  nextCursor : Option (List Char)
  deriving DecidableEq

/-- The key is below the cursor, if there is one. -/
def below {κ : Type} [LinearOrder κ] (cursor : Option κ) (key : κ) : Bool :=
  match cursor with
  | none => true
  | some bound => key < bound

/-- A text filter that may be absent. -/
def selects (filter : Option String) (value : String) : Bool :=
  match filter with
  | none => true
  | some wanted => value = wanted

/-- A page of the rows that pass the filters: those below the cursor in their order, one
more than the limit, then the page itself, its cursor and its items. -/
def listPage [HexCrate] {ρ κ ι : Type} [LinearOrder κ] {before : ρ → ρ → Prop}
    (sorting : Sorting before) (key : ρ → κ) (encode : κ → List Char) (render : ρ → Except String ι)
    (limit : ℕ) (rows : List ρ) (cursor : Option κ) : Except String (Page ι) := do
  let found := (sorting.sort (rows.filter fun row => below cursor (key row))).take (limit + 1)
  let more := limit < found.length
  let found := found.take limit
  let next := if more then found.getLast?.map fun row => encodeCursor (encode (key row)) else none
  let items ← found.mapM render
  pure ⟨items, next⟩

/-- A block with the columns that the list reads. -/
structure BlockRow where
  /-- Identifier of the row. -/
  id : I64
  /-- Height of the block. -/
  height : I64
  /-- State hash of the block. -/
  stateHash : String
  /-- Canonical, pending or orphaned. -/
  chainStatus : String
  /-- Number of its transactions. -/
  transactionCount : ℕ
  deriving DecidableEq

/-- `ORDER BY b.height DESC, b.id DESC`. -/
def BlockRow.before (a b : BlockRow) : Prop :=
  b.height < a.height ∨ b.height = a.height ∧ b.id ≤ a.id

/-- `block_json`. -/
def blockJson (row : BlockRow) : Except String BlockRow := do
  require (row.transactionCount ≤ 1) "block contains more than one user transaction"
  pure row

/-- The blocks that pass the filters. -/
def matchingBlocks (blocks : List BlockRow) (query : ListQuery) : List BlockRow :=
  blocks.filter fun row => selects query.status row.chainStatus

/-- `list_blocks`. -/
def listBlocks [HexCrate] (sorting : Sorting BlockRow.before) (blocks : List BlockRow)
    (query : ListQuery) : Except String (Page BlockRow) := do
  let cursor ← decodeI64Cursor query.cursor
  listPage sorting BlockRow.height i64Text blockJson (listLimit query.limit)
    (matchingBlocks blocks query) cursor

/-- A transaction of a canonical or pending block with the columns that the list reads, and
the accounts that it updates. -/
structure TransactionRow where
  /-- Its hash. -/
  hash : String
  /-- Payment, delegation or zkApp command. -/
  kind : String
  /-- Applied or failed. -/
  status : String
  /-- Height of its block. -/
  height : I64
  /-- Account that pays the fee. -/
  feePayer : String
  /-- Account that sends. -/
  source : Option String
  /-- Account that receives. -/
  receiver : Option String
  /-- Accounts that it updates. -/
  updated : List String
  deriving DecidableEq

/-- `ORDER BY height DESC, hash DESC`, in the collation of the database. -/
def TransactionRow.before (collate : String → String → Prop) (a b : TransactionRow) : Prop :=
  b.height < a.height ∨ b.height = a.height ∧ collate b.hash a.hash

/-- The transaction involves an account. -/
def TransactionRow.involves (row : TransactionRow) (account : String) : Bool :=
  row.feePayer = account || row.source = some account || row.receiver = some account ||
    row.updated.contains account

/-- The transactions that pass the filters of `transaction_list_sql`. -/
def matchingTransactions (transactions : List TransactionRow) (query : ListQuery) :
    List TransactionRow :=
  transactions.filter fun row => selects query.kind row.kind && selects query.status row.status &&
    (query.account.map row.involves).getD true

/-- `list_transactions`. -/
def listTransactions [HexCrate] {collate : String → String → Prop}
    (sorting : Sorting (TransactionRow.before collate)) (transactions : List TransactionRow)
    (query : ListQuery) : Except String (Page TransactionRow) := do
  let cursor ← decodeI64Cursor query.cursor
  listPage sorting TransactionRow.height i64Text pure (listLimit query.limit)
    (matchingTransactions transactions query) cursor

/-- A settlement job, or a settlement event without a job. -/
structure SettlementRow where
  /-- Job table or event table. -/
  source : String
  /-- Key in that table. -/
  identifier : String
  /-- Current status. -/
  status : String
  /-- When the row was made. -/
  createdAt : Timestamp
  deriving DecidableEq

/-- `ORDER BY created_at DESC, identifier DESC`, in the collation of the database. -/
def SettlementRow.before (collate : String → String → Prop) (a b : SettlementRow) : Prop :=
  b.createdAt < a.createdAt ∨ b.createdAt = a.createdAt ∧ collate b.identifier a.identifier

/-- The settlements that pass the filter. -/
def matchingSettlements (settlements : List SettlementRow) (query : ListQuery) :
    List SettlementRow :=
  settlements.filter fun row => selects query.status row.status

/-- `list_settlements`. -/
def listSettlements [HexCrate] (chrono : Rfc3339) {collate : String → String → Prop}
    (sorting : Sorting (SettlementRow.before collate)) (settlements : List SettlementRow)
    (query : ListQuery) : Except String (Page SettlementRow) := do
  let cursor ← decodeTimeCursor chrono query.cursor
  listPage sorting SettlementRow.createdAt chrono.toRfc3339 pure (listLimit query.limit)
    (matchingSettlements settlements query) cursor

/-- A row of `gateway_inner_action_leaves` with the columns that the list reads. -/
structure LeafRow where
  /-- Sequence number of the settlement. -/
  settlementSequence : I64
  /-- Position in the batch. -/
  actionOffset : ℤ
  /-- Position among all inner actions. -/
  globalActionIndex : I64
  /-- Who is paid, for a withdrawal. -/
  recipient : Option String
  /-- The token, for a token withdrawal. -/
  token : Option String
  /-- Set by a rollback past the block of the row. -/
  removed : Bool
  deriving DecidableEq

/-- `ORDER BY global_action_index DESC`. -/
def LeafRow.before (a b : LeafRow) : Prop := b.globalActionIndex ≤ a.globalActionIndex

/-- The native withdrawals. -/
def matchingWithdrawals (leaves : List LeafRow) : List LeafRow :=
  leaves.filter fun row => row.recipient.isSome && row.token.isNone && !row.removed

/-- The item of a withdrawal, whose proof is loaded by sequence and offset. -/
def renderWithdrawal {ω : Type} (withdrawalJson : ℕ → ℕ → Except String ω) (row : LeafRow) :
    Except String ω := do
  require (0 ≤ row.settlementSequence.1) "invalid indexed settlement sequence"
  require (0 ≤ row.actionOffset) "invalid indexed withdrawal offset"
  withdrawalJson row.settlementSequence.1.toNat row.actionOffset.toNat

/-- `list_withdrawals`. -/
def listWithdrawals [HexCrate] {ω : Type} (withdrawalJson : ℕ → ℕ → Except String ω)
    (sorting : Sorting LeafRow.before) (leaves : List LeafRow) (query : ListQuery) :
    Except String (Page ω) := do
  let cursor ← decodeI64Cursor query.cursor
  listPage sorting LeafRow.globalActionIndex i64Text (renderWithdrawal withdrawalJson)
    (listLimit query.limit) (matchingWithdrawals leaves) cursor

/-- Request page after page until there is no next cursor, at most so many times. -/
def follow {ι : Type} (handler : Option (List Char) → Except String (Page ι)) :
    ℕ → Option (List Char) → Option (Except String (List ι))
  | 0, _ => none
  | fuel + 1, cursor =>
    match handler cursor with
    | .error error => some (.error error)
    | .ok page =>
      match page.nextCursor with
      | none => some (.ok page.items)
      | some next => (follow handler fuel (some next)).map fun rest => do
        let items ← rest
        pure (page.items ++ items)

/-- Following the cursors from the first page ends. -/
def Terminates {ι : Type} (handler : Option (List Char) → Except String (Page ι)) : Prop :=
  ∃ fuel result, follow handler fuel none = some result

/-- Following the cursors from the first page ends and shows every row exactly once. -/
def Complete {ρ ι : Type} (handler : Option (List Char) → Except String (Page ι))
    (render : ρ → Except String ι) (rows : List ρ) : Prop :=
  ∃ fuel items, follow handler fuel none = some (.ok items) ∧
    ∃ all : List ρ, all.Perm rows ∧ all.mapM render = .ok items

/-- The bytes of a text are that text. -/
theorem fromUtf8_textBytes (text : List Char) : fromUtf8 (textBytes text) = some text := by
  have hbytes : (textBytes text).map UInt8.ofBitVec = text.flatMap String.utf8EncodeChar := by
    rw [textBytes, List.map_flatMap]
    congr 1
    funext c
    rw [List.map_map]
    exact List.map_id _
  have harray : (⟨((textBytes text).map UInt8.ofBitVec).toArray⟩ : ByteArray) =
      (String.ofList text).toByteArray := by
    rw [hbytes, String.toByteArray_ofList, List.utf8Encode]
    exact ByteArray.ext (by simp)
  have hvalid : (String.ofList text).toByteArray.IsValidUTF8 := (String.ofList text).isValidUTF8
  rw [fromUtf8, harray, String.fromUTF8?, dif_pos hvalid, Option.map_some]
  have hsame : String.fromUTF8 (String.ofList text).toByteArray hvalid = String.ofList text := rfl
  rw [hsame, String.toList_ofList]

/-- A cursor is decoded to the text that was encoded. -/
theorem decodeCursor_encodeCursor [HexCrate] (value : List Char) :
    decodeCursor (encodeCursor value) = .ok value := by
  rw [decodeCursor, encodeCursor, decode_encode]
  refine bind_eq_ok.mpr ⟨textBytes value, rfl, ?_⟩
  rw [fromUtf8_textBytes]
  rfl

/-- The digits of a number are read as that number. -/
theorem parseDigits_repr (n : ℕ) : parseDigits n.repr.toList = some n := by
  have hdigits : (Nat.toDigits 10 n).all Char.isDigit :=
    List.all_eq_true.mpr fun c hc => Nat.isDigit_of_mem_toDigits (by decide) (by decide) hc
  rw [Nat.toList_repr, parseDigits, if_pos ⟨Nat.toDigits_ne_nil, hdigits⟩, Nat.ofDigitChars_ten_toDigits]

/-- The text of a number does not start with a sign. -/
theorem head?_repr_ne (n : ℕ) {sign : Char} (h : sign.isDigit = false) :
    n.repr.toList.head? ≠ some sign := by
  intro hhead
  have hmem : sign ∈ Nat.toDigits 10 n := by
    rw [← Nat.toList_repr]
    exact List.mem_of_head? hhead
  have hdigit := Nat.isDigit_of_mem_toDigits (by decide) (by decide) hmem
  rw [h] at hdigit
  cases hdigit

/-- The text of an integer is parsed as that integer. -/
theorem parseI64_i64Text (n : I64) : parseI64 (i64Text n) = some n := by
  have hsigned : parseSigned (i64Text n) = some n.1 := by
    rw [i64Text, Int.repr_eq_if]
    by_cases hpos : 0 ≤ n.1
    · rw [if_pos hpos, parseSigned, if_neg (head?_repr_ne _ (by decide)),
        if_neg (head?_repr_ne _ (by decide)), parseDigits_repr, Option.map_some]
      congr 1
      omega
    · have htext : ("-" ++ (-n.1).toNat.repr).toList = '-' :: (-n.1).toNat.repr.toList := by
        rw [String.toList_append]
        rfl
      rw [if_neg hpos, htext, parseSigned, List.head?_cons, if_pos rfl, List.tail_cons, parseDigits_repr,
        Option.map_some]
      congr 1
      omega
  rw [parseI64, hsigned]
  exact dif_pos n.2

/-- The cursor of an integer is decoded to it. -/
theorem decodeI64Cursor_encodeCursor [HexCrate] (n : I64) :
    decodeI64Cursor (some (encodeCursor (i64Text n))) = .ok (some n) := by
  rw [decodeI64Cursor, decodeCursor_encodeCursor]
  refine bind_eq_ok.mpr ⟨i64Text n, rfl, ?_⟩
  rw [parseI64_i64Text]
  rfl

/-- The cursor of a time is decoded to it. -/
theorem decodeTimeCursor_encodeCursor [HexCrate] (chrono : Rfc3339) (time : Timestamp) :
    decodeTimeCursor chrono (some (encodeCursor (chrono.toRfc3339 time))) = .ok (some time) := by
  rw [decodeTimeCursor, decodeCursor_encodeCursor]
  refine bind_eq_ok.mpr ⟨chrono.toRfc3339 time, rfl, ?_⟩
  rw [chrono.parse_toRfc3339]
  rfl

section Paging

variable {ρ κ ι : Type} [LinearOrder κ] {before : ρ → ρ → Prop} {sorting : Sorting before}
  {key : ρ → κ} {encode : κ → List Char} {render : ρ → Except String ι} {limit : ℕ} {rows : List ρ}
  {handler : Option (List Char) → Except String (Page ι)}

/-- The handler answers the first request and every cursor that it hands out with a page. -/
structure Serves [HexCrate] (handler : Option (List Char) → Except String (Page ι))
    (sorting : Sorting before) (key : ρ → κ) (encode : κ → List Char) (render : ρ → Except String ι)
    (limit : ℕ) (rows : List ρ) : Prop where
  /-- The request without a cursor gets the first page. -/
  first : handler none = listPage sorting key encode render limit rows none
  /-- Every cursor that is handed out gets its page. -/
  next : ∀ bound, handler (some (encodeCursor (encode bound))) =
    listPage sorting key encode render limit rows (some bound)

/-- One way to say both laws. -/
theorem Serves.page [HexCrate] (h : Serves handler sorting key encode render limit rows)
    (cursor : Option κ) :
    handler (cursor.map fun bound => encodeCursor (encode bound)) =
      listPage sorting key encode render limit rows cursor := by
  cases cursor with
  | none => exact h.first
  | some bound => exact h.next bound

/-- A short listing is one page. -/
theorem listPage_of_short [HexCrate] {cursor : Option κ}
    (h : (rows.filter fun row => below cursor (key row)).length ≤ limit) :
    listPage sorting key encode render limit rows cursor =
      (sorting.sort (rows.filter fun row => below cursor (key row))).mapM render >>=
        fun items => pure ⟨items, none⟩ := by
  have hlength := (sorting.perm (rows.filter fun row => below cursor (key row))).length_eq
  have htake : (sorting.sort (rows.filter fun row => below cursor (key row))).take (limit + 1) =
      sorting.sort (rows.filter fun row => below cursor (key row)) :=
    List.take_of_length_le (by omega)
  have hpage : (sorting.sort (rows.filter fun row => below cursor (key row))).take limit =
      sorting.sort (rows.filter fun row => below cursor (key row)) :=
    List.take_of_length_le (by omega)
  rw [listPage, htake, hpage, if_neg (by omega)]

/-- A long listing gives a page with the cursor of its last row. -/
theorem listPage_of_long [HexCrate] {size : ℕ} {cursor : Option κ} {last : ρ}
    (h : size + 1 < (rows.filter fun row => below cursor (key row)).length)
    (hlast : (sorting.sort (rows.filter fun row => below cursor (key row)))[size]? = some last) :
    listPage sorting key encode render (size + 1) rows cursor =
      ((sorting.sort (rows.filter fun row => below cursor (key row))).take (size + 1)).mapM render >>=
        fun items => pure ⟨items, some (encodeCursor (encode (key last)))⟩ := by
  have hlength := (sorting.perm (rows.filter fun row => below cursor (key row))).length_eq
  have htake : ((sorting.sort (rows.filter fun row => below cursor (key row))).take
      (size + 1 + 1)).take (size + 1) =
      (sorting.sort (rows.filter fun row => below cursor (key row))).take (size + 1) := by
    rw [List.take_take]
    congr 1
    omega
  have hget : ((sorting.sort (rows.filter fun row => below cursor (key row))).take
      (size + 1)).getLast? = some last := by
    rw [List.getLast?_eq_getElem?, List.length_take, List.getElem?_take, ← hlast]
    have hmin : min (size + 1)
        (sorting.sort (rows.filter fun row => below cursor (key row))).length - 1 = size := by omega
    rw [hmin, if_pos (by omega)]
  have hmore : size + 1 < ((sorting.sort (rows.filter fun row => below cursor (key row))).take
      (size + 1 + 1)).length := by
    rw [List.length_take]
    omega
  rw [listPage, if_pos hmore, htake, hget]
  rfl

/-- The rows below a shown row are those below the cursor that are below that row. -/
theorem filter_below {cursor : Option κ} {last : ρ} (h : below cursor (key last) = true) :
    rows.filter (fun row => below (some (key last)) (key row)) =
      (rows.filter fun row => below cursor (key row)).filter fun row => key row < key last := by
  rw [List.filter_filter]
  apply List.filter_congr
  intro row _
  cases cursor with
  | none => simp [below]
  | some bound =>
    have hlast : key last < bound := by simpa [below] using h
    by_cases hrow : key row < key last
    · simp [below, hrow, hrow.trans hlast]
    · simp [below, hrow]

/-- Following the cursors renders the rows that the pages behind the keys collect. -/
theorem follow_collect [HexCrate] (h : Serves handler sorting key encode render limit rows)
    (hpos : 0 < limit) {fuel : ℕ} {cursor : Option κ} {found : List ρ}
    (hfound : collect key sorting limit fuel (rows.filter fun row => below cursor (key row)) =
      some found) :
    follow handler fuel (cursor.map fun bound => encodeCursor (encode bound)) =
      some (found.mapM render) := by
  obtain ⟨size, rfl⟩ : ∃ size, limit = size + 1 := ⟨limit - 1, by omega⟩
  induction fuel generalizing cursor found with
  | zero => cases hfound
  | succ fuel ih =>
    rw [follow, h.page cursor]
    by_cases hlong : size + 1 < (rows.filter fun row => below cursor (key row)).length
    · obtain ⟨last, hlast, hcollect⟩ := collect_of_long key sorting fuel hlong
      rw [hcollect] at hfound
      obtain ⟨rest, hrest, hall⟩ := Option.map_eq_some_iff.mp hfound
      have hmem : last ∈ rows.filter fun row => below cursor (key row) :=
        (sorting.perm _).mem_iff.mp (List.mem_of_getElem? hlast)
      have hbelow : below cursor (key last) = true := by simpa using (List.mem_filter.mp hmem).2
      rw [← filter_below hbelow] at hrest
      have hnext := ih hrest
      rw [Option.map_some] at hnext
      rw [listPage_of_long hlong hlast, ← hall, List.mapM_append]
      cases hitems : ((sorting.sort (rows.filter fun row => below cursor (key row))).take
          (size + 1)).mapM render with
      | error error => rfl
      | ok items =>
        change (follow handler fuel (some (encodeCursor (encode (key last))))).map _ = _
        rw [hnext]
        rfl
    · rw [collect_of_short key sorting (by omega)] at hfound
      rw [listPage_of_short (by omega), ← Option.some.inj hfound]
      cases (sorting.sort (rows.filter fun row => below cursor (key row))).mapM render <;> rfl

/-- More requests do not change the result. -/
theorem follow_succ {fuel : ℕ} {cursor : Option (List Char)} {result : Except String (List ι)}
    (h : follow handler fuel cursor = some result) : follow handler (fuel + 1) cursor = some result := by
  induction fuel generalizing cursor result with
  | zero => cases h
  | succ fuel ih =>
    rw [follow] at h ⊢
    cases hpage : handler cursor with
    | error error =>
      rw [hpage] at h
      exact h
    | ok page =>
      rw [hpage] at h
      cases hnext : page.nextCursor with
      | none =>
        simp only [hnext] at h ⊢
        exact h
      | some next =>
        simp only [hnext] at h ⊢
        obtain ⟨rest, hrest, hresult⟩ := Option.map_eq_some_iff.mp h
        rw [ih hrest, ← hresult]
        rfl

/-- The result does not depend on the number of requests allowed. -/
theorem follow_unique {fuel more : ℕ} {cursor : Option (List Char)}
    {first second : Except String (List ι)} (hfirst : follow handler fuel cursor = some first)
    (hsecond : follow handler more cursor = some second) : first = second := by
  have hadd : ∀ extra fuel result, follow handler fuel cursor = some result →
      follow handler (fuel + extra) cursor = some result := by
    intro extra
    induction extra with
    | zero => exact fun _ _ h => h
    | succ extra ih => exact fun fuel result h => follow_succ (ih fuel result h)
  have hone := hadd more fuel first hfirst
  have htwo := hadd fuel more second hsecond
  rw [Nat.add_comm, hone] at htwo
  exact Option.some.inj htwo

/-- Following the cursors ends, and shows every row exactly once if every row has an item
and no page ends between rows of one key. -/
theorem complete_iff [HexCrate] (h : Serves handler sorting key encode render limit rows)
    (hpos : 0 < limit) (hkey : ∀ a b, before a b → key b ≤ key a) :
    Terminates handler ∧ (Complete handler render rows ↔
      (∀ row ∈ rows, Succeeds (render row)) ∧ NoSplit limit (keysOf key rows)) := by
  have hnone : (rows.filter fun row => below none (key row)) = rows := by
    rw [List.filter_eq_self]
    exact fun _ _ => rfl
  obtain ⟨found, hcollect, hall, hless⟩ := collect_spec key sorting hkey hpos
    (Nat.lt_succ_self rows.length)
  rw [← hnone] at hcollect
  have hfollow := follow_collect h hpos hcollect
  rw [hnone] at hfollow
  refine ⟨⟨_, _, hfollow⟩, ?_⟩
  constructor
  · intro hcomplete
    obtain ⟨fuel, items, hitems, all, hperm, hrendered⟩ := hcomplete
    have hsame : found.mapM render = .ok items := follow_unique hfollow hitems
    have hcount : found.length = rows.length := by
      have hfoundLength := (mapM_eq_ok.mp hsame).length_eq
      have hallLength := (mapM_eq_ok.mp hrendered).length_eq
      rw [hfoundLength, ← hallLength, hperm.length_eq]
    refine ⟨?_, ?_⟩
    · intro row hrow
      exact succeeds_mapM.mp ⟨items, hrendered⟩ row (hperm.mem_iff.mpr hrow)
    · by_contra hsplit
      have hfewer := hless hsplit
      omega
  · intro hboth
    have hperm := hall hboth.2
    obtain ⟨items, hitems⟩ := succeeds_mapM.mpr
      fun row hrow => hboth.1 row (hperm.mem_iff.mp hrow)
    rw [hitems] at hfollow
    exact ⟨_, items, hfollow, found, hperm, hitems⟩

/-- A list is not complete if a page ends between rows of one key. -/
theorem not_complete_of_split [HexCrate] (h : Serves handler sorting key encode render limit rows)
    (hpos : 0 < limit) (hkey : ∀ a b, before a b → key b ≤ key a)
    (hsplit : ¬ NoSplit limit (keysOf key rows)) : ¬ Complete handler render rows := by
  rw [(complete_iff h hpos hkey).2]
  exact fun hboth => hsplit hboth.2

end Paging

/-- A page shows at least one row. -/
theorem listLimit_pos (limit : Option I64) : 0 < listLimit limit := by
  rw [listLimit]
  omega

/-- Blocks are served behind their heights. -/
theorem serves_listBlocks [HexCrate] (sorting : Sorting BlockRow.before) (blocks : List BlockRow)
    (query : ListQuery) :
    Serves (fun cursor => listBlocks sorting blocks { query with cursor := cursor }) sorting
      BlockRow.height i64Text blockJson (listLimit query.limit) (matchingBlocks blocks query) where
  first := rfl
  next := by
    intro bound
    rw [listBlocks, decodeI64Cursor_encodeCursor]
    rfl

/-- Transactions are served behind the heights of their blocks. -/
theorem serves_listTransactions [HexCrate] {collate : String → String → Prop}
    (sorting : Sorting (TransactionRow.before collate)) (transactions : List TransactionRow)
    (query : ListQuery) :
    Serves (fun cursor => listTransactions sorting transactions { query with cursor := cursor })
      sorting TransactionRow.height i64Text pure (listLimit query.limit)
      (matchingTransactions transactions query) where
  first := rfl
  next := by
    intro bound
    rw [listTransactions, decodeI64Cursor_encodeCursor]
    rfl

/-- Settlements are served behind their times. -/
theorem serves_listSettlements [HexCrate] (chrono : Rfc3339) {collate : String → String → Prop}
    (sorting : Sorting (SettlementRow.before collate)) (settlements : List SettlementRow)
    (query : ListQuery) :
    Serves (fun cursor => listSettlements chrono sorting settlements { query with cursor := cursor })
      sorting SettlementRow.createdAt chrono.toRfc3339 pure (listLimit query.limit)
      (matchingSettlements settlements query) where
  first := rfl
  next := by
    intro bound
    rw [listSettlements, decodeTimeCursor_encodeCursor]
    rfl

/-- Withdrawals are served behind their indices. -/
theorem serves_listWithdrawals [HexCrate] {ω : Type} (withdrawalJson : ℕ → ℕ → Except String ω)
    (sorting : Sorting LeafRow.before) (leaves : List LeafRow) (query : ListQuery) :
    Serves (fun cursor => listWithdrawals withdrawalJson sorting leaves { query with cursor := cursor })
      sorting LeafRow.globalActionIndex i64Text (renderWithdrawal withdrawalJson)
      (listLimit query.limit) (matchingWithdrawals leaves) where
  first := rfl
  next := by
    intro bound
    rw [listWithdrawals, decodeI64Cursor_encodeCursor]
    rfl

/-- A block has an item if it has at most one transaction. -/
theorem blockJson_succeeds (row : BlockRow) :
    Succeeds (blockJson row) ↔ row.transactionCount ≤ 1 := by
  constructor
  · intro h
    obtain ⟨item, hitem⟩ := h
    exact (require_bind_eq_ok.mp hitem).1
  · intro h
    exact ⟨row, require_bind_eq_ok.mpr ⟨h, rfl⟩⟩

/-- In an order by two keys, the first one descends. -/
theorem le_of_lex {κ : Type} [LinearOrder κ] {a b : κ} {tie : Prop} (h : b < a ∨ b = a ∧ tie) :
    b ≤ a := by
  rcases h with hlt | heq
  · exact hlt.le
  · exact heq.1.le

/-- When following the cursors of the four lists shows every matching row exactly once:
each row has an item, and no page ends between rows of one height, time or index. -/
theorem explorerPages_complete_iff [HexCrate] (query : ListQuery) :
    (∀ (sorting : Sorting BlockRow.before) (blocks : List BlockRow),
      Terminates (fun cursor => listBlocks sorting blocks { query with cursor := cursor }) ∧
      (Complete (fun cursor => listBlocks sorting blocks { query with cursor := cursor }) blockJson
          (matchingBlocks blocks query) ↔
        (∀ row ∈ matchingBlocks blocks query, row.transactionCount ≤ 1) ∧
          NoSplit (listLimit query.limit) (keysOf BlockRow.height (matchingBlocks blocks query)))) ∧
    (∀ (collate : String → String → Prop) (sorting : Sorting (TransactionRow.before collate))
      (transactions : List TransactionRow),
      Terminates (fun cursor => listTransactions sorting transactions { query with cursor := cursor }) ∧
      (Complete (fun cursor => listTransactions sorting transactions { query with cursor := cursor })
          pure (matchingTransactions transactions query) ↔
        NoSplit (listLimit query.limit)
          (keysOf TransactionRow.height (matchingTransactions transactions query)))) ∧
    (∀ (chrono : Rfc3339) (collate : String → String → Prop)
      (sorting : Sorting (SettlementRow.before collate)) (settlements : List SettlementRow),
      Terminates (fun cursor =>
        listSettlements chrono sorting settlements { query with cursor := cursor }) ∧
      (Complete (fun cursor =>
          listSettlements chrono sorting settlements { query with cursor := cursor })
          pure (matchingSettlements settlements query) ↔
        NoSplit (listLimit query.limit)
          (keysOf SettlementRow.createdAt (matchingSettlements settlements query)))) ∧
    ∀ (ω : Type) (withdrawalJson : ℕ → ℕ → Except String ω) (sorting : Sorting LeafRow.before)
      (leaves : List LeafRow),
      Terminates (fun cursor =>
        listWithdrawals withdrawalJson sorting leaves { query with cursor := cursor }) ∧
      (Complete (fun cursor =>
          listWithdrawals withdrawalJson sorting leaves { query with cursor := cursor })
          (renderWithdrawal withdrawalJson) (matchingWithdrawals leaves) ↔
        (∀ row ∈ matchingWithdrawals leaves, Succeeds (renderWithdrawal withdrawalJson row)) ∧
          NoSplit (listLimit query.limit)
            (keysOf LeafRow.globalActionIndex (matchingWithdrawals leaves))) := by
  refine ⟨fun sorting blocks => ?_, fun collate sorting transactions => ?_,
    fun chrono collate sorting settlements => ?_,
    fun ω withdrawalJson sorting leaves => ?_⟩
  · have hcomplete := complete_iff (serves_listBlocks sorting blocks query)
      (listLimit_pos query.limit) fun _ _ => le_of_lex
    simp only [blockJson_succeeds] at hcomplete
    exact hcomplete
  · obtain ⟨hends, hiff⟩ := complete_iff (serves_listTransactions sorting transactions query)
      (listLimit_pos query.limit) fun _ _ => le_of_lex
    refine ⟨hends, hiff.trans (and_iff_right ?_)⟩
    exact fun _ _ => succeeds_pure
  · obtain ⟨hends, hiff⟩ := complete_iff (serves_listSettlements chrono sorting settlements query)
      (listLimit_pos query.limit) fun _ _ => le_of_lex
    refine ⟨hends, hiff.trans (and_iff_right ?_)⟩
    exact fun _ _ => succeeds_pure
  · exact complete_iff (serves_listWithdrawals withdrawalJson sorting leaves query)
      (listLimit_pos query.limit) fun _ _ h => h

/-- An order by a descending key and a total order of ties is total. -/
theorem lex_total {κ : Type} [LinearOrder κ] {tie : Prop} {converse : Prop} (a b : κ)
    (h : tie ∨ converse) : (b < a ∨ b = a ∧ tie) ∨ (a < b ∨ a = b ∧ converse) := by
  rcases lt_trichotomy a b with hlt | heq | hlt
  · exact Or.inr (Or.inl hlt)
  · rcases h with htie | hconverse
    · exact Or.inl (Or.inr ⟨heq.symm, htie⟩)
    · exact Or.inr (Or.inr ⟨heq, hconverse⟩)
  · exact Or.inl (Or.inl hlt)

/-- An order by a descending key and a transitive order of ties is transitive. -/
theorem lex_trans {κ : Type} [LinearOrder κ] {first second both : Prop} {a b c : κ}
    (h : first → second → both) (hab : b < a ∨ b = a ∧ first) (hbc : c < b ∨ c = b ∧ second) :
    c < a ∨ c = a ∧ both := by
  rcases hab with hab | ⟨hab, hfirst⟩
  · rcases hbc with hbc | ⟨hbc, -⟩
    · exact Or.inl (hbc.trans hab)
    · exact Or.inl (by rw [hbc]; exact hab)
  · rw [← hab]
    rcases hbc with hbc | ⟨hbc, hsecond⟩
    · exact Or.inl hbc
    · exact Or.inr ⟨hbc, h hfirst hsecond⟩

instance : DecidableRel BlockRow.before := fun a b =>
  @instDecidableOr _ _ (Int.decLt b.height a.height)
    (@instDecidableAnd _ _ (inferInstanceAs (Decidable (b.height = a.height)))
      (Int.decLe b.id a.id))

instance : Std.Total BlockRow.before where
  total a b := lex_total a.height b.height (le_total b.id a.id)

instance : IsTrans BlockRow BlockRow.before where
  trans _ _ _ := lex_trans fun hfirst hsecond => hsecond.trans hfirst

/-- Hashes by their code points. -/
def byCodePoint (a b : String) : Prop := a ≤ b

instance : DecidableRel byCodePoint := fun a b => String.decLE a b

instance : DecidableRel (TransactionRow.before byCodePoint) := fun a b =>
  @instDecidableOr _ _ (Int.decLt b.height a.height)
    (@instDecidableAnd _ _ (inferInstanceAs (Decidable (b.height = a.height)))
      (inferInstanceAs (Decidable (byCodePoint b.hash a.hash))))

instance : Std.Total (TransactionRow.before byCodePoint) where
  total a b := lex_total a.height b.height (String.le_total b.hash a.hash)

instance : IsTrans TransactionRow (TransactionRow.before byCodePoint) where
  trans _ _ _ := lex_trans fun hfirst hsecond => String.le_trans hsecond hfirst

instance : DecidableRel (SettlementRow.before byCodePoint) := fun a b =>
  @instDecidableOr _ _ (Int.decLt b.createdAt a.createdAt)
    (@instDecidableAnd _ _ (inferInstanceAs (Decidable (b.createdAt = a.createdAt)))
      (inferInstanceAs (Decidable (byCodePoint b.identifier a.identifier))))

instance : Std.Total (SettlementRow.before byCodePoint) where
  total a b := lex_total a.createdAt b.createdAt (String.le_total b.identifier a.identifier)

instance : IsTrans SettlementRow (SettlementRow.before byCodePoint) where
  trans _ _ _ := lex_trans fun hfirst hsecond => String.le_trans hsecond hfirst

instance : DecidableRel LeafRow.before := fun a b =>
  Int.decLe b.globalActionIndex a.globalActionIndex

instance : Std.Total LeafRow.before where
  total a b := le_total b.globalActionIndex a.globalActionIndex

instance : IsTrans LeafRow LeafRow.before where
  trans _ _ _ hab hbc := hbc.trans hab

/-- The fraction of a second as `to_rfc3339` writes it: without digits, with three or with
six. -/
def fractionText (micros : ℕ) : List Char :=
  if micros = 0 then []
  else if micros % 1000 = 0 then '.' :: fixedDigits 3 (micros / 1000)
  else '.' :: fixedDigits 6 micros

/-- Read such a fraction. -/
def readFraction (text : List Char) : Option (ℕ × List Char) :=
  match readChar '.' text with
  | none => some (0, text)
  | some digits =>
    (readNumber 6 digits).or ((readNumber 3 digits).map fun read => (read.1 * 1000, read.2))

/-- The offset of UTC. -/
def utcOffset : List Char := ['+', '0', '0', ':', '0', '0']

/-- The text of a time in UTC. -/
def utcText (time : Timestamp) : List Char :=
  let micros := (time.1 + 62167219200000000).toNat
  let date := CivilDate.ofDays (micros / 86400000000)
  let seconds := micros % 86400000000 / 1000000
  fixedDigits 4 date.year ++ '-' :: (fixedDigits 2 date.month ++ '-' :: (fixedDigits 2 date.day ++
    'T' :: (fixedDigits 2 (seconds / 3600) ++ ':' :: (fixedDigits 2 (seconds / 60 % 60) ++
      ':' :: (fixedDigits 2 (seconds % 60) ++ (fractionText (micros % 1000000) ++ utcOffset))))))

/-- Read the text of a time in UTC. -/
def parseUtc (text : List Char) : Option Timestamp := do
  let year ← readNumber 4 text
  let text ← readChar '-' year.2
  let month ← readNumber 2 text
  let text ← readChar '-' month.2
  let day ← readNumber 2 text
  let text ← readChar 'T' day.2
  let hour ← readNumber 2 text
  let text ← readChar ':' hour.2
  let minute ← readNumber 2 text
  let text ← readChar ':' minute.2
  let second ← readNumber 2 text
  let fraction ← readFraction second.2
  let date : CivilDate := ⟨year.1, month.1, day.1⟩
  let seconds := date.toDays * 86400 + hour.1 * 3600 + minute.1 * 60 + second.1
  let micros : ℤ := (seconds * 1000000 + fraction.1 : ℕ) - 62167219200000000
  if valid : (CivilDate.ofDays date.toDays = date ∧ hour.1 < 24 ∧ minute.1 < 60 ∧ second.1 < 60 ∧
      fraction.2 = utcOffset) ∧ -62167219200000000 ≤ micros ∧ micros < 253402300800000000 then
    some ⟨micros, valid.2⟩
  else none

/-- A written fraction is read back. -/
theorem readFraction_fractionText {micros : ℕ} (h : micros < 1000000) :
    readFraction (fractionText micros ++ utcOffset) = some (micros, utcOffset) := by
  rw [fractionText]
  by_cases hzero : micros = 0
  · rw [if_pos hzero, hzero]
    rfl
  · rw [if_neg hzero]
    by_cases hmillis : micros % 1000 = 0
    · have hsix : readNumber 6 (fixedDigits 3 (micros / 1000) ++ utcOffset) = none := by
        rw [readNumber, if_neg]
        intro hdigits
        have htake : (fixedDigits 3 (micros / 1000) ++ utcOffset).take 6 =
            fixedDigits 3 (micros / 1000) ++ ['+', '0', '0'] := by
          rw [List.take_append, fixedDigits_length, List.take_of_length_le (by simp)]
          rfl
        rw [htake, List.all_append, Bool.and_eq_true] at hdigits
        exact absurd hdigits.2.2 (by decide)
      rw [if_pos hmillis, List.cons_append, readFraction, readChar_cons]
      dsimp only
      rw [hsix, readNumber_fixedDigits (by omega), Option.none_or, Option.map_some]
      congr 2
      omega
    · rw [if_neg hmillis, List.cons_append, readFraction, readChar_cons]
      dsimp only
      rw [readNumber_fixedDigits (by omega), Option.some_or]

/-- The text of a time in UTC is read back. -/
theorem parseUtc_utcText (time : Timestamp) : parseUtc (utcText time) = some time := by
  obtain ⟨n, hlow, hhigh⟩ := time
  obtain ⟨micros, hmicros⟩ : ∃ micros, (n + 62167219200000000).toNat = micros := ⟨_, rfl⟩
  have hdays : micros / 86400000000 < daysBeforeYear 10000 := by
    have hend : daysBeforeYear 10000 = 3652425 := by decide
    omega
  obtain ⟨hyear, hmonth, hday⟩ := CivilDate.ofDays_lt hdays
  have hsame := CivilDate.toDays_ofDays (micros / 86400000000)
  have hsum : (micros / 86400000000 * 86400 + micros % 86400000000 / 1000000 / 3600 * 3600 +
      micros % 86400000000 / 1000000 / 60 % 60 * 60 + micros % 86400000000 / 1000000 % 60) *
        1000000 + micros % 1000000 = micros := by
    omega
  have hmicros' : (micros : ℤ) - 62167219200000000 = n := by omega
  have hyear' : (CivilDate.ofDays (micros / 86400000000)).year < 10 ^ 4 := hyear
  have hmonth' : (CivilDate.ofDays (micros / 86400000000)).month < 10 ^ 2 := hmonth
  have hday' : (CivilDate.ofDays (micros / 86400000000)).day < 10 ^ 2 := hday
  have hhour : micros % 86400000000 / 1000000 / 3600 < 10 ^ 2 := by omega
  have hminute : micros % 86400000000 / 1000000 / 60 % 60 < 10 ^ 2 := by omega
  have hsecond : micros % 86400000000 / 1000000 % 60 < 10 ^ 2 := by omega
  have hfraction : micros % 1000000 < 1000000 := Nat.mod_lt _ (by decide)
  rw [utcText, parseUtc, hmicros]
  simp only [readNumber_fixedDigits hyear', readNumber_fixedDigits hmonth',
    readNumber_fixedDigits hday', readNumber_fixedDigits hhour, readNumber_fixedDigits hminute,
    readNumber_fixedDigits hsecond, readFraction_fractionText hfraction, readChar_cons,
    Option.bind_eq_bind, Option.bind_some, hsame, hsum, hmicros']
  exact dif_pos ⟨⟨trivial, by omega, by omega, by omega, trivial⟩, hlow, hhigh⟩

/-- The texts of times in UTC. `chrono` reads other spellings of a time as well. -/
def utc : Rfc3339 where
  toRfc3339 := utcText
  parse := parseUtc
  parse_toRfc3339 := parseUtc_utcText

example : utcText ⟨1700000000123000, by decide⟩ =
    ['2', '0', '2', '3', '-', '1', '1', '-', '1', '4', 'T', '2', '2', ':', '1', '3', ':', '2', '0',
      '.', '1', '2', '3', '+', '0', '0', ':', '0', '0'] := by
  decide +kernel

attribute [local instance] asciiHex

/-- A request for pages of one row. -/
def oneRow : ListQuery := ⟨none, some ⟨1, by decide⟩, none, none, none⟩

/-- Two blocks of one height. -/
def twoBlocks : List BlockRow :=
  [⟨⟨1, by decide⟩, ⟨5, by decide⟩, "3NKa", "pending", 0⟩,
    ⟨⟨2, by decide⟩, ⟨5, by decide⟩, "3NKb", "pending", 0⟩]

/-- Two transactions of one block. -/
def twoTransactions : List TransactionRow :=
  [⟨"5Ja", "payment", "applied", ⟨5, by decide⟩, "B62a", none, none, []⟩,
    ⟨"5Jb", "zkapp", "applied", ⟨5, by decide⟩, "B62a", none, none, []⟩]

/-- Two settlements of one time. -/
def twoSettlements : List SettlementRow :=
  [⟨"job", "a", "confirmed", ⟨1700000000000000, by decide⟩⟩,
    ⟨"event", "b", "confirmed", ⟨1700000000000000, by decide⟩⟩]

/-- Two withdrawals of one index in different settlements. -/
def twoLeaves : List LeafRow :=
  [⟨⟨1, by decide⟩, 0, ⟨7, by decide⟩, some "0x01", none, false⟩,
    ⟨⟨2, by decide⟩, 0, ⟨7, by decide⟩, some "0x02", none, false⟩]

/-- With pages of one row, only one of two blocks of one height and of two settlements of one
time is shown, and the lists of two transactions of one block and of two withdrawals of one
index are not complete. -/
theorem explorerPages_incomplete :
    (follow (fun cursor => listBlocks (insertion BlockRow.before) twoBlocks
        { oneRow with cursor := cursor }) 2 none = some (.ok (twoBlocks.drop 1)) ∧
      ¬ Complete (fun cursor => listBlocks (insertion BlockRow.before) twoBlocks
        { oneRow with cursor := cursor }) blockJson (matchingBlocks twoBlocks oneRow)) ∧
    ¬ Complete (fun cursor => listTransactions (insertion (TransactionRow.before byCodePoint))
      twoTransactions { oneRow with cursor := cursor }) pure
      (matchingTransactions twoTransactions oneRow) ∧
    (follow (fun cursor => listSettlements utc (insertion (SettlementRow.before byCodePoint))
        twoSettlements { oneRow with cursor := cursor }) 2 none =
          some (.ok (twoSettlements.drop 1)) ∧
      ¬ Complete (fun cursor => listSettlements utc (insertion (SettlementRow.before byCodePoint))
        twoSettlements { oneRow with cursor := cursor }) pure
        (matchingSettlements twoSettlements oneRow)) ∧
    ¬ Complete (fun cursor => listWithdrawals (fun sequence offset => pure (sequence, offset))
      (insertion LeafRow.before) twoLeaves { oneRow with cursor := cursor })
      (renderWithdrawal fun sequence offset => pure (sequence, offset))
      (matchingWithdrawals twoLeaves) := by
  refine ⟨⟨?_, ?_⟩, ?_, ⟨?_, ?_⟩, ?_⟩
  · have hcollect : collect BlockRow.height (insertion BlockRow.before) (listLimit oneRow.limit) 2
        ((matchingBlocks twoBlocks oneRow).filter fun row => below none row.height) =
        some (twoBlocks.drop 1) := by
      decide +kernel
    have hshown : (twoBlocks.drop 1).mapM blockJson = .ok (twoBlocks.drop 1) := rfl
    have hserves := serves_listBlocks (insertion BlockRow.before) twoBlocks oneRow
    have hfollow := follow_collect hserves (listLimit_pos oneRow.limit) hcollect
    rw [hshown] at hfollow
    exact hfollow
  · apply not_complete_of_split (serves_listBlocks (insertion BlockRow.before) twoBlocks oneRow)
      (listLimit_pos oneRow.limit) fun _ _ => le_of_lex
    intro h
    exact absurd (h 0 (by decide)) (by decide)
  · apply not_complete_of_split (serves_listTransactions
      (insertion (TransactionRow.before byCodePoint)) twoTransactions oneRow)
      (listLimit_pos oneRow.limit) fun _ _ => le_of_lex
    intro h
    exact absurd (h 0 (by decide)) (by decide)
  · have hcollect : collect SettlementRow.createdAt (insertion (SettlementRow.before byCodePoint))
        (listLimit oneRow.limit) 2
        ((matchingSettlements twoSettlements oneRow).filter fun row => below none row.createdAt) =
        some (twoSettlements.drop 1) := by
      decide +kernel
    have hshown : (twoSettlements.drop 1).mapM (pure : SettlementRow → Except String SettlementRow) =
        .ok (twoSettlements.drop 1) := rfl
    have hserves := serves_listSettlements utc (insertion (SettlementRow.before byCodePoint))
      twoSettlements oneRow
    have hfollow := follow_collect hserves (listLimit_pos oneRow.limit) hcollect
    rw [hshown] at hfollow
    exact hfollow
  · apply not_complete_of_split (serves_listSettlements utc
      (insertion (SettlementRow.before byCodePoint)) twoSettlements oneRow)
      (listLimit_pos oneRow.limit) fun _ _ => le_of_lex
    intro h
    exact absurd (h 0 (by decide)) (by decide)
  · apply not_complete_of_split (serves_listWithdrawals
      (fun sequence offset => pure (sequence, offset)) (insertion LeafRow.before) twoLeaves oneRow)
      (listLimit_pos oneRow.limit) fun _ _ h => h
    intro h
    exact absurd (h 0 (by decide)) (by decide)

end EthereumSettlement.ExplorerPages
