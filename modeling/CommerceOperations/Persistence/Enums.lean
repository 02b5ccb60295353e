/-
  Scalar types and enumerations of the persistence layer.

  `Uuid` is the text `str(uuid)` gives, 36 characters long; `Instant` counts microseconds, and a
  `DateTime` is what a caller writes for one; money is an exact rational, and `money` rounds it to
  the four decimals its columns hold.  `Json` is what the JSON columns store.  The enumerations
  carry the values the source stores for them, where a modelled function reads them.
-/
import Mathlib.Data.Rat.Floor
import Mathlib.Data.String.Basic

namespace CommerceOperations

/-! ## Scalars -/

/-- A UUID, as `str` renders it.  Only its text is of interest: it goes into keys, payloads and
    references, and its length is what keeps a prefix of a key from being mistaken for the id behind
    it. -/
structure Uuid where
  /-- The text `str` gives. -/
  text : String
  /-- It has 36 characters. -/
  length_text : text.length = 36
  deriving DecidableEq

instance : ToString Uuid := ⟨Uuid.text⟩

/-- `uuid.hex`: the text without its hyphens. -/
def Uuid.hex (id : Uuid) : String := String.ofList (id.text.toList.filter (· ≠ '-'))

/-- Ids with one text are one id. -/
theorem Uuid.eq_of_text_eq {a b : Uuid} (h : a.text = b.text) : a = b := by
  cases a
  cases b
  cases h
  rfl

/-- A supply of ids, one for each number, for the samples. -/
def Uuid.ofNat (n : Nat) : Uuid where
  text := String.ofList ((n.repr.toList ++ List.replicate 36 '-').take 36)
  length_text := by simp

/-- A point in time, in microseconds since 1970, UTC. -/
abbrev Instant := Int

/-- A duration of so many seconds. -/
def seconds (n : Int) : Int := n * 1000000

/-- A duration of so many hours. -/
def hours (n : Int) : Int := seconds (n * 3600)

/-- A leap year of the Gregorian calendar. -/
def isLeap (year : Nat) : Bool := year % 4 = 0 ∧ (year % 100 ≠ 0 ∨ year % 400 = 0)

/-- The days of a month, and those of the months before it in its year. -/
def daysInMonth (leap : Bool) (month : Nat) : Nat :=
  if month = 2 then if leap then 29 else 28 else if month ∈ [4, 6, 9, 11] then 30 else 31

/-- The days of a year before a month. -/
def daysBeforeMonth (leap : Bool) (month : Nat) : Nat :=
  [0, 0, 31, 59, 90, 120, 151, 181, 212, 243, 273, 304, 334].getD month 0 +
    if 2 < month ∧ leap then 1 else 0

/-- The days before a year, since the first of January of year 1. -/
def daysBeforeYear (year : Nat) : Nat :=
  (year - 1) * 365 + (year - 1) / 4 - (year - 1) / 100 + (year - 1) / 400

/-- A date of the Gregorian calendar. -/
structure Date where
  year : Nat
  month : Nat
  day : Nat
  year_bounds : 1 ≤ year ∧ year ≤ 9999
  month_bounds : 1 ≤ month ∧ month ≤ 12
  day_bounds : 1 ≤ day ∧ day ≤ daysInMonth (isLeap year) month
  deriving DecidableEq

/-- `date.toordinal()`: the first of January of year 1 is day 1. -/
def Date.toordinal (d : Date) : Nat :=
  daysBeforeYear d.year + daysBeforeMonth (isLeap d.year) d.month + d.day

/-- A date and a time of day; the offset from UTC is in whole minutes, and may be missing.  The
    bounds are fields, so that every timestamp is one that can be written. -/
structure DateTime where
  date : Date
  hour : Nat
  minute : Nat
  second : Nat
  microsecond : Nat
  /-- The offset from UTC in minutes, if there is one. -/
  offset : Option Int
  hour_lt : hour < 24
  minute_lt : minute < 60
  second_lt : second < 60
  microsecond_lt : microsecond < 1000000
  offset_lt : ∀ o ∈ offset, o.natAbs < 1440
  deriving DecidableEq

/-- The point in time, 1970 being day 719163.  Without an offset it is taken to be UTC. -/
def DateTime.instant (t : DateTime) : Instant :=
  seconds (((((t.date.toordinal : Int) - 719163) * 24 + t.hour) * 60 + t.minute -
    t.offset.getD 0) * 60 + t.second) + t.microsecond

/-- Round to the nearest integer, halves away from zero, as PostgreSQL rounds a NUMERIC. -/
def roundHalfAway (q : Rat) : Int := if 0 ≤ q then (q + 1 / 2).floor else (q - 1 / 2).ceil

/-- A value as a column of type `Numeric(19, 4)` stores it.  That the column has room for it is said
    where it matters. -/
def money (q : Rat) : Rat := (roundHalfAway (q * 10000) : Rat) / 10000

/-- A decimal number as a caller writes it: a sign, digits and an exponent.  Trailing zeros and the
    sign of zero count when it is rendered, so two requests for one amount may have different texts.
    -/
structure Decimal where
  /-- The sign; zero has one too. -/
  negative : Bool
  /-- The digits. -/
  coefficient : Nat
  /-- The power of ten they are multiplied by. -/
  exponent : Int
  deriving DecidableEq

namespace Decimal

/-- The number a decimal stands for. -/
def value (d : Decimal) : Rat :=
  let coefficient : Int := if d.negative then -d.coefficient else d.coefficient
  if 0 ≤ d.exponent then coefficient * 10 ^ d.exponent.toNat
  else coefficient / 10 ^ (-d.exponent).toNat

/-- The digits with a point before the last `places`, and none when that is zero; zeros stand
    before them where there are too few. -/
def positional (digits : List Char) (places : Nat) : List Char :=
  let padded := List.replicate (places + 1 - digits.length) '0' ++ digits
  let whole := padded.take (padded.length - places)
  let fraction := padded.drop (padded.length - places)
  if places = 0 then whole else whole ++ '.' :: fraction

/-- One digit, a point and the others. -/
def mantissa : List Char → List Char
  | d :: e :: ds => d :: '.' :: e :: ds
  | ds => ds

/-- The digits with a point behind the first, and its exponent. -/
def scientific (digits : List Char) (adjusted : Int) : List Char :=
  mantissa digits ++ 'E' :: (if 0 ≤ adjusted then '+' else '-') :: adjusted.natAbs.repr.toList

/-- `str(d)`: positional while the exponent is not positive and the number not too small,
    scientific otherwise. -/
def str (d : Decimal) : String :=
  let digits := d.coefficient.repr.toList
  let adjusted := d.exponent + digits.length - 1
  String.ofList ((if d.negative then ['-'] else []) ++
    if d.exponent ≤ 0 ∧ -6 ≤ adjusted then positional digits (-d.exponent).toNat
    else scientific digits adjusted)

/-- The number a money column gives for a value: rounded to its four decimals and written with
    all of them. -/
def ofMoney (q : Rat) : Decimal :=
  ⟨roundHalfAway (q * 10000) < 0, (roundHalfAway (q * 10000)).natAbs, -4⟩

example : (Decimal.mk false 1050 (-2)).str = "10.50" := by decide
example : (Decimal.mk false 5 (-3)).str = "0.005" := by decide
example : (Decimal.mk true 1 2).str = "-1E+2" := by decide

end Decimal

/-- The characters a number may be written with. -/
def isNumberChar (c : Char) : Bool := c.isDigit || c ∈ ['-', '+', '.', 'e']

/-- A finite float, by the text `repr` gives for it: that of no integer.  Nothing is computed with
    it, so its text is all there is to keep. -/
structure FloatText where
  /-- The text. -/
  text : String
  /-- It is made of the symbols of numbers. -/
  chars : text.toList.all isNumberChar = true
  /-- It has a point or an exponent. -/
  fractional : text.toList.any (fun c => c ∈ ['.', 'e']) = true
  deriving DecidableEq

/-- A JSON value.  A decimal is stored as the text `str` gives; it is kept here as a number, with
    the digits and the exponent that make this text, since some readers turn it back into an amount.
    -/
inductive Json where
  | null
  | bool (b : Bool)
  | int (n : Int)
  /-- A floating point number. -/
  | float (x : FloatText)
  /-- An amount, to be written as its text. -/
  | decimal (d : Decimal)
  | text (s : String)
  | array (items : List Json)
  | object (fields : List (String × Json))

namespace Json

/-- A position in the list of constructors, to tell values of different kinds apart. -/
def kind : Json → Nat
  | null => 0
  | bool _ => 1
  | int _ => 2
  | decimal _ => 3
  | text _ => 4
  | array _ => 5
  | object _ => 6
  | float _ => 7

mutual

/-- Equality of JSON values is decided by structure. -/
def decEq (a b : Json) : Decidable (a = b) :=
  if hkind : a.kind = b.kind then
    match a, b with
    | null, null => isTrue rfl
    | bool b, bool b' => decidable_of_iff (b = b') (by simp)
    | int n, int n' => decidable_of_iff (n = n') (by simp)
    | float x, float x' => decidable_of_iff (x = x') (by simp)
    | decimal d, decimal d' => decidable_of_iff (d = d') (by simp)
    | text s, text s' => decidable_of_iff (s = s') (by simp)
    | array l, array l' =>
      match decEqItems l l' with
      | isTrue h => isTrue (by rw [h])
      | isFalse h => isFalse (by simp [h])
    | object l, object l' =>
      match decEqFields l l' with
      | isTrue h => isTrue (by rw [h])
      | isFalse h => isFalse (by simp [h])
  else isFalse fun h => hkind (by rw [h])

/-- Lists of JSON values, item by item. -/
def decEqItems : (l l' : List Json) → Decidable (l = l')
  | [], [] => isTrue rfl
  | [], _ :: _ => isFalse (by simp)
  | _ :: _, [] => isFalse (by simp)
  | a :: l, b :: l' =>
    match decEq a b, decEqItems l l' with
    | isTrue h, isTrue h' => isTrue (by rw [h, h'])
    | isFalse h, _ => isFalse (by simp [h])
    | _, isFalse h => isFalse (by simp [h])

/-- Equality of objects is decided field by field. -/
def decEqFields : (l l' : List (String × Json)) → Decidable (l = l')
  | [], [] => isTrue rfl
  | [], _ :: _ => isFalse (by simp)
  | _ :: _, [] => isFalse (by simp)
  | (k, a) :: l, (k', b) :: l' =>
    if hk : k = k' then
      match decEq a b, decEqFields l l' with
      | isTrue h, isTrue h' => isTrue (by rw [hk, h, h'])
      | isFalse h, _ => isFalse (by simp [h])
      | _, isFalse h => isFalse (by simp [h])
    else isFalse (by simp [hk])

end

instance : DecidableEq Json := decEq

/-- `value.get(field)` of an object. -/
def get? : Json → String → Option Json
  | object fields, field => (fields.find? fun f => f.1 = field).map (·.2)
  | _, _ => none

/-- A text, or `null` where there is none. -/
def ofText (s : Option String) : Json := (s.map Json.text).getD .null

/-- `{**a, **b}`: the fields of `b` override those of `a`. -/
def merge : Json → Json → Json
  | object fields, object fields' =>
    object (fields.filter (fun f => fields'.all fun f' => f'.1 ≠ f.1) ++ fields')
  | a, _ => a

end Json

/-! ## Enumerations -/

/-- `ProcurementStatus`, the statuses of a procurement request. -/
inductive ProcurementStatus where
  | proposed | awaitingApproval | approved | ordered | shipped | received | cancelled
  deriving DecidableEq, Repr

/-- The text a status is stored and reported as; likewise below. -/
def ProcurementStatus.value : ProcurementStatus → String
  | proposed => "proposed"
  | awaitingApproval => "awaiting_approval"
  | approved => "approved"
  | ordered => "ordered"
  | shipped => "shipped"
  | received => "received"
  | cancelled => "cancelled"

/-- `PurchaseOrderStatus`, the statuses of a purchase order. -/
inductive PurchaseOrderStatus where
  | draft | approved | submitted | shipped | received | cancelled
  deriving DecidableEq, Repr

/-- The text of a status of a purchase order. -/
def PurchaseOrderStatus.value : PurchaseOrderStatus → String
  | draft => "draft"
  | approved => "approved"
  | submitted => "submitted"
  | shipped => "shipped"
  | received => "received"
  | cancelled => "cancelled"

/-- `InventoryMovementType`.  Receipts, returns and adjustments move the stock on hand, reservations
    and releases the reserved stock, and a shipment both. -/
inductive InventoryMovementType where
  | receipt | reservation | release | shipment | return | adjustment
  deriving DecidableEq, Repr

/-- The text of a type of movement, which is part of the ledger key of an order line. -/
def InventoryMovementType.value : InventoryMovementType → String
  | receipt => "receipt"
  | reservation => "reservation"
  | release => "release"
  | shipment => "shipment"
  | .return => "return"
  | adjustment => "adjustment"

/-- `ApprovalStatus`; `REQUESTED` is an alias of `PENDING` in the source. -/
inductive ApprovalStatus where
  | pending | approved | rejected | expired | cancelled | executed | executionFailed
  deriving DecidableEq, Repr

/-- The text of a status of an approval. -/
def ApprovalStatus.value : ApprovalStatus → String
  | pending => "pending"
  | approved => "approved"
  | rejected => "rejected"
  | expired => "expired"
  | cancelled => "cancelled"
  | executed => "executed"
  | executionFailed => "execution_failed"

/-- `PublicationStatus`, the statuses of an event in the outbox. -/
inductive PublicationStatus where
  | draft | pending | published | failed | archived
  deriving DecidableEq, Repr

/-- `OrderStatus`, in the order in which an order goes through them, with the three ways it may end
    otherwise. -/
inductive OrderStatus where
  | pending | paid | processing | dispatched | delivered | cancelled | returned | refunded
  deriving DecidableEq, Repr

/-- The text of a status of an order. -/
def OrderStatus.value : OrderStatus → String
  | pending => "pending"
  | paid => "paid"
  | processing => "processing"
  | dispatched => "dispatched"
  | delivered => "delivered"
  | cancelled => "cancelled"
  | returned => "returned"
  | refunded => "refunded"

/-- `ReturnStatus`, the statuses of a return. -/
inductive ReturnStatus where
  | requested | approved | received | rejected | completed
  deriving DecidableEq, Repr

/-- `RefundStatus`, the statuses of a refund. -/
inductive RefundStatus where
  | proposed | approved | processing | completed | failed | cancelled
  deriving DecidableEq, Repr

/-- The text of a status of a refund. -/
def RefundStatus.value : RefundStatus → String
  | proposed => "proposed"
  | approved => "approved"
  | processing => "processing"
  | completed => "completed"
  | failed => "failed"
  | cancelled => "cancelled"

/-- `ConversationStatus`, the statuses of a conversation with a customer. -/
inductive ConversationStatus where
  | open | awaitingApproval | escalated | closed
  deriving DecidableEq, Repr

/-- `MessageDirection`: from the customer or to the customer. -/
inductive MessageDirection where
  | inbound | outbound
  deriving DecidableEq, Repr

/-- `MessageStatus`, the statuses of a message. -/
inductive MessageStatus where
  | received | draft | approved | sent | failed
  deriving DecidableEq, Repr

/-- `CustomerServiceDecision`: the ways in which a message is dealt with. -/
inductive CustomerServiceDecision where
  | autoRespond | draftForApproval | humanEscalation
  deriving DecidableEq, Repr

/-- The text a decision is stored as. -/
def CustomerServiceDecision.value : CustomerServiceDecision → String
  | autoRespond => "AUTO_RESPOND"
  | draftForApproval => "DRAFT_FOR_APPROVAL"
  | humanEscalation => "HUMAN_ESCALATION"

/-- `CustomerIntent`: what the customer wants, as the language model tells it. -/
inductive CustomerIntent where
  | productEnquiry | orderStatus | deliveryQuestion | returnRequest | refundEnquiry | complaint
  | commonMarketplaceMessage | unknown
  deriving DecidableEq, Repr

/-- The text an intent is stored as. -/
def CustomerIntent.value : CustomerIntent → String
  | productEnquiry => "product_enquiry"
  | orderStatus => "order_status"
  | deliveryQuestion => "delivery_question"
  | returnRequest => "return_request"
  | refundEnquiry => "refund_enquiry"
  | complaint => "complaint"
  | commonMarketplaceMessage => "common_marketplace_message"
  | unknown => "unknown"

/-- `RunStatus`, of workflow runs and of agent runs. -/
inductive RunStatus where
  | pending | running | succeeded | failed | retrying | escalated | cancelled
  deriving DecidableEq, Repr

/-- The text of a status of a run. -/
def RunStatus.value : RunStatus → String
  | pending => "pending"
  | running => "running"
  | succeeded => "succeeded"
  | failed => "failed"
  | retrying => "retrying"
  | escalated => "escalated"
  | cancelled => "cancelled"

/-- `EventStatus`.  No modelled function sets the last one. -/
inductive EventStatus where
  | pending | published | failed | deadLettered
  deriving DecidableEq, Repr

/-- `HandlerReceiptStatus`: a receipt is only made when the handler is done. -/
inductive HandlerReceiptStatus where
  | completed
  deriving DecidableEq, Repr

end CommerceOperations
