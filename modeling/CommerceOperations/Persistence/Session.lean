/-
  The session a service works in.

  A service call is a `Tx`: a transaction on the database whose questions to the environment are
  the calls the source makes outside of it (`uuid.uuid4`, `datetime.now`, the language model, a
  marketplace connector), and whose exceptions are those of the source, by class and message.
  `Digests` stands for the two hash functions; nothing is assumed about them here.

  An object the session changed is written by `flush` where the source flushes it, or where the
  next query would flush it for it.

  The second half says, once for the whole development, which tables a transaction can touch.
  Three forms of it are in use, each closed under sequencing by the rules of `Prog.writes`:

    - `confined tables`: only the listed tables are written, and no `OrderValidationError` is
      raised.  This is what the order service needs to know of the calls it makes.
    - `spares i`: the table `i` is not written and none of its constraints can fail, so that an
      `IntegrityError` caught about `i` was not raised here.
    - `leaves i`: the table `i` is not written, whatever is raised.

  Every service function of the models below has its line in one of these forms, and the proofs
  about a table skip the functions that leave it alone.
-/
import CommerceOperations.Persistence.Models

namespace CommerceOperations

open Relational

/-! ## Exceptions -/

/-- The exception classes of the source, and those of the libraries it meets.  The workflow engine
    writes the class into the run it fails, and several handlers of the source catch by class, so
    the class is kept apart from the message. -/
inductive ExceptionType where
  | assertionError | attributeError | lookupError | runtimeError | valueError
  | inventoryNotFoundError | purchaseOrderNotReceivableError | purchaseOrderReceiptNotFoundError
  | inventoryIdempotencyConflict | invalidInventoryChange
  | orderNotFoundError | insufficientInventoryError | orderIdempotencyConflict
  | orderValidationError | invalidOrderTransition
  | procurementNotFoundError | purchaseOrderNotFoundError | procurementValidationError
  | invalidProcurementTransition
  | eventConflictError | eventNotFoundError
  | nonRetryableWorkflowError
  | approvalNotFoundError | approvalTransitionError | approvalExpiredError
  | refundApprovalError | listingApprovalError | listingInventoryNotReadyError
  | listingPublicationError | pricingInventoryNotFoundError | pricingApprovalError
  | pricingValidationError | conversationNotFoundError | customerMessageConflict
  | customerResponseApprovalError | spendingLimitExceeded | approvedProductConflictError
  deriving DecidableEq, Repr

/-- `type(exc).__name__`, the name of an exception's class. -/
def ExceptionType.name : ExceptionType → String
  | assertionError => "AssertionError"
  | attributeError => "AttributeError"
  | lookupError => "LookupError"
  | runtimeError => "RuntimeError"
  | valueError => "ValueError"
  | inventoryNotFoundError => "InventoryNotFoundError"
  | purchaseOrderNotReceivableError => "PurchaseOrderNotReceivableError"
  | purchaseOrderReceiptNotFoundError => "PurchaseOrderReceiptNotFoundError"
  | inventoryIdempotencyConflict => "InventoryIdempotencyConflict"
  | invalidInventoryChange => "InvalidInventoryChange"
  | orderNotFoundError => "OrderNotFoundError"
  | insufficientInventoryError => "InsufficientInventoryError"
  | orderIdempotencyConflict => "OrderIdempotencyConflict"
  | orderValidationError => "OrderValidationError"
  | invalidOrderTransition => "InvalidOrderTransition"
  | procurementNotFoundError => "ProcurementNotFoundError"
  | purchaseOrderNotFoundError => "PurchaseOrderNotFoundError"
  | procurementValidationError => "ProcurementValidationError"
  | invalidProcurementTransition => "InvalidProcurementTransition"
  | eventConflictError => "EventConflictError"
  | eventNotFoundError => "EventNotFoundError"
  | nonRetryableWorkflowError => "NonRetryableWorkflowError"
  | approvalNotFoundError => "ApprovalNotFoundError"
  | approvalTransitionError => "ApprovalTransitionError"
  | approvalExpiredError => "ApprovalExpiredError"
  | refundApprovalError => "RefundApprovalError"
  | listingApprovalError => "ListingApprovalError"
  | listingInventoryNotReadyError => "ListingInventoryNotReadyError"
  | listingPublicationError => "ListingPublicationError"
  | pricingInventoryNotFoundError => "PricingInventoryNotFoundError"
  | pricingApprovalError => "PricingApprovalError"
  | pricingValidationError => "PricingValidationError"
  | conversationNotFoundError => "ConversationNotFoundError"
  | customerMessageConflict => "CustomerMessageConflict"
  | customerResponseApprovalError => "CustomerResponseApprovalError"
  | spendingLimitExceeded => "SpendingLimitExceeded"
  | approvedProductConflictError => "ApprovedProductConflictError"

/-- An exception: one the database reports, a lost connection, or one with a class and a message.
    `other` is what code outside the model may raise: a step of a workflow the repository does not
    define, or a connector. -/
inductive Error where
  | integrityError (table : TableName) (violated : List Unique)
  | staleDataError
  | operationalError
  | raised (type : ExceptionType) (message : String)
  | other (typeName message : String)
  deriving DecidableEq

namespace Error

/-- `type(exc).__name__` of an error, as the engine records it. -/
def typeName : Error → String
  | integrityError _ _ => "IntegrityError"
  | staleDataError => "StaleDataError"
  | operationalError => "OperationalError"
  | raised type _ => type.name
  | other typeName _ => typeName

/-- `str(exc)`; the texts of the database's own errors are left out. -/
def message : Error → String
  | raised _ message => message
  | other _ message => message
  | _ => ""

end Error

instance : SqlErrors Error TableName Unique where
  integrityError := .integrityError
  staleDataError := .staleDataError

/-! ## Replies of the environment -/

/-- `ai/models.py`: what the provider says a call has used and cost.  The currency is absent where
    the provider names none. -/
structure LLMUsage where
  inputTokens : Int
  outputTokens : Int
  costAmount : Rat
  costCurrency : Option String
  deriving DecidableEq

/-- What the provider reports; `output` is `none` where it does not validate. -/
structure LLMResult (α : Type) where
  output : Option α
  provider : String
  model : String
  usage : LLMUsage

/-- The result with its validated output. -/
def LLMResult.validated {α : Type} (result : LLMResult α) : Except Error (LLMResult α × α) :=
  match result.output with
  | some output => .ok (result, output)
  | none => .error (.other "ValidationError" "validation error")

/-- An image the listing needs, as the model asks for it. -/
structure ImageRequirement where
  imageType : String
  description : String
  required : Bool

/-- `GeneratedListing` of `agents/listing_models.py`: what the model writes of a product. -/
structure GeneratedListing where
  title : String
  bulletPoints : List String
  description : String
  searchTerms : List String
  categorySuggestion : String
  productAttributes : Json
  sku : String
  proposedPrice : Rat
  imageRequirements : List ImageRequirement

/-- One finding of a listing validator: a code, the field it is about, and the text shown. -/
structure ValidationIssue where
  code : String
  field : String
  message : String

/-- `agents/customer_service_models.py`. -/
structure CustomerServiceAIResponse where
  intent : CustomerIntent
  decision : CustomerServiceDecision
  riskLevel : String
  generatedResponse : Option String
  rationale : String

/-- What a connector is told about a listing: the columns of the generated listing, the price and
    the stock of its item, and the payload built for the marketplace. -/
structure MarketplaceListingInput where
  sku : String
  title : String
  description : String
  category : Option String
  attributes : Json
  price : Rat
  currency : String
  quantity : Int
  imageUrls : List Json
  marketplacePayload : Json

/-- What `connector.validate_listing` returns. -/
structure MarketplaceValidationResult where
  valid : Bool
  issues : List String

/-- What `connector.create_listing` does: the external id, the issues of a
    `MarketplaceValidationError`, or another exception. -/
inductive CreateListingReply where
  | created (externalListingId : String)
  | invalid (issues : List String)
  | failed (e : Error)

/-- One answer of the environment.  Each question reads one of the fields.  That the fields are
    answered together costs nothing, because every question gets an answer of its own. -/
structure Environment where
  uuid4 : Uuid
  now : Instant
  generateListing : Except Error (LLMResult GeneratedListing)
  classifyMessage : Except Error (LLMResult CustomerServiceAIResponse)
  createListing : MarketplaceListingInput → String → CreateListingReply

/-- An environment that numbers its answers to the `k`-th call: ids in turn, a clock of one tick
    an answer, and no service that replies. -/
def Environment.numbered (k n : Nat) : Environment where
  uuid4 := Uuid.ofNat (1000 * (k + 1) + n)
  now := 1000 * (k + 1) + n
  generateListing := .error .operationalError
  classifyMessage := .error .operationalError
  createListing _ _ := .failed .operationalError

/-- `uuid.uuid5(uuid.NAMESPACE_URL, name)` and the SHA-256 digest of a text. -/
class Digests where
  uuid5 : String → Uuid
  sha256 : String → String

/-- Digests that tell names with different endings apart.  They are what the samples run on, since
    they can be evaluated; the results are about any digests. -/
@[reducible] def Digests.byEnding : Digests where
  uuid5 name :=
    { text := String.ofList ((name.toList.reverse ++ List.replicate 36 '-').take 36)
      length_text := by simp }
  sha256 _ := "digest"

/-- Digests that keep the whole text. -/
@[reducible] def Digests.plain : Digests where
  uuid5 := Digests.byEnding.uuid5
  sha256 text := text

/-! ## Transactions -/

/-- A transaction on the database: reads that may lock, writes, questions to the environment, and
    the exceptions above. -/
abbrev Tx (α : Type) : Type := Prog.Sql TableName.Entity Environment Error α

namespace Tx

/-- `uuid.uuid4()`, also the default of a new row's id. -/
def uuid4 : Tx Uuid := Prog.answer (·.uuid4)

/-- `datetime.now(UTC)`, which the environment answers. -/
def now : Tx Instant := Prog.answer (·.now)

/-- The transaction at a time when the clock shows `t`. -/
def atTime {α : Type} (t : Instant) (p : Tx α) : Tx α := p.under fun env => { env with now := t }

/-- A SELECT that locks nothing.  Under READ COMMITTED what it saw may have changed by the time of
    the next statement, and the model lets it. -/
def select {α : Type} (f : Db → α) : Tx α := Prog.query f

/-- `raise type(message)`, an exception of the services. -/
def throw {α : Type} (type : ExceptionType) (message : String) : Tx α :=
  .raise (.raised type message)

/-- The value, or the exception: the source's `if row is None: raise ..`. -/
def orThrow {α : Type} (a : Option α) (type : ExceptionType) (message : String) : Tx α :=
  match a with
  | some a => pure a
  | none => throw type message

/-- Raise unless the condition holds: the source's guards `if not ..: raise ..`. -/
def require (cond : Prop) [Decidable cond] (type : ExceptionType) (message : String) : Tx Unit :=
  if cond then pure () else throw type message

/-- A lookup that may raise ends well only if there was something to find, and writes nothing. -/
theorem runs_orThrow {α : Type} {a : Option α} {type : ExceptionType} {message : String}
    {b : α} {D D' : Db} :
    (orThrow a type message).runs D (.ok (b, D')) ↔ a = some b ∧ D = D' := by
  cases a with
  | none => simp [orThrow, throw, Prog.runs]
  | some a => simp [orThrow, Prog.runs, eq_comm]

/-- After a guard that did not raise, its condition holds and the state is the same.  With this rule
    a guard in the middle of a service becomes a hypothesis of the proof about the rest. -/
theorem runs_require {cond : Prop} [Decidable cond] {type : ExceptionType} {message : String}
    {u : Unit} {D D' : Db} :
    (require cond type message).runs D (.ok (u, D')) ↔ cond ∧ D = D' := by
  unfold require
  split
  · rename_i h
    simp [Prog.runs, h, eq_comm]
  · rename_i h
    simp [throw, Prog.runs, h]

/-- A plain read returns what it reads. -/
theorem runs_select {α : Type} {f : Db → α} {a : α} {D D' : Db} :
    (select f).runs D (.ok (a, D')) ↔ a = f D ∧ D = D' := by
  simp [select, Prog.query, Prog.runs, eq_comm]

end Tx

/-- `session.add` of a new row, flushed.  The unique constraints of the table are checked here. -/
abbrev add (i : TableName) (row : i.Entity) : Tx i.Entity := Prog.insert i row

/-- Write a changed object: `loaded` is the row as the session read it, and the flush raises
    `StaleDataError` where the version in the database is no longer its version. -/
abbrev flush (i : TableName) (loaded new : i.Entity) : Tx i.Entity := Prog.flush i loaded new

/-- `SELECT .. WHERE p FOR UPDATE`, the first row. -/
abbrev selectForUpdate (i : TableName) (p : i.Entity → Bool) : Tx (Option i.Entity) :=
  Prog.selectForUpdate i p

/-- `SELECT .. FOR UPDATE`, all rows that `sel` picks. -/
abbrev selectAllForUpdate (i : TableName) (sel : Table i.Entity → List i.Entity) :
    Tx (List i.Entity) := Prog.selectAllForUpdate i sel

/-- `UPDATE i SET set WHERE id = k AND cond RETURNING id`. -/
abbrev updateWhere (i : TableName) (k : Uuid) (cond : i.Entity → Bool)
    (set : i.Entity → i.Entity) : Tx (Option i.Entity) := Prog.updateWhere i k cond set

/-! ## Transactions that touch only some tables -/

/-- The exceptions of the order service about the data of an order. -/
def Error.isOrderValidation (e : Error) : Prop :=
  ∃ message, e = .raised .orderValidationError message

namespace Tx

/-- `p` writes only the tables of a list, and raises no `OrderValidationError`. -/
abbrev confined {α : Type} (tables : List TableName) (p : Tx α) : Prop :=
  Prog.confined (· ∈ tables) Error.isOrderValidation p

section Confined

variable {α β : Type} {tables : List TableName}

/-- An exception of another class is not an `OrderValidationError`, whatever its message. -/
theorem not_isOrderValidation {type : ExceptionType} {message : String}
    (h : type ≠ .orderValidationError) : ¬(Error.raised type message).isOrderValidation := by
  rintro ⟨message', heq⟩
  cases heq
  exact h rfl

/-- A transaction confined to some tables is confined to more.  A caller lists the tables of
    everything it calls, and this brings each callee under that list. -/
theorem confined_mono {tables' : List TableName} {p : Tx α} (h : p.confined tables)
    (hsub : tables ⊆ tables') : p.confined tables' :=
  Prog.writes_mono h (fun _ hw => hsub hw) fun _ he => he

/-- Raising writes nothing; the class must not be the one excluded. -/
theorem confined_throw {type : ExceptionType} {message : String}
    (h : type ≠ .orderValidationError) : (throw type message : Tx α).confined tables :=
  not_isOrderValidation h

/-- A lookup that may raise writes nothing. -/
theorem confined_orThrow {a : Option α} {type : ExceptionType} {message : String}
    (h : type ≠ .orderValidationError) : (orThrow a type message).confined tables := by
  cases a with
  | some a => exact trivial
  | none => exact confined_throw h

/-- A guard that may raise writes nothing. -/
theorem confined_require {cond : Prop} [Decidable cond] {type : ExceptionType} {message : String}
    (h : type ≠ .orderValidationError) : (require cond type message).confined tables := by
  unfold require
  split
  · exact trivial
  · exact confined_throw h

/-- An insert writes its own table, and what it may raise is the database's. -/
theorem confined_add {i : TableName} (row : i.Entity) (hi : i ∈ tables) :
    (add i row).confined tables :=
  Prog.writes_insert row hi fun us => by rintro ⟨m, h⟩; exact nomatch h

/-- A flush writes one row of its table, or raises for a row that went stale. -/
theorem confined_flush {i : TableName} (loaded new : i.Entity) (hi : i ∈ tables) :
    (flush i loaded new).confined tables :=
  Prog.writes_flush loaded new (fun _ _ _ => hi) (fun us => by rintro ⟨m, h⟩; exact nomatch h)
    (by rintro ⟨m, h⟩; exact nomatch h)

end Confined

/-! ### Sparing a table -/

section Spares

variable {α : Type} {i : TableName}

/-- `p` does not write the table `i`, and meets no constraint of it.  The second part matters where
    the source catches an `IntegrityError` and takes it for a race on `i`: then the error must have
    come from the insert into `i` itself. -/
abbrev spares (i : TableName) (p : Tx α) : Prop :=
  Prog.confined (· ≠ i) (fun e => ∃ us, e = Error.integrityError i us) p

/-- The exceptions of the source are not those of the database. -/
theorem spares_throw {type : ExceptionType} {message : String} :
    (throw type message : Tx α).spares i := by
  rintro ⟨us, h⟩
  exact nomatch h

/-- A lookup spares every table: what it raises is an exception of the source, and it writes
    nothing. -/
theorem spares_orThrow {a : Option α} {type : ExceptionType} {message : String} :
    (orThrow a type message).spares i := by
  cases a with
  | some a => exact trivial
  | none => exact spares_throw

/-- A guard spares every table, as a lookup does. -/
theorem spares_require {cond : Prop} [Decidable cond] {type : ExceptionType}
    {message : String} : (require cond type message).spares i := by
  unfold require
  split
  · exact trivial
  · exact spares_throw

/-- A constraint of `j` is not a constraint of `i`. -/
theorem not_integrityError {j : TableName} (h : j ≠ i) (us : List Unique) :
    ¬∃ us', Error.integrityError j us = .integrityError i us' := by
  rintro ⟨us', heq⟩
  cases heq
  exact h rfl

/-- An insert into another table spares `i`. -/
theorem spares_add {j : TableName} (row : j.Entity) (h : j ≠ i) : (add j row).spares i :=
  Prog.writes_insert row h (not_integrityError h)

/-- An UPDATE of another table spares `i`. -/
theorem spares_updateWhere {j : TableName} {k : Uuid} {cond : j.Entity → Bool}
    {set : j.Entity → j.Entity} (h : j ≠ i) : (updateWhere j k cond set).spares i :=
  Prog.writes_updateWhere (fun _ _ _ => h) (not_integrityError h)

/-- A flush into another table spares `i`. -/
theorem spares_flush {j : TableName} (loaded new : j.Entity) (h : j ≠ i) :
    (flush j loaded new).spares i :=
  Prog.writes_flush loaded new (fun _ _ _ => h) (not_integrityError h)
    (by rintro ⟨us, heq⟩; exact nomatch heq)

/-- The table is what it was, and its constraints did not fail. -/
theorem post_of_spares {p : Tx α} (h : p.spares i) (D : Db) :
    p.post D (fun _ D' => D'.table i = D.table i) fun e => ∀ us, e ≠ .integrityError i us :=
  Prog.post_mono (Prog.post_of_confined h D) (fun _ _ hD => hD i (by simp))
    fun _ he us heq => he ⟨us, heq⟩

/-- The form used for a run that ended well: the table is what it was. -/
theorem table_of_spares {p : Tx α} (h : p.spares i) {D D' : Db} {a : α}
    (hrun : p.runs D (.ok (a, D'))) : D'.table i = D.table i :=
  (Prog.post_iff.mp (post_of_spares h D)).1 a D' hrun

end Spares

/-! ### Leaving a table -/

section Leaves

variable {α : Type} {i : TableName}

/-- `p` writes no row of the table `i`.  Of the exceptions nothing is said, which makes this the
    weakest of the three forms and the one most functions are shown to have. -/
abbrev leaves (i : TableName) (p : Tx α) : Prop := Prog.confined (· ≠ i) (fun _ => False) p

/-- What spares a table leaves it. -/
theorem leaves_of_spares {p : Tx α} (h : p.spares i) : p.leaves i :=
  Prog.writes_mono h (fun _ hw => hw) fun _ he => he.elim

/-- What is confined to other tables leaves the table.  So one line about a service gives its frame
    for every table it does not name. -/
theorem leaves_of_confined {p : Tx α} {tables : List TableName} (h : p.confined tables)
    (hi : i ∉ tables) : p.leaves i :=
  Prog.writes_mono h (fun _ hw heq => hi (heq ▸ hw)) fun _ he => he.elim

/-- Raising writes nothing, so it leaves every table. -/
theorem leaves_throw {type : ExceptionType} {message : String} :
    (throw type message : Tx α).leaves i := fun h => h

/-- A lookup leaves every table, because it spares it. -/
theorem leaves_orThrow {a : Option α} {type : ExceptionType} {message : String} :
    (orThrow a type message).leaves i := leaves_of_spares spares_orThrow

/-- A guard writes nothing either. -/
theorem leaves_require {cond : Prop} [Decidable cond] {type : ExceptionType}
    {message : String} : (require cond type message).leaves i := leaves_of_spares spares_require

/-- An insert leaves all tables but its own. -/
theorem leaves_add {j : TableName} (row : j.Entity) (h : j ≠ i) : (add j row).leaves i :=
  leaves_of_spares (spares_add row h)

/-- A flush leaves all tables but its own. -/
theorem leaves_flush {j : TableName} (loaded new : j.Entity) (h : j ≠ i) :
    (flush j loaded new).leaves i := leaves_of_spares (spares_flush loaded new h)

end Leaves

end Tx

/-- Table `i` is as before.  As a relation between the start and the end of a transaction it is what
    `keeps` is used with most. -/
def Db.SameTable (i : TableName) (D D' : Db) : Prop := D'.table i = D.table i

namespace Db.SameTable

variable {i : TableName}

instance : Std.Refl (Db.SameTable i) := ⟨fun _ => rfl⟩

instance : IsTrans Db (Db.SameTable i) := ⟨fun _ _ _ h h' => h'.trans h⟩

/-- A transaction that leaves a table keeps it the same, by the frame rule of `Prog.writes`. -/
theorem of_leaves {α : Type} {p : Tx α} (h : p.leaves i) : p.keeps (Db.SameTable i) :=
  Prog.keeps_of_confined h fun _ _ hD => hD i fun hne => hne rfl

end Db.SameTable

/-! ### Relations between start and end -/

section Keeps

variable {α : Type} {Rel : Db → Db → Prop} [Std.Refl Rel]

/-- A lookup keeps any reflexive relation between the states before and after, since it does not
    write. -/
theorem keeps_orThrow (a : Option α) (type : ExceptionType) (message : String) :
    (Tx.orThrow a type message).keeps Rel := by
  cases a with
  | some a => exact Prog.keeps_done a
  | none => exact Prog.keeps_raise _

/-- A guard writes nothing either. -/
theorem keeps_require (cond : Prop) [Decidable cond] (type : ExceptionType) (message : String) :
    (Tx.require cond type message).keeps Rel := by
  unfold Tx.require
  split
  · exact Prog.keeps_done ()
  · exact Prog.keeps_raise _

/-- A locking read takes its locks and leaves the rows as they are. -/
theorem keeps_selectForUpdate {i : TableName} (p : i.Entity → Bool) :
    (selectForUpdate i p).keeps Rel := by
  intro D a D' h
  obtain ⟨-, rfl⟩ := Prog.runs_selectForUpdate.mp h
  exact Std.Refl.refl D

end Keeps

end CommerceOperations
