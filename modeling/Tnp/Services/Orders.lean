import Mathlib.Data.List.Dedup
import Mathlib.Data.List.Sort
import Tnp.Lib.OrderedMap
import Tnp.Lib.Run
import Tnp.Services.Money

/-!
Quotes and orders.

A call of `placeOrder` awaits the database at every statement before its transaction, so that other
calls come between. The transaction is one step: the quotes are locked, and the unique indexes hold
back whoever writes the same key or the same name.

A row of a table that no statement deletes from has its place as its id.
-/

namespace Tnp.Services.Orders

open Tnp.Lib Tnp.Lib.Run

/-! ### Tables -/

inductive QuoteOperation
  | register
  | renew
  | transferIn
  deriving DecidableEq

inductive ProviderEnvironment
  | sandbox
  | production
  deriving DecidableEq

structure QuoteRow where
  ownerId : String
  providerAccountId : String
  operation : QuoteOperation
  asciiName : String
  unicodeName : String
  suffix : String
  years : ℕ
  costMinor : ℤ
  feesMinor : ℤ
  price : Money
  expiresAt : ℕ
  consumedAt : Option ℕ
  deriving DecidableEq

inductive Lifecycle
  | pending
  | active
  | expired
  | redemption
  | transferringIn
  | transferredOut
  | lockedByRegistry
  | failed
  | unknown
  deriving DecidableEq

structure PublicDomain where
  ownerId : String
  asciiName : String
  unicodeName : String
  suffix : String
  providerAccountId : String
  lifecycle : Lifecycle
  privacy : Bool
  deriving DecidableEq

def PublicDomain.live (domain : PublicDomain) : Bool :=
  domain.lifecycle ≠ .failed && domain.lifecycle ≠ .transferredOut

inductive PaymentState
  | authorized
  | captured
  deriving DecidableEq

structure PaymentAuthorization where
  reference : String
  state : PaymentState
  deriving DecidableEq

structure OrderRow where
  ownerId : String
  payment : PaymentAuthorization
  total : Money
  idempotencyKey : String
  intentHash : String
  deriving DecidableEq

structure OrderLine where
  orderId : ℕ
  quoteId : String
  price : Money
  publicDomainId : ℕ
  operationId : ℕ
  deriving DecidableEq

/-- A registration. Its key is `order:<order>:line:<line>`, in the scope of its owner. -/
structure Operation where
  orderId : ℕ
  lineId : ℕ
  ownerId : String
  publicDomainId : ℕ
  providerAccountId : String
  years : ℕ
  privacy : Bool
  environment : ProviderEnvironment
  maxCostMinor : ℤ
  currency : String
  deriving DecidableEq

structure Db where
  now : ℕ := 0
  accounts : OrderedMap String ProviderEnvironment := {}
  quotes : OrderedMap String QuoteRow := {}
  domains : List PublicDomain := []
  orders : List OrderRow := []
  lines : List OrderLine := []
  operations : List Operation := []

/-- The unique index of live names. -/
def Db.held (db : Db) (providerAccountId asciiName : String) : Bool :=
  db.domains.any fun d =>
    d.providerAccountId = providerAccountId && d.asciiName = asciiName && d.live

/-- A quote of the owner, with the environment of its account. -/
def Db.quoteOf (db : Db) (ownerId id : String) : Option (QuoteRow × ProviderEnvironment) :=
  (db.quotes.get id).bind fun quote =>
    if quote.ownerId = ownerId then (db.accounts.get quote.providerAccountId).map (quote, ·)
    else none

/-- The rows that a statement reads, by their ids. -/
abbrev Rows := List (String × QuoteRow × ProviderEnvironment)

/-! ### Errors -/

inductive Reason
  | missing
  | expired
  | consumed
  | mixedCurrency
  | mixedEnvironment
  | notOrderable
  | alreadyInInventory
  deriving DecidableEq

inductive OrderError
  | idempotencyConflict (key : String)
  | quoteUnusable (quoteId : String) (reason : Reason)
  | payments
  | uniqueViolation (constraint : String)
  | range (message : String)
  deriving DecidableEq

/-! ### Placing an order -/

structure PlaceOrderInput where
  ownerId : String
  quoteIds : List String
  idempotencyKey : String
  privacy : Bool
  deriving DecidableEq

structure PlacedOrder where
  order : ℕ
  created : Bool
  deriving DecidableEq

/-- `[...new Set(input.quoteIds)].sort()`. -/
def PlaceOrderInput.ids (input : PlaceOrderInput) : List String :=
  input.quoteIds.dedup.mergeSort fun a b => a ≤ b

def Db.findOrderByKey (db : Db) (ownerId key : String) : Option (ℕ × OrderRow) :=
  (db.orders.findIdx? fun o => o.ownerId = ownerId && o.idempotencyKey = key).bind fun id =>
    db.orders[id]?.map (id, ·)

/-- Where the loop of `priceQuotes` is. -/
structure Pricing where
  rest : List String
  rows : Rows
  total : Option Money := none
  environment : Option ProviderEnvironment := none

/-- The quotes of the owner that are neither expired nor consumed. -/
def Db.selectPriced (db : Db) (ownerId : String) (quoteIds : List String) : Rows :=
  quoteIds.filterMap fun id =>
    ((db.quoteOf ownerId id).filter fun row =>
      db.now < row.1.expiresAt && row.1.consumedAt.isNone).map (id, ·)

/-- A turn of the loop, up to the next. -/
def Pricing.next (db : Db) (p : Pricing) (id : String) (rest : List String) :
    Except OrderError Pricing :=
  match p.rows.lookup id with
  | none => .error (.quoteUnusable id .expired)
  | some (quote, environment) =>
    if quote.operation ≠ .register then .error (.quoteUnusable id .notOrderable)
    else if db.held quote.providerAccountId quote.asciiName then
      .error (.quoteUnusable id .alreadyInInventory)
    else if p.total.any fun total => total.currency ≠ quote.price.currency then
      .error (.quoteUnusable id .mixedCurrency)
    else if p.environment.any fun known => known ≠ environment then
      .error (.quoteUnusable id .mixedEnvironment)
    else
      match p.total with
      | none => .ok { p with rest, total := some quote.price, environment := some environment }
      | some total =>
        match addMoney total quote.price with
        | .error message => .error (.range message)
        | .ok total => .ok { p with rest, total := some total, environment := some environment }

/-- A turn of the loop of `writeOrder`. -/
def writeLine (input : PlaceOrderInput) (order : ℕ) (locked : Rows) (db : Db) (quoteId : String) :
    Except OrderError Db :=
  match locked.lookup quoteId with
  | none => .error (.quoteUnusable quoteId .missing)
  | some (quote, environment) =>
    if quote.consumedAt.isSome then .error (.quoteUnusable quoteId .consumed)
    else if quote.operation ≠ .register then .error (.quoteUnusable quoteId .notOrderable)
    else if db.held quote.providerAccountId quote.asciiName then
      .error (.uniqueViolation "public_domains_account_name_live_key")
    else if db.lines.any (·.quoteId = quoteId) then
      .error (.uniqueViolation "order_lines_quote_key")
    else
      .ok { db with
        quotes := db.quotes.set quoteId { quote with consumedAt := some db.now }
        domains := db.domains ++ [{
          ownerId := input.ownerId
          asciiName := quote.asciiName
          unicodeName := quote.unicodeName
          suffix := quote.suffix
          providerAccountId := quote.providerAccountId
          lifecycle := .pending
          privacy := input.privacy }]
        lines := db.lines ++ [{
          orderId := order
          quoteId
          price := quote.price
          publicDomainId := db.domains.length
          operationId := db.operations.length }]
        operations := db.operations ++ [{
          orderId := order
          lineId := db.lines.length
          ownerId := input.ownerId
          publicDomainId := db.domains.length
          providerAccountId := quote.providerAccountId
          years := quote.years
          privacy := input.privacy
          environment
          maxCostMinor := quote.costMinor + quote.feesMinor
          currency := quote.price.currency }] }

/-- The transaction. What it throws undoes it. -/
def writeOrder (db : Db) (input : PlaceOrderInput) (quoteIds : List String) (intentHash : String)
    (total : Money) (payment : PaymentAuthorization) : Except OrderError (PlacedOrder × Db) :=
  match db.findOrderByKey input.ownerId input.idempotencyKey with
  | some (id, winner) =>
    if winner.intentHash ≠ intentHash then .error (.idempotencyConflict input.idempotencyKey)
    else .ok (⟨id, false⟩, db)
  | none =>
    let order := db.orders.length
    let row : OrderRow :=
      ⟨input.ownerId, payment, total, input.idempotencyKey, intentHash⟩
    let locked : Rows := quoteIds.filterMap fun id => (db.quoteOf input.ownerId id).map (id, ·)
    (quoteIds.foldlM (writeLine input order locked) { db with orders := db.orders ++ [row] }).map
      (⟨order, true⟩, ·)

/-- Two orders for the same name can both pass the unlocked inventory check. -/
def conflictOf (quoteIds : List String) : OrderError → OrderError
  | .uniqueViolation constraint =>
    if constraint = "public_domains_account_name_live_key" then
      .quoteUnusable (quoteIds.headD "") .alreadyInInventory
    else .uniqueViolation constraint
  | err => err

/-! ### Calls -/

/-- What a call awaits, or what it came to. -/
inductive Phase
  | finding
  | selecting
  | pricing (p : Pricing)
  | authorizing (total : Money) (environment : ProviderEnvironment)
  | writing (total : Money) (payment : PaymentAuthorization)
  | returned (placed : PlacedOrder)
  | threw (err : OrderError)

structure Call where
  input : PlaceOrderInput
  phase : Phase

/-- The tables, and the calls that are under way or over. -/
structure World where
  db : Db := {}
  calls : OrderedMap ℕ Call := {}

inductive Event
  /-- An account is added. -/
  | account (id : String) (environment : ProviderEnvironment)
  /-- A quote is given. -/
  | quote (id : String) (row : QuoteRow)
  /-- A worker has learnt of a domain. -/
  | lifecycle (domain : ℕ) (lifecycle : Lifecycle)
  | tick (ms : ℕ)
  | place (call : ℕ) (input : PlaceOrderInput)
  /-- What a call awaits is done, payment with what the authorizer answers. -/
  | advance (call : ℕ) (payment : Option PaymentAuthorization)
  /-- The process dies before what the call awaits. -/
  | crash (call : ℕ)

section

variable (hashIntent : List String → Bool → String)

/-- What is awaited next, and the database then. -/
def Call.advance (call : Call) (db : Db) (payment : Option PaymentAuthorization) : Phase × Db :=
  let { input, phase } := call
  let quoteIds := input.ids
  let intentHash := hashIntent quoteIds input.privacy
  match phase with
  | .finding =>
    match db.findOrderByKey input.ownerId input.idempotencyKey with
    | some (id, existing) =>
      if existing.intentHash ≠ intentHash then
        (.threw (.idempotencyConflict input.idempotencyKey), db)
      else (.returned ⟨id, false⟩, db)
    | none =>
      if quoteIds = [] then (.threw (.quoteUnusable "" .missing), db) else (.selecting, db)
  | .selecting =>
    (.pricing { rest := quoteIds, rows := db.selectPriced input.ownerId quoteIds }, db)
  | .pricing p =>
    match p.rest with
    | id :: rest =>
      match p.next db id rest with
      | .ok p => (.pricing p, db)
      | .error err => (.threw err, db)
    | [] =>
      match p.total, p.environment with
      | some total, some environment => (.authorizing total environment, db)
      | _, _ => (.threw (.quoteUnusable "" .missing), db)
  | .authorizing total _ =>
    match payment with
    | some payment => (.writing total payment, db)
    | none => (.threw .payments, db)
  | .writing total payment =>
    match writeOrder db input quoteIds intentHash total payment with
    | .ok (placed, db) => (.returned placed, db)
    | .error err => (.threw (conflictOf quoteIds err), db)
  | .returned placed => (.returned placed, db)
  | .threw err => (.threw err, db)

def World.step (w : World) : Event → World
  | .account id environment =>
    if (w.db.accounts.get id).isSome then w
    else { w with db := { w.db with accounts := w.db.accounts.set id environment } }
  | .quote id row =>
    if (w.db.quotes.get id).isSome then w
    else { w with db := { w.db with quotes := w.db.quotes.set id { row with consumedAt := none } } }
  | .lifecycle domain lifecycle =>
    match w.db.domains[domain]? with
    | none => w
    | some row =>
      let changed := { row with lifecycle }
      -- the unique index refuses a second live row
      if changed.live && !row.live && w.db.held row.providerAccountId row.asciiName then w
      else { w with db := { w.db with domains := w.db.domains.set domain changed } }
  | .tick ms => { w with db := { w.db with now := w.db.now + ms } }
  | .place call input =>
    if (w.calls.get call).isSome then w
    else { w with calls := w.calls.set call ⟨input, .finding⟩ }
  | .advance id payment =>
    match w.calls.get id with
    | none => w
    | some call =>
      let (phase, db) := call.advance hashIntent w.db payment
      { db, calls := w.calls.set id { call with phase } }
  | .crash call => { w with calls := w.calls.delete call }

end

end Tnp.Services.Orders
