import Mercantile.Entity
import Mercantile.Text.Quoted

/-!
Why an operation is refused. Each cause is a constructor with the values it is about; the wordings are
in the `message` functions and nowhere else.
-/

namespace Mercantile

open Text (ofNat ofInt quoted)

/-- What a structural finding about a world is about. -/
inductive Subject
  | entity (kind : EntityKind)
  | allocation
  | inventory
deriving DecidableEq

def Subject.label : Subject → String
  | .entity kind => kind.label
  | .allocation => "workforce allocation"
  | .inventory => "inventory"

/-- A value that a ledger or a configuration cannot hold. -/
inductive Impossible
  | negativeReserved (company : CompanyId) (reserved : Cents)
  | remainingAboveQuantity (order : OrderId) (remaining quantity : Quantity)
  | multiplierFloor
deriving DecidableEq

def Impossible.message : Impossible → String
  | .negativeReserved company reserved =>
    company.toText ++ " has negative reserved cash " ++ ofInt reserved.toInt
  | .remainingAboveQuantity order remaining quantity =>
    order.toText ++ " has remaining " ++ ofNat remaining.toNat ++ " above quantity "
      ++ ofNat quantity.toNat
  | .multiplierFloor => "workforce.min_multiplier must be > 0"

inductive ValidationError
  | boundedSum (field : String) (expected actual : Nat)
  | outOfRange (field : String) (value min max : Int64)
  | notAMember (field value : String) (allowed : List String)
  | missing (field : String)
  | notAnInteger (field value : String)
  | danglingReference (holder : Subject) (target : EntityKind) (id : UInt64)
  | unorderedIds (holder : Subject) (id : UInt64)
  | ledger (cause : Impossible)
deriving DecidableEq

def ValidationError.message : ValidationError → String
  | .boundedSum field expected actual =>
    field ++ " components sum to " ++ ofNat actual ++ ", expected exactly " ++ ofNat expected
  | .outOfRange field value min max =>
    field ++ " must be within [" ++ ofInt min.toInt ++ ", " ++ ofInt max.toInt ++ "], got "
      ++ ofInt value.toInt
  | .notAMember field value allowed =>
    field ++ " must be one of [" ++ ", ".intercalate allowed ++ "], got " ++ quoted value
  | .missing field => field ++ " is required"
  | .notAnInteger field value => field ++ " is not an integer: " ++ quoted value
  | .danglingReference holder target id =>
    holder.label ++ " references missing " ++ target.label ++ " #" ++ ofNat id.toNat
  | .unorderedIds holder id =>
    holder.label ++ " ids are not strictly ascending at #" ++ ofNat id.toNat
  | .ledger cause => cause.message

/-- A column of the stored tables that holds machine words. -/
inductive Column
  | currentTick
  | lockVersion
  | tradeId
  | tradeTick
  | tradeRegion
  | tradeItem
  | tradeQuantity
  | tradeBuyer
  | tradeSeller
  | tradeBuyOrder
  | tradeSellOrder
deriving DecidableEq

def Column.name : Column → String
  | .currentTick => "current_tick"
  | .lockVersion => "lock_version"
  | .tradeId => "trades.id"
  | .tradeTick => "trades.tick"
  | .tradeRegion => "trades.region_id"
  | .tradeItem => "trades.item_id"
  | .tradeQuantity => "trades.quantity"
  | .tradeBuyer => "trades.buyer_company_id"
  | .tradeSeller => "trades.seller_company_id"
  | .tradeBuyOrder => "trades.buy_order_id"
  | .tradeSellOrder => "trades.sell_order_id"

inductive StoreError
  /-- A constraint of the tables does not hold, or there is no file to keep them in. -/
  | database
  /-- The stored text is no snapshot. -/
  | serialization
  | invalidSnapshot (cause : ValidationError)
  | uninitialized
  | alreadyInitialized
  | outOfRange (column : Column)
deriving DecidableEq

def StoreError.message : StoreError → String
  | .database => "database error"
  | .serialization => "snapshot serialization error"
  | .invalidSnapshot cause => "stored snapshot is malformed: " ++ cause.message
  | .uninitialized => "world has not been initialized"
  | .alreadyInitialized => "world is already initialized"
  | .outOfRange column => "value out of range for column " ++ column.name

/-- What is wrong with a request, seen before anything changes. -/
inductive BadRequest
  | rule (cause : ValidationError)
  | negativeReservation
  | executionAboveReserved (execution reserved : Cents)
  | orderPrice (price : Cents)
  | orderQuantity
  | contractTerms
  | contractParties
  | jobQuantity
  | foreignBuilding (building : BuildingId) (company : CompanyId)
  | buildingKind (recipe : Recipe) (building : Building)
  | buildingFull (building : BuildingId) (capacity : UInt32)
  | shipmentQuantity
  | shipmentRoute
  | transitTooShort (least given : Tick)
deriving DecidableEq

def BadRequest.message : BadRequest → String
  | .rule cause => cause.message
  | .negativeReservation => "reservation must be non-negative"
  | .executionAboveReserved execution reserved =>
    "execution price " ++ ofInt execution.toInt ++ " exceeds reserved price " ++ ofInt reserved.toInt
  | .orderPrice price => "order price must be positive, got " ++ ofInt price.toInt
  | .orderQuantity => "order quantity must be positive"
  | .contractTerms => "contract price and quantity must be positive"
  | .contractParties => "contract buyer and seller must differ"
  | .jobQuantity => "job quantity must be positive"
  | .foreignBuilding building company => building.toText ++ " is not owned by " ++ company.toText
  | .buildingKind recipe building =>
    "recipe " ++ recipe.name ++ " needs a " ++ recipe.buildingKind ++ " building, "
      ++ building.id.toText ++ " is a " ++ building.kind
  | .buildingFull building capacity =>
    building.toText ++ " is at capacity (" ++ ofNat capacity.toNat ++ " jobs)"
  | .shipmentQuantity => "shipment quantity must be positive"
  | .shipmentRoute => "shipment origin and destination must differ"
  | .transitTooShort least given =>
    "transit must take at least " ++ ofNat least.toNat ++ " ticks, got " ++ ofNat given.toNat

/-- A number that a machine word may be too small for. -/
inductive Figure
  | notionalQuantity
  | notionalValue
  | inventoryQuantity
  | idSequence
  | reservedCash
  | cash
  | buyerCash
  | sellerCash
  | exogenousInflow
  | exogenousOutflow
  | orderRemaining
  | recipeInputs
  | recipeOutput
  | shipmentEta
  | deliveryFee
  | tickCounter
  | ledgerTotal
  | lockVersion
  | expectedLedgerTotal
  | conservationDrift
deriving DecidableEq

def Figure.label : Figure → String
  | .notionalQuantity => "notional quantity"
  | .notionalValue => "notional value"
  | .inventoryQuantity => "inventory quantity"
  | .idSequence => "id sequence"
  | .reservedCash => "reserved cash"
  | .cash => "cash"
  | .buyerCash => "buyer cash"
  | .sellerCash => "seller cash"
  | .exogenousInflow => "exogenous inflow"
  | .exogenousOutflow => "exogenous outflow"
  | .orderRemaining => "order remaining"
  | .recipeInputs => "recipe inputs"
  | .recipeOutput => "recipe output"
  | .shipmentEta => "shipment eta"
  | .deliveryFee => "delivery fee"
  | .tickCounter => "tick counter"
  | .ledgerTotal => "ledger total"
  | .lockVersion => "lock version"
  | .expectedLedgerTotal => "expected ledger total"
  | .conservationDrift => "conservation drift"

/-- An entity whose state rules out what is asked of it. -/
inductive WrongState
  | cancelOrder (id : OrderId) (status : OrderStatus)
  | cancelContract (id : ContractId) (status : ContractStatus)
  | cancelJob (id : JobId) (state : JobState)
  | cancelShipment (id : ShipmentId) (status : ShipmentStatus)
  | startJobIn (id : BuildingId) (status : BuildingStatus)
deriving DecidableEq

def WrongState.message : WrongState → String
  | .cancelOrder id status => say "cancel" id status.name
  | .cancelContract id status => say "cancel" id status.name
  | .cancelJob id state => say "cancel" id state.name
  | .cancelShipment id status => say "cancel" id status.name
  | .startJobIn id status => say "start job in" id status.name
where
  say {kind : EntityKind} (verb : String) (id : Id kind) (state : String) : String :=
    "cannot " ++ verb ++ " " ++ kind.label ++ " #" ++ ofNat id.toNat ++ " in state " ++ state

inductive Failure
  | invalidRequest (cause : BadRequest)
  | concurrentModification (expected found : UInt64)
  | insufficientFunds (company : CompanyId) (required available : Cents)
  | insufficientInventory (company : CompanyId) (region : RegionId) (item : ItemId)
      (required available : Quantity)
  | invalidState (cause : WrongState)
  | notFound (kind : EntityKind) (id : UInt64)
  | overflow (figure : Figure)
  | storage (cause : StoreError)
  /-- An arithmetic operator without an answer: a quotient by zero, a product that no decimal can hold,
  or a sum or difference that its word cannot hold. It is not reported to a caller; the run stops there. -/
  | undefined
deriving DecidableEq

def Failure.message : Failure → String
  | .invalidRequest cause => "invalid request: " ++ cause.message
  | .concurrentModification expected found =>
    "concurrent modification: expected lock version " ++ ofNat expected.toNat ++ ", found "
      ++ ofNat found.toNat
  | .insufficientFunds company required available =>
    "insufficient funds for " ++ company.toText ++ ": required " ++ ofInt required.toInt
      ++ " cents, available " ++ ofInt available.toInt
  | .insufficientInventory company region item required available =>
    "insufficient inventory of " ++ item.toText ++ " for " ++ company.toText ++ " in "
      ++ region.toText ++ ": required " ++ ofNat required.toNat ++ ", available "
      ++ ofNat available.toNat
  | .invalidState cause => cause.message
  | .notFound kind id => kind.label ++ " #" ++ ofNat id.toNat ++ " not found"
  | .overflow figure => "arithmetic overflow while computing " ++ figure.label
  | .storage cause => "storage error: " ++ cause.message
  | .undefined => "arithmetic without a result"

/-- A conflict with another writer may go away on a retry from a fresh read; nothing else does. -/
def Failure.isRetryable : Failure → Bool
  | .concurrentModification _ _ => true
  | _ => false

end Mercantile
