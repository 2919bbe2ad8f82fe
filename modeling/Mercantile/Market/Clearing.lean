import Mercantile.Ledger
import Mercantile.Market.Book

/-!
Clearing all markets of a world. Markets are visited in ascending order of region and item; the matches
of each are worked out from the orders before any of them is applied, and every match becomes a trade.
-/

namespace Mercantile

/-- Where an item is traded. -/
structure MarketKey where
  region : RegionId
  item : ItemId
deriving DecidableEq

/-- The position of a market in the order by region, then item. -/
def MarketKey.rank (k : MarketKey) : Nat := k.region.toNat * UInt64.size + k.item.toNat

def Order.market (o : Order) : MarketKey := ⟨o.region, o.item⟩

def Order.quote (o : Order) : Quote := ⟨o.id, o.company, o.price, o.remaining⟩

/-- A list in ascending order without repeated markets. -/
def insertMarket (k : MarketKey) : List MarketKey → List MarketKey
  | [] => [k]
  | l :: ls =>
    if k.rank < l.rank then k :: l :: ls
    else if k = l then l :: ls
    else l :: insertMarket k ls

namespace World

def openOrders (w : World) : List Order := w.orders.filter (·.isOpen)

def bookOf (w : World) (k : MarketKey) : Book :=
  let os := w.openOrders.filter (·.market = k)
  ⟨(os.filter (·.side = .buy)).map (·.quote), (os.filter (·.side = .sell)).map (·.quote)⟩

/-- The markets with an open order, in ascending order. -/
def markets (w : World) : List MarketKey :=
  w.openOrders.foldr (fun o ks => insertMarket o.market ks) []

/-- The books of the markets with orders on both sides, in ascending order. -/
def books (w : World) : List (MarketKey × Book) :=
  (w.markets.map fun k => (k, w.bookOf k)).filter fun e => !e.2.bids.isEmpty && !e.2.asks.isEmpty

end World

def fillOrder (id : OrderId) (quantity : Quantity) : Action World Unit :=
  .update fun w => do
    let o ← w.orders.require id
    let remaining ← orOverflow (o.remaining.sub? quantity) .orderRemaining
    return w.modifyOrder id fun o =>
      let o := { o with remaining }
      { o with status := o.fillStatus }

/-- Carries out one match: the cash, the goods and both orders. -/
def applyFill (k : MarketKey) (tick : Tick) (f : Fill) : Action World Trade := do
  let _ ← Ledger.settle f.buyer f.seller f.bidPrice f.price f.quantity
  World.addStock ⟨f.buyer, k.region, k.item⟩ f.quantity
  fillOrder f.buyOrder f.quantity
  fillOrder f.sellOrder f.quantity
  let id ← World.allocateId .trade
  return ⟨id, tick, k.region, k.item, f.price, f.quantity, f.buyer, f.seller, f.buyOrder, f.sellOrder⟩

def clearMarket (tick : Tick) (k : MarketKey) (b : Book) : Action World (List Trade) :=
  b.fills.mapM (applyFill k tick)

/-- Carries out the matches of all markets and keeps the trades with the world. -/
def clearMarkets (tick : Tick) : Action World (List Trade) := do
  let books := (← get).books
  let trades ← books.mapM fun e => clearMarket tick e.1 e.2
  modify fun w => { w with trades := w.trades ++ trades.flatten }
  return trades.flatten

end Mercantile
