import Mercantile.Entity

/-!
One market's open orders, and who trades with whom. Bids rank by the higher price, asks by the lower
one, and among equal prices the order that was created first comes first. While the best bid is not
below the best ask, the two trade as many units as both have, at the limit of the older order.
-/

namespace Mercantile

/-- An open order as the market sees it. -/
structure Quote where
  order : OrderId
  company : CompanyId
  /-- Limit per unit. -/
  price : Cents
  remaining : Quantity
deriving DecidableEq

structure Fill where
  buyOrder : OrderId
  sellOrder : OrderId
  buyer : CompanyId
  seller : CompanyId
  /-- The limit of the bid, at which its cash is set aside. -/
  bidPrice : Cents
  /-- The price that is paid. -/
  price : Cents
  quantity : Quantity
deriving DecidableEq

/-- The two sides of a market, in any order. -/
structure Book where
  bids : List Quote
  asks : List Quote
deriving DecidableEq

/-- A bid is at least as good as another: it pays more, or the same and is not younger. -/
def Quote.bidLe (p q : Quote) : Bool :=
  q.price < p.price || p.price = q.price && p.order.toNat ≤ q.order.toNat

/-- An ask is at least as good as another: it takes less, or the same and is not younger. -/
def Quote.askLe (p q : Quote) : Bool :=
  p.price < q.price || p.price = q.price && p.order.toNat ≤ q.order.toNat

/-- The limit of the older of two orders. -/
def Quote.restingPrice (bid ask : Quote) : Cents :=
  if bid.order.toNat < ask.order.toNat then bid.price else ask.price

/-- The match of a bid and an ask over some units. -/
def Quote.fill (bid ask : Quote) (quantity : Quantity) : Fill :=
  ⟨bid.order, ask.order, bid.company, ask.company, bid.price, bid.restingPrice ask, quantity⟩

def Quote.less (q : Quote) (quantity : Quantity) : Quote :=
  { q with remaining := q.remaining - quantity }

/-- The matches between ranked bids and ranked asks. -/
def matchRanked : List Quote → List Quote → List Fill
  | bid :: bids, ask :: asks =>
    if bid.price < ask.price then []
    else
      let quantity := min bid.remaining ask.remaining
      let rest :=
        if bid.remaining < ask.remaining then matchRanked bids (ask.less quantity :: asks)
        else if ask.remaining < bid.remaining then matchRanked (bid.less quantity :: bids) asks
        else matchRanked bids asks
      if quantity = 0 then rest else bid.fill ask quantity :: rest
  | _, _ => []
termination_by bids asks => bids.length + asks.length

namespace Book

def rankedBids (b : Book) : List Quote := b.bids.mergeSort Quote.bidLe

def rankedAsks (b : Book) : List Quote := b.asks.mergeSort Quote.askLe

def fills (b : Book) : List Fill := matchRanked b.rankedBids b.rankedAsks

end Book

end Mercantile
