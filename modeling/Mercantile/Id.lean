import Mercantile.Text.Numeral

/-!
Identifiers. All kinds draw them from one ascending sequence, so among entities of one kind a lower
identifier means an earlier creation.
-/

namespace Mercantile

inductive EntityKind
  | company
  | region
  | item
  | building
  | recipe
  | job
  | order
  | trade
  | shipment
  | contract
deriving DecidableEq

def EntityKind.label : EntityKind → String
  | .company => "company"
  | .region => "region"
  | .item => "item"
  | .building => "building"
  | .recipe => "recipe"
  | .job => "job"
  | .order => "order"
  | .trade => "trade"
  | .shipment => "shipment"
  | .contract => "contract"

/-- The identifier of an entity of one kind. -/
structure Id (kind : EntityKind) where
  val : UInt64
deriving DecidableEq

abbrev CompanyId := Id .company
abbrev RegionId := Id .region
abbrev ItemId := Id .item
abbrev BuildingId := Id .building
abbrev RecipeId := Id .recipe
abbrev JobId := Id .job
abbrev OrderId := Id .order
abbrev TradeId := Id .trade
abbrev ShipmentId := Id .shipment
abbrev ContractId := Id .contract

namespace Id

variable {kind : EntityKind}

/-- The place in the sequence. -/
def toNat (i : Id kind) : Nat := i.val.toNat

/-- The kind and the number, as `company#7`. -/
def toText (i : Id kind) : String := kind.label ++ "#" ++ Text.ofNat i.toNat

theorem toNat_inj {i j : Id kind} : i.toNat = j.toNat ↔ i = j := by
  cases i
  cases j
  simp [toNat, UInt64.toNat_inj]

theorem toNat_lt (i : Id kind) : i.toNat < UInt64.size := i.val.toNat_lt

end Id

end Mercantile
