import ProxyCensus.Json.Literal

/-!
# Requests to a node

The two questions that are asked of a node, and the message in which they travel.
-/

namespace ProxyCensus

inductive Request where
  /-- What a slot of a contract's storage holds. -/
  | storageAt (address slot block : Json)
  /-- What a contract answers to a call. -/
  | call (target data block : Json)

namespace Request

def method : Request → String
  | .storageAt .. => "eth_getStorageAt"
  | .call .. => "eth_call"

def params : Request → Json
  | .storageAt address slot block => .arr [address, slot, block]
  | .call target data block => .arr [.obj [("to", target), ("data", data)], block]

/-- The block that is asked about unless another one is named. -/
def latest : Json := .str "latest"

/-- Asks for a slot in the latest block. -/
def slotOf (address slot : String) : Request :=
  .storageAt (.str address) (.str slot) latest

def callOf (target : String) (data : Json) : Request :=
  .call (.str target) data latest

end Request

def Rpc.payload (method params id : Json) : Json :=
  .obj [("jsonrpc", .str "2.0"), ("method", method), ("params", params), ("id", id)]

structure Post where
  url : Json
  request : Request
  id : Nat

end ProxyCensus
