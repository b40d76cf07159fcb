import ProxyCensus.Pattern.Basic

/-!
# The catalog

The marks of the known patterns. The rows stand in the order of the patterns, and their priorities
never fall.
-/

namespace ProxyCensus.Catalog

def version : String := "1.1.0"

/-- The slot that EIP-1967 reserves for the implementation. -/
def eip1967Slot : String :=
  "0x360894a13ba1a3210667c828492db98dca3e2076cc3735a920a3ca505d382bbc"

/-- The slot that EIP-1967 reserves for the beacon. -/
def beaconSlot : String :=
  "0xa3f0ad74e5423aebfd80d3ef4346578335a9a72aeaee59ff6cb3582b35133d50"

/-- The slot of the implementation in ZeppelinOS. -/
def zeppelinOSSlot : String :=
  "0x7050c9e0f4ca769c69bd3a8ef740bc37934f8e2c036e5a723fd8ee048ed3f8c3"

/-- The slot that ERC-1822 reserves for the implementation. -/
def proxiableSlot : String :=
  "0xc5f16f0fcc639fa48a6947836d9850f504798523bf8c9a3a87d5876cf622bcf7"

/-- The slot of the facet table of EIP-2535. -/
def diamondStandardSlot : String :=
  "0xc8fcad8db84d3cc18b4c41d551ea0ee66dd599cde068d998e57d5e09332c131c"

/-- The slot next to it, which some diamonds use. -/
def diamondSlot : String :=
  "0xc8fcad8db84d3cc18b4c41d551ea0ee66dd599cde068d998e57d5e09332c131b"

/-- The first slot. -/
def zeroSlot : String :=
  "0x0000000000000000000000000000000000000000000000000000000000000000"

/-- Stands for the slot whose key is the contract's own address. -/
def ownAddressSlot : String := "address"

/-- The selector of `implementation()`. -/
def implementationSelector : String := "0x5c60da1b"

/-- The selector of `beacon()`. -/
def beaconSelector : String := "0x59659e90"

/-- The selector of `facetAddress(bytes4)`. -/
def facetAddressSelector : String := "0xcdffacc6"

/-- The selector of `facetAddresses()`. -/
def facetAddressesSelector : String := "0x52ef6b2c"

/-- The selector of `facets()`. -/
def facetsSelector : String := "0x7a0ed627"

/-- The word that a wallet compares with the selector of `masterCopy()`. -/
def masterCopyWord : String :=
  "0xa619486e00000000000000000000000000000000000000000000000000000000"

/-- The clone of EIP-1167. -/
def eip1167 : Template :=
  ⟨"363d3d373d3d3d363d73", "5af43d82803e903d91602b57fd5bf3"⟩

/-- The clone of ERC-7511. -/
def erc7511 : Template :=
  ⟨"365f5f375f5f365f73", "5af43d5f5f3e5f3d91602a57fd5bf3"⟩

/-- The rows of the catalog, in the order in which matches are listed. -/
def builtIn : List Definition := [
  { pattern := .fixed, family := .minimalProxy, priority := 1, method := .bytecode
    templates := [eip1167, erc7511] },
  { pattern := .eip1967, family := .fixedSlot, priority := 2, method := .storageSlot
    words := [eip1967Slot], slot := eip1967Slot },
  { pattern := .zeppelinOS, family := .fixedSlot, priority := 2, method := .storageSlot
    words := [zeppelinOSSlot], slot := zeppelinOSSlot },
  { pattern := .proxiable, family := .fixedSlot, priority := 2, method := .storageSlot
    words := [proxiableSlot], slot := proxiableSlot },
  { pattern := .gnosisSafe, family := .fixedSlot, priority := 2, method := .storageSlot
    words := [masterCopyWord], slot := zeroSlot },
  { pattern := .sequenceWallet, family := .fixedSlot, priority := 2, method := .storageSlot
    sequences := [["ADDRESS", "SLOAD"]], slot := ownAddressSlot },
  { pattern := .legacyUpgradeable, family := .accessor, priority := 3, method := .accessorCall
    selectors := [implementationSelector], accessor := implementationSelector },
  { pattern := .eip1967Beacon, family := .beacon, priority := 4, method := .beacon
    words := [beaconSlot], selectors := [beaconSelector], slot := beaconSlot
    accessor := implementationSelector },
  { pattern := .diamond, family := .diamond, priority := 5, method := .facetEnumeration
    words := [diamondSlot, diamondStandardSlot]
    selectors := [facetAddressSelector, facetAddressesSelector, facetsSelector]
    accessor := facetAddressesSelector }]

def row : Pattern → Definition
  | .fixed => builtIn[0]
  | .eip1967 => builtIn[1]
  | .zeppelinOS => builtIn[2]
  | .proxiable => builtIn[3]
  | .gnosisSafe => builtIn[4]
  | .sequenceWallet => builtIn[5]
  | .legacyUpgradeable => builtIn[6]
  | .eip1967Beacon => builtIn[7]
  | .diamond => builtIn[8]

theorem row_mem (p : Pattern) : row p ∈ builtIn := by
  cases p <;> exact List.getElem_mem _

@[simp] theorem pattern_row (p : Pattern) : (row p).pattern = p := by cases p <;> rfl

end ProxyCensus.Catalog
