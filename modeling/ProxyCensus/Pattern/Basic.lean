import ProxyCensus.Validation

/-!
# Proxy patterns

The known ways in which a contract hands its calls to another one, and the rows of a catalog: by
which marks in its code a pattern is recognised and how the contract behind it is found.
-/

namespace ProxyCensus

inductive Pattern where
  /-- A minimal clone, whose code holds the address it forwards to. -/
  | fixed
  | eip1967
  | zeppelinOS
  | proxiable
  /-- A wallet that keeps its master copy in slot zero. -/
  | gnosisSafe
  /-- A wallet that keeps its master copy in the slot of its own address. -/
  | sequenceWallet
  | legacyUpgradeable
  | eip1967Beacon
  /-- A contract whose functions are spread over several facets. -/
  | diamond
  deriving DecidableEq, Repr

namespace Pattern

def all : List Pattern := [.fixed, .eip1967, .zeppelinOS, .proxiable, .gnosisSafe, .sequenceWallet,
  .legacyUpgradeable, .eip1967Beacon, .diamond]

def name : Pattern → String
  | .fixed => "FixedProxy"
  | .eip1967 => "EIP1967Proxy"
  | .zeppelinOS => "ZeppelinOSProxy"
  | .proxiable => "PROXIABLEProxy"
  | .gnosisSafe => "GnosisSafeProxy"
  | .sequenceWallet => "SequenceWalletProxy"
  | .legacyUpgradeable => "LegacyUpgradeableProxy"
  | .eip1967Beacon => "EIP1967BeaconProxy"
  | .diamond => "DiamondProxy"

def ofName? (s : String) : Option Pattern :=
  all.find? (·.name == s)

def rank (p : Pattern) : Nat :=
  all.idxOf p

theorem mem_all (p : Pattern) : p ∈ all := by cases p <;> decide

theorem name_injective {p q : Pattern} (h : p.name = q.name) : p = q := by
  revert h
  cases p <;> cases q <;> decide

end Pattern

inductive Family where
  | minimalProxy
  | fixedSlot
  | accessor
  | beacon
  | diamond
  deriving DecidableEq, Repr

def Family.name : Family → String
  | .minimalProxy => "MINIMAL_PROXY"
  | .fixedSlot => "FIXED_SLOT"
  | .accessor => "ACCESSOR"
  | .beacon => "BEACON"
  | .diamond => "DIAMOND"

def Family.ofName? (s : String) : Option Family :=
  [.minimalProxy, .fixedSlot, .accessor, .beacon, .diamond].find? (·.name == s)

inductive Method where
  /-- It stands in the code. -/
  | bytecode
  /-- It stands in a slot of the proxy's storage. -/
  | storageSlot
  /-- The proxy tells it. -/
  | accessorCall
  /-- A second contract tells it, whose address is found first. -/
  | beacon
  /-- The proxy lists all of them. -/
  | facetEnumeration
  deriving DecidableEq, Repr

def Method.name : Method → String
  | .bytecode => "BYTECODE"
  | .storageSlot => "STORAGE_SLOT"
  | .accessorCall => "ACCESSOR_CALL"
  | .beacon => "BEACON"
  | .facetEnumeration => "FACET_ENUMERATION"

def Method.ofName? (s : String) : Option Method :=
  [.bytecode, .storageSlot, .accessorCall, .beacon, .facetEnumeration].find? (·.name == s)

/-- Fixed code around an address of twenty bytes, as hexadecimal text. -/
structure Template where
  front : String
  back : String

def Template.addressOffset (t : Template) : Nat :=
  t.front.length / 2

def Template.size (t : Template) : Nat :=
  t.addressOffset + 20 + t.back.length / 2

/-- One row of a catalog. A contract shows the pattern when any of its marks is found in the code: a
template, a pushed word, a pushed selector, or operations in a row. -/
structure Definition where
  pattern : Pattern
  family : Family
  priority : Int
  method : Method
  templates : List Template := []
  words : List String := []
  selectors : List String := []
  sequences : List (List String) := []
  /-- The slot that is read where the method reads one. -/
  slot : Option String := none
  /-- The selector that is called where the method calls one. -/
  accessor : Option String := none

namespace Definition

open Checked (required orElse text optional tuple choice object)

def readTemplate : Json → Checked Template :=
  object fun fields =>
    (Except.ok Template.mk : Checked _)
      |> (Checked.ap · (required fields "prefix" text))
      |> (Checked.ap · (required fields "suffix" text))

def ofFields (fields : List (String × Json)) : Checked Definition :=
  (Except.ok Definition.mk : Checked _)
    |> (Checked.ap · (required fields "pattern" (choice Pattern.ofName?)))
    |> (Checked.ap · (required fields "family" (choice Family.ofName?)))
    |> (Checked.ap · (required fields "priority" Checked.int))
    |> (Checked.ap · (required fields "resolution" (choice Method.ofName?)))
    |> (Checked.ap · (orElse fields "templates" [] (tuple readTemplate)))
    |> (Checked.ap · (orElse fields "push32_words" [] (tuple text)))
    |> (Checked.ap · (orElse fields "push4_selectors" [] (tuple text)))
    |> (Checked.ap · (orElse fields "opcode_sequences" [] (tuple (tuple text))))
    |> (Checked.ap · (orElse fields "storage_slot" none (optional text)))
    |> (Checked.ap · (orElse fields "accessor" none (optional text)))

end Definition

end ProxyCensus
