import ProxyCensus.Contract.Record

/-!
# Classifications

What is known of a contract after its code was searched and, for candidates, its implementations
were resolved.
-/

namespace ProxyCensus

/-- The four outcomes of a search. -/
inductive Kind where
  | nonProxy
  | singleProxy
  | multiProxy
  | diamond
  deriving DecidableEq, Repr

def Kind.name : Kind → String
  | .nonProxy => "NON_PROXY"
  | .singleProxy => "SINGLE_PROXY"
  | .multiProxy => "MULTI_PROXY"
  | .diamond => "DIAMOND"

def Kind.ofName? (s : String) : Option Kind :=
  [.nonProxy, .singleProxy, .multiProxy, .diamond].find? (·.name == s)

/-- The kind of a contract that shows the given patterns: a diamond among them outweighs all. -/
def Kind.ofPatterns (patterns : List Pattern) : Kind :=
  if patterns.isEmpty then .nonProxy
  else if patterns.contains .diamond then .diamond
  else if patterns.length == 1 then .singleProxy
  else .multiProxy

/-- What is known of a contract. -/
structure Classification where
  chainId : Int
  address : String
  kind : Kind := .nonProxy
  /-- The patterns in the order in which they were found. -/
  patterns : List Pattern := []
  /-- The distinct resolved addresses in the order of their resolution. -/
  implementations : List String := []
  facets : List String := []
  /-- The patterns whose resolution failed. -/
  unresolved : List Pattern := []

namespace Classification

def isDiamond (c : Classification) : Bool :=
  c.kind == .diamond

def matchCount (c : Classification) : Nat :=
  c.patterns.length

def implementationCount (c : Classification) : Nat :=
  c.implementations.length

def labelOf (patterns : List Pattern) : String :=
  ", ".intercalate (patterns.map (·.name))

def label (c : Classification) : String :=
  labelOf c.patterns

def ofMatches (record : ContractRecord) (found : List Match) : Classification :=
  let patterns := found.map (·.pattern)
  { chainId := record.chainId, address := record.address, kind := Kind.ofPatterns patterns
    patterns }

def ofRecord (catalog : List Definition) (record : ContractRecord) :
    Except Failure Classification :=
  (Detection.inText catalog record.bytecode).map (ofMatches record)

open Checked (required orElse text list choice)

def ofFields (fields : List (String × Json)) : Checked Classification :=
  (Except.ok Classification.mk : Checked _)
    |> (Checked.ap · (required fields "chain_id" Checked.int))
    |> (Checked.ap · (required fields "address" text))
    |> (Checked.ap · (orElse fields "kind" .nonProxy (choice Kind.ofName?)))
    |> (Checked.ap · (orElse fields "patterns" [] (list (choice Pattern.ofName?))))
    |> (Checked.ap · (orElse fields "implementations" [] (list text)))
    |> (Checked.ap · (orElse fields "facets" [] (list text)))
    |> (Checked.ap · (orElse fields "unresolved" [] (list (choice Pattern.ofName?))))

def ofFields? (fields : List (String × Json)) : Except Failure Classification :=
  (ofFields fields).mapError fun issues => .invalid ⟨"ContractClassification", issues⟩

end Classification

end ProxyCensus
