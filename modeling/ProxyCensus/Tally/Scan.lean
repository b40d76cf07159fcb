import ProxyCensus.Contract.Classification
import ProxyCensus.Decimal.Sorting
import ProxyCensus.Json.Document
import ProxyCensus.Tally.Ledger

/-!
# Tally of the scan

What the scan of the corpus counts. Candidates are the contracts that show at least two patterns.
-/

namespace ProxyCensus

open Decimal (Number)

structure ScanTally where
  analyzed : Nat := 0
  proxies : Nat := 0
  /-- Contracts by pattern. -/
  types : Ledger Pattern Nat := {}
  /-- Candidates by the number of their patterns. -/
  counts : Ledger Nat Nat := {}
  /-- The addresses of the candidates by chain, in the order of the scan. -/
  candidates : Ledger String (List String) := {}
  /-- How long each contract took, in milliseconds. -/
  durations : Array Number := #[]

structure DurationStats where
  average : Float
  least : Number
  most : Number
  median : Number

namespace ScanTally

def recordCandidate (t : ScanTally) (c : Classification) : ScanTally :=
  if 1 < c.matchCount then
    { t with
      counts := t.counts.tally c.matchCount
      candidates := t.candidates.append (toString c.chainId) c.address }
  else t

def record (t : ScanTally) (c : Classification) (duration : Number) : ScanTally :=
  recordCandidate
    { t with
      analyzed := t.analyzed + 1
      durations := t.durations.push duration
      proxies := if 0 < c.matchCount then t.proxies + 1 else t.proxies
      types := c.patterns.foldl Ledger.tally t.types } c

/-- A sum of numbers divided by their number. A sum of integers fails as a quotient and any other sum
as a sum. -/
def mean (sum : Option Number) (count : Nat) : Except Failure Float := do
  let sum ← Failure.orElse .largeInteger sum
  Failure.orElse .largeQuotient (sum.dividedBy? count)

/-- The number in the middle of a sorted list, or halfway between the two in the middle. -/
def median (sorted : List Number) : Except Failure Number :=
  let half := sorted.length / 2
  let upper := sorted.getD half (.whole 0)
  if sorted.length % 2 == 1 then .ok upper
  else (mean ((sorted.getD (half - 1) (.whole 0)).add? upper) 2).map .real

/-- How long contracts took; nothing when there are none. The sum is taken from left to right, and
of equal numbers the first counts. -/
def stats (t : ScanTally) : Except Failure (Option DurationStats) :=
  match t.durations.toList with
  | [] => .ok none
  | first :: rest => do
    let all := first :: rest
    let average ← mean (Number.sum? all) all.length
    let median ← median (Number.sort all)
    return some {
      average, median
      least := rest.foldl (fun a b => if b.less a then b else a) first
      most := rest.foldl (fun a b => if a.less b then b else a) first }

def DurationStats.fields (s : Option DurationStats) : List (String × Option Number) := [
  ("averageDurationMs", s.map (.real ·.average)), ("minDurationMs", s.map (·.least)),
  ("maxDurationMs", s.map (·.most)), ("medianDurationMs", s.map (·.median))]

def optionalNumber : Option Number → Document
  | some (.whole n) => .int n
  | some (.real x) => .float x
  | none => .null

def documents (t : ScanTally) (stats : Option DurationStats) : List (String × Document) := [
  ("results.json", .table [
    (.text "analyzedContracts", .count t.analyzed),
    (.text "proxyCount", .count t.proxies),
    (.text "proxyTypes", .table (t.types.entries.map fun e => (.text e.1.name, .count e.2))),
    (.text "multiProxyContractsCount",
      .table (t.counts.entries.map fun e => (.int e.1, .count e.2)))]),
  ("multi-proxy-contracts.json",
    .table (t.candidates.entries.map fun e => (.text e.1, .texts e.2))),
  ("durations-stats.json", .table ((DurationStats.fields stats).map fun f =>
    (.text f.1, optionalNumber f.2)))]

/-- The files of a scan, unless the numbers on durations are beyond the doubles. -/
def artifacts (t : ScanTally) : Except Failure (List (String × Document)) :=
  t.stats.map t.documents

end ScanTally

end ProxyCensus
