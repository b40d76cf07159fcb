import ProxyCensus.Contract.UnixTime
import ProxyCensus.Detection
import ProxyCensus.Json.Integer

/-!
# Contract records

A deployed contract as the corpus knows it, and how rows of the corpus become records. The address
of a record is always in normal form.
-/

namespace ProxyCensus

structure ContractRecord where
  chainId : Int
  address : String
  bytecode : String := ""
  createdAt : Option Timestamp := none
  creationMatch : Option String := none
  runtimeMatch : Option String := none

namespace ContractRecord

open Checked (required orElse text optional complain)

def readAddress (v : Json) : Checked String := do
  let s ← text v
  match Address.normalize? s with
  | some address => .ok address
  | none => complain (.refused s!"Invalid contract address: {s}")

def checkYear (t : Timestamp) : Checked Timestamp :=
  if t.year == 0 then complain .dateless else .ok t

def readUnixTime (t : Option Timestamp) : Checked Timestamp :=
  match t with
  | some t => checkYear t
  | none => complain .dateless

/-- Reads a point in time: a text, or a number of seconds or milliseconds. An integer beyond 64 bits
counts as the double next to it, and as no number when there is none. -/
def readTimestamp : Json → Checked Timestamp
  | .str s => Checked.spelled s fun s =>
    match Timestamp.ofText? s <|> Timestamp.ofUnixText? s with
    | some t => checkYear t
    | none => complain .notDateText
  | .int n =>
    match Decimal.ofInt? n with
    | some _ => readUnixTime (Timestamp.ofUnix? n 0)
    | none => complain .notDate
  | .float x => readUnixTime (Timestamp.ofUnixDouble? x)
  | _ => complain .notDate

def ofFields (fields : List (String × Json)) : Checked ContractRecord :=
  (Except.ok ContractRecord.mk : Checked _)
    |> (Checked.ap · (required fields "chain_id" Checked.int))
    |> (Checked.ap · (required fields "address" readAddress))
    |> (Checked.ap · (orElse fields "bytecode" "" text))
    |> (Checked.ap · (orElse fields "created_at" none (optional readTimestamp)))
    |> (Checked.ap · (orElse fields "creation_match" none (optional text)))
    |> (Checked.ap · (orElse fields "runtime_match" none (optional text)))

def ofFields? (fields : List (String × Json)) : Except Failure ContractRecord :=
  (ofFields fields).mapError fun issues => .invalid ⟨"ContractRecord", issues⟩

/-- Code that is absent, empty or otherwise not set is the empty text. -/
def codeOrEmpty (code : Json) : Json :=
  if code.isSet then code else .str ""

/-- The record of a row of the corpus. The chain and the address have to be there. -/
def ofRow (row : List (String × Json)) : Except Failure ContractRecord := do
  let get := fun key => (Json.lookup? row key).getD .null
  let some chain := Json.lookup? row "chain_id" | .error (.missingKey "chain_id")
  let chainId ← chain.integer
  let some address := Json.lookup? row "address" | .error (.missingKey "address")
  ofFields? [("chain_id", .int chainId), ("address", address),
    ("bytecode", codeOrEmpty (get "code")), ("created_at", get "created_at"),
    ("creation_match", get "creation_match"), ("runtime_match", get "runtime_match")]

def ofCode (chain address code : Json) : Except Failure ContractRecord := do
  let chainId ← chain.integer
  ofFields? [("chain_id", .int chainId), ("address", address), ("bytecode", codeOrEmpty code)]

end ContractRecord

namespace Match

open Checked (required orElse text optional choice)

def ofFields (fields : List (String × Json)) : Checked Match :=
  (Except.ok Match.mk : Checked _)
    |> (Checked.ap · (required fields "pattern" (choice Pattern.ofName?)))
    |> (Checked.ap · (orElse fields "offset" 0 Checked.int))
    |> (Checked.ap · (orElse fields "slot" none (optional text)))
    |> (Checked.ap · (orElse fields "selector" none (optional text)))
    |> (Checked.ap · (orElse fields "implementation" none (optional text)))

def ofFields? (fields : List (String × Json)) : Except Failure Match :=
  (ofFields fields).mapError fun issues => .invalid ⟨"ProxyMatch", issues⟩

end Match

end ProxyCensus
