import ProxyCensus.Address
import ProxyCensus.Contract.Record
import ProxyCensus.Shutdown

/-!
# The corpus

The database of verified contracts, to which two questions are put: a page of all contracts, and the
code that is deployed at one address.
-/

namespace ProxyCensus

/-- The port of a database: its number, and the text by which it was given. -/
structure Port where
  number : Int
  text : String

def Port.ofNumber (n : Int) : Port :=
  ⟨n, toString n⟩

/-- Where the database is. What is not given is left out of its address. -/
structure Connection where
  host : Option String := some "localhost"
  port : Option Port := some (.ofNumber 5432)
  user : Option String := some "postgres"
  password : String := ""
  database : Option String := some "sourcify"

namespace Connection

def readText : Json → Except Failure (Option String)
  | .null => .ok none
  | .str s => .ok (some s)
  | _ => .error .wrongKind

/-- Reads a port; anything but an integer is of the wrong kind, whatever it spells. -/
def readPort (v : Json) : Except Failure (Option Port) :=
  match v with
  | .null => .ok none
  | v => match v.integer with
    | .ok n => .ok (some ⟨n, v.display⟩)
    | .error (.badValue _) => .error .wrongKind
    | .error f => .error f

/-- Reads a password, which may be any value; one that is not set is empty. -/
def readPassword (v : Json) : String :=
  if v.isSet then v.display else ""

def part {β : Type} (fields : List (String × Json)) (name : String) (default : β)
    (read : Json → Except Failure β) : Except Failure β :=
  match Json.lookup? fields name with
  | some v => read v
  | none => .ok default

def names : List String := ["host", "port", "user", "password", "database"]

def ofFields (fields : List (String × Json)) : Except Failure Connection := do
  if fields.any fun f => !names.contains f.1 then throw .wrongKind
  let default : Connection := {}
  let user ← part fields "user" default.user readText
  let host ← part fields "host" default.host readText
  let port ← part fields "port" default.port readPort
  let database ← part fields "database" default.database readText
  let password ← part fields "password" default.password fun v => .ok (readPassword v)
  return { host, port, user, password, database }

def isPlain (b : UInt8) : Bool :=
  let c := Char.ofNat b.toNat
  b.toNat < 128 && (c.isAlphanum || "_.-~ +".toList.contains c)

def encode (s : String) : String :=
  String.ofList (s.toUTF8.toList.flatMap fun b =>
    if isPlain b then [Char.ofNat b.toNat] else '%' :: (Hex.byte b).map Char.toUpper)

def hostText (host : String) : String :=
  if host.toList.contains ':' then "[" ++ host ++ "]" else host

/-- The address of the database, with the password. Without a user there is no password either. -/
def url (c : Connection) : String :=
  let password := if c.password.isEmpty then "" else ":" ++ encode c.password
  let user := c.user.map fun user => encode user ++ password ++ "@"
  let port := c.port.map fun port => s!":{port.number}"
  let database := c.database.map fun database => "/" ++ database
  "postgresql+psycopg2://" ++ user.getD "" ++ (c.host.map hostText).getD "" ++ port.getD "" ++
    database.getD ""

def report (c : Connection) : LogRecord :=
  let host := c.host.getD "None"
  let port := (c.port.map Port.text).getD "None"
  let database := c.database.getD "None"
  ⟨.info, "Sourcify Corpus Client", s!"Using Sourcify corpus at {host}:{port}/{database}"⟩

end Connection

namespace Corpus

variable {α : Type}

def page (rows : List Row) (offset limit : Nat) : List Row :=
  (rows.drop offset).take limit

/-- After a full page fewer rows are left. -/
theorem length_sub_lt {rows : List Row} {offset limit : Nat} (h : 0 < limit)
    (full : ¬(page rows offset limit).length < limit) :
    rows.length - (offset + limit) < rows.length - offset := by
  simp only [page, List.length_take, List.length_drop] at full
  omega

def query (out : Outside α) (q : Query) : Act (Journal α) Unit := do
  let n := (← Act.state).queries.size
  Act.change fun j => { j with queries := j.queries.push q }
  match out.disturbance n with
  | some (.fault f) => throw f
  | some (.signal s) => Shutdown.receive s
  | none => pure ()

def fetchPage (out : Outside α) (offset limit : Nat) : Act (Journal α) (List Row) := do
  query out (.page offset limit)
  return page out.rows offset limit

/-- The address by which the database knows a contract: its digits in lower case. -/
def addressKey (address : String) : String :=
  let digits := match address.toList with
    | '0' :: 'x' :: rest => rest
    | s => s
  String.ofList (Text.lowerFrom [] digits)

/-- Asks for the codes at an address; only a text can be asked for. -/
def fetchCodes (out : Outside α) (address chain : Json) : Act (Journal α) (List Json) := do
  match address with
  | .str s =>
    let key := addressKey s
    let chain ← Act.lift chain.integer
    query out (.code key chain)
    return out.codes chain key
  | _ => throw .noOperation

def close : Act (Journal α) Unit :=
  Act.change fun j => { j with disposals := j.disposals + 1 }

def inconsistency (chain address : String) (rows : Int) : String :=
  s!"Multiple contracts found for address {address} and chain id {chain} ({rows} rows)"

end Corpus

end ProxyCensus
