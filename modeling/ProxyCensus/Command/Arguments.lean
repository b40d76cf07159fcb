import ProxyCensus.Text.Quoted

/-!
# Arguments

Arguments in front of a command and behind it. An option has a long name and sometimes a short one
of a single letter. Its value follows it, in the same argument or as the next one. Two dashes end the
options.
-/

namespace ProxyCensus.Command

inductive Misuse where
  | noCommand
  | unknownCommand (name : String)
  | unknownOption (name : String)
  | missingValue (name : String)
  | unwantedValue (name : String)
  | unwantedArgument (text : String)
  | badInteger (name text : String)
  | badNumber (name text : String)
  | noFile (name text : String)
  /-- A file that should hold a JSON object holds another value. -/
  | noObject

def Misuse.message : Misuse → String
  | .noCommand => "Missing command."
  | .unknownCommand name => s!"No such command {Text.quoted name}."
  | .unknownOption name => s!"No such option: {name}"
  | .missingValue name => s!"Option {Text.quoted name} requires an argument."
  | .unwantedValue name => s!"Option {Text.quoted name} does not take a value."
  | .unwantedArgument text => s!"Got unexpected extra argument ({text})"
  | .badInteger name text =>
    s!"Invalid value for {Text.quoted name}: {Text.quoted text} is not a valid integer."
  | .badNumber name text =>
    s!"Invalid value for {Text.quoted name}: {Text.quoted text} is not a valid float."
  | .noFile name text => s!"Invalid value for {Text.quoted name}: no file {Text.quoted text}."
  | .noObject => "Candidate list and RPC config must both be JSON objects keyed by chain id."

structure OptionName where
  long : String
  short : Option Char := none
  deriving DecidableEq

def OptionName.text (name : OptionName) : String :=
  "--" ++ name.long

structure Word where
  /-- Whether it asks for help. -/
  help : Bool := false
  /-- The option whose value comes next. -/
  pending : Option OptionName := none
  /-- The option whose value it carries. -/
  given : Option (OptionName × String) := none

structure Given where
  help : Bool := false
  values : List (OptionName × String) := []
  /-- The arguments that belong to no option. -/
  extra : List String := []

namespace Given

def isOption (a : String) : Bool :=
  match a.toList with
  | '-' :: _ :: _ => true
  | _ => false

def splitValue (a : List Char) : List Char × Option (List Char) :=
  match a.span (· != '=') with
  | (name, _ :: value) => (name, some value)
  | (name, []) => (name, none)

/-- Reads letters behind a single dash: requests for help, then at most one option, whose value are
the letters that follow it. -/
def readLetters (names : List OptionName) : List Char → Except Misuse Word
  | [] => .ok {}
  | c :: r =>
    if c == 'h' then (readLetters names r).map ({ · with help := true })
    else match names.find? (·.short == some c), r with
      | some name, [] => .ok { pending := some name }
      | some name, value => .ok { given := some (name, String.ofList value) }
      | none, _ => .error (.unknownOption (String.ofList ['-', c]))

def readWord (names : List OptionName) (a : List Char) : Except Misuse Word :=
  match a with
  | '-' :: '-' :: r =>
    let (name, value) := splitValue r
    let long := String.ofList name
    match names.find? (·.long == long), value with
    | some name, none => .ok { pending := some name }
    | some name, some value => .ok { given := some (name, String.ofList value) }
    | none, value =>
      if long == "help" then
        if value.isSome then .error (.unwantedValue "--help") else .ok { help := true }
      else .error (.unknownOption ("--" ++ long))
  | _ => readLetters names (a.drop 1)

def Word.before (w : Word) (g : Given) : Given :=
  { g with help := w.help || g.help, values := w.given.toList ++ g.values }

def read (names : List OptionName) : Option OptionName → List String → Except Misuse Given
  | none, [] => .ok {}
  | some name, [] => .error (.missingValue name.text)
  | some name, a :: rest =>
    (read names none rest).map fun g => { g with values := (name, a) :: g.values }
  | none, a :: rest =>
    if a == "--" then .ok { extra := rest }
    else if isOption a then do
      let w ← readWord names a.toList
      return Word.before w (← read names w.pending rest)
    else (read names none rest).map fun g => { g with extra := a :: g.extra }

def ofArguments (names : List OptionName) (args : List String) : Except Misuse Given :=
  read names none args

/-- The options in the order in which their values are looked at: those that are given in the order in
which they first come, and then the others. -/
def order (g : Given) (names : List OptionName) : List OptionName :=
  let given := (g.values.map (·.1)).eraseDups
  given ++ names.filter fun name => !given.contains name

/-- The last value of an option. -/
def value? (g : Given) (name : OptionName) : Option String :=
  (g.values.reverse.find? (·.1 == name)).map (·.2)

end Given

inductive Notice where
  | usage
  | version
  /-- The options of a command. -/
  | options (names : List OptionName)

def OptionName.form (name : OptionName) : String :=
  match name.short with
  | some c => String.ofList ['-', c] ++ ", " ++ name.text ++ " VALUE"
  | none => name.text ++ " VALUE"

def Notice.text : Notice → String
  | .usage => "Commands:\n  proxy_detection\n  multi_proxy_analysis"
  | .version => "version 1.0.0"
  | .options names => "Options:\n  " ++ "\n  ".intercalate (names.map OptionName.form)

inductive Start where
  | notice (n : Notice)
  | command (name : String) (args : List String)

/-- Reads what stands in front of a command. Of several notices the first one counts. Behind two
dashes everything is a command with its arguments. -/
def Start.read (notice : Option Notice) : List String → Except Misuse Start
  | [] =>
    match notice with
    | some n => .ok (.notice n)
    | none => .error .noCommand
  | a :: rest =>
    if a == "--help" then read (notice.or (some .usage)) rest
    else if a == "--version" then read (notice.or (some .version)) rest
    else if a != "--" && Given.isOption a then .error (.unknownOption a)
    else match notice, a, rest with
      | some n, _, _ => .ok (.notice n)
      | none, "--", [] => .error .noCommand
      | none, "--", name :: args => .ok (.command name args)
      | none, name, args => .ok (.command name args)

end ProxyCensus.Command
