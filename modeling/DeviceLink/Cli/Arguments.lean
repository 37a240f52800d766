import DeviceLink.Envelope

/-! The arguments of the command line: what they ask for, and what is wrong with them. -/
namespace DeviceLink.Cli

inductive Verb
  | inspect
  | channels
  | validate
  | decode
  | responseChannel
  deriving DecidableEq, Repr

inductive Switch
  | verbose
  | gateway
  | help
  | version
  deriving DecidableEq, Repr

inductive Command
  | inspect (channel : String)
  | channels (deviceKey : String) (gateway : Bool)
  | validate (message : Envelope)
  | decode (message : Envelope)
  | responseChannel (channel : String)
  deriving DecidableEq, Repr

inductive UsageError
  | unexpected (argument : String)
  | repeated (switch : Switch)
  | missing (what : String)
  | unknownCommand (name : String)
  deriving DecidableEq, Repr

/-- Why the reading of arguments ends before a command is found. -/
inductive Stop
  /-- The usage of the program or of one command is to be shown. -/
  | help (verb : Option Verb)
  | version
  | refused (cause : UsageError)
  deriving DecidableEq, Repr

namespace Switch

def letter : Switch → Char
  | .verbose => 'v'
  | .gateway => 'g'
  | .help => 'h'
  | .version => 'V'

def name : Switch → String
  | .verbose => "verbose"
  | .gateway => "gateway"
  | .help => "help"
  | .version => "version"

end Switch

namespace Verb

def all : List Verb := [.inspect, .channels, .validate, .decode, .responseChannel]

def name : Verb → String
  | .inspect => "inspect"
  | .channels => "channels"
  | .validate => "validate"
  | .decode => "decode"
  | .responseChannel => "response-channel"

def ofName? (name : String) : Option Verb := all.find? fun v => v.name = name

def switches : Verb → List Switch
  | .channels => [.gateway, .verbose, .help]
  | _ => [.verbose, .help]

/-- The values that a command takes, all of them mandatory. -/
def places : Verb → List String
  | .inspect | .responseChannel => ["CHANNEL"]
  | .channels => ["DEVICE_KEY"]
  | .validate | .decode => ["CHANNEL", "PAYLOAD"]

end Verb

namespace UsageError

def message : UsageError → String
  | .unexpected argument => "unexpected argument '" ++ argument ++ "' found"
  | .repeated switch =>
    "the argument '--" ++ switch.name ++ "' cannot be used multiple times"
  | .missing what => "the following required arguments were not provided: <" ++ what ++ ">"
  | .unknownCommand name => "unrecognized subcommand '" ++ name ++ "'"

end UsageError

/-- Switches on what is not on yet; help and the version end the reading at once. -/
def turnOn (verb : Option Verb) (on : List Switch) : Switch → Except Stop (List Switch)
  | .help => .error (.help verb)
  | .version => .error .version
  | s => if s ∈ on then .error (.refused (.repeated s)) else .ok (s :: on)

def turnOnLetters (verb : Option Verb) (known : List Switch) (argument : String) :
    List Char → List Switch → Except Stop (List Switch)
  | [], on => .ok on
  | c :: rest, on =>
    match known.find? fun s => s.letter = c with
    | none => .error (.refused (.unexpected argument))
    | some s => do
      let on ← turnOn verb on s
      turnOnLetters verb known argument rest on

/-- Switches on what an argument stands for, if it is one that starts with a dash; a dash alone
is a value. -/
def switched? (verb : Option Verb) (known : List Switch) (on : List Switch) (argument : String) :
    Option (Except Stop (List Switch)) :=
  match argument.toList with
  | '-' :: '-' :: name =>
    some (match known.find? fun s => s.name.toList = name with
      | none => .error (.refused (.unexpected argument))
      | some s => turnOn verb on s)
  | '-' :: c :: rest => some (turnOnLetters verb known argument (c :: rest) on)
  | _ => none

/-- The values of a command; there must be as many as it takes. -/
def valuesOf (verb : Verb) (values : List String) : Except Stop (List String) :=
  match values.drop verb.places.length with
  | extra :: _ => .error (.refused (.unexpected extra))
  | [] => .ok values

/-- The values of a command and its switches; after two dashes there are only values. -/
def readValues (verb : Verb) :
    List String → List Switch → List String → Except Stop (List Switch × List String)
  | [], on, values => .ok (on, values)
  | a :: rest, on, values =>
    if a = "--" then do
      let values ← valuesOf verb (values ++ rest)
      .ok (on, values)
    else
      match switched? (some verb) verb.switches on a with
      | some switched => do
        let on ← switched
        readValues verb rest on values
      | none => do
        let values ← valuesOf verb (values ++ [a])
        readValues verb rest on values

def command (verb : Verb) (on : List Switch) (values : List String) : Except Stop Command :=
  match verb, values with
  | .inspect, [channel] => .ok (.inspect channel)
  | .channels, [key] => .ok (.channels key (Switch.gateway ∈ on))
  | .validate, [channel, payload] => .ok (.validate (.ofText channel payload))
  | .decode, [channel, payload] => .ok (.decode (.ofText channel payload))
  | .responseChannel, [channel] => .ok (.responseChannel channel)
  | verb, values =>
    .error (.refused (.missing ((verb.places.drop values.length).headD "")))

/-- The command whose usage is asked for by name. -/
def helpOn : List String → Stop
  | [] => .help none
  | ["help"] => .help none
  | name :: rest =>
    match Verb.ofName? name, rest with
    | some verb, [] => .help (some verb)
    | some _, extra :: _ => .refused (.unknownCommand extra)
    | none, rest => .refused (.unknownCommand (if name = "help" then rest.headD "" else name))

def readFrom (on : List Switch) : List String → Except Stop (Command × Bool)
  | [] => .error (.refused (.missing "COMMAND"))
  | a :: rest =>
    if a = "--" then
      .error (.refused (match rest with
        | [] => .missing "COMMAND"
        | extra :: _ => .unexpected extra))
    else
      match switched? none [.verbose, .help, .version] on a with
      | some switched => do
        let on ← switched
        readFrom on rest
      | none =>
        if a = "help" then .error (helpOn rest)
        else match Verb.ofName? a with
          | none => .error (.refused (.unknownCommand a))
          | some verb => do
            let (switches, values) ← readValues verb rest [] []
            let c ← command verb switches values
            .ok (c, Switch.verbose ∈ on ++ switches)

/-- What the arguments of the program ask for, and whether they ask for it with all details. -/
def read (arguments : List String) : Except Stop (Command × Bool) := readFrom [] arguments

end DeviceLink.Cli
