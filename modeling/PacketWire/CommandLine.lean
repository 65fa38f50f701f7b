import PacketWire.Parser

/-!
# The command line

Words are taken from left to right. An option that takes a value has it attached, after an equals
sign or, for the one-letter form, right behind the letter; else the next word is its value,
unless that begins with a dash. Each option may stand once, and the first thing that is wrong, or
that asks for help or the version, decides.

An option that waits for its value is only looked into when the next option is recognized or the
line ends: a word that means nothing is reported before a fault of the option in front of it.
-/

namespace PacketWire

/-- Why a command line gives no settings. -/
inductive UsageError where
  /-- An option stands twice, or two stand together that exclude each other. -/
  | conflict
  /-- An option lacks its value, or has an empty one where that cannot be. -/
  | missingValue
  /-- A value that is no number of the right size. -/
  | invalidNumber
  /-- A value attached to an option that takes none. -/
  | unexpectedValue
  | unknownArgument
  | helpRequested
  | versionRequested
  deriving DecidableEq, Repr

namespace UsageError

def message : UsageError → String
  | conflict => "an option is given twice, or with one that excludes it"
  | missingValue => "an option lacks its value"
  | invalidNumber => "a value is no number of the right size"
  | unexpectedValue => "an option that takes no value has one"
  | unknownArgument => "unexpected argument"
  | helpRequested => "help requested"
  | versionRequested => "version requested"

end UsageError

/-- What a command line says, by option. -/
structure CommandLine where
  config : Option String := none
  listen : Option String := none
  connect : Option String := none
  protocolVersion : Option Int32 := none
  idleTimeout : Option Nat := none
  keepAlive : Bool := false
  deferred : Bool := false
  logLevel : Option String := none
  deriving DecidableEq, Repr

namespace CommandLine

/-- The options there are. -/
inductive Flag where
  | config
  | listen
  | connect
  | protocolVersion
  | idleTimeout
  | keepAlive
  | deferred
  | logLevel
  | help
  | version
  deriving DecidableEq, Repr

namespace Flag

def takesValue : Flag → Bool
  | keepAlive | deferred | help | version => false
  | _ => true

def ofName? : String → Option Flag
  | "config" => some config
  | "listen" => some listen
  | "connect" => some connect
  | "protocol-version" => some protocolVersion
  | "idle-timeout-ms" => some idleTimeout
  | "keep-alive" => some keepAlive
  | "deferred" => some deferred
  | "log-level" => some logLevel
  | "help" => some help
  | "version" => some version
  | _ => none

def ofLetter? : Char → Option Flag
  | 'c' => some config
  | 'l' => some listen
  | 'C' => some connect
  | 'p' => some protocolVersion
  | 'k' => some keepAlive
  | 'd' => some deferred
  | 'h' => some help
  | 'V' => some version
  | _ => none

end Flag

/-! ## Values -/

open PacketWire.Parser

/-- A number that may have a plus sign. -/
def unsigned : Parser Nat :=
  opt (char '+') *> number 10

/-- A number that may have a sign. -/
def signed : Parser Int :=
  ((fun n : Nat => -(n : Int)) <$> (char '-' *> number 10)) <|> (Int.ofNat <$> unsigned)

def version? (text : String) : Option Int32 := do
  let n ← signed.runAll text.toList
  guard (Int32.minValue.toInt ≤ n ∧ n ≤ Int32.maxValue.toInt)
  return Int32.ofInt n

def timeout? (text : String) : Option Nat := do
  let n ← unsigned.runAll text.toList
  guard (n < UInt64.size)
  return n

/-- A setting given for the first time. -/
def once (present : Bool) (result : Except UsageError CommandLine) :
    Except UsageError CommandLine :=
  if present then .error .conflict else result

/-- An option with its value; `none` where it takes one and got none. -/
def give (line : CommandLine) (flag : Flag) (value : Option String) :
    Except UsageError CommandLine :=
  match flag, value with
  | .help, _ => .error .helpRequested
  | .version, _ => .error .versionRequested
  | .keepAlive, _ => once line.keepAlive (.ok { line with keepAlive := true })
  | .deferred, _ => once line.deferred (.ok { line with deferred := true })
  | _, none => .error .missingValue
  | .config, some path => once line.config.isSome
    (if path.isEmpty then .error .missingValue else .ok { line with config := some path })
  | .listen, some address => once line.listen.isSome (.ok { line with listen := some address })
  | .connect, some address => once line.connect.isSome (.ok { line with connect := some address })
  | .protocolVersion, some text => once line.protocolVersion.isSome
    (match version? text with
    | some n => .ok { line with protocolVersion := some n }
    | none => .error .invalidNumber)
  | .idleTimeout, some text => once line.idleTimeout.isSome
    (match timeout? text with
    | some n => .ok { line with idleTimeout := some n }
    | none => .error .invalidNumber)
  | .logLevel, some level => once line.logLevel.isSome (.ok { line with logLevel := some level })

/-! ## Words -/

/-- The options so far; the last one may still be `pending`, with or without its value. After a
lone double dash no word is an option. -/
structure Progress where
  line : CommandLine := {}
  pending : Option (Flag × Option String) := none
  optionsEnded : Bool := false

namespace Progress

/-- The pending option taken in. -/
def settle (p : Progress) : Except UsageError Progress :=
  match p.pending with
  | none => .ok p
  | some (flag, value) => do
    return { p with line := ← p.line.give flag value, pending := none }

/-- The next option, with a value that is attached to it. -/
def option (p : Progress) (flag : Flag) (attached : Option String) :
    Except UsageError Progress := do
  let p ← p.settle
  match attached with
  | some value => return { p with line := ← p.line.give flag (some value) }
  | none =>
    if flag.takesValue then return { p with pending := some (flag, none) }
    else return { p with line := ← p.line.give flag none }

/-- Options by their letters: the first that takes a value has the rest of the word for it, if
there is any. -/
def letters (p : Progress) : List Char → Except UsageError Progress
  | [] => .ok p
  | c :: rest =>
    match Flag.ofLetter? c with
    | none => .error .unknownArgument
    | some flag =>
      if flag.takesValue then
        match rest with
        | [] => p.option flag none
        | '=' :: value => p.option flag (some (String.ofList value))
        | value => p.option flag (some (String.ofList value))
      else do (← p.option flag none).letters rest

/-- An option by its name, with the value after an equals sign. -/
def named (p : Progress) (word : List Char) : Except UsageError Progress :=
  let name := String.ofList (word.takeWhile (· != '='))
  let attached := match word.dropWhile (· != '=') with
    | [] => none
    | _ :: value => some (String.ofList value)
  match Flag.ofName? name with
  | none => .error .unknownArgument
  | some flag =>
    if attached.isSome ∧ ¬flag.takesValue then .error .unexpectedValue
    else p.option flag attached

/-- A word that is no option: the value of the option in front of it, if that waits for one. -/
def plain (p : Progress) (word : String) : Except UsageError Progress :=
  match p.pending with
  | some (flag, none) => .ok { p with pending := some (flag, some word) }
  | _ => .error .unknownArgument

def take (p : Progress) (word : String) : Except UsageError Progress :=
  if p.optionsEnded then .error .unknownArgument
  else
    match word.toList with
    | ['-', '-'] => .ok { p with optionsEnded := true }
    | '-' :: '-' :: name => p.named name
    | ['-'] => p.plain word
    | '-' :: cs => p.letters cs
    | _ => p.plain word

end Progress

/-- What the words of a command line say. -/
def parse (words : List String) : Except UsageError CommandLine := do
  let line := (← (← words.foldlM Progress.take {}).settle).line
  if line.listen.isSome ∧ line.connect.isSome then .error .conflict else return line

example : parse [] = .ok {} := rfl

end CommandLine

end PacketWire
