import ListKeeper.Network.SocketAddress

/-! The command line. There is one command, with two options of one value each; a value stands
behind its option or behind an equals sign, and is looked at only when the next option or the end is
reached. -/
namespace ListKeeper

inductive UsageError
  | help
  | noCommand
  | unknownCommand
  | unknownArgument
  | noValue
  | badValue
  | repeated
  | surplusValue
  deriving DecidableEq

structure RunOptions where
  config : Option String
  address : Option SocketAddress
  deriving DecidableEq

inductive OptionName
  | config
  | address
  deriving DecidableEq

namespace UsageError

/-- Asking for help is no failure. -/
def exitCode : UsageError → UInt32
  | help => 0
  | _ => 2

end UsageError

namespace RunOptions

def unset : RunOptions := ⟨none, none⟩

def has (r : RunOptions) : OptionName → Bool
  | .config => r.config.isSome
  | .address => r.address.isSome

def read (r : RunOptions) (o : OptionName) (v : String) : Except UsageError RunOptions :=
  match o with
  | .config => if v = "" then .error .noValue else .ok { r with config := some v }
  | .address =>
    match SocketAddress.ofText? v with
    | some a => .ok { r with address := some a }
    | none => .error .badValue

/-- Gives an option its value, which it must have, and only once. -/
def set (r : RunOptions) (o : OptionName) (v : Option String) : Except UsageError RunOptions :=
  match v with
  | none => .error .noValue
  | some v => if r.has o then .error .repeated else r.read o v

end RunOptions

namespace Command

/-- An argument by its form: the end of the options, an option with or without a value behind an
equals sign, a letter behind one hyphen, or a word. -/
inductive Form
  | endMark
  | long (name : String) (value : Option String)
  | short (letter : Char)
  | word

/-- The form of an argument. A single hyphen is a word. -/
def form (arg : String) : Form :=
  match arg.toList with
  | ['-', '-'] => .endMark
  | '-' :: '-' :: cs =>
    match cs.span (· != '=') with
    | (name, _ :: v) => .long (String.ofList name) (some (String.ofList v))
    | (name, []) => .long (String.ofList name) none
  | '-' :: c :: _ => .short c
  | _ => .word

def option? (name : String) : Option OptionName :=
  match name with
  | "config" => some .config
  | "address" => some .address
  | _ => none

/-- Options that are read in part. An option that waits was named last, and its value may have
come. -/
structure Draft where
  options : RunOptions
  waiting : Option (OptionName × Option String)

def Draft.settle (d : Draft) : Except UsageError RunOptions :=
  match d.waiting with
  | none => .ok d.options
  | some (o, v) => d.options.set o v

/-- Reads the arguments of the command. Behind the end of the options there may be none. -/
def readOptions (ended : Bool) (d : Draft) : List String → Except UsageError RunOptions
  | [] => d.settle
  | arg :: rest =>
    if ended then .error .unknownArgument
    else match form arg with
      | .endMark => readOptions true d rest
      | .long "help" none => d.settle.bind fun _ => .error .help
      | .long "help" (some _) => .error .surplusValue
      | .long name value =>
        match option? name with
        | none => .error .unknownArgument
        | some o =>
          match d.settle, value with
          | .error e, _ => .error e
          | .ok r, none => readOptions false ⟨r, some (o, none)⟩ rest
          | .ok r, some v =>
            match r.set o (some v) with
            | .error e => .error e
            | .ok r => readOptions false ⟨r, none⟩ rest
      | .short 'h' => d.settle.bind fun _ => .error .help
      | .short _ => .error .unknownArgument
      | .word =>
        match d.waiting with
        | some (o, none) => readOptions false ⟨d.options, some (o, some arg)⟩ rest
        | _ => .error .unknownArgument

def helpOn : List String → UsageError
  | [] => .help
  | ["run"] => .help
  | ["help"] => .help
  | _ => .unknownCommand

/-- What arguments behind an early end of the options come to. -/
def behindEnd : List String → UsageError
  | [] => .noCommand
  | arg :: _ => if arg = "run" || arg = "help" then .unknownArgument else .unknownCommand

def read : List String → Except UsageError RunOptions
  | [] => .error .noCommand
  | "run" :: rest => readOptions false ⟨.unset, none⟩ rest
  | "help" :: rest => .error (helpOn rest)
  | arg :: rest =>
    match form arg with
    | .endMark => .error (behindEnd rest)
    | .long "help" none => .error .help
    | .long "help" (some _) => .error .surplusValue
    | .long _ _ => .error .unknownArgument
    | .short 'h' => .error .help
    | .short _ => .error .unknownArgument
    | .word => .error .unknownCommand

end Command
end ListKeeper
