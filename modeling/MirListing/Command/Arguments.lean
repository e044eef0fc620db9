import MirListing.Document.Value

/-!
# Command line arguments

The arguments are one program and options.  An option may be shortened as long as only one option
begins that way, and its value may follow an equals sign or be the next argument.  The value of the
last occurrence counts.

An argument that begins with a dash is no option if it looks like a negative number, if it is a lone
dash, or if no option fits and it holds a space.  Two dashes end the options; nothing after them is
an option, and they cannot stand for a value.  Written behind an equals sign they are dropped like
anywhere else, and what is left for a value is an empty list; this is why values are labels.

`classify` settles what each argument is before any is used, `parse` then goes through them.
-/

namespace MirListing

/-! ## Options -/

/-- An option. -/
inductive CommandOption
  /-- Shows how the command is used. -/
  | help
  /-- Lists everything on one stream. -/
  | pretty
  /-- The file of that stream. -/
  | out
  /-- The item that is listed or dumped. -/
  | item
  /-- The filter of dumps. -/
  | filter
  /-- The directory of dumps. -/
  | directory
  /-- Leaves the number of the pass out of file names. -/
  | excludePassNumber
  /-- The number of the pass. -/
  | passNumber
  /-- The name of the pass. -/
  | passName
  /-- What tells the dumps around a pass apart. -/
  | disambiguator
  /-- A rule of the source map. -/
  | remap
  /-- The size of a pointer. -/
  | pointerSize
  /-- Pointers have their most significant byte first. -/
  | bigEndian
  /-- How much is logged. -/
  | logLevel
deriving DecidableEq, Repr

namespace CommandOption

/-- The names of the options. -/
def names : List (String × CommandOption) :=
  [("-h", .help), ("--help", .help), ("--pretty", .pretty), ("--out", .out), ("--item", .item),
    ("--dump-mir", .filter), ("--dump-mir-dir", .directory),
    ("--dump-mir-exclude-pass-number", .excludePassNumber), ("--pass-num", .passNumber),
    ("--pass-name", .passName), ("--disambiguator", .disambiguator),
    ("--remap-path-prefix", .remap), ("--pointer-size", .pointerSize),
    ("--big-endian", .bigEndian), ("--log-level", .logLevel)]

/-- Options that stand alone. -/
def isFlag : CommandOption → Bool
  | .help | .pretty | .excludePassNumber | .bigEndian => true
  | _ => false

/-- The options whose names begin with a text. -/
def beginningWith (start : List Char) : List CommandOption :=
  (names.filter fun entry => start.isPrefixOf entry.1.toList).map (·.2)

/-- The option of a full name. -/
def named? (name : List Char) : Option CommandOption := names.lookup (String.ofList name)

end CommandOption

/-! ## What arguments are -/

/-- What an argument is. -/
inductive Argument
  /-- A value. -/
  | value (text : String)
  /-- The two dashes that end the options. -/
  | endOfOptions
  /-- An option with the value that is written together with it. -/
  | option (o : CommandOption) (value? : Option String)
deriving DecidableEq, Repr

/-- Arguments that are not understood. -/
inductive UsageFault
  /-- An option that there is not, or that is not clear. -/
  | unknownOption (text : String)
  /-- An option without its value, or a flag with one. -/
  | wrongValue (o : CommandOption)
  /-- A value with no use. -/
  | extraValue (text : String)
  /-- No program. -/
  | noProgram
deriving DecidableEq, Repr

/-- Digits, and one line feed at most behind them. -/
def isDigitsLine (text : List Char) : Bool :=
  let rest := text.dropWhile Text.isDecimal
  !(text.takeWhile Text.isDecimal).isEmpty && (rest == [] || rest == ['\n'])

/-- Texts behind a dash that make a negative number: digits, perhaps with a point before the last
of them. -/
def isNumberBody (text : List Char) : Bool :=
  isDigitsLine text ||
    match text.dropWhile Text.isDecimal with
    | '.' :: rest => isDigitsLine rest
    | _ => false

/-- What is made of an option that fits by its beginning. -/
def chooseOption (text : String) (value? : Option String) :
    List CommandOption → Except UsageFault Argument
  | [o] => .ok (.option o value?)
  | [] =>
      if isNumberBody (text.toList.drop 1) || text.toList.contains ' ' then .ok (.value text)
      else .error (.unknownOption text)
  | _ => .error (.unknownOption text)

/-- An argument that begins with two dashes and is no full name. -/
def classifyLong (text : String) : Except UsageFault Argument :=
  match Text.splitFirst '=' text.toList with
  | some (name, value) =>
      chooseOption text (some (String.ofList value)) (CommandOption.beginningWith name)
  | none => chooseOption text none (CommandOption.beginningWith text.toList)

/-- What is written behind the letter for help: the same letter again, as often as one likes, is no
value, and an equals sign may stand before it. -/
def helpValue? (rest : List Char) : Option String :=
  let letters := if rest.head? = some '=' then rest.drop 1 else rest
  if letters.isEmpty || letters.any (· ≠ 'h') then some (String.ofList rest) else none

/-- An argument that begins with one dash and is no full name.  Only the option for help has a name
of one letter. -/
def classifyShort (text : String) : Except UsageFault Argument :=
  match text.toList with
  | '-' :: 'h' :: rest => .ok (.option .help (helpValue? rest))
  | _ => chooseOption text none []

/-- An argument that begins with a dash. -/
def classifyDashed (text : String) : Except UsageFault Argument :=
  match CommandOption.named? text.toList, text.toList with
  | some o, _ => .ok (.option o none)
  | none, '-' :: '-' :: _ =>
      match (Text.splitFirst '=' text.toList).bind fun (name, value) =>
          (CommandOption.named? name).map fun o => (o, String.ofList value) with
      | some (o, value) => .ok (.option o (some value))
      | none => classifyLong text
  | none, _ => classifyShort text

/-- What an argument before the end of the options is. -/
def classifyOne (text : String) : Except UsageFault Argument :=
  match text.toList with
  | '-' :: _ :: _ => classifyDashed text
  | _ => .ok (.value text)

/-- What arguments are. -/
def classify : List String → Except UsageFault (List Argument)
  | [] => .ok []
  | text :: rest =>
      if text = "--" then .ok (.endOfOptions :: rest.map .value)
      else do return (← classifyOne text) :: (← classify rest)

/-! ## What arguments say -/

/-- What the command line asks for. -/
structure Arguments where
  /-- The file of the program. -/
  program : Option String := none
  /-- Whether everything is listed on one stream. -/
  pretty : Bool := false
  /-- The file of that stream. -/
  out : Option Label := none
  /-- The item that is listed or dumped. -/
  item : Option Label := none
  /-- The filter of dumps. -/
  filter : Label := .string "all"
  /-- The directory of dumps. -/
  directory : Label := .string "mir_dump"
  /-- Whether the number of the pass is left out of file names. -/
  excludePassNumber : Bool := false
  /-- The number of the pass. -/
  passNumber : Option Label := none
  /-- The name of the pass. -/
  passName : Label := .string "loaded"
  /-- What tells the dumps around a pass apart. -/
  disambiguator : Label := .string "0"
  /-- The rules of the source map. -/
  remaps : List Label := []
  /-- The size of a pointer. -/
  pointerSize : Option Int := none
  /-- Whether pointers have their most significant byte first. -/
  bigEndian : Bool := false
  /-- How much is logged. -/
  logLevel : Label := .string "WARNING"
  /-- Whether the usage is asked for. -/
  help : Bool := false
deriving Repr

namespace Arguments

/-- The value that a text writes together with an option. -/
def attachedValue (text : String) : Label := if text = "--" then .array [] else .string text

/-- The size of a pointer that a value writes, one of three; an empty list takes the size back. -/
def pointerSizeOf : Label → Except UsageFault (Option Int)
  | .string text =>
      match Text.readInteger text.toList with
      | .ok n => if n = 2 ∨ n = 4 ∨ n = 8 then .ok (some n) else .error (.wrongValue .pointerSize)
      | .error _ => .error (.wrongValue .pointerSize)
  | _ => .ok none

/-- Takes a flag into account. -/
def withFlag (a : Arguments) : CommandOption → Arguments
  | .help => { a with help := true }
  | .pretty => { a with pretty := true }
  | .excludePassNumber => { a with excludePassNumber := true }
  | .bigEndian => { a with bigEndian := true }
  | _ => a

/-- Takes an option and its value into account. -/
def withValue (a : Arguments) (o : CommandOption) (value : Label) : Except UsageFault Arguments :=
  match o with
  | .out => .ok { a with out := some value }
  | .item => .ok { a with item := some value }
  | .filter => .ok { a with filter := value }
  | .directory => .ok { a with directory := value }
  | .passNumber => .ok { a with passNumber := some value }
  | .passName => .ok { a with passName := value }
  | .disambiguator => .ok { a with disambiguator := value }
  | .remap => .ok { a with remaps := a.remaps ++ [value] }
  | .pointerSize => do return { a with pointerSize := ← pointerSizeOf value }
  | .logLevel => .ok { a with logLevel := value }
  | .help | .pretty | .excludePassNumber | .bigEndian => .error (.wrongValue o)

/-- The program; there is only one. -/
def withProgram (a : Arguments) (text : String) : Except UsageFault Arguments :=
  match a.program with
  | none => .ok { a with program := some text }
  | some _ => .error (.extraValue text)

/-- Goes through arguments.  The end of the options stands right before or behind the program.  Once
help is asked for, nothing else matters. -/
def read (a : Arguments) : List Argument → Except UsageFault Arguments
  | [] => if a.program.isNone then .error .noProgram else .ok a
  | .option o value? :: rest =>
      match o.isFlag, value? with
      | true, some _ => .error (.wrongValue o)
      | true, none => if o = .help then .ok (a.withFlag o) else read (a.withFlag o) rest
      | false, some value => do read (← a.withValue o (attachedValue value)) rest
      | false, none =>
          match rest with
          | .value value :: rest => do read (← a.withValue o (.string value)) rest
          | _ => .error (.wrongValue o)
  | .value text :: .endOfOptions :: rest => do read (← a.withProgram text) rest
  | .endOfOptions :: .value text :: rest => do read (← a.withProgram text) rest
  | .value text :: rest => do read (← a.withProgram text) rest
  | .endOfOptions :: _ => .error (.extraValue "--")

/-- Reads a command line; what it does not say is as it is by default. -/
def parse (arguments : List String) (default : Arguments := {}) : Except UsageFault Arguments := do
  read default (← classify arguments)

example : (parse ["p", "--big", "--pass-num", "-1"]).toOption.map
    (fun a => (a.program, a.bigEndian, a.passNumber.map Value.shown)) =
      some (some "p", true, some "-1") := by decide +kernel
example : (parse ["p", "--dump-mir-"]).toOption.isNone = true := by decide +kernel
example : (parse ["--", "p"]).toOption.map program = some (some "p") := by decide +kernel
example : (parse ["p", "--item=--"]).toOption.bind (·.item.map Value.shown) = some "[]" := by
  decide +kernel

end Arguments

end MirListing
